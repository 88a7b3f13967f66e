import Breakage.Proofs.Run.Engine

/-!
Modules that have no baseline. The comparisons are kept from such a module by there being no digest
of it, which holds unless there is a directory in its place (`excluded_compared_iff`).
-/

namespace Breakage.Engine

variable {engine : Engine} {timing : Timing} {options : RunOptions} {h : Host} {t : Session}
  {p : Prepared} {b : Baseline}

def compared (s : Session) : List ModuleName := s.calls.filterMap Call.compared?

theorem compared_comparisons (reached : engine.ready timing options (.ofHost h) = (.ok (p, b), t)) :
    compared (engine.comparisons timing p b t).2 =
      (engine.history timing p b t).answers.map fun r => r.1.job := by
  obtain ⟨calls, -, hcalls, hnone, -, -⟩ := record_ready reached
  have kept := engine.kept_history timing p b t
  have hbefore : calls.filterMap Call.compared? = [] := List.filterMap_eq_nil_iff.2 hnone
  have hfirst : t.calls = calls := hcalls
  have hall := congrArg (List.filterMap Call.compared?) kept.calls
  rw [List.filterMap_append, hfirst, hbefore, List.nil_append, List.filterMap_map] at hall
  refine hall.trans ?_
  rw [← List.filterMap_eq_map]
  rfl

theorem digest?_hostAfter
    (unchanged : engine.collaborators.digester.KeepsDigests b.directory.path) {m : ModuleName}
    {es : Comparing.History} (before : (engine.history timing p b t).Before m es) :
    (engine.hostAfter p b t es).digest? b.directory.path m = none ↔
      t.host.digest? b.directory.path m = none := by
  obtain ⟨deed, es', hsplit, -⟩ := before
  obtain ⟨u, -, leads, -⟩ := (engine.leads_history timing p b t).split hsplit
  have hsame : (engine.hostAfter p b t es).exists? (m.digestPath b.directory.path) =
      t.host.exists? (m.digestPath b.directory.path) := by
    have hu := Comparing.exists?_of_leads unchanged leads m
    rw [leads.world] at hu
    exact hu
  rw [Host.exists?_digestPath, Host.exists?_digestPath] at hsame
  rw [← Option.isNone_iff_eq_none, ← Option.isNone_iff_eq_none, ← Option.not_isSome, hsame,
    Option.not_isSome]

/-- Once the baseline is ready there is nothing in the place of a digest that could not be made, or
else a directory. -/
theorem digest?_of_excluded (reached : engine.ready timing options (.ofHost h) = (.ok (p, b), t))
    (inPlace : engine.collaborators.digester.DumpsInPlace b.directory.path)
    (identifiers : ∀ m ∈ p.modules, m.isIdentifier = true) {m : ModuleName}
    (hm : m ∈ b.dumps.generationFailures ∨ m ∈ b.dumps.notInBaseline) :
    t.host.digest? b.directory.path m = none ↔
      t.host.digest? b.directory.path m ≠ some .directory := by
  obtain ⟨u, v, -, hb, rfl, -⟩ := ready_eq_ok.1 reached
  have hlacks := Baseline.lacksFile_prepare hb inPlace identifiers hm
  rw [Session.mark_host]
  constructor
  · intro hnone
    rw [hnone]
    exact nofun
  · intro hdirectory
    cases hd : v.host.digest? b.directory.path m with
    | none => rfl
    | some e =>
      cases e with
      | directory => exact absurd hd hdirectory
      | file content => exact absurd hd (hlacks content)

/-- A module without a baseline is left out, with the reason, if there is nothing in the place of its
digest when the driver comes to it, and compared otherwise. If dumps and comparisons write nothing
but digests of their own, what can be there is a directory. -/
theorem excluded_compared_iff
    (reached : engine.ready timing options (.ofHost h) = (.ok (p, b), t)) :
    ∃ report s', engine.run timing options (.ofHost h) = (.ok report, s') ∧
      ∀ m, m ∈ b.dumps.generationFailures ∨ m ∈ b.dumps.notInBaseline →
        ∃ es, (engine.history timing p b t).Before m es ∧
          let found := (engine.hostAfter p b t es).digest? b.directory.path m
          (found = none → m ∉ compared s' ∧ report.outcome.skipped.get? m =
            some (if m ∈ b.dumps.notInBaseline then .notInBaseline else .generationFailed)) ∧
          (found ≠ none → m ∈ compared s' ∧ report.outcome.skipped.get? m = none) ∧
          (engine.collaborators.digester.KeepsDigests b.directory.path →
            (found = none ↔ t.host.digest? b.directory.path m = none)) ∧
          (engine.collaborators.digester.DumpsInPlace b.directory.path →
            (∀ m ∈ p.modules, m.isIdentifier = true) →
            (t.host.digest? b.directory.path m = none ↔
              t.host.digest? b.directory.path m ≠ some .directory)) := by
  refine ⟨_, _, run_eq_ok.2 ⟨p, b, t, reached, rfl⟩, fun m hm => ?_⟩
  obtain ⟨u, v, -, hb, -, -⟩ := ready_eq_ok.1 reached
  obtain ⟨hmodules, hdisjoint⟩ := Baseline.excluded_prepare hb hm
  have kept := engine.kept_history timing p b t
  have covers := engine.covers_history timing p b t
  obtain ⟨es, before⟩ : ∃ es, (engine.history timing p b t).Before m es := by
    apply Pool.History.exists_before
    rw [covers.entered]
    exact hmodules
  obtain ⟨hrefused, hcalled⟩ := covers.decided_of_before p.modules.nodup
    (engine.leads_history timing p b t) before
  have hadmits : (engine.duty p b).admits m
      ((engine.duty p b).replay (engine.pool p t).world es) =
        ((engine.hostAfter p b t es).digest? b.directory.path m).isSome :=
    Host.exists?_digestPath _ _ _
  have hcompared : m ∈ compared (engine.comparisons timing p b t).2 ↔
      ∃ r ∈ (engine.history timing p b t).answers, r.1.job = m := by
    rw [compared_comparisons reached, List.mem_map]
  rw [hadmits] at hrefused hcalled
  rw [hcalled] at hcompared
  refine ⟨es, before, fun hnone => ?_, fun hsome => ?_, fun unchanged =>
    digest?_hostAfter unchanged before, fun inPlace identifiers =>
      digest?_of_excluded reached inPlace identifiers hm⟩
  · rw [hnone] at hcompared hrefused
    refine ⟨fun hc => absurd (hcompared.1 hc) Bool.false_ne_true, ?_⟩
    refine (Comparing.skipped_outcome kept covers).2 ⟨hrefused.2 rfl, ?_⟩
    rw [Comparing.skipReason]
    by_cases habsent : m ∈ b.dumps.notInBaseline
    · rw [if_pos habsent, if_neg (hdisjoint habsent)]
    · rw [if_neg habsent, if_pos (hm.resolve_right habsent)]
  · rw [Option.isSome_iff_ne_none.2 hsome] at hcompared hrefused
    refine ⟨hcompared.2 rfl, ?_⟩
    rw [Option.eq_none_iff_forall_ne_some]
    intro reason hreason
    have href := ((Comparing.skipped_outcome kept covers).1 hreason).1
    exact absurd (hrefused.1 href) (by decide)

/-- A module that the baseline lacks is skipped. -/
theorem excluded_compared_iff_absent :
    let engine : Engine := ⟨⟨"/"⟩, Rehearsal.collaborators .plain ["Bar", "Foo"] ["Foo"]⟩
    let options := { RunOptions.ofTreeish "main" with baselineDirectory := some ⟨"/b"⟩ }
    let host := Rehearsal.machine [(["tmp"], .directory)]
    ∃ report s', engine.run .plain options (.ofHost host) = (.ok report, s') ∧
      ⟨"Bar"⟩ ∉ compared s' ∧ report.outcome.skipped.get? ⟨"Bar"⟩ = some .notInBaseline := by
  intro engine options host
  obtain ⟨⟨p, b⟩, t, reached, hcheck⟩ := Run.exists_of_check (x := engine.ready .plain options)
    (s := .ofHost host)
    (P := fun r t => decide (⟨"Bar"⟩ ∈ r.2.dumps.notInBaseline) &&
      (t.host.digest? r.2.directory.path ⟨"Bar"⟩).isNone) (by decide +kernel)
  simp only [Bool.and_eq_true, decide_eq_true_eq, Option.isNone_iff_eq_none] at hcheck
  obtain ⟨habsent, hnone⟩ := hcheck
  have hunchanged : engine.collaborators.digester.KeepsDigests b.directory.path :=
    Rehearsal.ScriptedDigester.keepsDigests _ _
  obtain ⟨report, s', hrun, hmodules⟩ := excluded_compared_iff reached
  obtain ⟨es, -, hskipped, -, hsame, -⟩ := hmodules ⟨"Bar"⟩ (.inr habsent)
  refine ⟨report, s', hrun, ?_⟩
  simpa [habsent] using hskipped ((hsame hunchanged).2 hnone)

/-- A dump that fails because of a directory in the place of the digest does not keep the module from
being compared. -/
theorem excluded_compared_directory :
    let engine : Engine := ⟨⟨"/"⟩, Rehearsal.collaborators .plain ["Foo"] ["Foo"]⟩
    let options :=
      { RunOptions.ofTreeish "main" with baselineDirectory := some ⟨"/b"⟩, regenerate := true }
    let host := Rehearsal.machine
      [(["tmp"], .directory), (["b"], .directory), (["b", "Foo.json"], .directory)]
    ∃ report s', engine.run .plain options (.ofHost host) = (.ok report, s') ∧
      ⟨"Foo"⟩ ∈ report.baseline.dumps.generationFailures ∧ ⟨"Foo"⟩ ∈ compared s' ∧
      report.outcome.skipped.get? ⟨"Foo"⟩ = none ∧ report.verdict.passed = true := by
  intro engine options host
  obtain ⟨report, s', hrun, hcheck⟩ := Run.exists_of_check (x := engine.run .plain options)
    (s := .ofHost host)
    (P := fun report s => decide (⟨"Foo"⟩ ∈ report.baseline.dumps.generationFailures) &&
      decide (⟨"Foo"⟩ ∈ compared s) && (report.outcome.skipped.get? ⟨"Foo"⟩).isNone &&
      report.verdict.passed) (by decide +kernel)
  simp only [Bool.and_eq_true, decide_eq_true_eq, Option.isNone_iff_eq_none] at hcheck
  obtain ⟨⟨⟨hfailed, hcompared⟩, hskipped⟩, hpassed⟩ := hcheck
  exact ⟨report, s', hrun, hfailed, hcompared, hskipped, hpassed⟩

end Breakage.Engine
