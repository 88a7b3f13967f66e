import Breakage.Proofs.Run.Exclusion
import Breakage.Proofs.Run.Retention
import Breakage.Tool.DigestCommand

/-!
When a module is said not to be in the baseline. The comparisons only look for a digest, and leave it
to the list of failures to tell why there is none. So a module that the baseline does define is said
to be missing from it when a dump has ended well and left no digest (`skipped_defined_iff`).
-/

namespace Breakage.Engine

variable {engine : Engine} {timing : Timing} {options : RunOptions} {h : Host} {u v t : Session}
  {p : Prepared} {b : Baseline} {m : ModuleName}

theorem exists_before (hm : m ∈ p.modules) : ∃ es, (engine.history timing p b t).Before m es := by
  apply Pool.History.exists_before
  rw [(engine.covers_history timing p b t).entered]
  exact hm

theorem get?_skipped_iff {reason : SkipReason} :
    (engine.comparisons timing p b t).1.skipped.get? m = some reason ↔
      m ∈ p.modules ∧ reason = Comparing.skipReason b.dumps.generationFailures m ∧
        ∃ es, (engine.history timing p b t).Before m es ∧
          (engine.hostAfter p b t es).digest? b.directory.path m = none := by
  have covers := engine.covers_history timing p b t
  have leads := engine.leads_history timing p b t
  -- a comparison is admitted by a look at the place of its digest
  have hadmits : ∀ es, (engine.duty p b).admits m
      ((engine.duty p b).replay (engine.pool p t).world es) = false ↔
        (engine.hostAfter p b t es).digest? b.directory.path m = none := by
    intro es
    rw [← Option.not_isSome_iff_eq_none, Bool.not_eq_true, ← Host.exists?_digestPath]
    rfl
  refine (Comparing.skipped_outcome (engine.kept_history timing p b t) covers).trans ?_
  constructor
  · rintro ⟨hrefused, hreason⟩
    have hm : m ∈ p.modules := covers.mem_jobs_iff.2 (.inl hrefused)
    obtain ⟨es, before⟩ := exists_before hm
    have hdecided := (covers.decided_of_before p.modules.nodup leads before).1
    exact ⟨hm, hreason, es, before, (hadmits es).1 (hdecided.1 hrefused)⟩
  · rintro ⟨-, hreason, es, before, hnone⟩
    have hdecided := (covers.decided_of_before p.modules.nodup leads before).1
    exact ⟨hdecided.2 ((hadmits es).2 hnone), hreason⟩

theorem skipReason_eq_notInBaseline {generationFailures : ModuleSet} :
    .notInBaseline = Comparing.skipReason generationFailures m ↔ m ∉ generationFailures := by
  unfold Comparing.skipReason
  split <;> simp_all

/-- A module is said not to be in the baseline if its dump is not among the failures and there is no
digest when the driver comes to it. If the baseline defines it all the same, its digest was there
before, or else counts as dumped. Where nothing but dumps has a part in the digests, it has been dumped
with success, and there was no digest when the dump had ended. -/
theorem skipped_defined_iff
    (reached : engine.ready timing options (.ofHost h) = (.ok (p, b), t)) :
    ∃ report s' u v, engine.run timing options (.ofHost h) = (.ok report, s') ∧
      report.baseline = b ∧ engine.prepare options (.ofHost h) = (.ok p, u) ∧
      BaselineDirectory.opened options.baselineDirectory p.revision u = (.ok b.directory, v) ∧
      let directory := b.directory.path
      let said m := report.outcome.skipped.get? m = some .notInBaseline
      (∀ m, said m ↔ m ∈ p.modules ∧ m ∉ b.dumps.generationFailures ∧
        ∃ es, (engine.history timing p b t).Before m es ∧
          (engine.hostAfter p b t es).digest? directory m = none) ∧
      ((Baseline.needed v.host directory p.modules options.regenerate).isEmpty = true ∧
          b.dumps = .none ∨
        ∃ arrival w, Baseline.arrive engine.collaborators p.revision v = (.ok arrival, w)) ∧
      ∀ arrival w, Baseline.arrive engine.collaborators p.revision v = (.ok arrival, w) →
        let defines := arrival.graph.Defines engine.collaborators.digester.language
        let dump m := engine.collaborators.digester.dump m arrival.plan (m.digestPath directory)
        (∀ m, said m → defines m →
          m ∈ b.dumps.dumped ∨ v.host.exists? (m.digestPath directory) = true) ∧
        (engine.collaborators.IsTidy directory → u.host.IsOrdinary →
          (∀ m ∈ p.modules, m.isIdentifier = true) →
          (∀ m, said m ∧ defines m ↔ m ∈ b.dumps.dumped ∧ t.host.digest? directory m = none) ∧
          ∀ m ∈ b.dumps.dumped, ∃ host, (dump m host).1 = .returned (.ok ()) ∧
            t.host.digest? directory m = (dump m host).2.digest? directory m) := by
  obtain ⟨u, t', hp, hb, ht, -⟩ := ready_eq_ok.1 reached
  have hhost : t.host = t'.host := by rw [← ht, Session.mark_host]
  obtain ⟨v, hopened, -⟩ := Baseline.prepare_eq_ok.1 hb
  refine ⟨_, _, u, v, run_eq_ok.2 ⟨p, b, t, reached, rfl⟩, rfl, hp, hopened, ?_⟩
  intro directory said
  have hsaid : ∀ m, said m ↔ m ∈ p.modules ∧ m ∉ b.dumps.generationFailures ∧ _ := fun m =>
    get?_skipped_iff.trans (and_congr_right fun _ => and_congr_left fun _ =>
      skipReason_eq_notInBaseline)
  refine ⟨hsaid, Baseline.arrives_prepare hb hopened, fun arrival w harrive => ?_⟩
  intro defines dump
  have classified := Baseline.classified_prepare hb hopened harrive
  refine ⟨fun m hm hdefined => ?_, fun tidy ordinary identifiers => ⟨fun m => ?_, fun m hm => ?_⟩⟩
  · obtain ⟨hmodule, hfailed, -⟩ := (hsaid m).1 hm
    by_cases hneeded : m ∈ Baseline.needed v.host directory p.modules options.regenerate
    · exact .inl (((classified.attempted m).2 ⟨hneeded, hdefined⟩).resolve_right hfailed)
    · rw [Baseline.mem_needed, not_and, not_or, Bool.not_eq_false] at hneeded
      exact .inr (hneeded hmodule).2
  · constructor
    · rintro ⟨hm, hdefined⟩
      obtain ⟨hmodule, hfailed, es, before, hnone⟩ := (hsaid m).1 hm
      have hnone := (digest?_hostAfter tidy.compare before).1 hnone
      by_cases hneeded : m ∈ Baseline.needed v.host directory p.modules options.regenerate
      · exact ⟨((classified.attempted m).2 ⟨hneeded, hdefined⟩).resolve_right hfailed, hnone⟩
      · -- a digest that was found is still there
        have hfound := Baseline.exists?_prepare tidy ordinary identifiers hb hopened hmodule hneeded
        rw [Host.exists?_digestPath, ← hhost, hnone] at hfound
        cases hfound
    · rintro ⟨hdumped, hnone⟩
      obtain ⟨hneeded, hdefined⟩ := (classified.attempted m).1 (.inl hdumped)
      have hmodule := (Baseline.mem_needed.1 hneeded).1
      obtain ⟨es, before⟩ := exists_before hmodule
      exact ⟨(hsaid m).2 ⟨hmodule, classified.apart m hdumped, es, before,
        (digest?_hostAfter tidy.compare before).2 hnone⟩, hdefined⟩
  · rw [hhost]
    exact Baseline.digest?_prepare tidy ordinary identifiers hb hopened hm harrive

theorem host_prepare_rehearsal {d : Rehearsal.ScriptedDigester} {current baseline : List String}
    {root : Path} {s : Session}
    (hp : prepare ⟨root, Rehearsal.collaborators d current baseline⟩ options s = (.ok p, u)) :
    u.host = s.host := by
  simp only [prepare, Run.bind_eq_ok, Run.pure_eq_ok, Run.get_eq_ok, Run.update_eq_ok,
    Run.ofExcept_eq_ok] at hp
  obtain ⟨revision, s₁, hrevision, graph, s₂, hgraph, modules, s₃, hmodules, _, s₄, rfl, _, _,
    ⟨rfl, rfl⟩, allowlist, _, ⟨-, rfl⟩, plan, s₅, hplan, -, rfl⟩ := hp
  have hresolved : s₁.host = s.host := by
    have h := Run.action_of_ask hrevision
    simp only [Rehearsal.collaborators, Rehearsal.Revisions.versionControl] at h
    split at h <;> exact (congrArg Prod.snd h).symm
  have hdescribed : s₂.host = s₁.host := (congrArg Prod.snd (Run.action_of_ask hgraph)).symm
  have hbuilt : s₅.host = s₃.host := (congrArg Prod.snd (Run.action_of_ask hplan)).symm
  rw [hbuilt, selectModules_eq_ok hmodules, hdescribed, hresolved]

/-- Of two modules the baseline lacks one, and it is the only one of which that is said. -/
theorem skipped_defined_iff_absent :
    let engine : Engine := ⟨⟨"/"⟩, Rehearsal.collaborators .plain ["Bar", "Foo"] ["Foo"]⟩
    let options := { RunOptions.ofTreeish "main" with baselineDirectory := some ⟨"/b"⟩ }
    let host := Rehearsal.machine [(["tmp"], .directory)]
    ∃ report s' arrival, engine.run .plain options (.ofHost host) = (.ok report, s') ∧
      report.outcome.skipped.get? ⟨"Bar"⟩ = some .notInBaseline ∧
      ∀ m, report.outcome.skipped.get? m = some .notInBaseline →
        ¬(Baseline.Arrival.graph arrival).Defines .swift m := by
  intro engine options host
  obtain ⟨⟨p, b⟩, t, reached, hcheck⟩ := Run.exists_of_check (x := engine.ready .plain options)
    (s := .ofHost host)
    (P := fun r t => r.1.modules.toList.all ModuleName.isIdentifier &&
      decide (⟨"Bar"⟩ ∈ r.1.modules) && decide (r.2.dumps.dumped.toList = [⟨"Foo"⟩]) &&
      r.2.dumps.generationFailures.isEmpty &&
      (t.host.digest? r.2.directory.path ⟨"Bar"⟩).isNone &&
      (t.host.digest? r.2.directory.path ⟨"Foo"⟩).isSome) (by decide +kernel)
  simp only [Bool.and_eq_true, decide_eq_true_eq, Option.isNone_iff_eq_none] at hcheck
  obtain ⟨⟨⟨⟨⟨hidentifiers, hbar⟩, hdumped⟩, hfailed⟩, hbarNone⟩, hfoo⟩ := hcheck
  obtain ⟨report, s', u, v, hrun, -, hp, -, hsaid, harrives, hrest⟩ := skipped_defined_iff reached
  have tidy : engine.collaborators.IsTidy b.directory.path := Rehearsal.isTidy_collaborators _ _ _ _
  have ordinary : u.host.IsOrdinary := by
    rw [host_prepare_rehearsal hp]
    exact Rehearsal.isOrdinary_machine _
  obtain ⟨es, before⟩ : ∃ es, (engine.history .plain p b t).Before ⟨"Bar"⟩ es := exists_before hbar
  have hskipped := (hsaid ⟨"Bar"⟩).2 ⟨hbar, ModuleSet.isEmpty_iff.1 hfailed _, es, before,
    (digest?_hostAfter tidy.compare before).2 hbarNone⟩
  obtain ⟨arrival, w, harrive⟩ := harrives.resolve_left fun ⟨_, hnone⟩ => by
    rw [hnone] at hdumped
    cases hdumped
  obtain ⟨hdefined, -⟩ := (hrest arrival w harrive).2 tidy ordinary (List.all_eq_true.1 hidentifiers)
  refine ⟨report, s', arrival, hrun, hskipped, fun m hm hd => ?_⟩
  obtain ⟨hin, hnone⟩ := (hdefined m).1 ⟨hm, hd⟩
  rw [ModuleSet.mem_def, hdumped, List.mem_singleton] at hin
  rw [← hin, hnone] at hfoo
  cases hfoo

/-- A dump that does nothing is a success, and its module then counts as absent. -/
theorem skipped_defined_silent :
    let digester := (DigestCommand.mk "api-digester" none).digester
    let collaborators :=
      { Rehearsal.collaborators .plain ["Foo"] ["Foo"] with digester := digester }
    let engine : Engine := ⟨⟨"/"⟩, collaborators⟩
    let options := { RunOptions.ofTreeish "main" with baselineDirectory := some ⟨"/b"⟩ }
    let host : Host :=
      { Rehearsal.machine [(["tmp"], .directory)] with
        programs := ⟨fun _ _ _ => none, fun _ files => (.ok ⟨some 0, [], [], false⟩, files)⟩ }
    (∀ root h, (collaborators.buildSystem.graph root h).1 = .ok (.ofLibraries "demo" ["Foo"])) ∧
      (PackageGraph.ofLibraries "demo" ["Foo"]).Defines digester.language ⟨"Foo"⟩ ∧
      ∃ report s', engine.run .plain options (.ofHost host) = (.ok report, s') ∧
        ⟨"Foo"⟩ ∈ report.baseline.dumps.dumped ∧
        report.outcome.skipped.get? ⟨"Foo"⟩ = some .notInBaseline ∧ report.verdict.passed = true := by
  intro digester collaborators engine options host
  refine ⟨Rehearsal.graph_collaborators_self .plain ["Foo"], by decide +kernel, ?_⟩
  obtain ⟨report, s', hrun, hcheck⟩ := Run.exists_of_check (x := engine.run .plain options)
    (s := .ofHost host)
    (P := fun report _ => decide (⟨"Foo"⟩ ∈ report.baseline.dumps.dumped) &&
      decide (report.outcome.skipped.get? ⟨"Foo"⟩ = some .notInBaseline) && report.verdict.passed)
    (by decide +kernel)
  simp only [Bool.and_eq_true, decide_eq_true_eq] at hcheck
  obtain ⟨⟨hdumped, hskipped⟩, hpassed⟩ := hcheck
  exact ⟨report, s', hrun, hdumped, hskipped, hpassed⟩

end Breakage.Engine
