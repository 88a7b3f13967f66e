import Breakage.Proofs.Run.Absence

/-!
A package compared with itself. What a selection takes from the package is defined by it as well,
except for what strays into a library product; and whatever is defined has a digest in the end, if its
dump leaves one. So nothing but what has strayed in is left out (`compared_itself_iff`).
-/

namespace Breakage

namespace Baseline

variable {c : Collaborators} {directory : Path}

def Dumping.isFruitful (d : Pool.Duty Dumping ModuleName Dumped) (directory : Path) :
    Dumping → Dumping.History → Bool
  | _, [] => true
  | w, deed :: rest =>
    let w' := d.effect w deed
    let isFruit := match deed with
      | .answered task (.returned (.ok ())) => w'.session.host.exists? (task.job.digestPath directory)
      | .answered _ _ => false
      | _ => true
    isFruit && isFruitful d directory w' rest

theorem Dumping.exists?_of_isFruitful {d : Pool.Duty Dumping ModuleName Dumped} {w : Dumping}
    {es es' : Dumping.History} {task : Pool.Task ModuleName} {a : Dumped}
    (h : isFruitful d directory w (es ++ .answered task a :: es') = true) :
    a = .returned (.ok ()) ∧ (d.replay w (es ++ [.answered task a])).session.host.exists?
      (task.job.digestPath directory) = true := by
  induction es generalizing w with
  | nil =>
    have hfirst := (Bool.and_eq_true_iff.1 h).1
    rcases a with (e | ⟨⟨⟩⟩) | words
    · cases hfirst
    · exact ⟨rfl, hfirst⟩
    · cases hfirst
  | cons deed rest ih => exact ih (Bool.and_eq_true_iff.1 h).2

def isFruitful (c : Collaborators) (arrival : Arrival) (directory : Path) (needed : ModuleSet)
    (schedule : Pool.Schedule) (s : Session) : Bool :=
  let d := duty c.digester arrival.plan directory (arrival.graph.diffableModules c.digester.language)
  Dumping.isFruitful d directory ⟨s, .none⟩
    (d.history schedule (Pool.init ⟨s, .none⟩ c.buildSystem.workers needed.toList))

theorem exists?_dumped {modules : ModuleSet} {revision : Revision} {named : Option Path}
    {regenerate : Bool} {schedule : Pool.Schedule} {s s' t : Session} {b : Baseline}
    (tidy : c.IsTidy b.directory.path) (ordinary : s.host.IsOrdinary)
    (identifiers : ∀ m ∈ modules, m.isIdentifier = true)
    (run : prepare c modules revision named regenerate schedule s = (.ok b, s'))
    (opened : BaselineDirectory.opened named revision s = (.ok b.directory, t)) {arrival : Arrival}
    {u : Session} (harrive : arrive c revision t = (.ok arrival, u))
    (fruitful : isFruitful c arrival b.directory.path
      (needed t.host b.directory.path modules regenerate) schedule u = true) {m : ModuleName}
    (hm : m ∈ needed t.host b.directory.path modules regenerate)
    (hdefined : arrival.graph.Defines c.digester.language m) :
    s'.host.exists? (m.digestPath b.directory.path) = true := by
  obtain ⟨v, hdumps, rfl⟩ := dumpAll_of_arrive run opened harrive hm
  have hmade := made_dumpAll tidy.dump (fun k hk => identifiers k (mem_needed.1 hk).1) hdumps
  obtain ⟨es, task, a, es', hsplit, rfl⟩ := hmade.split_of_mem hm (mem_diffableModules.2 hdefined)
  unfold isFruitful at fruitful
  simp only [hsplit] at fruitful
  obtain ⟨hok, hexists⟩ := Dumping.exists?_of_isFruitful fruitful
  obtain ⟨-, hiff, hleft⟩ := hmade.dumped es task a es' hsplit
  rw [Host.exists?_digestPath, digest?_closed tidy ordinary identifiers opened harrive hdumps
    (mem_needed.1 hm).1, hleft (hiff.2 hok), ← Host.exists?_digestPath]
  rwa [Pool.Duty.replay_append] at hexists

end Baseline

namespace Engine

variable {engine : Engine} {timing : Timing} {options : RunOptions} {h : Host} {s t : Session}
  {p : Prepared} {b : Baseline}

theorem prepare_select (hp : engine.prepare options s = (.ok p, t)) : ∃ host g events,
    (engine.collaborators.buildSystem.graph engine.packageRoot host).1 = .ok g ∧
      g.select engine.collaborators.digester.language options.products options.targets =
        (.ok p.modules, events) := by
  simp only [prepare, Run.bind_eq_ok, Run.pure_eq_ok, Run.get_eq_ok, Run.update_eq_ok,
    Run.ofExcept_eq_ok] at hp
  obtain ⟨revision, s₁, -, g, s₂, hgraph, modules, s₃, hmodules, _, s₄, -, _, _, -, allowlist, _, -,
    plan, s₅, -, rfl, -⟩ := hp
  have hselected : (g.select engine.collaborators.digester.language options.products
      options.targets).1 = .ok modules := Except.mapError_eq_ok.1 (congrArg Prod.fst hmodules)
  exact ⟨s₁.host, g, _, congrArg Prod.fst (Run.action_of_ask hgraph), Prod.ext hselected rfl⟩

theorem mem_compared_iff (reached : engine.ready timing options (.ofHost h) = (.ok (p, b), t))
    (unchanged : engine.collaborators.digester.KeepsDigests b.directory.path) {m : ModuleName} :
    m ∈ compared (engine.comparisons timing p b t).2 ↔
      m ∈ p.modules ∧ t.host.exists? (m.digestPath b.directory.path) = true := by
  have leads := engine.leads_history timing p b t
  have covers := engine.covers_history timing p b t
  have sorts := Comparing.sorts_of_leads unchanged leads
  rw [compared_comparisons reached, (covers.map_job_perm_filter sorts).mem_iff, List.mem_filter]
  rfl

variable (engine) in
def isFruitful (timing : Timing) (options : RunOptions) : Run Bool := do
  let c := engine.collaborators
  let p ← engine.prepare options
  let directory ← BaselineDirectory.opened options.baselineDirectory p.revision
  let missing := Baseline.needed (← get).host directory.path p.modules options.regenerate
  if missing.isEmpty then return true
  else
    let arrival ← Baseline.arrive c p.revision
    return Baseline.isFruitful c arrival directory.path missing timing.dumps (← get)

theorem isFruitful_of_arrive {u v w : Session} {directory : BaselineDirectory}
    {arrival : Baseline.Arrival} (fruitful : (engine.isFruitful timing options s).1 = .ok true)
    (hp : engine.prepare options s = (.ok p, u))
    (hopened : BaselineDirectory.opened options.baselineDirectory p.revision u = (.ok directory, v))
    (harrive : Baseline.arrive engine.collaborators p.revision v = (.ok arrival, w))
    {m : ModuleName} (hm : m ∈ Baseline.needed v.host directory.path p.modules options.regenerate) :
    Baseline.isFruitful engine.collaborators arrival directory.path
      (Baseline.needed v.host directory.path p.modules options.regenerate) timing.dumps w = true := by
  rcases hf : engine.isFruitful timing options s with ⟨r, s'⟩
  rw [hf] at fruitful
  obtain rfl : r = .ok true := fruitful
  simp only [isFruitful, Run.bind_eq_ok, Run.get_eq_ok] at hf
  obtain ⟨p', u', hp', directory', v', hopened', _, _, ⟨rfl, rfl⟩, hf⟩ := hf
  rw [hp] at hp'
  cases hp'
  rw [hopened] at hopened'
  cases hopened'
  rw [if_neg fun hempty => ModuleSet.isEmpty_iff.1 hempty m hm] at hf
  simp only [Run.bind_eq_ok, Run.get_eq_ok, Run.pure_eq_ok] at hf
  obtain ⟨arrival', w', harrive', _, _, ⟨rfl, rfl⟩, hfruit, -⟩ := hf
  rw [harrive] at harrive'
  cases harrive'
  exact hfruit

/-- Comparing a package with itself. What is selected is defined by the package or strays in by a
library product, and what strays in is selected when nothing is named. The modules that are said to be
missing from the baseline are those, in want of a digest, that the package does not define. All others
are compared, if every dump leaves a digest and nothing else has a part in the digests. -/
theorem compared_itself_iff {g : PackageGraph}
    (same : ∀ root host g', (engine.collaborators.buildSystem.graph root host).1 = .ok g' → g' = g)
    (reached : engine.ready timing options (.ofHost h) = (.ok (p, b), t)) :
    ∃ report s' u v, engine.run timing options (.ofHost h) = (.ok report, s') ∧
      report.baseline = b ∧ engine.prepare options (.ofHost h) = (.ok p, u) ∧
      BaselineDirectory.opened options.baselineDirectory p.revision u = (.ok b.directory, v) ∧
      let c := engine.collaborators
      let directory := b.directory.path
      let defines := g.Defines c.digester.language
      let strays := g.Strays c.digester.language
      let missing := Baseline.needed v.host directory p.modules options.regenerate
      (∀ m ∈ p.modules, defines m ∨ strays m) ∧
      (options.products = [] → options.targets = [] → ∀ m, strays m → m ∈ p.modules) ∧
      (∀ m, m ∈ b.dumps.notInBaseline ↔ m ∈ missing ∧ ¬defines m) ∧
      (c.IsTidy directory → u.host.IsOrdinary → (∀ m ∈ p.modules, m.isIdentifier = true) →
        (engine.isFruitful timing options (.ofHost h)).1 = .ok true →
        (∀ m ∈ p.modules, m ∉ b.dumps.notInBaseline → m ∈ compared s') ∧
        ((∀ m, m ∉ b.dumps.notInBaseline) ∧ (∀ m ∈ p.modules, m ∈ compared s') ↔
          ∀ m ∈ missing, defines m)) := by
  obtain ⟨u, t', hp, hb, ht, -⟩ := ready_eq_ok.1 reached
  have hhost : t.host = t'.host := by rw [← ht, Session.mark_host]
  obtain ⟨v, hopened, -⟩ := Baseline.prepare_eq_ok.1 hb
  obtain ⟨host, g', events, hgraph, hselect⟩ := prepare_select hp
  obtain rfl := same _ _ _ hgraph
  refine ⟨_, _, u, v, run_eq_ok.2 ⟨p, b, t, reached, rfl⟩, rfl, hp, hopened, ?_⟩
  intro c directory defines strays missing
  have habsent : ∀ m, m ∈ b.dumps.notInBaseline ↔ m ∈ missing ∧ ¬defines m := by
    intro m
    rcases Baseline.arrives_prepare hb hopened with ⟨hempty, hnone⟩ | ⟨arrival, w, harrive⟩
    · rw [hnone]
      have hm := ModuleSet.isEmpty_iff.1 hempty m
      exact ⟨fun h => absurd h (ModuleSet.not_mem_empty m), fun h => absurd h.1 hm⟩
    · obtain ⟨root, host, hdescribed⟩ := Baseline.arrive_graph harrive
      obtain rfl := same _ _ _ hdescribed
      exact (Baseline.classified_prepare hb hopened harrive).notInBaseline m
  refine ⟨fun m hm => PackageGraph.defines_or_strays_of_select hselect hm,
    fun hproducts htargets m hm => ?_, habsent, fun tidy ordinary identifiers fruitful => ?_⟩
  · rw [hproducts, htargets] at hselect
    rw [← Except.ok.inj (Prod.mk.inj hselect).1]
    exact PackageGraph.mem_libraryModules_of_strays hm
  have hcompared : ∀ m ∈ p.modules, m ∉ b.dumps.notInBaseline →
      m ∈ compared (engine.comparisons timing p b t).2 := by
    intro m hm hnot
    refine (mem_compared_iff reached tidy.compare).2 ⟨hm, ?_⟩
    rw [hhost]
    -- a digest was wanted and has been made, or was there and has been kept
    by_cases hneeded : m ∈ missing
    · have hdefined : defines m := by_contra fun hn => hnot ((habsent m).2 ⟨hneeded, hn⟩)
      rcases Baseline.arrives_prepare hb hopened with ⟨hempty, -⟩ | ⟨arrival, w, harrive⟩
      · exact absurd hneeded (ModuleSet.isEmpty_iff.1 hempty m)
      · have hfruitful := isFruitful_of_arrive fruitful hp hopened harrive hneeded
        obtain ⟨root, host, hdescribed⟩ := Baseline.arrive_graph harrive
        obtain rfl := same _ _ _ hdescribed
        exact Baseline.exists?_dumped tidy ordinary identifiers hb hopened harrive hfruitful hneeded
          hdefined
    · exact Baseline.exists?_prepare tidy ordinary identifiers hb hopened hm hneeded
  refine ⟨hcompared, fun h m hm => ?_, fun h => ?_⟩
  · exact by_contra fun hn => h.1 m ((habsent m).2 ⟨hm, hn⟩)
  · have hnone : ∀ m, m ∉ b.dumps.notInBaseline := fun m hm =>
      ((habsent m).1 hm).2 (h m ((habsent m).1 hm).1)
    exact ⟨hnone, fun m hm => hcompared m hm (hnone m)⟩

/-- Two libraries, both of which are compared. -/
theorem compared_itself_iff_plain :
    let engine : Engine := ⟨⟨"/"⟩, Rehearsal.collaborators .plain ["Bar", "Foo"] ["Bar", "Foo"]⟩
    let options := { RunOptions.ofTreeish "main" with baselineDirectory := some ⟨"/b"⟩ }
    let host := Rehearsal.machine [(["tmp"], .directory)]
    ∃ report s', engine.run .plain options (.ofHost host) = (.ok report, s') ∧
      (∀ m, m ∉ report.baseline.dumps.notInBaseline) ∧ ⟨"Bar"⟩ ∈ compared s' ∧ ⟨"Foo"⟩ ∈ compared s' := by
  intro engine options host
  let c := engine.collaborators
  obtain ⟨⟨p, b⟩, t, reached, hcheck⟩ := Run.exists_of_check (x := engine.ready .plain options)
    (s := .ofHost host) (P := fun r _ => decide (r.1.modules.toList = [⟨"Bar"⟩, ⟨"Foo"⟩]))
    (by decide +kernel)
  have hmodules := of_decide_eq_true hcheck
  have same : ∀ root host g', (c.buildSystem.graph root host).1 = .ok g' →
      g' = .ofLibraries "demo" ["Bar", "Foo"] := by
    intro root host g' hg
    rw [Rehearsal.graph_collaborators_self .plain ["Bar", "Foo"]] at hg
    exact (Except.ok.inj hg).symm
  obtain ⟨report, s', u, v, hrun, hbaseline, hp, -, -, -, habsent, hrest⟩ :=
    compared_itself_iff same reached
  have tidy : c.IsTidy b.directory.path := Rehearsal.isTidy_collaborators _ _ _ _
  have ordinary : u.host.IsOrdinary := by
    rw [host_prepare_rehearsal hp]
    exact Rehearsal.isOrdinary_machine _
  have identifiers : ∀ m ∈ p.modules.toList, m.isIdentifier = true := by
    rw [hmodules]
    decide
  have fruitful : (engine.isFruitful .plain options (.ofHost host)).1 = .ok true := by
    obtain ⟨r, w, hr, hfruitful⟩ := Run.exists_of_check (x := engine.isFruitful .plain options)
      (s := .ofHost host) (P := fun r _ => r) (by decide +kernel)
    rw [hr]
    exact congrArg Except.ok hfruitful
  obtain ⟨-, hall⟩ := hrest tidy ordinary identifiers fruitful
  have hdefined : ∀ m ∈ p.modules.toList,
      (PackageGraph.ofLibraries "demo" ["Bar", "Foo"]).Defines .swift m := by
    rw [hmodules]
    decide +kernel
  obtain ⟨hnone, hcompared⟩ := hall.2 fun m hm => hdefined m (Baseline.mem_needed.1 hm).1
  refine ⟨report, s', hrun, ?_, hcompared _ ?_, hcompared _ ?_⟩
  · rwa [hbaseline]
  · rw [ModuleSet.mem_def, hmodules]
    simp
  · rw [ModuleSet.mem_def, hmodules]
    simp

/-- A target that is no library, in a library product, is not in its own baseline. -/
theorem compared_itself_stray :
    let g : PackageGraph := ⟨[⟨"demo", [⟨"Lib", .library .automatic, ["Foo", "Tool"]⟩],
      [⟨"Foo", ⟨"Foo"⟩, .library, .swift⟩, ⟨"Tool", ⟨"Tool"⟩, .executable, .swift⟩]⟩]⟩
    let build := Rehearsal.FixedPackage.buildSystem ⟨⟨"/"⟩, g, none, 2, false⟩
    let engine : Engine := ⟨⟨"/"⟩, { Rehearsal.collaborators .plain [] [] with buildSystem := build }⟩
    let options := { RunOptions.ofTreeish "main" with baselineDirectory := some ⟨"/b"⟩ }
    let host := Rehearsal.machine [(["tmp"], .directory)]
    (∀ root h, (build.graph root h).1 = .ok g) ∧
      ∃ report s', engine.run .plain options (.ofHost host) = (.ok report, s') ∧
        report.baseline.dumps.generationFailures.isEmpty = true ∧
        ⟨"Tool"⟩ ∈ report.outcome.requested ∧ ⟨"Tool"⟩ ∈ report.baseline.dumps.notInBaseline ∧
        ⟨"Tool"⟩ ∉ compared s' := by
  intro g build engine options host
  refine ⟨fun root h => congrArg Except.ok (ite_self _), ?_⟩
  obtain ⟨report, s', hrun, hcheck⟩ := Run.exists_of_check (x := engine.run .plain options)
    (s := .ofHost host)
    (P := fun report s => report.baseline.dumps.generationFailures.isEmpty &&
      decide (⟨"Tool"⟩ ∈ report.outcome.requested) &&
      decide (⟨"Tool"⟩ ∈ report.baseline.dumps.notInBaseline) && decide (⟨"Tool"⟩ ∉ compared s))
    (by decide +kernel)
  simp only [Bool.and_eq_true, decide_eq_true_eq] at hcheck
  obtain ⟨⟨⟨hfailed, hrequested⟩, habsent⟩, hcompared⟩ := hcheck
  exact ⟨report, s', hrun, hfailed, hrequested, habsent, hcompared⟩

end Engine

end Breakage
