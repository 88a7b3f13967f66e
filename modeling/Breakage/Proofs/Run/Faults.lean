import Breakage.Proofs.Run.Invariant
import Breakage.Proofs.Run.Stages
import Breakage.Proofs.Sparing

/-!
Runs that end in a fault. Main statement: `run_fault` (the first part that fails ends the run, before
any digest is made or compared, and the files that were there before are untouched; the digester has no
say in it).
-/

namespace Breakage

namespace Engine

structure KeepsTo (engine : Engine) (trees : List Place) : Prop where
  resolve : ∀ treeish (h : Host),
    h.Spares trees (engine.collaborators.versionControl.resolve treeish h).2
  graph : ∀ h : Host, h.Spares trees (engine.collaborators.buildSystem.graph engine.packageRoot h).2
  build : ∀ h : Host, h.Spares trees (engine.collaborators.buildSystem.build engine.packageRoot h).2
  checkOut : ∀ revision destination (h : Host),
    h.Spares (FileTree.aim h.workingDirectory destination :: trees)
      (engine.collaborators.versionControl.checkOut revision destination h).2
  /-- the tree that was checked out is where it was to be -/
  root : ∀ revision destination (h : Host) root,
    (engine.collaborators.versionControl.checkOut revision destination h).1 = .ok root →
      FileTree.aim h.workingDirectory root = FileTree.aim h.workingDirectory destination
  graphThere : ∀ root (h : Host), h.Spares (FileTree.aim h.workingDirectory root :: trees)
    (engine.collaborators.buildSystem.graph root h).2
  buildThere : ∀ root (h : Host), h.Spares (FileTree.aim h.workingDirectory root :: trees)
    (engine.collaborators.buildSystem.build root h).2

def Progress.grounds : Progress → List Path
  | checkedOut o checkout root | built o checkout root _ =>
    root :: checkout :: o.directory.temporary?.toList
  | k => k.temporaries

section Files

variable {engine : Engine} {options : RunOptions} {trees : List Place} {h : Host}
  (keeps : engine.KeepsTo trees) (connected : h.files.IsConnected)

/-- What the run made for itself is where nothing was. -/
def Progress.IsClear (k : Progress) (h : Host) (trees : List Place) : Prop :=
  ∀ path ∈ k.grounds, h.IsClear trees path

include connected in
theorem keeps_opened_spares (named : Option Path) (revision : Revision) :
    (BaselineDirectory.opened named revision).Keeps (h.Spares trees) fun d =>
      ∀ path ∈ d.temporary?, h.IsClear trees path := by
  intro s spares
  unfold BaselineDirectory.opened ExceptT.mk
  cases named with
  | some path =>
    have hmade := spares.makeDirectories path
    dsimp only
    split
    · rename_i host heq
      rw [heq] at hmade
      refine ⟨hmade, fun d hd => ?_⟩
      cases hd
      exact nofun
    · rename_i e host heq
      rw [heq] at hmade
      exact ⟨hmade, nofun⟩
  | none =>
    dsimp only
    split
    · rename_i path host heq
      obtain ⟨hmade, clear⟩ := spares.makeTemporary heq connected
      refine ⟨hmade, fun d hd => ?_⟩
      cases hd
      intro path hpath
      rw [← Option.some.inj hpath]
      exact clear
    · exact ⟨spares, nofun⟩

include connected in
theorem keeps_openCheckout_spares :
    Baseline.openCheckout.Keeps (h.Spares trees) fun checkout => h.IsClear trees checkout := by
  intro s spares
  unfold Baseline.openCheckout ExceptT.mk
  dsimp only
  split
  · rename_i path host heq
    obtain ⟨hmade, clear⟩ := spares.makeTemporary heq connected
    refine ⟨hmade, fun d hd => ?_⟩
    cases hd
    exact clear
  · exact ⟨spares, nofun⟩

include keeps connected in
theorem keeps_attempt {k : Progress} {phase : Phase} {x : Run Progress} (clear : k.IsClear h trees)
    (attempt : engine.attempt? options k = some (phase, x)) :
    x.Keeps (h.Spares trees) fun k' => k'.IsClear h trees := by
  cases k with
  | started =>
    cases attempt
    exact .map (.ask fun h' spares => ⟨spares.trans (keeps.resolve _ h'), fun _ _ => trivial⟩)
      fun revision _ => nofun
  | resolved revision =>
    cases attempt
    exact .map (.ask fun h' spares => ⟨spares.trans (keeps.graph h'), fun _ _ => trivial⟩)
      fun graph _ => nofun
  | described revision graph =>
    cases attempt
    refine .map (Q := fun _ => True) (.bind (keeps_selectModules graph) fun modules _ => ?_)
      fun modules _ => nofun
    exact .bind (.update fun _ => rfl) fun _ _ => .pure trivial
  | selected revision modules =>
    cases attempt
    exact .map (.bind .get fun s _ => .ofExcept fun _ _ => trivial) fun allowlist _ => nofun
  | allowed revision modules allowlist =>
    cases attempt
    exact .map (.ask fun h' spares => ⟨spares.trans (keeps.build h'), fun _ _ => trivial⟩)
      fun plan _ => nofun
  | prepared p =>
    cases attempt
    refine .map (.bind (keeps_opened_spares connected _ _) fun d hd => ?_) fun o ho => ho
    refine .bind .get fun s _ => .pure fun path hpath => ?_
    exact hd path (Option.mem_toList.1 hpath)
  | opened o =>
    rw [attempt?] at attempt
    split at attempt
    · cases attempt
    · cases attempt
      refine .map (keeps_openCheckout_spares connected) fun checkout hcheckout path hpath => ?_
      rcases List.mem_cons.1 hpath with rfl | hpath
      · exact hcheckout
      · exact clear path hpath
  | sheltered o checkout =>
    cases attempt
    have hdestination : h.IsClear trees (checkout.join "baseline") :=
      (clear checkout List.mem_cons_self).join (by decide) (by decide)
    refine .map (Q := fun root => h.IsClear trees root) (.ask fun h' spares => ?_)
      fun root hroot path hpath => ?_
    · refine ⟨spares.within hdestination (keeps.checkOut _ _ h'), fun root hroot p e hp he => ?_⟩
      have haim := keeps.root _ _ h' root hroot
      rw [spares.workingDirectory] at haim
      rw [haim]
      exact hdestination p e hp he
    · rcases List.mem_cons.1 hpath with rfl | hpath
      · exact hroot
      · exact clear path hpath
  | checkedOut o checkout root =>
    cases attempt
    have hroot := clear root List.mem_cons_self
    exact .map (.ask fun h' spares =>
      ⟨spares.within hroot (keeps.buildThere root h'), fun _ _ => trivial⟩) fun plan _ => clear
  | built o checkout root plan =>
    cases attempt
    have hroot := clear root List.mem_cons_self
    exact .map (.ask fun h' spares =>
      ⟨spares.within hroot (keeps.graphThere root h'), fun _ _ => trivial⟩)
        fun graph _ path hpath => clear path (List.mem_cons_of_mem root hpath)
  | arrived o arrival => cases attempt

include keeps connected in
theorem Comes.spares {s u : Session} {done : List Phase} {k : Progress} (hs : s.host = h)
    (comes : engine.Comes options s done k u) : h.Spares trees u.host ∧ k.IsClear h trees := by
  induction comes with
  | start =>
    rw [hs]
    exact ⟨.refl trees h, nofun⟩
  | next _ attempt success ih =>
    obtain ⟨spares, clear⟩ := ih
    have hnext := keeps_attempt keeps connected clear attempt _ spares
    rw [success] at hnext
    exact ⟨hnext.1, hnext.2 _ rfl⟩

theorem Progress.mem_grounds {k : Progress} {path : Path} (h : path ∈ k.temporaries) :
    path ∈ k.grounds := by
  cases k with
  | checkedOut o checkout root | built o checkout root plan => exact List.mem_cons_of_mem root h
  | _ => exact h

theorem Progress.spares_tidy {k : Progress} {s : Session} (spares : h.Spares trees s.host)
    (clear : k.IsClear h trees) : h.Spares trees (k.tidy s).host := by
  have hfold : ∀ (paths : List Path) (s : Session), h.Spares trees s.host →
      (∀ path ∈ paths, h.IsClear trees path) → h.Spares trees (paths.foldl discard s).host := by
    intro paths
    induction paths with
    | nil => exact fun _ spares _ => spares
    | cons path rest ih =>
      intro s spares clear
      refine ih (discard s path) (spares.removeTree (clear path List.mem_cons_self)) fun path h => ?_
      exact clear path (List.mem_cons_of_mem _ h)
  exact hfold _ s spares fun path hpath => clear path (mem_grounds hpath)

end Files

/-! ### Runs that end well -/

variable (engine : Engine) (options : RunOptions)

/-- The baseline is ready in the session `v`: no digest was missing, or a pool has made those that
were and nothing is left to do in it. -/
inductive Readies : Progress → Session → Session → Prop where
  | present {o : Opened} {u : Session} (present : o.missing.isEmpty = true) : Readies (.opened o) u u
  | made {o : Opened} {arrival : Baseline.Arrival} {u : Session} {ds : Baseline.Dumping.History}
      {pool : Pool Baseline.Dumping ModuleName Baseline.Dumped}
      (leads : Pool.Leads (Baseline.duty engine.collaborators.digester arrival.plan
        o.directory.path (arrival.graph.diffableModules engine.collaborators.digester.language))
        (Pool.init ⟨u, .none⟩ engine.collaborators.buildSystem.workers o.missing.toList) ds pool)
      (done : pool.isDone = true) :
      Readies (.arrived o arrival) u
        (Progress.discard (Baseline.afterTasks o.directory.path pool).session arrival.checkout)

def withDigester (digester : Digester) : Engine :=
  ⟨engine.packageRoot, { engine.collaborators with digester := digester }⟩

variable {engine options} {timing : Timing} {s t u v : Session}

theorem comes_prepared {p : Prepared} (h : engine.prepare options s = (.ok p, u)) :
    ∃ done, engine.Comes options s done (.prepared p) u := by
  simp only [prepare, Run.bind_eq_ok, Run.pure_eq_ok, Run.get_eq_ok, Run.update_eq_ok,
    Run.ofExcept_eq_ok] at h
  obtain ⟨revision, s₁, hrevision, graph, s₂, hgraph, modules, s₃, hmodules, _, s₄, hmark, _, _,
    ⟨rfl, rfl⟩, allowlist, _, ⟨hallowlist, rfl⟩, plan, s₅, hplan, rfl, rfl⟩ := h
  have hchosen : engine.chooseModules options revision graph s₂ = (.ok modules, s₄) := by
    simp only [chooseModules, Run.bind_eq_ok, Run.pure_eq_ok, Run.update_eq_ok]
    exact ⟨modules, s₃, hmodules, (), s₄, hmark, rfl, rfl⟩
  have hloaded : loadAllowlist options s₄ = (.ok allowlist, s₄) := by
    simp only [loadAllowlist, Run.bind_eq_ok, Run.get_eq_ok, Run.ofExcept_eq_ok]
    exact ⟨_, _, ⟨rfl, rfl⟩, hallowlist, rfl⟩
  have resolved := Comes.start.next rfl (Run.map_eq_ok.2 ⟨revision, hrevision, rfl⟩)
  have described := resolved.next rfl (Run.map_eq_ok.2 ⟨graph, hgraph, rfl⟩)
  have selected := described.next rfl (Run.map_eq_ok.2 ⟨modules, hchosen, rfl⟩)
  have allowed := selected.next rfl (Run.map_eq_ok.2 ⟨allowlist, hloaded, rfl⟩)
  exact ⟨_, allowed.next rfl (Run.map_eq_ok.2 ⟨plan, hplan, rfl⟩)⟩

theorem comes_baseline {p : Prepared} {b : Baseline} {done : List Phase}
    (comes : engine.Comes options s done (.prepared p) u)
    (h : Baseline.prepare engine.collaborators p.modules p.revision options.baselineDirectory
      options.regenerate timing.dumps u = (.ok b, v)) :
    ∃ done k w, engine.Comes options s done k w ∧ engine.attempt? options k = none ∧
      engine.Readies k w v := by
  obtain ⟨w, hopened, hrest⟩ := Baseline.prepare_eq_ok.1 h
  let o : Opened := ⟨p, b.directory,
    Baseline.needed w.host b.directory.path p.modules options.regenerate⟩
  have hdirectory : openDirectory options p u = (.ok o, w) := by
    simp only [openDirectory, Run.bind_eq_ok, Run.get_eq_ok, Run.pure_eq_ok]
    exact ⟨_, w, hopened, _, _, ⟨rfl, rfl⟩, rfl, rfl⟩
  have opened := comes.next rfl (Run.map_eq_ok.2 ⟨o, hdirectory, rfl⟩)
  simp only at hrest
  split at hrest
  · rename_i hempty
    obtain ⟨-, rfl⟩ := hrest
    exact ⟨_, _, _, opened, by rw [attempt?, if_pos hempty], .present hempty⟩
  · rename_i hempty
    obtain ⟨arrival, u', v', harrive, hdumps, rfl⟩ := hrest
    simp only [Baseline.arrive, Run.bind_eq_ok, Run.pure_eq_ok] at harrive
    obtain ⟨checkout, s₁, hopen, root, s₂, hroot, plan, s₃, hplan, graph, s₄, hgraph, rfl, rfl⟩ :=
      harrive
    have hnext : engine.attempt? options (.opened o) =
        some (.openCheckout, .sheltered o <$> Baseline.openCheckout) := by
      rw [attempt?, if_neg hempty]
    have sheltered := opened.next hnext (Run.map_eq_ok.2 ⟨checkout, hopen, rfl⟩)
    have checkedOut := sheltered.next rfl (Run.map_eq_ok.2 ⟨root, hroot, rfl⟩)
    have built := checkedOut.next rfl (Run.map_eq_ok.2 ⟨plan, hplan, rfl⟩)
    have arrived := built.next rfl (Run.map_eq_ok.2 ⟨graph, hgraph, rfl⟩)
    obtain ⟨-, ended⟩ := Run.pooled_eq_ok.1 hdumps
    obtain rfl := congrArg Prod.snd ended
    exact ⟨_, _, _, arrived, rfl, .made (Pool.leads_run _ timing.dumps _) (Pool.isDone_run _ _ _ _ _)⟩

/-- Comparisons are begun when the baseline is ready, and nothing else is called from then on. -/
theorem compares_run {report : RunReport}
    (run : engine.run timing options s = (.ok report, t)) :
    ∃ done k u v, engine.Comes options s done k u ∧ engine.attempt? options k = none ∧
      engine.Readies k u v ∧ ∃ before after, v.calls = s.calls ++ before ∧
        (∀ c ∈ before, c.isCompare = false) ∧ t.calls = v.calls ++ after ∧
        ∀ c ∈ after, c.isCompare = true := by
  obtain ⟨p, b, w, hready, hconclude⟩ := run_eq_ok.1 run
  obtain ⟨before, events, hbefore, hcompared, -, -⟩ := record_ready hready
  obtain ⟨u, v, hprepare, hbaseline, rfl, -⟩ := ready_eq_ok.1 hready
  obtain ⟨done, prepared⟩ := comes_prepared hprepare
  obtain ⟨done, k, u, comes, last, readies⟩ := comes_baseline prepared hbaseline
  obtain ⟨answers, hcalls⟩ : ∃ answers : List Comparing.Answered, t.calls = v.calls ++
      answers.map fun r => Comparing.call b.directory.path p.allowlist r.1 := by
    cases hconclude
    exact ⟨_, (engine.kept_history timing p b _).calls⟩
  refine ⟨done, k, u, v, comes, last, readies, before, _, hbefore, fun c hc => ?_, hcalls, ?_⟩
  · have hnone := hcompared c hc
    cases c with
    | compare m baseline allowlist => cases hnone
    | _ => rfl
  · intro c hc
    obtain ⟨r, -, rfl⟩ := List.mem_map.1 hc
    rfl

/-! ### Whoever the digester is -/

theorem selectModules_withDigester {digester : Digester}
    (same : digester.language = engine.collaborators.digester.language) (graph : PackageGraph) :
    (engine.withDigester digester).selectModules graph options =
      engine.selectModules graph options := by
  rw [selectModules, selectModules, withDigester, same]

theorem attempt?_withDigester {digester : Digester}
    (same : digester.language = engine.collaborators.digester.language) (k : Progress) :
    (engine.withDigester digester).attempt? options k = engine.attempt? options k := by
  cases k with
  | described revision graph =>
    rw [attempt?, attempt?, chooseModules, chooseModules, selectModules_withDigester same]
  | _ => rfl

theorem Breaks.congr {engine' : Engine} {k : Progress} {e : Halt}
    (workers : engine'.collaborators.buildSystem.workers = engine.collaborators.buildSystem.workers)
    (same : ∀ k, engine'.attempt? options k = engine.attempt? options k)
    (h : engine.Breaks options k u e t) : engine'.Breaks options k u e t := by
  induction h with
  | here attempt failure => exact .here ((same _).trans attempt) failure
  | later attempt success _ ih => exact .later ((same _).trans attempt) success ih
  | overload last beyond => exact .overload ((same _).trans last) (workers ▸ beyond)

theorem run_withDigester {digester : Digester}
    (same : digester.language = engine.collaborators.digester.language) {timing' : Timing}
    {e : Halt} :
    (engine.withDigester digester).run timing' options s = (.error e, t) ↔
      engine.run timing options s = (.error e, t) := by
  rw [breaks_run, breaks_run]
  constructor
  · exact Breaks.congr rfl fun k => (attempt?_withDigester same k).symm
  · exact Breaks.congr rfl fun k => attempt?_withDigester same k

end Engine

/-! ### In a rehearsal -/

theorem Rehearsal.keepsTo (r : Revisions) (p : FixedPackage) (digester : Digester) (root : Path)
    (trees : List Place) : Engine.KeepsTo ⟨root, r.versionControl, p.buildSystem, digester⟩ trees where
  resolve treeish h := by
    simp only [Revisions.versionControl]
    split <;> exact .refl trees h
  graph h := .refl trees h
  build h := by
    simp only [FixedPackage.buildSystem]
    split <;> exact .refl trees h
  checkOut revision destination h := by
    have hmade := (Host.Spares.refl (FileTree.aim h.workingDirectory destination :: trees)
      h).makeDirectories destination
    simp only [Revisions.versionControl]
    split <;> (rename_i heq; rw [heq] at hmade; exact hmade)
  root revision destination h root hroot := by
    simp only [Revisions.versionControl] at hroot
    split at hroot
    · cases hroot
      rfl
    · cases hroot
  graphThere root h := .refl _ h
  buildThere root h := by
    simp only [FixedPackage.buildSystem]
    split <;> exact .refl _ h

section

variable (engine : Engine) (options : RunOptions) (s : Session)

/-- A run ends in a fault just when one of the parts that can fail does so, and then with the first
such fault. The parts come in a fixed order, no digest is made or compared before they are all over,
and what was there before is spared if version control and the build keep to their own trees. In a run
that ends well, comparing begins when no digest is left to be made. Nothing that the digester does can
make a run end in a fault. -/
theorem run_fault :
    (∀ timing e t, engine.run timing options s = (.error (.fault e), t) ↔ ∃ done k u phase,
      engine.Comes options s done k u ∧ engine.Stumbles options k u phase e t) ∧
    (∀ done k u phase e t, engine.Comes options s done k u →
      engine.Stumbles options k u phase e t →
        (∃ behind, Engine.Phase.all = done ++ phase :: behind) ∧
        (∃ calls, t.calls = s.calls ++ calls ∧
          ∀ c ∈ calls, c.isDump = false ∧ c.isCompare = false) ∧
        ∀ trees, engine.KeepsTo trees → s.host.files.IsConnected → s.host.Spares trees t.host) ∧
    (∀ timing report t, engine.run timing options s = (.ok report, t) → ∃ done k u v,
      engine.Comes options s done k u ∧ engine.attempt? options k = none ∧ engine.Readies k u v ∧
        ∃ before after, v.calls = s.calls ++ before ∧ (∀ c ∈ before, c.isCompare = false) ∧
          t.calls = v.calls ++ after ∧ ∀ c ∈ after, c.isCompare = true) ∧
    (∀ digester : Digester, digester.language = engine.collaborators.digester.language →
      ∀ timing timing' e t, (engine.withDigester digester).run timing' options s = (.error e, t) ↔
        engine.run timing options s = (.error e, t)) := by
  refine ⟨fun _ _ _ => Engine.run_eq_error, ?_, fun _ _ _ => Engine.compares_run,
    fun _ same _ _ _ _ => Engine.run_withDigester same⟩
  rintro done k u phase e t comes ⟨x, attempt, v, failure, rfl⟩
  refine ⟨comes.order attempt, ?_, fun trees keeps connected => ?_⟩
  · obtain ⟨before, hbefore, hquiet⟩ := comes.calls
    obtain ⟨calls, hcalls, hnext⟩ := Engine.attempt_calls attempt u
    rw [failure, hbefore, List.append_assoc] at hcalls
    refine ⟨before ++ calls, (k.tidy_calls v).trans hcalls, fun c hc => ?_⟩
    exact (List.mem_append.1 hc).elim (hquiet c) (hnext c)
  · obtain ⟨spares, clear⟩ := comes.spares keeps connected rfl
    have hfailed := (Engine.keeps_attempt keeps connected clear attempt u spares).1
    rw [failure] at hfailed
    exact Engine.Progress.spares_tidy hfailed clear

end

/-- A baseline that cannot be built: when all digests are to be made anew, the old ones stay, and
when they are taken as they are, the run goes on to compare. -/
theorem run_fault_build :
    let collaborators := Rehearsal.collaborators .plain ["Foo"] ["Foo"]
    let package := ⟨⟨"/"⟩, .ofLibraries "demo" ["Foo"], none, 2, true⟩
    let engine : Engine := ⟨⟨"/"⟩, { collaborators with
      buildSystem := Rehearsal.FixedPackage.buildSystem package }⟩
    let options (regenerate : Bool) : RunOptions := ⟨"main", [], [], some ⟨"/"⟩, none, regenerate⟩
    let s := .ofHost (Rehearsal.machine
      [(["Foo.json"], .file (.text "old")), (["tmp"], .directory)])
    let crashing := { Rehearsal.ScriptedDigester.plain with crashingDumps := [⟨"Foo"⟩] }
    (∃ e t, engine.run .plain (options true) s = (.error (.fault e), t) ∧
      (engine.withDigester crashing.digester).run .plain (options true) s = (.error (.fault e), t) ∧
      t.calls.any Call.isDump = false ∧
      t.host.files.lookup ["Foo.json"] = some (.file (.text "old"))) ∧
    ∃ report t before after, engine.run .plain (options false) s = (.ok report, t) ∧
      t.calls = before ++ after ∧ before.any Call.isCompare = false ∧
      after.all Call.isCompare = true := by
  intro collaborators package engine options s crashing
  have hends (regenerate : Bool) : ∃ r t, engine.run .plain (options regenerate) s = (r, t) ∧
      (match r with
      | .ok _ => !regenerate
      | .error (.fault _) => regenerate
      | .error .overload => false) = true := by
    refine ⟨_, _, (Prod.eta _).symm, ?_⟩
    cases regenerate <;> decide +kernel
  constructor
  · obtain ⟨hfault, hparts, -, hdigester⟩ := run_fault engine (options true) s
    obtain ⟨r, t, hrun, hr⟩ := hends true
    match r with
    | .ok report => cases hr
    | .error .overload => cases hr
    | .error (.fault e) =>
      have hcomes := (hfault .plain e t).1 hrun
      obtain ⟨done, k, u, phase, comes, stumbles⟩ := hcomes
      obtain ⟨-, ⟨calls, hcalls, hquiet⟩, hspares⟩ := hparts done k u phase e t comes stumbles
      have hcrashing := (hdigester crashing.digester rfl .plain .plain (.fault e) t).2 hrun
      refine ⟨e, t, hrun, hcrashing, ?_, ?_⟩
      · rw [hcalls, List.any_eq_false]
        intro c hc
        rw [(hquiet c hc).1]
        decide
      · refine (hspares [] (Rehearsal.keepsTo _ _ _ _ _) ?_).files _ _ nofun rfl
        exact FileTree.isConnected_of_shallow (by decide)
  · obtain ⟨-, -, hcompares, -⟩ := run_fault engine (options false) s
    obtain ⟨r, t, hrun, hr⟩ := hends false
    match r with
    | .error (.fault e) => cases hr
    | .error .overload => cases hr
    | .ok report =>
      have hready := hcompares .plain report t hrun
      obtain ⟨-, -, -, v, -, -, -, before, after, hbefore, hnone, hafter, hall⟩ := hready
      refine ⟨report, t, before, after, hrun, ?_, ?_, List.all_eq_true.2 hall⟩
      · rw [hafter, hbefore]
        rfl
      · rw [List.any_eq_false]
        intro c hc
        rw [hnone c hc]
        decide

end Breakage
