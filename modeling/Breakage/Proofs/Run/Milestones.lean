import Mathlib.Algebra.GroupWithZero.Nat
import Breakage.Proofs.Outcome.Concordance
import Breakage.Proofs.Run.Stages
import Breakage.Proofs.Run.Timings

/-!
The milestones of a run, in the order in which they are passed. Almost all parts of a run pass none
(`Run.Unmarked`), so that it is known of each fault which ones came before it. Main statement:
`Engine.milestones_run`.
-/

namespace Breakage

namespace Run

variable {α β : Type} {x : Run α}

def SameMilestones (s t : Session) : Prop := t.milestones = s.milestones

theorem SameMilestones.trans {s t u : Session} (first : SameMilestones s t)
    (next : SameMilestones t u) : SameMilestones s u := Eq.trans next first

/-- No milestone is passed, however the part of the run ends. -/
def Unmarked (x : Run α) : Prop := ∀ s, (x s).2.milestones = s.milestones

namespace Unmarked

theorem pure {a : α} : (Pure.pure a : Run α).Unmarked := fun _ => rfl

theorem get : (MonadState.get : Run Session).Unmarked := fun _ => rfl

theorem ofExcept {r : Except Fault α} : (Run.ofExcept r).Unmarked :=
  Relates.ofExcept (R := SameMilestones) (fun _ => rfl) r

theorem ask {c : Call} {f : Action α} : (Run.ask c f).Unmarked := fun _ => rfl

theorem bind {f : α → Run β} (hx : x.Unmarked) (hf : ∀ a, (f a).Unmarked) : (x >>= f).Unmarked :=
  Relates.bind (R := SameMilestones) .trans hx hf

theorem map {f : α → β} (hx : x.Unmarked) : (f <$> x).Unmarked := by
  rw [map_eq_pure_bind]
  exact hx.bind fun _ => pure

theorem finallyDo {tidy : Session → Session} (hx : x.Unmarked)
    (h : ∀ s, (tidy s).milestones = s.milestones) : (x.finallyDo tidy).Unmarked :=
  fun s => (h _).trans (hx s)

theorem onHalt {tidy : Session → Session} (hx : x.Unmarked)
    (h : ∀ s, (tidy s).milestones = s.milestones) : (x.onHalt tidy).Unmarked :=
  Relates.onHalt (R := SameMilestones) .trans hx h

theorem of_eq {r : Except Halt α} {s t : Session} (hx : x.Unmarked) (h : x s = (r, t)) :
    t.milestones = s.milestones :=
  Relates.of_eq (R := SameMilestones) hx h

end Unmarked

end Run

open Run (Unmarked)

theorem BaselineDirectory.milestones_close (b : BaselineDirectory) (s : Session) :
    (b.close s).milestones = s.milestones := by
  cases b <;> rfl

namespace Baseline

theorem unmarked_opened (named : Option Path) (revision : Revision) :
    (BaselineDirectory.opened named revision).Unmarked := by
  intro s
  rw [opened_eq (Prod.eta _).symm]

theorem unmarked_openCheckout : openCheckout.Unmarked := by
  intro s
  rw [openCheckout_eq (Prod.eta _).symm]

theorem unmarked_prepare (c : Collaborators) (modules : ModuleSet) (revision : Revision)
    (named : Option Path) (regenerate : Bool) (schedule : Pool.Schedule) :
    (prepare c modules revision named regenerate schedule).Unmarked := by
  have hgenerate : ∀ directory missing,
      (generate c revision directory missing schedule).Unmarked := by
    intro directory missing
    refine .bind unmarked_openCheckout fun checkout => .finallyDo ?_ fun _ => rfl
    refine .bind .ask fun root => .bind .ask fun plan => .bind .ask fun graph => ?_
    exact milestones_dumpAll
  refine .bind (unmarked_opened named revision) fun directory => .bind .get fun s => ?_
  dsimp only
  split
  · exact .pure
  · exact .bind ((hgenerate _ _).onHalt directory.milestones_close) fun _ => .pure

end Baseline

namespace Comparing

variable {directory : Path} {allowlist : Allowlist} {generationFailures modules : ModuleSet}
  {s : Session} {ds : History} {w : Comparing}
  (kept : Kept directory allowlist generationFailures s ds w) (covers : ds.Covers modules.toList)
include kept covers

theorem isPartition_outcome : (w.outcome modules).isPartition = true := by
  apply Outcome.isPartition_of_names_perm
  rw [List.perm_iff_count]
  intro m
  have hplaces := places_outcome kept covers m
  rw [Outcome.names, List.count_append, List.count_append, ModuleMap.count_keys,
    ModuleMap.count_keys, hplaces]
  exact modules.nodup.count.symm

end Comparing

namespace Milestone

def ofResult (c : Comparison) : Milestone := .compared c.module c.breakingChanges.length

def changes : Milestone → Nat
  | compared _ n => n
  | _ => 0

end Milestone

namespace Engine

def Progress.chosen? : Progress → Option (Revision × ModuleSet)
  | started | resolved _ | described _ _ => none
  | selected revision modules | allowed revision modules _ => some (revision, modules)
  | prepared p => some (p.revision, p.modules)
  | opened o | sheltered o _ | checkedOut o _ _ | built o _ _ _ | arrived o _ =>
    some (o.prepared.revision, o.prepared.modules)

/-- The milestones that a run has passed on its way. -/
def Progress.trail (treeish : String) (k : Progress) : List Milestone :=
  k.chosen?.toList.map fun chosen => .started treeish chosen.1.id chosen.2.size

theorem Progress.tidy_milestones (k : Progress) (u : Session) :
    (k.tidy u).milestones = u.milestones := by
  have hfold : ∀ (paths : List Path) (u : Session),
      (paths.foldl discard u).milestones = u.milestones := by
    intro paths
    induction paths with
    | nil => exact fun _ => rfl
    | cons path rest ih => exact fun u => ih (discard u path)
  exact hfold _ u

/-- The milestone that is passed just before the first pool is made, if no digest is missing. -/
def Progress.last? : Progress → Option Milestone
  | opened o => some (.baselineReady o.directory.path 0 0)
  | _ => none

theorem Progress.poised_milestones (k : Progress) (u : Session) :
    (k.poised u).milestones = u.milestones ++ k.last?.toList := by
  cases k with
  | opened o => rfl
  | _ => exact (List.append_nil _).symm

variable {engine : Engine} {options : RunOptions} {k k' : Progress} {phase : Phase}
  {x : Run Progress} {done : List Phase} {s t u v : Session} {e : Fault}

theorem chosen?_eq_none_iff (attempt : engine.attempt? options k = some (phase, x)) :
    k.chosen? = none ↔ phase ∈ [Phase.resolve, .describe, .select] := by
  cases k with
  | opened o =>
    rw [attempt?] at attempt
    split at attempt
    · cases attempt
    · cases attempt
      simp [Progress.chosen?]
  | arrived o arrival => cases attempt
  | _ =>
    cases attempt
    simp [Progress.chosen?]

variable (options k) in
/-- A part of the run passes no milestone if it fails, and otherwise those that the trail grows by. -/
def Extends (x : Run Progress) : Prop := ∀ u,
  (∀ e v, x u = (.error e, v) → v.milestones = u.milestones) ∧
  ∀ k' v, x u = (.ok k', v) → ∃ new, v.milestones = u.milestones ++ new ∧
    k'.trail options.treeish = k.trail options.treeish ++ new

theorem extends_of_unmarked {α : Type} {y : Run α} {f : α → Progress} (hy : y.Unmarked)
    (same : ∀ a u v, y u = (.ok a, v) → (f a).chosen? = k.chosen?) : Extends options k (f <$> y) := by
  refine fun u => ⟨fun e v h => hy.of_eq (Run.map_eq_error.1 h), fun k' v h => ⟨[], ?_, ?_⟩⟩
  · rw [List.append_nil, hy.map.of_eq h]
  · obtain ⟨a, ha, rfl⟩ := Run.map_eq_ok.1 h
    rw [Progress.trail, same a u v ha, List.append_nil, Progress.trail]

theorem extends_chooseModules {revision : Revision} {graph : PackageGraph} :
    Extends options (.described revision graph)
      (.selected revision <$> engine.chooseModules options revision graph) := by
  have hselect : (engine.selectModules graph options).Unmarked := fun _ => rfl
  refine fun u => ⟨fun e v h => ?_, fun k' v h => ?_⟩
  · rw [Run.map_eq_error, chooseModules, Run.bind_eq_error] at h
    rcases h with h | ⟨modules, w, -, h⟩
    · exact hselect.of_eq h
    · simp [Run.map_eq_error] at h
  · obtain ⟨modules, hmodules, rfl⟩ := Run.map_eq_ok.1 h
    simp only [chooseModules, Run.bind_eq_ok, Run.update_eq_ok, Run.pure_eq_ok] at hmodules
    obtain ⟨_, w, hchosen, _, _, rfl, rfl, rfl⟩ := hmodules
    exact ⟨_, congrArg (· ++ _) (hselect.of_eq hchosen), rfl⟩

theorem attempt_extends (attempt : engine.attempt? options k = some (phase, x)) :
    Extends options k x := by
  cases k with
  | described revision graph => cases attempt; exact extends_chooseModules
  | selected revision modules =>
    cases attempt
    exact extends_of_unmarked (.bind .get fun _ => .ofExcept) fun _ _ _ _ => rfl
  | prepared p =>
    cases attempt
    refine extends_of_unmarked (.bind (Baseline.unmarked_opened _ _) fun _ => .bind .get fun _ => .pure)
      fun o u v h => ?_
    simp only [openDirectory, Run.bind_eq_ok, Run.pure_eq_ok] at h
    obtain ⟨directory, w, -, now, w', -, rfl, -⟩ := h
    rfl
  | opened o =>
    rw [attempt?] at attempt
    split at attempt
    · cases attempt
    · cases attempt
      exact extends_of_unmarked Baseline.unmarked_openCheckout fun _ _ _ _ => rfl
  | arrived o arrival => cases attempt
  | _ => cases attempt; exact extends_of_unmarked .ask fun _ _ _ _ => rfl

theorem Comes.milestones (h : engine.Comes options s done k u) :
    u.milestones = s.milestones ++ k.trail options.treeish := by
  induction h with
  | start => exact (List.append_nil _).symm
  | next _ attempt success ih =>
    obtain ⟨new, hmilestones, htrail⟩ := (attempt_extends attempt _).2 _ _ success
    rw [hmilestones, ih, htrail, List.append_assoc]

theorem Stumbles.milestones (h : engine.Stumbles options k u phase e t) :
    t.milestones = u.milestones := by
  obtain ⟨x, attempt, v, failure, rfl⟩ := h
  rw [Progress.tidy_milestones, (attempt_extends attempt u).1 _ v failure]

theorem exists_chosen (last : engine.attempt? options k = none) :
    ∃ revision modules, k.chosen? = some (revision, modules) := by
  cases k with
  | opened o | arrived o arrival => exact ⟨_, _, rfl⟩
  | _ => cases last

theorem map_milestone {allowlist : Allowlist} (answers : List Comparing.Answered) :
    answers.filterMap (Comparing.milestone? allowlist) =
      (answers.filterMap (Comparing.result? allowlist)).map Milestone.ofResult := by
  rw [List.map_filterMap]
  rfl

theorem milestones_prepare {p : Prepared} (h : engine.prepare options s = (.ok p, t)) :
    t.milestones = s.milestones ++ [.started options.treeish p.revision.id p.modules.size] := by
  simp only [prepare, Run.bind_eq_ok, Run.pure_eq_ok, Run.get_eq_ok, Run.update_eq_ok,
    Run.ofExcept_eq_ok] at h
  obtain ⟨revision, s₁, hrevision, graph, s₂, hgraph, modules, s₃, hmodules, _, s₄, rfl, _, _,
    ⟨rfl, rfl⟩, allowlist, _, ⟨-, rfl⟩, plan, s₅, hplan, rfl, rfl⟩ := h
  rw [Run.Unmarked.ask.of_eq hplan, Session.mark_milestones, selectModules_eq_ok hmodules,
    Run.Unmarked.ask.of_eq hgraph, Run.Unmarked.ask.of_eq hrevision]

/-- A run that has ended well: which milestones it passed, and what they tell. -/
structure Completes (engine : Engine) (options : RunOptions) (s : Session) (r : RunReport)
    (t : Session) (p : Prepared) (compared : List Milestone) : Prop where
  prepared : ∃ u, engine.prepare options s = (.ok p, u)
  requested : r.outcome.requested = p.modules
  milestones : t.milestones = s.milestones ++
    [.started options.treeish p.revision.id p.modules.size,
      .baselineReady r.baseline.directory.path r.baseline.dumps.dumped.size
        r.baseline.dumps.generationFailures.size] ++
    compared ++ [.judged r.verdict.passed r.verdict.violations.length]
  /-- one for each module that succeeded -/
  perm : compared.Perm (r.outcome.results.map Milestone.ofResult)
  nodup : (r.outcome.results.map Comparison.module).Nodup
  succeeded : ∀ m, (∃ c ∈ r.outcome.results, c.module = m) ↔
    m ∈ p.modules ∧ r.outcome.skipped.get? m = none ∧ r.outcome.failed.get? m = none
  allowed : ∀ c ∈ r.outcome.results, ∃ host found,
    (engine.collaborators.digester.compare (c.module.digestPath r.baseline.directory.path) c.module
      p.plan p.allowlist.source host).1 = .returned (.ok found) ∧
    c.breakingChanges = found.breakingChanges.filter fun d => !p.allowlist.contains d.message
  lines : (compared.map Milestone.changes).sum = r.report.lines.countP Report.isChange

theorem completes_of_run {timing : Timing} {r : RunReport}
    (run : engine.run timing options s = (.ok r, t)) :
    ∃ p compared, engine.Completes options s r t p compared := by
  obtain ⟨p, b, w, hready, hconclude⟩ := run_eq_ok.1 run
  obtain ⟨u, v, hprepare, hbaseline, rfl, -⟩ := ready_eq_ok.1 hready
  let ready : Milestone :=
    .baselineReady b.directory.path b.dumps.dumped.size b.dumps.generationFailures.size
  let o := (engine.comparisons timing p b (v.mark ready)).1
  have leads := engine.leads_history timing p b (v.mark ready)
  have kept := engine.kept_history timing p b (v.mark ready)
  have covers := engine.covers_history timing p b (v.mark ready)
  have partition : o.isPartition = true := Comparing.isPartition_outcome kept covers
  have hnodup : (o.results.map Comparison.module).Nodup := Outcome.nodup_results partition
  have hv : v.milestones = s.milestones ++
      [.started options.treeish p.revision.id p.modules.size] :=
    ((Baseline.unmarked_prepare _ _ _ _ _ _).of_eq hbaseline).trans (milestones_prepare hprepare)
  let compared := (engine.history timing p b (v.mark ready)).reports.filterMap
    (Comparing.milestone? p.allowlist)
  have hmilestones : (engine.comparisons timing p b (v.mark ready)).2.milestones = s.milestones ++
      [.started options.treeish p.revision.id p.modules.size, ready] ++ compared := by
    refine (Comparing.milestones_of_leads leads).trans (congrArg (· ++ _) ?_)
    rw [Session.mark_milestones, hv, List.append_assoc]
    rfl
  have hperm : compared.Perm (o.results.map Milestone.ofResult) := by
    rw [show compared = _ from map_milestone _]
    refine List.Perm.map _ ((covers.reports.filterMap _).trans ?_)
    exact (Comparing.results_outcome kept covers).symm
  cases hconclude
  refine ⟨p, compared, ⟨u, hprepare⟩, rfl, ?_, hperm, hnodup, fun m => ?_, fun c hc => ?_, ?_⟩
  · rw [Session.mark_milestones, Session.emitAll_milestones, hmilestones]
  · constructor
    · rintro ⟨c, hc, rfl⟩
      obtain ⟨hm, hskipped, hfailed, -⟩ := Outcome.found_of_result partition hc
      exact ⟨hm, hskipped, hfailed⟩
    · rintro ⟨hm, hskipped, hfailed⟩
      cases Outcome.found partition hm with
      | skipped _ hreason _ _ => exact absurd (hreason.symm.trans hskipped) (Option.some_ne_none _)
      | failed _ _ herror _ => exact absurd (herror.symm.trans hfailed) (Option.some_ne_none _)
      | compared c _ _ hresult => exact ⟨c, Outcome.mem_of_result? hresult⟩
  · obtain ⟨answered, hanswered, hresult⟩ := (Comparing.mem_results_outcome kept covers).1 hc
    obtain ⟨found, hfound, rfl⟩ := Comparing.result?_eq_some_iff.1 hresult
    obtain ⟨host, hhost⟩ := Comparing.genuine_of_leads leads answered hanswered
    exact ⟨host, found, hhost.symm.trans hfound, rfl⟩
  · rw [(hperm.map Milestone.changes).sum_nat, List.map_map]
    exact (Outcome.countP_isChange partition).symm

/-- The milestones of a run. One that ends well passes one for each comparison, in the order in which
they came to an end, between that of the baseline and that of the verdict (`Completes`). One that ends
in a fault has passed none if the modules were not yet known, and otherwise only theirs. One that breaks
off has passed theirs, and that of the baseline if no digest was missing. -/
theorem milestones_run (engine : Engine) (timing : Timing) (options : RunOptions) (s : Session) :
    match engine.run timing options s with
    | (.ok r, t) => ∃ p compared, engine.Completes options s r t p compared
    | (.error (.fault e), t) => ∃ done k u phase, engine.Comes options s done k u ∧
        engine.Stumbles options k u phase e t ∧
        match k.chosen? with
        | none => phase ∈ [Phase.resolve, .describe, .select] ∧ t.milestones = s.milestones
        | some (revision, modules) => phase ∉ [Phase.resolve, .describe, .select] ∧
          t.milestones = s.milestones ++ [.started options.treeish revision.id modules.size]
    | (.error .overload, t) => Pool.widthLimit < engine.collaborators.buildSystem.workers ∧
        ∃ done k u revision modules, engine.Comes options s done k u ∧
          engine.attempt? options k = none ∧ k.chosen? = some (revision, modules) ∧
          t.milestones = s.milestones ++
            .started options.treeish revision.id modules.size :: k.last?.toList := by
  rcases hrun : engine.run timing options s with ⟨(e | _) | r, t⟩
  · obtain ⟨done, k, u, phase, comes, stumbles⟩ := run_eq_error.1 hrun
    refine ⟨done, k, u, phase, comes, stumbles, ?_⟩
    have ht := stumbles.milestones.trans comes.milestones
    obtain ⟨x, attempt, -⟩ := stumbles
    have hearly := chosen?_eq_none_iff attempt
    rw [Progress.trail] at ht
    cases hchosen : k.chosen? with
    | none =>
      rw [hchosen] at ht hearly
      exact ⟨hearly.1 rfl, ht.trans (List.append_nil _)⟩
    | some chosen =>
      rw [hchosen] at ht hearly
      exact ⟨fun h => absurd (hearly.2 h) (Option.some_ne_none _), ht⟩
  · obtain ⟨beyond, done, k, u, comes, last, rfl⟩ := run_eq_overload.1 hrun
    obtain ⟨revision, modules, hchosen⟩ := exists_chosen last
    refine ⟨beyond, done, k, u, revision, modules, comes, last, hchosen, ?_⟩
    rw [Progress.tidy_milestones, Progress.poised_milestones, comes.milestones, Progress.trail, hchosen,
      List.append_assoc]
    rfl
  · exact completes_of_run hrun

/-- One module has a breaking change, the comparison of the other crashes. -/
example :
    let digester := (Rehearsal.ScriptedDigester.plain.addBreaking ⟨"Foo"⟩ ["gone"]).setPart ⟨"Bar"⟩ .crash
    let engine : Engine := ⟨⟨"/"⟩, Rehearsal.collaborators digester ["Bar", "Foo"] ["Bar", "Foo"]⟩
    let options : RunOptions := ⟨"main", [], [], some ⟨"/"⟩, none, false⟩
    (engine.run .plain options (.ofHost (Rehearsal.machine [(["tmp"], .directory)]))).2.milestones =
      [.started "main" "abc123" 2, .baselineReady ⟨"/"⟩ 2 0, .compared ⟨"Foo"⟩ 1, .judged false 2] := by
  decide +kernel

end Engine

end Breakage
