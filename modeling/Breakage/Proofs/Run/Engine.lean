import Breakage.Proofs.Run.Baseline
import Breakage.Proofs.Run.Comparing
import Breakage.Run.Engine

/-!
A whole run, part by part: what comes before the comparisons and the pool for them (`Engine.ready`) can
fail, and what comes after it cannot (`Engine.run_eq_ok`).
-/

namespace Breakage

namespace Selection

theorem length_complaints_add {s : Selection} (h : s.complaints.length = s.rejected.length)
    (name : String) (r : Except String (List ModuleName)) :
    (s.add name r).complaints.length = (s.add name r).rejected.length := by
  cases r with
  | ok ms => exact h
  | error complaint => simp [add, h]

theorem length_complaints_ofNames (g : PackageGraph) (language : Language)
    (products targets : List String) :
    (ofNames g language products targets).complaints.length =
      (ofNames g language products targets).rejected.length := by
  have hfold : ∀ (names : List String) (f : String → Except String (List ModuleName)) (s : Selection),
      s.complaints.length = s.rejected.length →
      (names.foldl (fun s name => s.add name (f name)) s).complaints.length =
        (names.foldl (fun s name => s.add name (f name)) s).rejected.length := by
    intro names f s h
    induction names generalizing s with
    | nil => exact h
    | cons name rest ih => exact ih _ (length_complaints_add h name (f name))
  exact hfold targets _ _ (hfold products _ empty rfl)

end Selection

theorem PackageGraph.select_eq_ok {g : PackageGraph} {language : Language}
    {products targets : List String} {modules : ModuleSet} {events : List Event}
    (h : g.select language products targets = (.ok modules, events)) : events = [] := by
  unfold select at h
  split at h
  · cases h
    rfl
  · have hlength := Selection.length_complaints_ofNames g language products targets
    obtain ⟨hmodules, rfl⟩ := Prod.mk.inj h
    unfold Selection.modules? at hmodules
    split at hmodules
    · cases hmodules
    · rename_i hnone
      rw [Bool.not_eq_true', Bool.not_eq_false, List.isEmpty_iff] at hnone
      rw [hnone] at hlength
      rw [List.eq_nil_of_length_eq_zero hlength]
      rfl

namespace Engine

variable {engine : Engine} {timing : Timing} {options : RunOptions} {s t : Session}

theorem selectModules_eq_ok {graph : PackageGraph} {modules : ModuleSet}
    (h : engine.selectModules graph options s = (.ok modules, t)) : t = s := by
  let r := graph.select engine.collaborators.digester.language options.products options.targets
  change (r.1.mapError Halt.fault, s.emitAll r.2) = (.ok modules, t) at h
  obtain ⟨hmodules, rfl⟩ := Prod.mk.inj h
  have hevents : r.2 = [] :=
    PackageGraph.select_eq_ok (Prod.ext (Except.mapError_eq_ok.1 hmodules) rfl)
  rw [hevents]
  rfl

theorem prepare_record {p : Prepared} (h : engine.prepare options s = (.ok p, t)) :
    t.journal = s.journal ∧ t.calls = s.calls ++
      [.resolve options.treeish, .graph engine.packageRoot, .build engine.packageRoot] := by
  simp only [prepare, Run.bind_eq_ok, Run.pure_eq_ok, Run.get_eq_ok, Run.update_eq_ok,
    Run.ofExcept_eq_ok] at h
  obtain ⟨revision, s₁, hrevision, graph, s₂, hgraph, modules, s₃, hmodules, _, s₄, rfl, _, _,
    ⟨rfl, rfl⟩, allowlist, _, ⟨-, rfl⟩, plan, s₅, hplan, rfl, rfl⟩ := h
  rw [Run.ask_eq hplan, selectModules_eq_ok hmodules, Run.ask_eq hgraph, Run.ask_eq hrevision]
  exact ⟨rfl, by simp [Session.note, Session.mark]⟩

variable (engine) in
def ready (timing : Timing) (options : RunOptions) : Run (Prepared × Baseline) := do
  let c := engine.collaborators
  let p ← engine.prepare options
  let baseline ← Baseline.prepare c p.modules p.revision options.baselineDirectory
    options.regenerate timing.dumps
  let dumps := baseline.dumps
  let milestone := .baselineReady baseline.directory.path dumps.dumped.size
    dumps.generationFailures.size
  Run.update (Session.mark · milestone)
  Run.pooled c.buildSystem.workers (pure (p, baseline))

section Comparisons

variable (engine timing) (p : Prepared) (b : Baseline) (t : Session)

def duty : Pool.Duty Comparing ModuleName Comparing.Answer :=
  Comparing.duty engine.collaborators.digester p.plan b.directory.path p.allowlist
    b.dumps.generationFailures

def pool : Pool Comparing ModuleName Comparing.Answer :=
  Comparing.start t engine.collaborators.buildSystem.workers p.modules

def history : Comparing.History :=
  (engine.duty p b).history timing.comparisons (engine.pool p t)

def shared : Comparing := ((engine.duty p b).run timing.comparisons (engine.pool p t)).world

def comparisons : Outcome × Session :=
  let w := engine.shared timing p b t
  (w.outcome p.modules, w.session)

def hostAfter (es : Comparing.History) : Host :=
  Comparing.hostAfter engine.collaborators.digester p.plan b.directory.path p.allowlist
    b.dumps.generationFailures t es

theorem leads_history : Pool.Leads (engine.duty p b) (engine.pool p t) (engine.history timing p b t)
    ((engine.duty p b).run timing.comparisons (engine.pool p t)) :=
  Pool.leads_run (engine.duty p b) timing.comparisons (engine.pool p t)

theorem kept_history : Comparing.Kept b.directory.path p.allowlist b.dumps.generationFailures t
    (engine.history timing p b t) (engine.shared timing p b t) :=
  Comparing.kept_of_leads engine.collaborators.digester p.plan (engine.leads_history timing p b t)

theorem covers_history : (engine.history timing p b t).Covers p.modules.toList :=
  Pool.covers_history (engine.duty p b) timing.comparisons _ _ _

end Comparisons

theorem ready_eq_ok {p : Prepared} {b : Baseline} :
    engine.ready timing options s = (.ok (p, b), t) ↔ ∃ u v,
      engine.prepare options s = (.ok p, u) ∧
      Baseline.prepare engine.collaborators p.modules p.revision options.baselineDirectory
        options.regenerate timing.dumps u = (.ok b, v) ∧
      v.mark (.baselineReady b.directory.path b.dumps.dumped.size b.dumps.generationFailures.size) =
        t ∧ engine.collaborators.buildSystem.workers ≤ Pool.widthLimit := by
  simp only [ready, Run.bind_eq_ok, Run.update_eq_ok, Run.pooled_eq_ok]
  constructor
  · rintro ⟨_, u, hp, _, v, hb, _, _, rfl, within, hpb⟩
    cases hpb
    exact ⟨u, v, hp, hb, rfl, within⟩
  · rintro ⟨u, v, hp, hb, rfl, within⟩
    exact ⟨p, u, hp, b, v, hb, (), _, rfl, within, rfl⟩

theorem compareAll_of_ready {p : Prepared} {b : Baseline}
    (h : engine.ready timing options s = (.ok (p, b), t)) :
    compareAll engine.collaborators.digester p.plan b.directory.path p.allowlist
      b.dumps.generationFailures p.modules engine.collaborators.buildSystem.workers timing.comparisons
      t = (.ok (engine.comparisons timing p b t).1, (engine.comparisons timing p b t).2) := by
  obtain ⟨-, -, -, -, -, within⟩ := ready_eq_ok.1 h
  exact Run.pooled_eq_ok.2 ⟨within, rfl⟩

theorem run_eq_ok {report : RunReport} :
    engine.run timing options s = (.ok report, t) ↔ ∃ p b u,
      engine.ready timing options s = (.ok (p, b), u) ∧
      conclude options p.revision b (engine.comparisons timing p b u).1
        (engine.comparisons timing p b u).2 = (report, t) := by
  simp only [run, Run.bind_eq_ok, Run.update_eq_ok, Run.lift_eq_ok, Run.onHalt_eq_ok]
  constructor
  · rintro ⟨p, s₁, hp, b, s₂, hb, _, _, rfl, o, s₃, ho, h⟩
    obtain ⟨within, ho⟩ := Run.pooled_eq_ok.1 ho
    refine ⟨p, b, _, ready_eq_ok.2 ⟨s₁, s₂, hp, hb, rfl, within⟩, ?_⟩
    rw [show engine.comparisons timing p b _ = (o, s₃) from ho]
    exact h
  · rintro ⟨p, b, u, reached, h⟩
    obtain ⟨s₁, s₂, hp, hb, rfl, -⟩ := ready_eq_ok.1 reached
    exact ⟨p, s₁, hp, b, s₂, hb, (), _, rfl, _, _, compareAll_of_ready reached, h⟩

theorem record_ready {p : Prepared} {b : Baseline}
    (h : engine.ready timing options s = (.ok (p, b), t)) :
    ∃ (calls : List Call) (events : List Event), t.calls = s.calls ++ calls ∧
      (∀ call ∈ calls, call.compared? = none) ∧
      t.journal = s.journal.emitAll events ∧ ∀ e ∈ events, e.isError = false := by
  obtain ⟨u, v, hp, hb, rfl, -⟩ := ready_eq_ok.1 h
  obtain ⟨calls, events, hcalls, hcompared, hjournal, hevents⟩ := Baseline.record_prepare hb
  obtain ⟨hu, hprepareCalls⟩ := prepare_record hp
  rw [hprepareCalls, List.append_assoc] at hcalls
  rw [hu] at hjournal
  refine ⟨_, events, hcalls, fun call hcall => ?_, hjournal, hevents⟩
  rcases List.mem_append.1 hcall with h | h
  · simp only [List.mem_cons, List.not_mem_nil, or_false] at h
    rcases h with rfl | rfl | rfl <;> rfl
  · exact hcompared call h

end Engine

end Breakage
