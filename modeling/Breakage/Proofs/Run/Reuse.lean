import Breakage.Proofs.Run.Absence
import Breakage.Proofs.Run.Cache

/-!
Runs over one directory, one after the other. Each leaves the directory in order for the next one
(`holds_run`), and so each takes from it the digests that it would have made. Main statement:
`Engine.run_like_fresh`.
-/

namespace Breakage

variable {revision : Revision} {g : PackageGraph} {content : ModuleName → Option FileTree.Content}
  {answer : BuildPlan → Option Path → ModuleName → FileTree.Content → Comparing.Answer}

namespace Engine

/-- A run up to the point where the directory of its digests is open, and where the baseline can be
checked out and built. -/
structure Settles (engine : Engine) (options : RunOptions) (s : Session) (p : Prepared) (u : Session)
    (d : BaselineDirectory) (t : Session) : Prop where
  prepared : engine.prepare options s = (.ok p, u)
  opened : BaselineDirectory.opened options.baselineDirectory p.revision u = (.ok d, t)
  arrives : ∃ arrival v, Baseline.arrive engine.collaborators p.revision t = (.ok arrival, v)

/-- A run at the revision that opens the directory will find it in order. It need not be there yet; a
directory that is there and in order is found so (`findsInOrder_of_holds`). -/
def FindsInOrder (engine : Engine) (content : ModuleName → Option FileTree.Content)
    (revision : Revision) (path : Path) (s : Session) : Prop :=
  ∀ options p u d t, engine.prepare options s = (.ok p, u) → p.revision = revision →
    BaselineDirectory.opened (some path) revision u = (.ok d, t) → t.host.Holds content path

/-- Runs over the directory at the revision, one after the other. What is done after each of them
leaves the digests alone. -/
inductive Series (engine : Engine) (revision : Revision) (path : Path) (s : Session) :
    Session → Prop where
  | start : Series engine revision path s s
  | next {t w v : Session} {timing : Timing} {options : RunOptions} {r : RunReport}
      (before : Series engine revision path s t) (named : options.baselineDirectory = some path)
      (run : engine.run timing options t = (.ok r, w)) (same : r.revision = revision)
      (identifiers : ∀ m ∈ r.outcome.requested, m.isIdentifier = true)
      (rest : w.host.Leaves path v.host) : Series engine revision path s v

variable {engine : Engine} {timing : Timing} {options : RunOptions} {s u t w : Session}
  {p : Prepared} {b : Baseline} {path : Path}

theorem Settles.exists_ready {d : BaselineDirectory} (settles : engine.Settles options s p u d t)
    (within : engine.collaborators.buildSystem.workers ≤ Pool.widthLimit) (timing : Timing) :
    ∃ b w, engine.ready timing options s = (.ok (p, b), w) ∧ b.directory = d := by
  obtain ⟨b, v, hb, hd⟩ := Baseline.exists_prepare p.modules options.regenerate timing.dumps
    settles.opened settles.arrives within
  exact ⟨b, _, ready_eq_ok.2 ⟨u, v, settles.prepared, hb, rfl, within⟩, hd⟩

theorem Settles.overloaded {d : BaselineDirectory} (settles : engine.Settles options s p u d t)
    (respect : engine.collaborators.Respect p.revision d.path) (houses : t.host.Houses d.path)
    (beyond : Pool.widthLimit < engine.collaborators.buildSystem.workers) (timing : Timing) :
    ∃ v, engine.run timing options s = (.error .overload, d.close v) ∧
      t.host.Leaves d.path v.host := by
  rw [run, Run.bind_of_ok settles.prepared]
  rcases Baseline.prepare_overloaded p.modules options.regenerate timing.dumps settles.opened
    settles.arrives beyond with hb | ⟨arrival, v, harrive, hb⟩
  · rw [Run.bind_of_ok hb, Run.bind_of_ok (Run.update_eq_ok (u := ()).2 rfl)]
    exact ⟨_, Run.bind_of_error (Run.onHalt_of_error (Run.pooled_eq_error.2 ⟨beyond, rfl, rfl⟩)),
      .refl houses⟩
  · exact ⟨_, Run.bind_of_error hb, Baseline.leaves_departed respect houses harrive⟩

variable (engine options) in
def settle : Run (Prepared × Session × BaselineDirectory × Session) := do
  let p ← engine.prepare options
  let u ← get
  let d ← BaselineDirectory.opened options.baselineDirectory p.revision
  let t ← get
  let _ ← Baseline.arrive engine.collaborators p.revision
  return (p, u, d, t)

theorem settles_of_settle {d : BaselineDirectory}
    (h : engine.settle options s = (.ok (p, u, d, t), w)) : engine.Settles options s p u d t := by
  simp only [settle, Run.bind_eq_ok, Run.pure_eq_ok, Run.get_eq_ok, Prod.mk.injEq] at h
  obtain ⟨_, _, hprepared, _, _, ⟨rfl, rfl⟩, _, _, hopened, _, _, ⟨rfl, rfl⟩, arrival, v, harrive,
    ⟨rfl, rfl, rfl, rfl⟩, -⟩ := h
  exact ⟨hprepared, hopened, arrival, v, harrive⟩

section

variable (constant : engine.collaborators.IsConstant revision g content answer b.directory.path)
  (identifiers : ∀ m ∈ p.modules, m.isIdentifier = true) (same : p.revision = revision)
  (prepared : engine.prepare options s = (.ok p, u))
  (opened : BaselineDirectory.opened options.baselineDirectory p.revision u = (.ok b.directory, t))
  (holds : t.host.Holds content b.directory.path)
  (ready : engine.ready timing options s = (.ok (p, b), w))
include constant identifiers same prepared opened holds ready

theorem stored_ready :
    w.host.Holds content b.directory.path ∧
      (∀ m ∈ p.modules, w.host.digest? b.directory.path m = (content m).map .file) ∧
      ∀ m, m ∈ b.dumps.generationFailures ↔ m ∈ p.modules ∧
        g.Defines engine.collaborators.digester.language m ∧ content m = none := by
  subst same
  obtain ⟨u', v, hp, hb, rfl, -⟩ := ready_eq_ok.1 ready
  rw [prepared] at hp
  cases hp
  simp only [Session.mark_host]
  exact ⟨Baseline.holds_prepare constant holds identifiers hb opened,
    fun m hm => Baseline.digest?_prepare_eq constant holds identifiers hb opened hm,
    fun m => Baseline.mem_generationFailures_iff constant holds identifiers hb opened⟩

theorem holds_comparisons :
    (engine.comparisons timing p b w).2.host.Holds content b.directory.path := by
  obtain ⟨stored, -, -⟩ := stored_ready constant identifiers same prepared opened holds ready
  exact stored.leaves
    (Comparing.leaves_compareAll constant identifiers stored.houses (compareAll_of_ready ready))

end

section

variable (constant : engine.collaborators.IsConstant revision g content answer path)
include constant

/-- A run leaves the directory in order. -/
theorem holds_run (finds : engine.FindsInOrder content revision path s)
    (named : options.baselineDirectory = some path) {r : RunReport}
    (run : engine.run timing options s = (.ok r, w)) (same : r.revision = revision)
    (identifiers : ∀ m ∈ r.outcome.requested, m.isIdentifier = true) :
    w.host.Holds content path := by
  obtain ⟨p, ⟨d, dumps⟩, v, hready, hconclude⟩ := run_eq_ok.1 run
  cases hconclude
  obtain ⟨u, v', hp, hb, -, -⟩ := ready_eq_ok.1 hready
  obtain ⟨t, hopened, -⟩ := Baseline.prepare_eq_ok.1 hb
  have hnamed := hopened
  rw [named] at hnamed
  obtain rfl := Baseline.directory_of_opened hnamed
  have hrevision : p.revision = revision := same
  have holds := finds options p u _ t hp hrevision (by rwa [hrevision] at hnamed)
  exact holds_comparisons constant identifiers hrevision hp hopened holds hready

variable (resolves : ∀ (treeish : String) (h : Host), h.Houses path →
  h.Leaves path (engine.collaborators.versionControl.resolve treeish h).2)
include resolves

theorem findsInOrder_of_holds (holds : s.host.Holds content path) :
    engine.FindsInOrder content revision path s := by
  intro options p u d t prepared _ opened
  simp only [prepare, Run.bind_eq_ok, Run.pure_eq_ok, Run.get_eq_ok, Run.update_eq_ok,
    Run.ofExcept_eq_ok] at prepared
  obtain ⟨resolved, s₁, hresolved, graph, s₂, hgraph, modules, s₃, hmodules, _, s₄, rfl, _, _,
    ⟨rfl, rfl⟩, allowlist, _, ⟨-, rfl⟩, plan, s₅, hplan, rfl, rfl⟩ := prepared
  obtain rfl := selectModules_eq_ok hmodules
  have hresolve := resolves options.treeish s.host holds.houses
  rw [Run.action_of_ask hresolved] at hresolve
  have hdescribe := constant.graph engine.packageRoot s₁.host hresolve.houses
  rw [Run.action_of_ask hgraph] at hdescribe
  have hbuild := constant.build engine.packageRoot s₃.host hdescribe.houses
  have hbuilt := Run.action_of_ask hplan
  rw [Session.mark_host] at hbuilt
  rw [hbuilt] at hbuild
  have hleft := holds.leaves ((hresolve.trans hdescribe).trans hbuild)
  rwa [Baseline.opened_there hleft.houses opened]

/-- The directory is found in order after any number of runs. -/
theorem findsInOrder_of_series (finds : engine.FindsInOrder content revision path s)
    (series : engine.Series revision path s t) : engine.FindsInOrder content revision path t := by
  induction series with
  | start => exact finds
  | next before named run same identifiers rest ih =>
    exact findsInOrder_of_holds constant resolves
      ((holds_run constant ih named run same identifiers).leaves rest)

end

end Engine

end Breakage
