import Breakage.Proofs.Pool.Mirror
import Breakage.Proofs.Run.Baseline
import Breakage.Proofs.Run.Comparing
import Breakage.Run.Engine

/-!
What holds of the machine all through a run, however the run ends. Each part of a run is seen to keep
it (`Run.Keeps`), and says what it knows of its result. Main statement: `Engine.keeps_run`, by which it
is enough to look at single calls of the collaborators.
-/

namespace Breakage

variable {I : Host → Prop} {α β : Type}

/-- `I` still holds after the action, and `Q` of its result if there is one. -/
def Action.Keeps (I : Host → Prop) (f : Action α) (Q : α → Prop) : Prop :=
  ∀ h, I h → I (f h).2 ∧ ∀ a, (f h).1 = .ok a → Q a

namespace Run

def Keeps (I : Host → Prop) (x : Run α) (Q : α → Prop) : Prop :=
  ∀ s, I s.host → I (x s).2.host ∧ ∀ a, (x s).1 = .ok a → Q a

namespace Keeps

variable {x : Run α} {Q : α → Prop}

theorem pure {a : α} (h : Q a) : Keeps I (Pure.pure a) Q :=
  fun _ hs => ⟨hs, fun _ ha => Except.ok.inj ha ▸ h⟩

theorem bind {f : α → Run β} {R : β → Prop} (hx : Keeps I x Q)
    (hf : ∀ a, Q a → Keeps I (f a) R) : Keeps I (x >>= f) R := by
  intro s hs
  obtain ⟨ht, hQ⟩ := hx s hs
  rcases hr : x s with ⟨e | a, t⟩
  · rw [hr] at ht
    rw [Run.bind_of_error hr]
    exact ⟨ht, nofun⟩
  · rw [hr] at ht hQ
    rw [Run.bind_of_ok hr]
    exact hf a (hQ a rfl) t ht

theorem map {f : α → β} {R : β → Prop} (hx : Keeps I x Q) (hf : ∀ a, Q a → R (f a)) :
    Keeps I (f <$> x) R := by
  rw [map_eq_pure_bind]
  exact hx.bind fun a ha => pure (hf a ha)

theorem get : Keeps I (MonadState.get : Run Session) fun s => I s.host :=
  fun _ hs => ⟨hs, fun _ ha => Except.ok.inj ha ▸ hs⟩

theorem ask {c : Call} {f : Action α} (h : f.Keeps I Q) : Keeps I (Run.ask c f) Q := fun s hs =>
  ⟨(h s.host hs).1, fun a ha => (h s.host hs).2 a (Except.mapError_eq_ok.1 ha)⟩

theorem update {f : Session → Session} (h : ∀ s, (f s).host = s.host) :
    Keeps I (Run.update f) fun _ => True := by
  intro s hs
  change I (f s).host ∧ _
  rw [h]
  exact ⟨hs, fun _ _ => trivial⟩

theorem ofExcept {r : Except Fault α} (h : ∀ a, r = .ok a → Q a) : Keeps I (Run.ofExcept r) Q := by
  cases r with
  | error e => exact fun s hs => ⟨hs, nofun⟩
  | ok a => exact .pure (h a rfl)

theorem lift {f : StateM Session α} (h : ∀ s, I s.host → I (f s).2.host) :
    Keeps I (liftM f) fun _ => True := fun s hs => ⟨h s hs, fun _ _ => trivial⟩

theorem pooled {width : Nat} {body : StateM Session α} (h : ∀ s, I s.host → I (body s).2.host) :
    Keeps I (Run.pooled width body) fun _ => True := by
  rw [Run.pooled]
  split
  · intro s hs
    exact ⟨hs, fun a ha => by cases ha⟩
  · exact lift h

theorem finallyDo {tidy : Session → Session} (hx : Keeps I x Q)
    (h : ∀ s, I s.host → I (tidy s).host) : Keeps I (x.finallyDo tidy) Q :=
  fun s hs => ⟨h _ (hx s hs).1, (hx s hs).2⟩

theorem onHalt {tidy : Session → Session} (hx : Keeps I x Q)
    (h : ∀ s, I s.host → I (tidy s).host) : Keeps I (x.onHalt tidy) Q := by
  intro s hs
  obtain ⟨ht, hQ⟩ := hx s hs
  rcases hr : x s with ⟨e | a, t⟩
  · rw [hr] at ht
    rw [Run.onHalt_of_error hr]
    exact ⟨h t ht, nofun⟩
  · rw [hr] at ht hQ
    rw [Run.onHalt_of_ok hr]
    exact ⟨ht, hQ⟩

end Keeps

end Run

/-! ### Tasks -/

section Dumping

variable {digester : Digester} {plan : BuildPlan} {directory : Path} {defined needed : ModuleSet}
  (removes : ∀ m ∈ needed, ∀ h, I h → I (h.removeFile (m.digestPath directory)))
  (dumps : ∀ m ∈ needed, ∀ h, I h → I (digester.dump m plan (m.digestPath directory) h).2)
include removes dumps

theorem Baseline.keeps_effect {w : Dumping} (hw : I w.session.host)
    {deed : Pool.Deed ModuleName Dumped} (hneeded : deed.job ∈ needed) :
    I ((duty digester plan directory defined).effect w deed).session.host := by
  cases deed with
  | refused m => exact removes m hneeded _ hw
  | answered task a => exact dumps task.job hneeded _ hw
  | reported task a =>
    -- only a dump that has failed takes its digest away
    rcases a with (e | ⟨⟨⟩⟩) | words
    · exact removes task.job hneeded _ hw
    · exact hw
    · exact hw
  | joined task a => rcases a with (e | ⟨⟨⟩⟩) | words <;> exact hw
  | admitted m | granted m | started task => exact hw

theorem Baseline.keeps_dumpAll {width : Nat} {schedule : Pool.Schedule} :
    (dumpAll digester plan directory defined needed width schedule).Keeps I fun _ => True := by
  refine .pooled fun s hs => ?_
  let d := duty digester plan directory defined
  have leads := Pool.leads_run d schedule (Pool.init ⟨s, .none⟩ width needed.toList)
  have books := Pool.books_of_leads leads
  have hstarted := books.started_eq (Pool.isDone_run d schedule ⟨s, .none⟩ width needed.toList)
  have hjoined := leads.induct_jobs (fun w => I w.session.host) hs fun w deed hneeded hw =>
    keeps_effect removes dumps hw hneeded
  have hswept : ∀ (ms : List ModuleName) (w : Dumping), (∀ m ∈ ms, m ∈ needed) →
      I w.session.host → I (ms.foldl (sweep directory) w).session.host := by
    intro ms w hms hw
    induction ms generalizing w with
    | nil => exact hw
    | cons m rest ih =>
      obtain ⟨hm, hrest⟩ := List.forall_mem_cons.1 hms
      exact ih (sweep directory w m) hrest (removes m hm _ hw)
  refine hswept _ _ (fun m hm => ?_) hjoined
  -- the modules that were not heard of are among those whose task was started
  have hsilent := (ModuleSet.mem_filter.1 (ModuleSet.mem_def.2 hm)).1
  rw [ModuleSet.mem_ofList, hstarted] at hsilent
  exact books.mem_of_admitted hsilent

end Dumping

theorem Comparing.keeps_compareAll {digester : Digester} {plan : BuildPlan} {directory : Path}
    {allowlist : Allowlist} {generationFailures modules : ModuleSet} {width : Nat}
    {schedule : Pool.Schedule}
    (compares : ∀ m h, I h →
      I (digester.compare (m.digestPath directory) m plan allowlist.source h).2) :
    (compareAll digester plan directory allowlist generationFailures modules width schedule).Keeps I
      fun _ => True := by
  refine .pooled fun s hs => ?_
  refine (Pool.leads_run (duty digester plan directory allowlist generationFailures) schedule
    (Pool.init (.ofSession s) width modules.toList)).induct (fun _ w => I w.session.host) hs
      fun _ w deed hw _ => ?_
  cases deed with
  | answered task a => exact compares task.job _ hw
  | reported task a => rcases a with (e | c) | words <;> exact hw
  | joined task a => rcases a with r | words <;> exact hw
  | refused m | admitted m | granted m | started task => exact hw

/-! ### A whole run -/

theorem Allowlist.source_load {h : Host} {path : Option Path} {allowlist : Allowlist}
    (hload : Allowlist.load h path = .ok allowlist) : allowlist.source = path := by
  unfold load at hload
  split at hload
  · cases hload
    rfl
  · split at hload
    · cases hload
      rfl
    · cases hload

/-- The calls that a run can make keep `I`: those of version control and of the build in the package
and in checkouts, those of the digester with digests in the directory. What becomes of the files has
no part in `I`. -/
structure Engine.Upholds (engine : Engine) (options : RunOptions) (I : Host → Prop)
    (checkout directory : Path → Prop) : Prop where
  files : ∀ h files, I h → I { h with files := files }
  named : ∀ path, options.baselineDirectory = some path → directory path
  temporary : options.baselineDirectory = none → ∀ revision h path h', I h →
    h.makeTemporary (BaselineDirectory.stem revision) = .ok (path, h') → directory path
  opened : ∀ h path h', I h → h.makeTemporary "apidiff-checkout-" = .ok (path, h') →
    checkout (path.join "baseline")
  resolve : (engine.collaborators.versionControl.resolve options.treeish).Keeps I fun _ => True
  checkOut : ∀ revision path, checkout path →
    (engine.collaborators.versionControl.checkOut revision path).Keeps I checkout
  graph : ∀ root, root = engine.packageRoot ∨ checkout root →
    (engine.collaborators.buildSystem.graph root).Keeps I fun _ => True
  build : ∀ root, root = engine.packageRoot ∨ checkout root →
    (engine.collaborators.buildSystem.build root).Keeps I fun plan => plan.packageRoot = root
  dump : ∀ (m : ModuleName) plan path h, checkout plan.packageRoot → directory path → I h →
    I (engine.collaborators.digester.dump m plan (m.digestPath path) h).2
  compare : ∀ (m : ModuleName) plan path h, plan.packageRoot = engine.packageRoot →
    directory path → I h →
    I (engine.collaborators.digester.compare (m.digestPath path) m plan options.allowlist h).2

namespace Engine

variable {engine : Engine} {options : RunOptions} {checkout directory : Path → Prop}

theorem keeps_selectModules (graph : PackageGraph) :
    (engine.selectModules graph options).Keeps I fun _ => True :=
  fun _ hs => ⟨hs, fun _ _ => trivial⟩

variable (upholds : engine.Upholds options I checkout directory)
include upholds

theorem keeps_prepare : (engine.prepare options).Keeps I fun p =>
    p.plan.packageRoot = engine.packageRoot ∧ p.allowlist.source = options.allowlist := by
  refine .bind (.ask upholds.resolve) fun revision _ => ?_
  refine .bind (.ask (upholds.graph _ (.inl rfl))) fun graph _ => ?_
  refine .bind (keeps_selectModules graph) fun modules _ => ?_
  refine .bind (.update fun _ => rfl) fun _ _ => ?_
  refine .bind .get fun s _ => ?_
  refine .bind (.ofExcept fun _ => Allowlist.source_load) fun allowlist hallowlist => ?_
  refine .bind (.ask (upholds.build _ (.inl rfl))) fun plan hplan => ?_
  exact .pure ⟨hplan, hallowlist⟩

theorem keeps_opened (revision : Revision) :
    (BaselineDirectory.opened options.baselineDirectory revision).Keeps I fun d =>
      directory d.path := by
  intro s hs
  unfold BaselineDirectory.opened ExceptT.mk
  cases hnamed : options.baselineDirectory with
  | some path =>
    have hpath := upholds.named path hnamed
    dsimp only
    rcases hmade : s.host.makeDirectories path with ⟨e | ⟨⟨⟩⟩, h'⟩
    all_goals
      have hkept : I h' := by
        rw [← (Prod.mk.inj hmade).2]
        exact upholds.files _ _ hs
    · exact ⟨hkept, nofun⟩
    · refine ⟨hkept, fun d hd => ?_⟩
      cases hd
      exact hpath
  | none =>
    dsimp only
    rcases hmade : s.host.makeTemporary (BaselineDirectory.stem revision) with e | ⟨path, h'⟩
    · exact ⟨hs, nofun⟩
    · obtain ⟨ending, -, -, files, -, rfl⟩ := Host.makeFresh_eq_ok hmade
      refine ⟨upholds.files _ _ hs, fun d hd => ?_⟩
      cases hd
      exact upholds.temporary hnamed revision _ _ _ hs hmade

theorem keeps_openCheckout :
    Baseline.openCheckout.Keeps I fun path => checkout (path.join "baseline") := by
  intro s hs
  unfold Baseline.openCheckout ExceptT.mk
  dsimp only
  rcases hmade : s.host.makeTemporary "apidiff-checkout-" with e | ⟨path, h'⟩
  · exact ⟨hs, nofun⟩
  · obtain ⟨ending, -, -, files, -, rfl⟩ := Host.makeFresh_eq_ok hmade
    refine ⟨upholds.files _ _ hs, fun d hd => ?_⟩
    cases hd
    exact upholds.opened _ _ _ hs hmade

theorem keeps_generate {revision : Revision} {path : Path} (hpath : directory path)
    (needed : ModuleSet) (schedule : Pool.Schedule) :
    (Baseline.generate engine.collaborators revision path needed schedule).Keeps I
      fun _ => True := by
  refine .bind (keeps_openCheckout upholds) fun opened hopened => ?_
  refine .finallyDo ?_ fun s hs => upholds.files _ _ hs
  refine .bind (.ask (upholds.checkOut _ _ hopened)) fun root hroot => ?_
  refine .bind (.ask (upholds.build _ (.inr hroot))) fun plan hplan => ?_
  refine .bind (.ask (upholds.graph _ (.inr hroot))) fun graph _ => ?_
  refine Baseline.keeps_dumpAll (fun m _ h hs => upholds.files _ _ hs) fun m _ h hs => ?_
  exact upholds.dump m plan path h (hplan ▸ hroot) hpath hs

theorem keeps_close (d : BaselineDirectory) (s : Session) (hs : I s.host) : I (d.close s).host := by
  cases d with
  | kept path => exact hs
  | temporary path => exact upholds.files _ _ hs

theorem keeps_baseline (modules : ModuleSet) (revision : Revision) (regenerate : Bool)
    (schedule : Pool.Schedule) :
    (Baseline.prepare engine.collaborators modules revision options.baselineDirectory regenerate
      schedule).Keeps I fun b => directory b.directory.path := by
  refine .bind (keeps_opened upholds revision) fun d hd => ?_
  refine .bind .get fun s _ => ?_
  dsimp only
  split
  · exact .pure hd
  · exact .bind (.onHalt (keeps_generate upholds hd _ schedule) (keeps_close upholds d))
      fun _ _ => .pure hd

theorem keeps_run (timing : Timing) : (engine.run timing options).Keeps I fun _ => True := by
  refine .bind (keeps_prepare upholds) fun p hp => ?_
  obtain ⟨hroot, hsource⟩ := hp
  refine .bind (keeps_baseline upholds _ _ _ _) fun b hb => ?_
  refine .bind (.update fun _ => rfl) fun _ _ => ?_
  refine .bind (.onHalt (Comparing.keeps_compareAll fun m h hh => ?_) (keeps_close upholds b.directory))
    fun outcome _ => .lift fun s hs => hs
  rw [hsource]
  exact upholds.compare m p.plan _ h hroot hb hh

end Engine

end Breakage
