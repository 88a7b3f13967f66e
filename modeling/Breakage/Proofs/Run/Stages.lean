import Breakage.Proofs.Run.Engine

/-!
The parts of a run that can fail, one by one. Each of them takes the run a little further
(`Engine.attempt?`), up to where the digests are made and compared. Main statement: `breaks_run` (a run
comes to a halt when one of these parts does, or when its first pool cannot be made; what was made for
the run is taken away again).
-/

namespace Breakage

namespace Run

variable {α β : Type} {s t : Session} {e : Halt}

def Halts (x : Run α) (tidy : Session → Session) (s : Session) (e : Halt) (t : Session) : Prop :=
  ∃ u, x s = (.error e, u) ∧ tidy u = t

variable {tidy tidy' : Session → Session} {x : Run α}

theorem halts_id : x.Halts id s e t ↔ x s = (.error e, t) := by
  constructor
  · rintro ⟨u, h, rfl⟩
    exact h
  · intro h
    exact ⟨t, h, rfl⟩

theorem halts_bind {f : α → Run β} :
    (x >>= f).Halts tidy s e t ↔
      x.Halts tidy s e t ∨ ∃ a u, x s = (.ok a, u) ∧ (f a).Halts tidy u e t := by
  simp only [Halts, bind_eq_error]
  constructor
  · rintro ⟨v, h | ⟨a, u, h, h'⟩, rfl⟩
    · exact .inl ⟨v, h, rfl⟩
    · exact .inr ⟨a, u, h, v, h', rfl⟩
  · rintro (⟨v, h, rfl⟩ | ⟨a, u, h, v, h', rfl⟩)
    · exact ⟨v, .inl h, rfl⟩
    · exact ⟨v, .inr ⟨a, u, h, h'⟩, rfl⟩

theorem halts_finallyDo : (x.finallyDo tidy').Halts tidy s e t ↔ x.Halts (tidy ∘ tidy') s e t := by
  simp only [Halts, finallyDo_eq_error]
  constructor
  · rintro ⟨_, ⟨u, h, rfl⟩, rfl⟩
    exact ⟨u, h, rfl⟩
  · rintro ⟨u, h, rfl⟩
    exact ⟨_, ⟨u, h, rfl⟩, rfl⟩

theorem halts_onHalt : (x.onHalt tidy').Halts tidy s e t ↔ x.Halts (tidy ∘ tidy') s e t := by
  simp only [Halts, onHalt_eq_error]
  constructor
  · rintro ⟨_, ⟨u, h, rfl⟩, rfl⟩
    exact ⟨u, h, rfl⟩
  · rintro ⟨u, h, rfl⟩
    exact ⟨_, ⟨u, h, rfl⟩, rfl⟩

theorem halts_pooled {width : Nat} {body : StateM Session α} :
    (pooled width body).Halts tidy s e t ↔ Pool.widthLimit < width ∧ e = .overload ∧ tidy s = t := by
  simp only [Halts, pooled_eq_error]
  constructor
  · rintro ⟨_, ⟨beyond, he, rfl⟩, rfl⟩
    exact ⟨beyond, he, rfl⟩
  · rintro ⟨beyond, he, rfl⟩
    exact ⟨s, ⟨beyond, he, rfl⟩, rfl⟩

/-- The part of a run makes no pool that could be too large. -/
def Poolless (x : Run α) : Prop := ∀ s, (x s).1 ≠ .error .overload

namespace Poolless

theorem pure {a : α} : (Pure.pure a : Run α).Poolless := fun _ => nofun

theorem mapError {r : Session → Except Fault α} {f : Session → Session} :
    Poolless (ExceptT.mk fun s => ((r s).mapError .fault, f s)) := by
  intro s h
  change (r s).mapError Halt.fault = _ at h
  cases hr : r s <;> (rw [hr] at h; cases h)

theorem ofExcept {r : Except Fault α} : (Run.ofExcept r).Poolless := by
  cases r <;> exact fun _ => nofun

theorem bind {f : α → Run β} (hx : x.Poolless) (hf : ∀ a, (f a).Poolless) : (x >>= f).Poolless := by
  intro s h
  rcases bind_eq_error.1 (Prod.ext h rfl : (x >>= f) s = (.error .overload, _)) with h | ⟨a, t, -, h⟩
  · exact hx s (congrArg Prod.fst h)
  · exact hf a t (congrArg Prod.fst h)

theorem map {f : α → β} (hx : x.Poolless) : (f <$> x).Poolless := by
  rw [map_eq_pure_bind]
  exact hx.bind fun _ => pure

end Poolless

def Relates (R : Session → Session → Prop) (x : Run α) : Prop := ∀ s, R s (x s).2

namespace Relates

variable {R : Session → Session → Prop}

theorem ofExcept (refl : ∀ s, R s s) (r : Except Fault α) : (Run.ofExcept r).Relates R := by
  cases r <;> exact refl

theorem pooled (refl : ∀ s, R s s) {width : Nat} {body : StateM Session α}
    (h : ∀ s, R s (body s).2) : (Run.pooled width body).Relates R := by
  rw [Run.pooled]
  split
  · exact refl
  · exact h

theorem bind (trans : ∀ {s t u}, R s t → R t u → R s u) {f : α → Run β} (hx : x.Relates R)
    (hf : ∀ a, (f a).Relates R) : (x >>= f).Relates R := by
  intro s
  have hs := hx s
  rcases hr : x s with ⟨e | a, t⟩
  · rw [hr] at hs
    rwa [bind_of_error hr]
  · rw [hr] at hs
    rw [bind_of_ok hr]
    exact trans hs (hf a t)

theorem onHalt (trans : ∀ {s t u}, R s t → R t u → R s u) (hx : x.Relates R)
    (h : ∀ s, R s (tidy s)) : (x.onHalt tidy).Relates R := by
  intro s
  have hs := hx s
  rcases hr : x s with ⟨e | a, t⟩
  · rw [hr] at hs
    rw [onHalt_of_error hr]
    exact trans hs (h t)
  · rw [hr] at hs
    rwa [onHalt_of_ok hr]

theorem of_eq (hx : x.Relates R) {r : Except Halt α} (h : x s = (r, t)) : R s t := by
  have hs := hx s
  rwa [h] at hs

end Relates

/-- To the calls there were, such are added as `P` says. -/
def AddsCalls (P : Call → Prop) (s t : Session) : Prop :=
  ∃ calls, t.calls = s.calls ++ calls ∧ ∀ c ∈ calls, P c

theorem AddsCalls.none {P : Call → Prop} (h : t.calls = s.calls) : AddsCalls P s t :=
  ⟨[], h.trans (List.append_nil _).symm, by simp⟩

theorem AddsCalls.trans {P : Call → Prop} {s t u : Session} (first : AddsCalls P s t)
    (next : AddsCalls P t u) : AddsCalls P s u := by
  obtain ⟨calls, hcalls, hP⟩ := first
  obtain ⟨more, hmore, hP'⟩ := next
  refine ⟨calls ++ more, ?_, fun c hc => (List.mem_append.1 hc).elim (hP c) (hP' c)⟩
  rw [hmore, hcalls, List.append_assoc]

/-- The calls that are made are such as `P` says, however the part of the run ends. -/
def Calls (P : Call → Prop) (x : Run α) : Prop :=
  ∀ s, ∃ calls, (x s).2.calls = s.calls ++ calls ∧ ∀ c ∈ calls, P c

namespace Calls

variable {P : Call → Prop}

theorem quiet (h : ∀ s, (x s).2.calls = s.calls) : x.Calls P := fun s => AddsCalls.none (h s)

theorem pure {a : α} : (Pure.pure a : Run α).Calls P := quiet fun _ => rfl

theorem ofExcept {r : Except Fault α} : (Run.ofExcept r).Calls P :=
  Relates.ofExcept (R := AddsCalls P) (fun _ => .none rfl) r

theorem pooled {width : Nat} {body : StateM Session α} (h : ∀ s, AddsCalls P s (body s).2) :
    (Run.pooled width body).Calls P :=
  Relates.pooled (R := AddsCalls P) (fun _ => .none rfl) h

theorem ask {c : Call} {f : Action α} (h : P c) : (Run.ask c f).Calls P :=
  fun s => ⟨[c], rfl, by simpa using h⟩

theorem bind {f : α → Run β} (hx : x.Calls P) (hf : ∀ a, (f a).Calls P) : (x >>= f).Calls P :=
  Relates.bind (R := AddsCalls P) .trans hx hf

theorem map {f : α → β} (hx : x.Calls P) : (f <$> x).Calls P := by
  rw [map_eq_pure_bind]
  exact hx.bind fun _ => pure

theorem finallyDo {tidy : Session → Session} (hx : x.Calls P) (h : ∀ s, (tidy s).calls = s.calls) :
    (x.finallyDo tidy).Calls P := fun s => AddsCalls.trans (hx s) (.none (h _))

theorem onHalt {tidy : Session → Session} (hx : x.Calls P) (h : ∀ s, (tidy s).calls = s.calls) :
    (x.onHalt tidy).Calls P :=
  Relates.onHalt (R := AddsCalls P) .trans hx fun s => .none (h s)

end Calls

end Run

def BaselineDirectory.temporary? : BaselineDirectory → Option Path
  | kept _ => none
  | temporary p => some p

namespace Engine

inductive Phase where
  | resolve
  | describe
  | select
  | allow
  | build
  | openDirectory
  | openCheckout
  | checkOut
  | buildBaseline
  | describeBaseline
  deriving DecidableEq, Repr

def Phase.all : List Phase :=
  [.resolve, .describe, .select, .allow, .build, .openDirectory, .openCheckout, .checkOut,
    .buildBaseline, .describeBaseline]

structure Opened where
  prepared : Prepared
  directory : BaselineDirectory
  missing : ModuleSet

inductive Progress where
  | started
  | resolved (revision : Revision)
  | described (revision : Revision) (graph : PackageGraph)
  | selected (revision : Revision) (modules : ModuleSet)
  | allowed (revision : Revision) (modules : ModuleSet) (allowlist : Allowlist)
  | prepared (p : Prepared)
  | opened (o : Opened)
  /-- with a directory for the checkout -/
  | sheltered (o : Opened) (checkout : Path)
  | checkedOut (o : Opened) (checkout root : Path)
  | built (o : Opened) (checkout root : Path) (plan : BuildPlan)
  | arrived (o : Opened) (arrival : Baseline.Arrival)

namespace Progress

def temporaries : Progress → List Path
  | opened o => o.directory.temporary?.toList
  | sheltered o checkout | checkedOut o checkout _ | built o checkout _ _ =>
    checkout :: o.directory.temporary?.toList
  | arrived o arrival => arrival.checkout :: o.directory.temporary?.toList
  | _ => []

def discard (s : Session) (path : Path) : Session := { s with host := s.host.removeTree path }

def tidy (k : Progress) (s : Session) : Session := k.temporaries.foldl discard s

/-- The session in which the first pool is made: that of the comparisons if no digest is missing. -/
def poised : Progress → Session → Session
  | opened o, s => s.mark (.baselineReady o.directory.path 0 0)
  | _, s => s

end Progress

variable (engine : Engine) (options : RunOptions)

def chooseModules (revision : Revision) (graph : PackageGraph) : Run ModuleSet := do
  let modules ← engine.selectModules graph options
  Run.update (Session.mark · (.started options.treeish revision.id modules.size))
  return modules

def loadAllowlist : Run Allowlist := do
  Run.ofExcept (Allowlist.load (← get).host options.allowlist)

def openDirectory (p : Prepared) : Run Opened := do
  let directory ← BaselineDirectory.opened options.baselineDirectory p.revision
  return ⟨p, directory, Baseline.needed (← get).host directory.path p.modules options.regenerate⟩

/-- The next part that can fail; none when there are only digests left to make and to compare. The
baseline is not checked out if no digest is missing. -/
def attempt? : Progress → Option (Phase × Run Progress)
  | .started => some (.resolve, .resolved <$>
      Run.ask (.resolve options.treeish) (engine.collaborators.versionControl.resolve options.treeish))
  | .resolved revision => some (.describe, .described revision <$>
      Run.ask (.graph engine.packageRoot) (engine.collaborators.buildSystem.graph engine.packageRoot))
  | .described revision graph => some (.select, .selected revision <$>
      engine.chooseModules options revision graph)
  | .selected revision modules => some (.allow, .allowed revision modules <$> loadAllowlist options)
  | .allowed revision modules allowlist => some (.build, (.prepared ⟨revision, modules, allowlist, ·⟩) <$>
      Run.ask (.build engine.packageRoot) (engine.collaborators.buildSystem.build engine.packageRoot))
  | .prepared p => some (.openDirectory, .opened <$> openDirectory options p)
  | .opened o =>
    if o.missing.isEmpty then none
    else some (.openCheckout, .sheltered o <$> Baseline.openCheckout)
  | .sheltered o checkout => some (.checkOut, .checkedOut o checkout <$>
      Run.ask (.checkOut o.prepared.revision (checkout.join "baseline"))
        (engine.collaborators.versionControl.checkOut o.prepared.revision (checkout.join "baseline")))
  | .checkedOut o checkout root => some (.buildBaseline, .built o checkout root <$>
      Run.ask (.build root) (engine.collaborators.buildSystem.build root))
  | .built o checkout root plan => some (.describeBaseline, (.arrived o ⟨checkout, plan, ·⟩) <$>
      Run.ask (.graph root) (engine.collaborators.buildSystem.graph root))
  | .arrived _ _ => none

/-- A run that starts in the session `s` has come so far, with these parts done. -/
inductive Comes (s : Session) : List Phase → Progress → Session → Prop where
  | start : Comes s [] .started s
  | next {done : List Phase} {k k' : Progress} {u v : Session} {phase : Phase} {x : Run Progress}
      (before : Comes s done k u) (attempt : engine.attempt? options k = some (phase, x))
      (success : x u = (.ok k', v)) : Comes s (done ++ [phase]) k' v

/-- From here on the run comes to the halt, in a part that can fail or for want of its first pool. -/
inductive Breaks : Progress → Session → Halt → Session → Prop where
  | here {k : Progress} {u v : Session} {phase : Phase} {x : Run Progress} {e : Halt}
      (attempt : engine.attempt? options k = some (phase, x)) (failure : x u = (.error e, v)) :
      Breaks k u e (k.tidy v)
  | later {k k' : Progress} {u v t : Session} {phase : Phase} {x : Run Progress} {e : Halt}
      (attempt : engine.attempt? options k = some (phase, x)) (success : x u = (.ok k', v))
      (rest : Breaks k' v e t) : Breaks k u e t
  | overload {k : Progress} {u : Session} (last : engine.attempt? options k = none)
      (beyond : Pool.widthLimit < engine.collaborators.buildSystem.workers) :
      Breaks k u .overload (k.tidy (k.poised u))

variable {engine options} {k : Progress} {s t u : Session} {e : Halt}

theorem breaks_last (last : engine.attempt? options k = none) :
    engine.Breaks options k u e t ↔
      Pool.widthLimit < engine.collaborators.buildSystem.workers ∧ e = .overload ∧
        k.tidy (k.poised u) = t := by
  constructor
  · intro h
    cases h with
    | here attempt _ | later attempt _ _ =>
      rw [last] at attempt
      cases attempt
    | overload _ beyond => exact ⟨beyond, rfl, rfl⟩
  · rintro ⟨beyond, rfl, rfl⟩
    exact .overload last beyond

theorem breaks_bind {α β : Type} {phase : Phase} {f : α → Progress} {x : Run α} {g : α → Run β}
    {tidy : Session → Session} (attempt : engine.attempt? options k = some (phase, f <$> x))
    (tidied : k.tidy = tidy)
    (rest : ∀ a v, x u = (.ok a, v) → ((g a).Halts tidy v e t ↔ engine.Breaks options (f a) v e t)) :
    (x >>= g).Halts tidy u e t ↔ engine.Breaks options k u e t := by
  subst tidied
  rw [Run.halts_bind]
  constructor
  · rintro (⟨v, h, rfl⟩ | ⟨a, v, h, hrest⟩)
    · exact .here attempt (Run.map_eq_error.2 h)
    · exact .later attempt (Run.map_eq_ok.2 ⟨a, h, rfl⟩) ((rest a v h).1 hrest)
  · intro h
    cases h with
    | here attempt' failure =>
      rw [attempt] at attempt'
      cases attempt'
      exact .inl ⟨_, Run.map_eq_error.1 failure, rfl⟩
    | later attempt' success hrest =>
      rw [attempt] at attempt'
      cases attempt'
      obtain ⟨a, h, rfl⟩ := Run.map_eq_ok.1 success
      exact .inr ⟨a, _, h, (rest a _ h).2 hrest⟩
    | overload last _ =>
      rw [attempt] at last
      cases last

theorem Progress.tidy_opened (o : Opened) : (Progress.opened o).tidy = o.directory.close := by
  cases hd : o.directory <;> (funext v; simp [tidy, temporaries, hd]; rfl)

theorem breaks_opened {timing : Timing} (o : Opened) (missing : o.missing.isEmpty = false) :
    (Baseline.generate engine.collaborators o.prepared.revision o.directory.path o.missing
      timing.dumps).Halts o.directory.close u e t ↔ engine.Breaks options (.opened o) u e t := by
  have hnext : engine.attempt? options (.opened o) =
      some (.openCheckout, .sheltered o <$> Baseline.openCheckout) := by
    rw [attempt?, missing]
    rfl
  rw [Baseline.generate, Baseline.inCheckout, ← Progress.tidy_opened]
  refine breaks_bind hnext rfl fun checkout v _ => ?_
  -- the checkout is taken away before the directory
  rw [Run.halts_finallyDo]
  refine breaks_bind rfl rfl fun root v _ => ?_
  refine breaks_bind rfl rfl fun plan v _ => ?_
  refine breaks_bind rfl rfl fun graph v _ => ?_
  rw [breaks_last rfl]
  exact Run.halts_pooled

theorem workers_of_generate {revision : Revision} {directory : Path} {needed : ModuleSet}
    {schedule : Pool.Schedule} {d : Dumps}
    (h : Baseline.generate engine.collaborators revision directory needed schedule s = (.ok d, t)) :
    engine.collaborators.buildSystem.workers ≤ Pool.widthLimit := by
  obtain ⟨arrival, u, v, -, hdumps, -⟩ := Baseline.inCheckout_eq_ok.1 h
  exact (Run.pooled_eq_ok.1 hdumps).1

theorem breaks_prepared {timing : Timing} {α : Type} (p : Prepared) {g : Baseline → Run α}
    (rest : ∀ b v, (g b).Halts id v e t ↔
      Pool.widthLimit < engine.collaborators.buildSystem.workers ∧ e = .overload ∧
        b.directory.close (v.mark (.baselineReady b.directory.path b.dumps.dumped.size
          b.dumps.generationFailures.size)) = t) :
    (Baseline.prepare engine.collaborators p.modules p.revision options.baselineDirectory
      options.regenerate timing.dumps >>= g).Halts id u e t ↔
        engine.Breaks options (.prepared p) u e t := by
  have hcode : Baseline.prepare engine.collaborators p.modules p.revision options.baselineDirectory
      options.regenerate timing.dumps = openDirectory options p >>= fun o =>
        if o.missing.isEmpty then pure ⟨o.directory, .none⟩
        else (Baseline.generate engine.collaborators p.revision o.directory.path o.missing
          timing.dumps).onHalt o.directory.close >>= fun dumps => pure ⟨o.directory, dumps⟩ := by
    simp only [Baseline.prepare, openDirectory, bind_assoc, pure_bind]
  rw [hcode, bind_assoc]
  refine breaks_bind rfl rfl fun o v hopened => ?_
  have hprepared : o.prepared = p := by
    simp only [openDirectory, Run.bind_eq_ok, Run.pure_eq_ok] at hopened
    obtain ⟨directory, w, -, h, w', -, rfl, -⟩ := hopened
    rfl
  cases hmissing : o.missing.isEmpty with
  | true =>
    rw [if_pos rfl, pure_bind, rest, breaks_last (by rw [attempt?, hmissing]; rfl), Progress.tidy_opened]
    rfl
  | false =>
    rw [if_neg Bool.false_ne_true, Run.halts_bind, or_iff_left, Run.halts_bind, or_iff_left,
      Run.halts_onHalt, ← hprepared]
    · exact breaks_opened o hmissing
    · rintro ⟨dumps, w, -, w', h, -⟩
      cases h
    · -- the pool of the dumps was not too large, so that of the comparisons is not
      rintro ⟨b, w, hb, h⟩
      obtain ⟨dumps, _, hdumps, -⟩ := Run.bind_eq_ok.1 hb
      have within := workers_of_generate (Run.onHalt_eq_ok.1 hdumps)
      exact absurd within (Nat.not_le.2 ((rest b w).1 h).1)

theorem breaks_run {timing : Timing} :
    engine.run timing options s = (.error e, t) ↔ engine.Breaks options .started s e t := by
  rw [← Run.halts_id, run, prepare]
  simp only [bind_assoc, pure_bind]
  refine breaks_bind rfl rfl fun revision u _ => ?_
  refine breaks_bind rfl rfl fun graph u _ => ?_
  have hchoose : ∀ g : ModuleSet → Run RunReport,
      (engine.selectModules graph options >>= fun modules =>
        Run.update (Session.mark · (.started options.treeish revision.id modules.size)) >>= fun _ =>
          g modules) = engine.chooseModules options revision graph >>= g := by
    intro g
    simp only [chooseModules, bind_assoc, pure_bind]
  have hload : ∀ g : Allowlist → Run RunReport,
      ((get : Run Session) >>= fun now =>
        Run.ofExcept (Allowlist.load now.host options.allowlist) >>= g) = loadAllowlist options >>= g := by
    intro g
    simp only [loadAllowlist, bind_assoc]
  rw [hchoose]
  refine breaks_bind rfl rfl fun modules u _ => ?_
  rw [hload]
  refine breaks_bind rfl rfl fun allowlist u _ => ?_
  refine breaks_bind rfl rfl fun plan u _ => ?_
  refine breaks_prepared ⟨revision, modules, allowlist, plan⟩ fun b v => ?_
  rw [Run.halts_bind]
  refine (or_iff_right ?_).trans ?_
  · rintro ⟨_, h, _⟩
    exact Run.update_eq_error h
  simp only [Run.update_eq_ok, exists_eq_left', exists_const]
  rw [Run.halts_bind]
  refine (or_iff_left ?_).trans ?_
  · rintro ⟨_, _, _, _, h, _⟩
    exact Run.lift_eq_error h
  rw [Run.halts_onHalt, compareAll, Run.halts_pooled]
  rfl

/-! ### How far a run comes -/

variable {done : List Phase} {phase : Phase} {x : Run Progress}

variable (engine options) in
/-- The next part of the run is this one, and it ends in the fault. -/
def Stumbles (k : Progress) (u : Session) (phase : Phase) (e : Fault) (t : Session) : Prop :=
  ∃ x, engine.attempt? options k = some (phase, x) ∧ x.Halts k.tidy u (.fault e) t

theorem Comes.breaks (h : engine.Comes options s done k u) (rest : engine.Breaks options k u e t) :
    engine.Breaks options .started s e t := by
  induction h with
  | start => exact rest
  | next _ attempt success ih => exact ih (.later attempt success rest)

theorem Breaks.comes (h : engine.Breaks options k u e t) (comes : engine.Comes options s done k u) :
    (∃ done k u phase x, engine.Comes options s done k u ∧
      engine.attempt? options k = some (phase, x) ∧ x.Halts k.tidy u e t) ∨
    ∃ done k u, engine.Comes options s done k u ∧ engine.attempt? options k = none ∧
      Pool.widthLimit < engine.collaborators.buildSystem.workers ∧ e = .overload ∧
        k.tidy (k.poised u) = t := by
  induction h generalizing done with
  | here attempt failure => exact .inl ⟨_, _, _, _, _, comes, attempt, _, failure, rfl⟩
  | later attempt success _ ih => exact ih (comes.next attempt success)
  | overload last beyond => exact .inr ⟨_, _, _, comes, last, beyond, rfl, rfl⟩

theorem poolless_opened {named : Option Path} {revision : Revision} :
    (BaselineDirectory.opened named revision).Poolless := by
  intro s
  unfold BaselineDirectory.opened ExceptT.mk
  cases named with
  | some path => dsimp only; split <;> nofun
  | none => dsimp only; split <;> nofun

theorem poolless_openCheckout : Baseline.openCheckout.Poolless := by
  intro s
  unfold Baseline.openCheckout ExceptT.mk
  dsimp only
  split <;> nofun

theorem attempt_poolless (attempt : engine.attempt? options k = some (phase, x)) : x.Poolless := by
  cases k with
  | described revision graph =>
    cases attempt
    exact .map (.bind .mapError fun _ => .bind (fun _ => nofun) fun _ => .pure)
  | selected revision modules =>
    cases attempt
    exact .map (.bind (fun _ => nofun) fun _ => .ofExcept)
  | prepared p =>
    cases attempt
    exact .map (.bind poolless_opened fun _ => .bind (fun _ => nofun) fun _ => .pure)
  | opened o =>
    rw [attempt?] at attempt
    split at attempt
    · cases attempt
    · cases attempt
      exact .map poolless_openCheckout
  | arrived o arrival => cases attempt
  | _ => cases attempt; exact .map .mapError

theorem run_eq_error {timing : Timing} {e : Fault} :
    engine.run timing options s = (.error (.fault e), t) ↔
      ∃ done k u phase, engine.Comes options s done k u ∧ engine.Stumbles options k u phase e t := by
  rw [breaks_run]
  constructor
  · intro h
    rcases h.comes .start with ⟨done, k, u, phase, x, comes, attempt, halts⟩ | ⟨_, _, _, -, -, -, h, -⟩
    · exact ⟨done, k, u, phase, comes, x, attempt, halts⟩
    · cases h
  · rintro ⟨done, k, u, phase, comes, x, attempt, v, failure, rfl⟩
    exact comes.breaks (.here attempt failure)

theorem run_eq_overload {timing : Timing} :
    engine.run timing options s = (.error .overload, t) ↔
      Pool.widthLimit < engine.collaborators.buildSystem.workers ∧ ∃ done k u,
        engine.Comes options s done k u ∧ engine.attempt? options k = none ∧
          k.tidy (k.poised u) = t := by
  rw [breaks_run]
  constructor
  · intro h
    rcases h.comes .start with ⟨done, k, u, phase, x, -, attempt, v, failure, -⟩ |
      ⟨done, k, u, comes, last, beyond, -, ht⟩
    · exact absurd (congrArg Prod.fst failure) (attempt_poolless attempt u)
    · exact ⟨beyond, done, k, u, comes, last, ht⟩
  · rintro ⟨beyond, done, k, u, comes, last, rfl⟩
    exact comes.breaks (.overload last beyond)

namespace Progress

def number : Progress → Nat
  | started => 0
  | resolved _ => 1
  | described _ _ => 2
  | selected _ _ => 3
  | allowed _ _ _ => 4
  | prepared _ => 5
  | opened _ => 6
  | sheltered _ _ => 7
  | checkedOut _ _ _ => 8
  | built _ _ _ _ => 9
  | arrived _ _ => 10

end Progress

theorem number_attempt (attempt : engine.attempt? options k = some (phase, x)) :
    Phase.all[k.number]? = some phase ∧
      ∀ u k' v, x u = (.ok k', v) → k'.number = k.number + 1 := by
  cases k with
  | opened o =>
    rw [attempt?] at attempt
    split at attempt
    · cases attempt
    · cases attempt
      refine ⟨rfl, fun u k' v h => ?_⟩
      obtain ⟨a, -, rfl⟩ := Run.map_eq_ok.1 h
      rfl
  | arrived o arrival => cases attempt
  | _ =>
    cases attempt
    refine ⟨rfl, fun u k' v h => ?_⟩
    obtain ⟨a, -, rfl⟩ := Run.map_eq_ok.1 h
    rfl

theorem Comes.done_eq (h : engine.Comes options s done k u) : done = Phase.all.take k.number := by
  induction h with
  | start => rfl
  | next _ attempt success ih =>
    obtain ⟨hphase, hnumber⟩ := number_attempt attempt
    rw [hnumber _ _ _ success, List.take_add_one, hphase, ih]
    rfl

theorem Comes.order (h : engine.Comes options s done k u)
    (attempt : engine.attempt? options k = some (phase, x)) :
    ∃ behind, Phase.all = done ++ phase :: behind := by
  obtain ⟨hphase, -⟩ := number_attempt attempt
  obtain ⟨hlt, hget⟩ := List.getElem?_eq_some_iff.1 hphase
  refine ⟨Phase.all.drop (k.number + 1), ?_⟩
  rw [h.done_eq, ← hget, List.getElem_cons_drop, List.take_append_drop]

/-! ### Calls on the way -/

theorem attempt_calls (attempt : engine.attempt? options k = some (phase, x)) :
    x.Calls fun c => c.isDump = false ∧ c.isCompare = false := by
  cases k with
  | started => cases attempt; exact .map (.ask ⟨rfl, rfl⟩)
  | resolved revision => cases attempt; exact .map (.ask ⟨rfl, rfl⟩)
  | described revision graph =>
    cases attempt
    exact .map (.bind (.quiet fun _ => rfl) fun _ => .bind (.quiet fun _ => rfl) fun _ => .pure)
  | selected revision modules =>
    cases attempt
    exact .map (.bind (.quiet fun _ => rfl) fun _ => .ofExcept)
  | allowed revision modules allowlist => cases attempt; exact .map (.ask ⟨rfl, rfl⟩)
  | prepared p =>
    cases attempt
    refine .map (.bind (.quiet fun u => ?_) fun _ => .bind (.quiet fun _ => rfl) fun _ => .pure)
    rw [Baseline.opened_eq (Prod.eta _).symm]
  | opened o =>
    rw [attempt?] at attempt
    split at attempt
    · cases attempt
    · cases attempt
      refine .map (.quiet fun u => ?_)
      rw [Baseline.openCheckout_eq (Prod.eta _).symm]
  | sheltered o checkout => cases attempt; exact .map (.ask ⟨rfl, rfl⟩)
  | checkedOut o checkout root => cases attempt; exact .map (.ask ⟨rfl, rfl⟩)
  | built o checkout root plan => cases attempt; exact .map (.ask ⟨rfl, rfl⟩)
  | arrived o arrival => cases attempt

theorem Comes.calls (h : engine.Comes options s done k u) :
    ∃ calls, u.calls = s.calls ++ calls ∧ ∀ c ∈ calls, c.isDump = false ∧ c.isCompare = false := by
  induction h with
  | start => exact Run.AddsCalls.none rfl
  | @next _ _ _ u _ _ _ _ attempt success ih =>
    have hcalls := attempt_calls attempt u
    rw [success] at hcalls
    exact Run.AddsCalls.trans ih hcalls

theorem Progress.tidy_calls (k : Progress) (u : Session) : (k.tidy u).calls = u.calls := by
  have hfold : ∀ (paths : List Path) (u : Session), (paths.foldl discard u).calls = u.calls := by
    intro paths
    induction paths with
    | nil => exact fun _ => rfl
    | cons path rest ih => exact fun u => ih (discard u path)
  exact hfold _ u

end Engine

end Breakage
