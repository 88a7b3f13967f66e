import Breakage.Pool
import Mathlib.Data.List.Perm.Basic

/-!
What is done in a pool, in order. A history tells of every move which job or task it was about and
what came of it, so that the world at the end is the first one after all that was done
(`Leads.world`). Main statements: `leads_run` (a run does what its history tells) and `Leads.suits`
(every deed is one that the world of its moment calls for).
-/

namespace Breakage.Pool

variable {World Job Answer : Type}

inductive Deed (Job Answer : Type) where
  | refused (job : Job)
  | admitted (job : Job)
  /-- the driver has a permit for the job -/
  | granted (job : Job)
  | started (task : Task Job)
  | answered (task : Task Job) (answer : Answer)
  | reported (task : Task Job) (answer : Answer)
  | joined (task : Task Job) (answer : Answer)

abbrev History (Job Answer : Type) := List (Deed Job Answer)

namespace Duty

variable (d : Duty World Job Answer)

/-- What a move does; none if the move is not possible. -/
def deed? (s : Pool World Job Answer) : Move → Option (Deed Job Answer)
  | .drive =>
    match s.driver with
    | .idle => s.pending.head?.map fun job =>
      if d.admits job s.world then .admitted job else .refused job
    | .waiting job => some (.granted job)
    | .holding job => some (.started ⟨s.started.length, job⟩)
  | .answer position =>
    s.calling[position]?.map fun task => .answered task (d.call task.job s.world).1
  | .report position => s.reporting[position]?.map fun r => .reported r.1 r.2
  | .join position => s.ended[position]?.map fun r => .joined r.1 r.2

@[simp] def effect (w : World) : Deed Job Answer → World
  | .refused job => d.refuse job w
  | .answered task _ => (d.call task.job w).2
  | .reported task a => d.report task.job a w
  | .joined task a => d.settle task.number task.job a w
  | .admitted _ | .granted _ | .started _ => w

/-- The world has to do with what is done: a job is admitted or refused, and a call answered, as
the world has it. -/
def Suits (w : World) : Deed Job Answer → Prop
  | .refused job => d.admits job w = false
  | .admitted job => d.admits job w = true
  | .answered task a => a = (d.call task.job w).1
  | .granted _ | .started _ | .reported _ _ | .joined _ _ => True

def replay (w : World) (ds : History Job Answer) : World := ds.foldl d.effect w

theorem replay_append (w : World) (ds es : History Job Answer) :
    d.replay w (ds ++ es) = d.replay (d.replay w ds) es := by
  rw [replay, List.foldl_append]
  rfl

end Duty

variable (d : Duty World Job Answer)

inductive Does : Pool World Job Answer → Deed Job Answer → Pool World Job Answer → Prop where
  | refuse {s : Pool World Job Answer} {job : Job} {rest : List Job} (idle : s.driver = .idle)
      (pending : s.pending = job :: rest) (refused : d.admits job s.world = false) :
      Does s (.refused job) { s with world := d.refuse job s.world, pending := rest }
  | accept {s : Pool World Job Answer} {job : Job} {rest : List Job} (idle : s.driver = .idle)
      (pending : s.pending = job :: rest) (admitted : d.admits job s.world = true) :
      Does s (.admitted job) { s with driver := .waiting job, pending := rest }
  | grant {s : Pool World Job Answer} {job : Job} {free : Nat} (waiting : s.driver = .waiting job)
      (permit : s.free = free + 1) :
      Does s (.granted job) { s with driver := .holding job, free := free }
  | start {s : Pool World Job Answer} {job : Job} (holding : s.driver = .holding job) :
      Does s (.started ⟨s.started.length, job⟩)
        { s with
          driver := .idle
          calling := s.calling ++ [⟨s.started.length, job⟩]
          started := s.started ++ [job] }
  | answer {s : Pool World Job Answer} {position : Nat} {task : Task Job}
      (calling : s.calling[position]? = some task) :
      Does s (.answered task (d.call task.job s.world).1)
        { s with
          world := (d.call task.job s.world).2
          calling := s.calling.eraseIdx position
          reporting := s.reporting ++ [(task, (d.call task.job s.world).1)] }
  | report {s : Pool World Job Answer} {position : Nat} {task : Task Job} {a : Answer}
      (reporting : s.reporting[position]? = some (task, a)) :
      Does s (.reported task a)
        { s with
          world := d.report task.job a s.world
          free := s.free + 1
          reporting := s.reporting.eraseIdx position
          ended := s.ended ++ [(task, a)] }
  | join {s : Pool World Job Answer} {position : Nat} {task : Task Job} {a : Answer}
      (driven : s.isDriven = true) (ended : s.ended[position]? = some (task, a)) :
      Does s (.joined task a)
        { s with
          world := d.settle task.number task.job a s.world
          ended := s.ended.eraseIdx position }

theorem does_of_apply {s t : Pool World Job Answer} {m : Move} (h : apply d s m = some t) :
    ∃ deed, d.deed? s m = some deed ∧ Does d s deed t := by
  cases m with
  | drive =>
    simp only [apply, drive] at h
    split at h
    · rename_i hd
      split at h
      · simp at h
      · rename_i job rest hp
        split at h
        · rename_i ha
          cases h
          exact ⟨_, by simp [Duty.deed?, hd, hp, ha], .accept hd hp ha⟩
        · rename_i ha
          cases h
          exact ⟨_, by simp [Duty.deed?, hd, hp, ha], .refuse hd hp (by simpa using ha)⟩
    · rename_i job hd
      split at h
      · simp at h
      · rename_i free hf
        cases h
        exact ⟨_, by simp only [Duty.deed?, hd], .grant hd hf⟩
    · rename_i job hd
      cases h
      exact ⟨_, by simp only [Duty.deed?, hd], .start hd⟩
  | answer p =>
    simp only [apply, answer] at h
    split at h
    · simp at h
    · rename_i task hp
      cases h
      exact ⟨_, by simp only [Duty.deed?, hp, Option.map_some], .answer hp⟩
  | report p =>
    simp only [apply, report] at h
    split at h
    · simp at h
    · rename_i task a hp
      cases h
      exact ⟨_, by simp only [Duty.deed?, hp, Option.map_some], .report hp⟩
  | join p =>
    simp only [apply, join] at h
    split at h
    · rename_i hd
      split at h
      · simp at h
      · rename_i task a hp
        cases h
        exact ⟨_, by simp only [Duty.deed?, hp, Option.map_some], .join hd hp⟩
    · simp at h

variable {d}

theorem Does.world {s t : Pool World Job Answer} {deed : Deed Job Answer} (h : Does d s deed t) :
    t.world = d.effect s.world deed := by
  cases h <;> rfl

theorem Does.suits {s t : Pool World Job Answer} {deed : Deed Job Answer} (h : Does d s deed t) :
    d.Suits s.world deed := by
  cases h with
  | refuse _ _ refused => exact refused
  | accept _ _ admitted => exact admitted
  | answer _ => rfl
  | grant _ _ | start _ | report _ | join _ _ => trivial

/-! ### Histories -/

/-- One pool comes from another by all that a history tells of. -/
inductive Leads (d : Duty World Job Answer) (s : Pool World Job Answer) :
    History Job Answer → Pool World Job Answer → Prop where
  | nil : Leads d s [] s
  | snoc {ds : History Job Answer} {t u : Pool World Job Answer} {deed : Deed Job Answer}
      (before : Leads d s ds t) (last : Does d t deed u) : Leads d s (ds ++ [deed]) u

theorem Leads.cons {s t u : Pool World Job Answer} {deed : Deed Job Answer}
    {ds : History Job Answer} (first : Does d s deed t) (h : Leads d t ds u) :
    Leads d s (deed :: ds) u := by
  induction h with
  | nil => exact Leads.snoc .nil first
  | snoc _ last ih =>
    rw [← List.cons_append]
    exact ih.snoc last

theorem Leads.world {s t : Pool World Job Answer} {ds : History Job Answer} (h : Leads d s ds t) :
    t.world = d.replay s.world ds := by
  induction h with
  | nil => rfl
  | snoc _ last ih => rw [last.world, ih, Duty.replay_append]; rfl

theorem Leads.induct {s t : Pool World Job Answer} {ds : History Job Answer} (h : Leads d s ds t)
    (P : History Job Answer → World → Prop) (first : P [] s.world)
    (step : ∀ es w deed, P es w → d.Suits w deed → P (es ++ [deed]) (d.effect w deed)) :
    P ds t.world := by
  induction h with
  | nil => exact first
  | snoc _ last ih =>
    rw [last.world]
    exact step _ _ _ ih last.suits

/-- Every deed of a history was done after those before it. -/
theorem Leads.split {s u : Pool World Job Answer} {ds es es' : History Job Answer}
    {deed : Deed Job Answer} (h : Leads d s ds u) (split : ds = es ++ deed :: es') :
    ∃ t t', Leads d s es t ∧ Does d t deed t' := by
  induction h generalizing es' with
  | nil => simp at split
  | @snoc ds t u last' before last ih =>
    -- the deed is the last one, or else one of those before
    rcases List.eq_nil_or_concat es' with rfl | ⟨init, final, rfl⟩
    · have hs := List.append_inj' split rfl
      rw [← hs.1, ← List.singleton_inj.1 hs.2]
      exact ⟨t, u, before, last⟩
    · rw [List.concat_eq_append, ← List.cons_append, ← List.append_assoc] at split
      exact ih (List.append_inj' split rfl).1

theorem Leads.suits {s u : Pool World Job Answer} {ds es es' : History Job Answer}
    {deed : Deed Job Answer} (h : Leads d s ds u) (split : ds = es ++ deed :: es') :
    d.Suits (d.replay s.world es) deed := by
  obtain ⟨t, t', before, does⟩ := h.split split
  rw [← before.world]
  exact does.suits

variable (d)

def historyFrom (schedule : Schedule) : Nat → Nat → Pool World Job Answer → History Job Answer
  | 0, _, _ => []
  | fuel + 1, n, s =>
    let ms := s.moves
    match ms[schedule n % ms.length]? with
    | none => []
    | some m =>
      match apply d s m with
      | none => []
      | some t => (d.deed? s m).toList ++ historyFrom schedule fuel (n + 1) t

def Duty.history (schedule : Schedule) (s : Pool World Job Answer) : History Job Answer :=
  historyFrom d schedule s.measure 0 s

theorem leads_historyFrom (schedule : Schedule) (fuel n : Nat) (s : Pool World Job Answer) :
    Leads d s (historyFrom d schedule fuel n s) (runFrom d schedule fuel n s) := by
  induction fuel generalizing n s with
  | zero => exact .nil
  | succ fuel ih =>
    unfold historyFrom runFrom
    cases hm : s.moves[schedule n % s.moves.length]? with
    | none =>
      simp only [hm, Option.bind_none]
      exact .nil
    | some m =>
      cases ht : apply d s m with
      | none =>
        simp only [hm, ht, Option.bind_some]
        exact .nil
      | some t =>
        obtain ⟨deed, hd, does⟩ := does_of_apply d ht
        simp only [hm, ht, hd, Option.bind_some, Option.toList_some, List.singleton_append]
        exact (ih (n + 1) t).cons does

theorem leads_run (schedule : Schedule) (s : Pool World Job Answer) :
    Leads d s (d.history schedule s) (d.run schedule s) :=
  leads_historyFrom d schedule s.measure 0 s

end Breakage.Pool
