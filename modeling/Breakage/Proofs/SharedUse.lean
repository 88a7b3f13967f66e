import Breakage.Proofs.Pool.Completion
import Mathlib.Logic.Function.Basic

/-!
One thing that many use at once. A user makes one call after the other; a call is begun, takes as
many steps as it needs, and ends. The steps of all users come in any order. Main statements: the
calls of a user end in the order in which they were begun (`Leads.ended_prefix`), and when no call
is under way, every call has ended once (`Leads.ended_perm`).
-/

namespace Breakage

variable {World Deed User Call : Type} [DecidableEq User]

def callsOf (user : User) (calls : List (User × Call)) : List Call :=
  (calls.filter fun c => decide (c.1 = user)).map Prod.snd

theorem callsOf_append (user : User) (cs ds : List (User × Call)) :
    callsOf user (cs ++ ds) = callsOf user cs ++ callsOf user ds := by
  rw [callsOf, List.filter_append, List.map_append]
  rfl

theorem callsOf_cons (user : User) (c : User × Call) (cs : List (User × Call)) :
    callsOf user (c :: cs) = if c.1 = user then c.2 :: callsOf user cs else callsOf user cs := by
  by_cases h : c.1 = user <;> simp [callsOf, h]

theorem count_callsOf [DecidableEq Call] (user : User) (call : Call) (cs : List (User × Call)) :
    (callsOf user cs).count call = cs.count (user, call) := by
  induction cs with
  | nil => rfl
  | cons c rest ih =>
    obtain ⟨u, x⟩ := c
    rw [callsOf_cons, List.count_cons, ← ih]
    by_cases hu : u = user
    · simp [hu, List.count_cons]
    · simp [hu]

theorem perm_of_callsOf {cs ds : List (User × Call)}
    (h : ∀ user, callsOf user cs = callsOf user ds) : cs.Perm ds := by
  classical
  rw [List.perm_iff_count]
  rintro ⟨user, call⟩
  rw [← count_callsOf, ← count_callsOf, h]

theorem balanced_update {Stage : Type} (call? : Stage → Option Call) {stage : User → Stage}
    {user : User} {next : Stage} {b e : Option Call}
    (h : e.toList ++ (call? next).toList = (call? (stage user)).toList ++ b.toList) (other : User) :
    callsOf other (e.map (user, ·)).toList ++
        (call? (Function.update stage user next other)).toList =
      (call? (stage other)).toList ++ callsOf other (b.map (user, ·)).toList := by
  have hcalls : ∀ c : Option Call, callsOf other (c.map (user, ·)).toList =
      if user = other then c.toList else [] := by
    intro c
    cases c with
    | none => simp [callsOf]
    | some call => by_cases same : user = other <;> simp [callsOf, same]
  rw [hcalls, hcalls]
  by_cases same : user = other
  · subst same
    rw [if_pos rfl, if_pos rfl, Function.update_self, h]
  · rw [if_neg same, if_neg same, Function.update_of_ne (Ne.symm same), List.append_nil]
    rfl

theorem stage_of_update {Stage : Type} {stage : User → Stage} {user other : User}
    {next now : Stage} (hnext : next ≠ now) (h : Function.update stage user next other = now) :
    other ≠ user ∧ stage other = now := by
  by_cases same : other = user
  · rw [same, Function.update_self] at h
    exact absurd h hnext
  · rw [Function.update_of_ne same] at h
    exact ⟨same, h⟩

structure SharedUse (World Deed User Call : Type) [DecidableEq User] where
  Does : World → Deed → World → Prop
  /-- the call that a user has begun and that has not ended yet -/
  underway : World → User → Option Call
  begun? : Deed → Option (User × Call)
  ended? : Deed → Option (User × Call)
  /-- a call is under way from its begin to its end -/
  balanced : ∀ {w deed w'}, Does w deed w' → ∀ user,
    callsOf user (ended? deed).toList ++ (underway w' user).toList =
      (underway w user).toList ++ callsOf user (begun? deed).toList

namespace SharedUse

variable (u : SharedUse World Deed User Call)

/-- One world comes from another by all these deeds, the oldest first. -/
inductive Leads (w : World) : List Deed → World → Prop where
  | nil : Leads w [] w
  | snoc {ds : List Deed} {v v' : World} {deed : Deed} (before : Leads w ds v)
      (last : u.Does v deed v') : Leads w (ds ++ [deed]) v'

def begun (ds : List Deed) : List (User × Call) := ds.filterMap u.begun?

def ended (ds : List Deed) : List (User × Call) := ds.filterMap u.ended?

def IsQuiet (w : World) : Prop := ∀ user, u.underway w user = none

theorem begun_snoc (ds : List Deed) (deed : Deed) :
    u.begun (ds ++ [deed]) = u.begun ds ++ (u.begun? deed).toList :=
  Pool.History.filterMap_snoc _ ds deed

theorem ended_snoc (ds : List Deed) (deed : Deed) :
    u.ended (ds ++ [deed]) = u.ended ds ++ (u.ended? deed).toList :=
  Pool.History.filterMap_snoc _ ds deed

variable {u} {w v v' : World} {ds es es' : List Deed}

theorem Leads.trans (first : u.Leads w ds v) (next : u.Leads v es v') :
    u.Leads w (ds ++ es) v' := by
  induction next with
  | nil => rwa [List.append_nil]
  | snoc _ last ih =>
    rw [← List.append_assoc]
    exact ih.snoc last

theorem Leads.cons {deed : Deed} (first : u.Does w deed v) (rest : u.Leads v ds v') :
    u.Leads w (deed :: ds) v' :=
  (Leads.nil.snoc first).trans rest

/-- Every deed was done after those before it. -/
theorem Leads.split {deed : Deed} (h : u.Leads w ds v) (split : ds = es ++ deed :: es') :
    ∃ x x', u.Leads w es x ∧ u.Does x deed x' := by
  induction h generalizing es' with
  | nil => simp at split
  | @snoc ds x x' final before last ih =>
    rcases List.eq_nil_or_concat es' with rfl | ⟨front, final, rfl⟩
    · obtain ⟨hds, hdeed⟩ := List.append_inj' split rfl
      rw [← hds, ← List.singleton_inj.1 hdeed]
      exact ⟨x, x', before, last⟩
    · rw [List.concat_eq_append, ← List.cons_append, ← List.append_assoc] at split
      exact ih (List.append_inj' split rfl).1

theorem Leads.callsOf_ended (h : u.Leads w ds v) (user : User) :
    callsOf user (u.ended ds) ++ (u.underway v user).toList =
      (u.underway w user).toList ++ callsOf user (u.begun ds) := by
  induction h with
  | nil => simp [begun, ended, callsOf]
  | @snoc ds v v' deed _ last ih =>
    rw [ended_snoc, begun_snoc, callsOf_append, callsOf_append, List.append_assoc,
      u.balanced last, ← List.append_assoc, ih, List.append_assoc]

theorem Leads.ended_prefix (h : u.Leads w ds v) (quiet : u.IsQuiet w) (user : User) :
    callsOf user (u.ended ds) <+: callsOf user (u.begun ds) := by
  have hcalls := h.callsOf_ended user
  rw [quiet user] at hcalls
  exact ⟨_, hcalls⟩

theorem Leads.ended_perm (h : u.Leads w ds v) (quiet : u.IsQuiet w) (quiet' : u.IsQuiet v) :
    (u.ended ds).Perm (u.begun ds) := by
  refine perm_of_callsOf fun user => ?_
  have hcalls := h.callsOf_ended user
  rw [quiet user, quiet' user] at hcalls
  simpa using hcalls

end SharedUse

end Breakage
