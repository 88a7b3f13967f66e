import Breakage.Run.Session

/-!
What the steps of a session change of it, and when a part of a run ends well: when each of its steps
does, in the session that the one before has left. It comes to a halt when one of them does.
-/

namespace Breakage

@[simp] theorem Journal.emitAll_concat (j : Journal) (es : List Event) (e : Event) :
    j.emitAll (es ++ [e]) = (j.emitAll es).emit e := by
  rw [emitAll, List.foldl_append]
  rfl

theorem Journal.errorsReported_emitAll (j : Journal) (es : List Event) :
    (j.emitAll es).errorsReported = (j.errorsReported || es.any Event.isError) := by
  induction es generalizing j with
  | nil => rw [List.any_nil, Bool.or_false]; rfl
  | cons e rest ih =>
    rw [List.any_cons, ← Bool.or_assoc]
    exact ih (j.emit e)

theorem Except.mapError_eq_ok {ε ε' α : Type} {f : ε → ε'} {r : Except ε α} {a : α} :
    r.mapError f = .ok a ↔ r = .ok a := by
  cases r with
  | error e => constructor <;> (intro h; cases h)
  | ok b => exact ⟨fun h => congrArg _ (Except.ok.inj h), fun h => congrArg _ (Except.ok.inj h)⟩

namespace Session

variable (s : Session) (e : Event) (es : List Event) (m : Milestone) (c : Call)

@[simp] theorem emit_host : (s.emit e).host = s.host := rfl

@[simp] theorem emit_journal : (s.emit e).journal = s.journal.emit e := rfl

@[simp] theorem emit_calls : (s.emit e).calls = s.calls := rfl

@[simp] theorem emit_milestones : (s.emit e).milestones = s.milestones := rfl

@[simp] theorem emitAll_host : (s.emitAll es).host = s.host := rfl

@[simp] theorem emitAll_journal : (s.emitAll es).journal = s.journal.emitAll es := rfl

@[simp] theorem emitAll_calls : (s.emitAll es).calls = s.calls := rfl

@[simp] theorem emitAll_milestones : (s.emitAll es).milestones = s.milestones := rfl

@[simp] theorem mark_host : (s.mark m).host = s.host := rfl

@[simp] theorem mark_journal : (s.mark m).journal = s.journal := rfl

@[simp] theorem mark_calls : (s.mark m).calls = s.calls := rfl

@[simp] theorem mark_milestones : (s.mark m).milestones = s.milestones ++ [m] := rfl

section Ask

variable {α : Type} (f : Host → α × Host)

@[simp] theorem ask_fst : (s.ask c f).1 = (f s.host).1 := rfl

@[simp] theorem ask_host : (s.ask c f).2.host = (f s.host).2 := rfl

@[simp] theorem ask_journal : (s.ask c f).2.journal = s.journal := rfl

@[simp] theorem ask_calls : (s.ask c f).2.calls = s.calls ++ [c] := rfl

@[simp] theorem ask_milestones : (s.ask c f).2.milestones = s.milestones := rfl

end Ask

end Session

namespace Run

variable {α β : Type} {s s' : Session}

/-- A part of a run that is seen to end well, with what is seen of it. -/
def check (x : Run α) (P : α → Session → Bool) (s : Session) : Bool :=
  match x s with
  | (.ok a, t) => P a t
  | (.error _, _) => false

theorem exists_of_check {x : Run α} {P : α → Session → Bool} (h : x.check P s = true) :
    ∃ a t, x s = (.ok a, t) ∧ P a t = true := by
  rw [check] at h
  split at h
  · exact ⟨_, _, ‹_›, h⟩
  · cases h

theorem bind_of_ok {x : Run α} {f : α → Run β} {a : α} {t : Session} (h : x s = (.ok a, t)) :
    (x >>= f) s = f a t := by
  change (ExceptT.bindCont f (x s).1 : StateM Session _) (x s).2 = _
  rw [h]
  rfl

theorem bind_of_error {x : Run α} {f : α → Run β} {e : Halt} {t : Session}
    (h : x s = (.error e, t)) : (x >>= f) s = (.error e, t) := by
  change (ExceptT.bindCont f (x s).1 : StateM Session _) (x s).2 = _
  rw [h]
  rfl

theorem bind_eq_ok {x : Run α} {f : α → Run β} {b : β} :
    (x >>= f) s = (.ok b, s') ↔ ∃ a t, x s = (.ok a, t) ∧ f a t = (.ok b, s') := by
  rcases hx : x s with ⟨e | a, t⟩
  · rw [bind_of_error hx]
    constructor
    · intro h
      cases h
    · rintro ⟨a, t', h, -⟩
      cases h
  · rw [bind_of_ok hx]
    constructor
    · intro h
      exact ⟨a, t, rfl, h⟩
    · rintro ⟨a', t', h, h'⟩
      cases h
      exact h'

@[simp] theorem pure_eq_ok {a b : α} : (pure a : Run α) s = (.ok b, s') ↔ a = b ∧ s = s' := by
  change (Except.ok a, s) = (Except.ok b, s') ↔ _
  simp

@[simp] theorem get_eq_ok {t : Session} : (get : Run Session) s = (.ok t, s') ↔ s = t ∧ s = s' := by
  change (Except.ok s, s) = (Except.ok t, s') ↔ _
  simp

@[simp] theorem update_eq_ok {f : Session → Session} {u : Unit} :
    update f s = (.ok u, s') ↔ f s = s' := by
  change (Except.ok (), f s) = (Except.ok u, s') ↔ _
  simp

@[simp] theorem ofExcept_eq_ok {r : Except Fault α} {a : α} :
    ofExcept r s = (.ok a, s') ↔ r = .ok a ∧ s = s' := by
  cases r with
  | error e =>
    change (Except.error (Halt.fault e), s) = (Except.ok a, s') ↔ _
    simp
  | ok b => simp [ofExcept]

@[simp] theorem lift_eq_ok {x : StateM Session α} {a : α} :
    (liftM x : Run α) s = (.ok a, s') ↔ x s = (a, s') := by
  change (Except.ok (x s).1, (x s).2) = (Except.ok a, s') ↔ _
  constructor
  · intro h
    obtain ⟨hr, ht⟩ := Prod.mk.inj h
    exact Prod.ext (Except.ok.inj hr) ht
  · intro h
    rw [h]

theorem pooled_eq_ok {width : Nat} {body : StateM Session α} {a : α} :
    pooled width body s = (.ok a, s') ↔ width ≤ Pool.widthLimit ∧ body s = (a, s') := by
  rw [pooled]
  split
  · rename_i beyond
    constructor
    · intro h
      cases h
    · rintro ⟨within, -⟩
      exact absurd within (Nat.not_le.2 beyond)
  · rename_i within
    rw [lift_eq_ok, and_iff_right (Nat.not_lt.1 within)]

/-! ### Coming to a halt -/

section Halt

variable {e : Halt}

theorem bind_eq_error {x : Run α} {f : α → Run β} :
    (x >>= f) s = (.error e, s') ↔
      x s = (.error e, s') ∨ ∃ a t, x s = (.ok a, t) ∧ f a t = (.error e, s') := by
  rcases hx : x s with ⟨e' | a, t⟩
  · rw [bind_of_error hx]
    constructor
    · intro h
      cases h
      exact .inl rfl
    · rintro (h | ⟨a, t', h, -⟩)
      · cases h
        rfl
      · cases h
  · rw [bind_of_ok hx]
    constructor
    · intro h
      exact .inr ⟨a, t, rfl, h⟩
    · rintro (h | ⟨a', t', h, h'⟩)
      · cases h
      · cases h
        exact h'

theorem map_eq_ok {f : α → β} {x : Run α} {b : β} :
    (f <$> x) s = (.ok b, s') ↔ ∃ a, x s = (.ok a, s') ∧ f a = b := by
  rw [map_eq_pure_bind, bind_eq_ok]
  constructor
  · rintro ⟨a, t, h, h'⟩
    obtain ⟨hab, rfl⟩ := pure_eq_ok.1 h'
    exact ⟨a, h, hab⟩
  · rintro ⟨a, h, hab⟩
    exact ⟨a, s', h, pure_eq_ok.2 ⟨hab, rfl⟩⟩

@[simp] theorem pure_eq_error {a : α} : ¬(pure a : Run α) s = (.error e, s') := by
  intro h
  cases h

theorem map_eq_error {f : α → β} {x : Run α} :
    (f <$> x) s = (.error e, s') ↔ x s = (.error e, s') := by
  rw [map_eq_pure_bind, bind_eq_error, or_iff_left]
  rintro ⟨a, t, -, h⟩
  exact pure_eq_error h

@[simp] theorem update_eq_error {f : Session → Session} : ¬update f s = (.error e, s') := by
  intro h
  cases h

@[simp] theorem lift_eq_error {x : StateM Session α} : ¬(liftM x : Run α) s = (.error e, s') := by
  intro h
  cases h

theorem pooled_eq_error {width : Nat} {body : StateM Session α} :
    pooled width body s = (.error e, s') ↔ Pool.widthLimit < width ∧ e = .overload ∧ s' = s := by
  rw [pooled]
  split
  · rename_i beyond
    change (Except.error Halt.overload, s) = (.error e, s') ↔ _
    simp [beyond, eq_comm]
  · rename_i within
    simp [within]

end Halt

theorem ask_eq {c : Call} {f : Action α} {r : Except Halt α} (h : ask c f s = (r, s')) :
    s' = { s.note c with host := s'.host } := by
  cases h
  rfl

theorem action_of_ask {c : Call} {f : Action α} {a : α} (h : ask c f s = (.ok a, s')) :
    f s.host = (.ok a, s'.host) := by
  obtain ⟨hr, rfl⟩ := Prod.mk.inj h
  exact Prod.ext (Except.mapError_eq_ok.1 hr) rfl

@[simp] theorem finallyDo_eq_ok {x : Run α} {tidy : Session → Session} {a : α} :
    x.finallyDo tidy s = (.ok a, s') ↔ ∃ t, x s = (.ok a, t) ∧ tidy t = s' := by
  change ((x s).1, tidy (x s).2) = (Except.ok a, s') ↔ _
  constructor
  · intro h
    obtain ⟨hr, ht⟩ := Prod.mk.inj h
    exact ⟨(x s).2, Prod.ext hr rfl, ht⟩
  · rintro ⟨t, h, rfl⟩
    rw [h]

theorem finallyDo_eq_error {x : Run α} {tidy : Session → Session} {e : Halt} :
    x.finallyDo tidy s = (.error e, s') ↔ ∃ t, x s = (.error e, t) ∧ tidy t = s' := by
  change ((x s).1, tidy (x s).2) = (Except.error e, s') ↔ _
  constructor
  · intro h
    obtain ⟨hr, ht⟩ := Prod.mk.inj h
    exact ⟨(x s).2, Prod.ext hr rfl, ht⟩
  · rintro ⟨t, h, rfl⟩
    rw [h]

section OnHalt

variable {x : Run α} {tidy : Session → Session}

theorem onHalt_of_ok {a : α} {t : Session} (h : x s = (.ok a, t)) :
    x.onHalt tidy s = (.ok a, t) := by
  simp only [onHalt, ExceptT.mk, h]

theorem onHalt_of_error {e : Halt} {t : Session} (h : x s = (.error e, t)) :
    x.onHalt tidy s = (.error e, tidy t) := by
  simp only [onHalt, ExceptT.mk, h]

@[simp] theorem onHalt_eq_ok {a : α} : x.onHalt tidy s = (.ok a, s') ↔ x s = (.ok a, s') := by
  rcases hx : x s with ⟨e | b, t⟩
  · rw [onHalt_of_error hx]
    constructor <;> (intro h; cases h)
  · rw [onHalt_of_ok hx]

theorem onHalt_eq_error {e : Halt} :
    x.onHalt tidy s = (.error e, s') ↔ ∃ t, x s = (.error e, t) ∧ tidy t = s' := by
  rcases hx : x s with ⟨e' | a, t⟩
  · rw [onHalt_of_error hx]
    constructor
    · intro h
      obtain ⟨he, ht⟩ := Prod.mk.inj h
      exact ⟨t, by rw [Except.error.inj he], ht⟩
    · rintro ⟨t', h, rfl⟩
      cases h
      rfl
  · rw [onHalt_of_ok hx]
    constructor
    · intro h
      cases h
    · rintro ⟨t', h, -⟩
      cases h

end OnHalt

end Run

end Breakage
