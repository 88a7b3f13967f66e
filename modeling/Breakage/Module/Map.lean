import Breakage.Module.Name

/-!
Tables keyed by module name, in name order. Main statements: what is written under a name is read
under it, and nothing changes under the others.
-/

namespace Breakage

structure ModuleMap (α : Type) where
  entries : List (ModuleName × α)
  ascending : entries.Pairwise fun a b => a.1 < b.1

namespace ModuleMap

variable {α : Type}

def empty : ModuleMap α := ⟨[], .nil⟩

instance : Inhabited (ModuleMap α) := ⟨empty⟩

def insertInto (m : ModuleName) (a : α) : List (ModuleName × α) → List (ModuleName × α)
  | [] => [(m, a)]
  | e :: rest =>
    if m < e.1 then (m, a) :: e :: rest
    else if e.1 < m then e :: insertInto m a rest
    else (m, a) :: rest

theorem mem_keys_insertInto {m k : ModuleName} {a : α} {es : List (ModuleName × α)} :
    (∃ v, (k, v) ∈ insertInto m a es) ↔ k = m ∨ ∃ v, (k, v) ∈ es := by
  induction es with
  | nil => simp [insertInto]
  | cons e rest ih =>
    unfold insertInto
    split
    · simp only [List.mem_cons, Prod.mk.injEq]; grind
    · split
      · simp only [List.mem_cons]
        constructor
        · rintro ⟨v, h | h⟩
          · exact .inr ⟨v, .inl h⟩
          · rcases ih.1 ⟨v, h⟩ with h | ⟨v, h⟩
            · exact .inl h
            · exact .inr ⟨v, .inr h⟩
        · rintro (h | ⟨v, h | h⟩)
          · obtain ⟨v, h⟩ := ih.2 (.inl h); exact ⟨v, .inr h⟩
          · exact ⟨v, .inl h⟩
          · obtain ⟨v, h⟩ := ih.2 (.inr ⟨v, h⟩); exact ⟨v, .inr h⟩
      · have : m = e.1 := ModuleName.eq_of_not_lt ‹_› ‹_›
        subst this
        simp only [List.mem_cons]
        constructor
        · rintro ⟨v, h | h⟩
          · exact .inl (Prod.mk.inj h).1
          · exact .inr ⟨v, .inr h⟩
        · rintro (h | ⟨v, h | h⟩)
          · exact ⟨a, .inl (by rw [h])⟩
          · exact ⟨a, .inl (by rw [← h])⟩
          · exact ⟨v, .inr h⟩

theorem pairwise_insertInto {m : ModuleName} {a : α} {es : List (ModuleName × α)}
    (h : es.Pairwise fun a b => a.1 < b.1) : (insertInto m a es).Pairwise fun a b => a.1 < b.1 := by
  induction es with
  | nil => simp [insertInto]
  | cons e rest ih =>
    have hr := List.pairwise_cons.1 h
    unfold insertInto
    split
    · refine List.pairwise_cons.2 ⟨?_, h⟩
      intro x hx
      rcases List.mem_cons.1 hx with hx | hx
      · subst hx; assumption
      · exact ModuleName.lt_trans ‹_› (hr.1 x hx)
    · split
      · refine List.pairwise_cons.2 ⟨?_, ih hr.2⟩
        intro x hx
        rcases mem_keys_insertInto.1 ⟨x.2, hx⟩ with hk | ⟨v, hv⟩
        · rw [hk]; assumption
        · exact hr.1 (x.1, v) hv
      · have : m = e.1 := ModuleName.eq_of_not_lt ‹_› ‹_›
        subst this
        exact List.pairwise_cons.2 ⟨hr.1, hr.2⟩

/-- A value under this name takes the place of the former one. -/
def insert (t : ModuleMap α) (m : ModuleName) (a : α) : ModuleMap α :=
  ⟨insertInto m a t.entries, pairwise_insertInto t.ascending⟩

def get? (t : ModuleMap α) (m : ModuleName) : Option α :=
  (t.entries.find? fun e => decide (e.1 = m)).map Prod.snd

def contains (t : ModuleMap α) (m : ModuleName) : Bool := (t.get? m).isSome

def size (t : ModuleMap α) : Nat := t.entries.length

/-- Later entries win over earlier ones. -/
def ofList (es : List (ModuleName × α)) : ModuleMap α :=
  es.foldl (fun t e => t.insert e.1 e.2) empty

def merge (t s : ModuleMap α) : ModuleMap α := s.entries.foldl (fun t e => t.insert e.1 e.2) t

theorem get?_insert (t : ModuleMap α) (m k : ModuleName) (a : α) :
    (t.insert m a).get? k = if k = m then some a else t.get? k := by
  obtain ⟨es, h⟩ := t
  simp only [insert, get?]
  clear h
  induction es with
  | nil =>
    by_cases hk : m = k
    · simp [insertInto, hk]
    · simp [insertInto, hk, Ne.symm hk]
  | cons e rest ih =>
    unfold insertInto
    split
    · by_cases hk : m = k
      · simp [hk]
      · simp [hk, Ne.symm hk]
    · split
      · by_cases he : e.1 = k
        · have : k ≠ m := by
            intro hkm
            subst hkm
            exact ModuleName.lt_irrefl _ (he ▸ ‹e.1 < k›)
          simp [he, this]
        · simp only [List.find?_cons, he, decide_false, ih]
      · have : m = e.1 := ModuleName.eq_of_not_lt ‹_› ‹_›
        subst this
        by_cases hk : e.1 = k
        · simp [hk]
        · simp [hk, Ne.symm hk]

end ModuleMap

end Breakage
