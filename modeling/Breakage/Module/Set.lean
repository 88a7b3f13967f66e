import Breakage.Module.Map

/-!
Sets of modules, listed in name order. Main statement: `mem_insert`.
-/

namespace Breakage

structure ModuleSet where
  toList : List ModuleName
  ascending : toList.Pairwise (· < ·)

namespace ModuleSet

def empty : ModuleSet := ⟨[], .nil⟩

instance : Inhabited ModuleSet := ⟨empty⟩

instance : Membership ModuleName ModuleSet := ⟨fun s m => m ∈ s.toList⟩

instance (m : ModuleName) (s : ModuleSet) : Decidable (m ∈ s) :=
  inferInstanceAs (Decidable (m ∈ s.toList))

theorem mem_def {m : ModuleName} {s : ModuleSet} : m ∈ s ↔ m ∈ s.toList := Iff.rfl

def insertInto (m : ModuleName) : List ModuleName → List ModuleName
  | [] => [m]
  | a :: rest =>
    if m < a then m :: a :: rest else if a < m then a :: insertInto m rest else a :: rest

theorem mem_insertInto {m k : ModuleName} {ms : List ModuleName} :
    k ∈ insertInto m ms ↔ k = m ∨ k ∈ ms := by
  induction ms with
  | nil => simp [insertInto]
  | cons a rest ih =>
    unfold insertInto
    split
    · simp
    · split
      · simp only [List.mem_cons, ih]; grind
      · have : m = a := ModuleName.eq_of_not_lt ‹_› ‹_›
        subst this
        simp

theorem pairwise_insertInto {m : ModuleName} {ms : List ModuleName} (h : ms.Pairwise (· < ·)) :
    (insertInto m ms).Pairwise (· < ·) := by
  induction ms with
  | nil => simp [insertInto]
  | cons a rest ih =>
    have hr := List.pairwise_cons.1 h
    unfold insertInto
    split
    · refine List.pairwise_cons.2 ⟨?_, h⟩
      intro x hx
      rcases List.mem_cons.1 hx with hx | hx
      · subst hx; assumption
      · exact ModuleName.lt_trans ‹_› (hr.1 x hx)
    · split
      · refine List.pairwise_cons.2 ⟨?_, ih hr.2⟩
        intro x hx
        rcases mem_insertInto.1 hx with hx | hx
        · subst hx; assumption
        · exact hr.1 x hx
      · exact h

def insert (s : ModuleSet) (m : ModuleName) : ModuleSet :=
  ⟨insertInto m s.toList, pairwise_insertInto s.ascending⟩

theorem mem_insert {s : ModuleSet} {m k : ModuleName} : k ∈ s.insert m ↔ k = m ∨ k ∈ s :=
  mem_insertInto

def insertAll (s : ModuleSet) (ms : List ModuleName) : ModuleSet := ms.foldl insert s

theorem mem_insertAll {s : ModuleSet} {ms : List ModuleName} {k : ModuleName} :
    k ∈ s.insertAll ms ↔ k ∈ ms ∨ k ∈ s := by
  induction ms generalizing s with
  | nil => simp [insertAll]
  | cons m rest ih =>
    have : s.insertAll (m :: rest) = (s.insert m).insertAll rest := rfl
    rw [this, ih, mem_insert, List.mem_cons]
    grind

def ofList (ms : List ModuleName) : ModuleSet := empty.insertAll ms

theorem mem_ofList {ms : List ModuleName} {k : ModuleName} : k ∈ ofList ms ↔ k ∈ ms := by
  have : k ∉ empty := by simp [mem_def, empty]
  simp [ofList, mem_insertAll, this]

def filter (s : ModuleSet) (p : ModuleName → Bool) : ModuleSet :=
  ⟨s.toList.filter p, s.ascending.filter p⟩

theorem mem_filter {s : ModuleSet} {p : ModuleName → Bool} {k : ModuleName} :
    k ∈ s.filter p ↔ k ∈ s ∧ p k = true := by
  simp [mem_def, filter]

def size (s : ModuleSet) : Nat := s.toList.length

def isEmpty (s : ModuleSet) : Bool := s.toList.isEmpty

end ModuleSet

end Breakage
