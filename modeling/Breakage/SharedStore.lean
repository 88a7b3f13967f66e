/-!
Stores that many tasks append to and one drains. Handles on a store are numbered; copies of a
handle reach the same store. Main statement: what is written through one handle is seen through
every handle of its store and through no other.
-/

namespace Breakage

/-- The stores, and the one that each handle reaches. -/
structure SharedStore (α : Type) where
  /-- in the order of appending -/
  contents : List (List α)
  handles : List Nat
  deriving DecidableEq, Repr

namespace SharedStore

variable {α : Type}

def single : SharedStore α := ⟨[[]], [0]⟩

def items (s : SharedStore α) (handle : Nat) : List α :=
  ((s.handles[handle]?).bind fun i => s.contents[i]?).getD []

def put (s : SharedStore α) (handle : Nat) (items : List α) : SharedStore α :=
  match s.handles[handle]? with
  | none => s
  | some i => { s with contents := s.contents.set i items }

def append (s : SharedStore α) (handle : Nat) (item : α) : SharedStore α :=
  s.put handle (s.items handle ++ [item])

/-- Takes all that has been appended. -/
def drain (s : SharedStore α) (handle : Nat) : List α × SharedStore α :=
  (s.items handle, s.put handle [])

/-- Another handle on the same store; its number is the count of the former handles. -/
def share (s : SharedStore α) (handle : Nat) : SharedStore α :=
  match s.handles[handle]? with
  | none => s
  | some i => { s with handles := s.handles ++ [i] }

def create (s : SharedStore α) : SharedStore α :=
  ⟨s.contents ++ [[]], s.handles ++ [s.contents.length]⟩

theorem handles_put (s : SharedStore α) (handle : Nat) (xs : List α) :
    (s.put handle xs).handles = s.handles := by
  unfold put
  split <;> rfl

/-- Every handle reaches a store. -/
def IsSound (s : SharedStore α) : Prop := ∀ i ∈ s.handles, i < s.contents.length

theorem isSound_single : (single : SharedStore α).IsSound := by simp [IsSound, single]

theorem items_put {s : SharedStore α} (hs : s.IsSound) {g h : Nat} {i j : Nat}
    (hg : s.handles[g]? = some i) (hh : s.handles[h]? = some j) (xs : List α) :
    (s.put g xs).items h = if i = j then xs else s.items h := by
  have hi : i < s.contents.length := hs i (List.mem_of_getElem? hg)
  simp only [put, hg, items, hh, Option.bind_some, List.getElem?_set]
  split
  · simp
  · rfl

end SharedStore

end Breakage
