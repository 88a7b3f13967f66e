import Breakage.Proofs.Pool.Completion
import Breakage.SharedStore
import Mathlib.Logic.Relation

/-!
Accounts of what is done with stores through handles: which handles are kin (`Kin`), and for each
store what was appended to it and what was drained from it, through whichever handle. Main
statement: each deed keeps the accounts (`Accounts.created`, `Accounts.shared`, `Accounts.done`), by
which what was drained and what is there make up what was appended.
-/

namespace Breakage.SharedStore

variable {Task α : Type}

theorem getElem?_append_of_some {β : Type} {xs : List β} {i : Nat} {x : β} (h : xs[i]? = some x)
    (ys : List β) : (xs ++ ys)[i]? = some x := by
  rw [List.getElem?_append_left (List.getElem?_eq_some_iff.1 h).1, h]

theorem getElem?_snoc_iff {β : Type} {xs : List β} {x y : β} {i : Nat} :
    (xs ++ [x])[i]? = some y ↔ xs[i]? = some y ∨ i = xs.length ∧ x = y := by
  rw [List.getElem?_append]
  split
  · rename_i hlt
    simp [Nat.ne_of_lt hlt]
  · rename_i hle
    rw [List.getElem?_eq_none (Nat.not_lt.1 hle), List.getElem?_singleton]
    split
    · rename_i hi
      simp [Nat.le_antisymm (Nat.sub_eq_zero_iff_le.1 hi) (Nat.not_lt.1 hle)]
    · rename_i hi
      have hne : i ≠ xs.length := fun h => hi (by simp [h])
      simp [hne]

/-! ### Handles -/

theorem contents_put {s : SharedStore α} {handle i : Nat} (reaches : s.handles[handle]? = some i)
    (xs : List α) : (s.put handle xs).contents = s.contents.set i xs := by
  rw [put, reaches]

theorem getElem?_contents {s : SharedStore α} (sound : s.IsSound) {handle i : Nat}
    (reaches : s.handles[handle]? = some i) : s.contents[i]? = some (s.items handle) := by
  have hi : i < s.contents.length := sound i (List.mem_of_getElem? reaches)
  rw [items, reaches, Option.bind_some, List.getElem?_eq_getElem hi]
  rfl

theorem items_of_none {s : SharedStore α} {handle : Nat} (none : s.handles[handle]? = none) :
    s.items handle = [] := by
  rw [items, none]
  rfl

theorem items_congr {s : SharedStore α} {g h : Nat} (same : s.handles[g]? = s.handles[h]?) :
    s.items g = s.items h := by
  rw [items, items, same]

theorem items_put_of_reaches {s : SharedStore α} (sound : s.IsSound) {g i : Nat}
    (reaches : s.handles[g]? = some i) (xs : List α) (h : Nat) :
    (s.put g xs).items h = if s.handles[g]? = s.handles[h]? then xs else s.items h := by
  cases hh : s.handles[h]? with
  | none =>
    rw [items_of_none (by rw [handles_put, hh]), items_of_none hh, reaches]
    simp
  | some j =>
    rw [items_put sound reaches hh, reaches]
    simp

section

variable {s : SharedStore α} (sound : s.IsSound)
include sound

theorem isSound_put (g : Nat) (xs : List α) : (s.put g xs).IsSound := by
  intro i hi
  rw [handles_put] at hi
  unfold put
  split
  · exact sound i hi
  · rw [List.length_set]
    exact sound i hi

theorem isSound_share (g : Nat) : (s.share g).IsSound := by
  unfold share
  split
  · exact sound
  · rename_i j reaches
    intro i hi
    rcases List.mem_append.1 hi with hi | hi
    · exact sound i hi
    · rw [List.mem_singleton.1 hi]
      exact sound j (List.mem_of_getElem? reaches)

theorem isSound_create : s.create.IsSound := by
  intro i hi
  rw [create, List.length_append, List.length_singleton]
  rcases List.mem_append.1 hi with hi | hi
  · exact Nat.lt_succ_of_lt (sound i hi)
  · rw [List.mem_singleton.1 hi]
    exact Nat.lt_succ_self _

theorem items_create (h : Nat) : s.create.items h = s.items h := by
  by_cases hlt : h < s.handles.length
  · obtain ⟨i, reaches⟩ : ∃ i, s.handles[h]? = some i := ⟨_, List.getElem?_eq_getElem hlt⟩
    have hi : i < s.contents.length := sound i (List.mem_of_getElem? reaches)
    simp only [items, create, List.getElem?_append_left hlt, reaches, Option.bind_some,
      List.getElem?_append_left hi]
  · rw [items_of_none (List.getElem?_eq_none (Nat.not_lt.1 hlt))]
    rcases Nat.eq_or_lt_of_not_lt hlt with rfl | hgt
    · simp [items, create]
    · refine items_of_none (List.getElem?_eq_none ?_)
      rw [create, List.length_append, List.length_singleton]
      exact hgt

end

theorem share_eq {s : SharedStore α} {g i : Nat} (reaches : s.handles[g]? = some i) :
    s.share g = { s with handles := s.handles ++ [i] } := by
  rw [share, reaches]

theorem items_share {s : SharedStore α} {g i : Nat} (reaches : s.handles[g]? = some i) (h : Nat) :
    (s.share g).items h = if h = s.handles.length then s.items g else s.items h := by
  rw [share_eq reaches]
  split
  · rename_i hmade
    simp [items, hmade, reaches]
  · rename_i hmade
    rcases Nat.lt_or_gt_of_ne hmade with hlt | hgt
    · simp only [items, List.getElem?_append_left hlt]
    · have hnone : s.handles[h]? = none := List.getElem?_eq_none (Nat.le_of_lt hgt)
      rw [items_of_none hnone]
      refine items_of_none (List.getElem?_eq_none ?_)
      rw [List.length_append, List.length_singleton]
      exact hgt

/-! ### Deeds -/

inductive Request (α : Type) where
  | append (item : α)
  | drain
  deriving DecidableEq, Repr

def Request.call (s : SharedStore α) (handle : Nat) : Request α → List α × SharedStore α
  | append item => ([], s.append handle item)
  | drain => s.drain handle

def Request.item? : Request α → Option α
  | append item => some item
  | drain => none

def Request.drained? (returned : List α) : Request α → Option (List α)
  | append _ => none
  | drain => some returned

section

variable {s : SharedStore α} (sound : s.IsSound) {g i : Nat} (reaches : s.handles[g]? = some i)
include sound reaches

theorem items_append (item : α) : (s.append g item).items g = s.items g ++ [item] := by
  rw [append, items_put_of_reaches sound reaches, if_pos rfl]

theorem items_drain : (s.drain g).2.items g = [] := by
  rw [drain, items_put_of_reaches sound reaches, if_pos rfl]

theorem put_call (request : Request α) :
    s.put g ((request.call s g).2.items g) = (request.call s g).2 := by
  cases request with
  | append item =>
    rw [Request.call, items_append sound reaches]
    rfl
  | drain =>
    rw [Request.call, items_drain sound reaches]
    rfl

theorem call_congr {t : SharedStore α} (sound' : t.IsSound) {j : Nat}
    (reaches' : t.handles[g]? = some j) (same : t.items g = s.items g) (request : Request α) :
    (request.call t g).1 = (request.call s g).1 ∧
      (request.call t g).2.items g = (request.call s g).2.items g := by
  cases request with
  | append item =>
    refine ⟨rfl, ?_⟩
    rw [Request.call, Request.call, items_append sound reaches, items_append sound' reaches', same]
  | drain =>
    refine ⟨same, ?_⟩
    rw [Request.call, Request.call, items_drain sound reaches, items_drain sound' reaches']

end

/-- What is done. A call ends when its store is written. -/
inductive Deed (Task α : Type) where
  | created (made : Nat)
  | shared (handle made : Nat)
  | begun (task : Task) (handle : Nat) (request : Request α)
  | locked (task : Task)
  | done (task : Task) (handle : Nat) (request : Request α) (returned : List α)
  deriving DecidableEq, Repr

def Deed.begun? : Deed Task α → Option (Task × Nat × Request α)
  | begun task handle request => some (task, handle, request)
  | created _ | shared .. | locked _ | done .. => none

def Deed.done? : Deed Task α → Option (Task × Nat × Request α)
  | done task handle request _ => some (task, handle, request)
  | created _ | shared .. | begun .. | locked _ => none

/-- What a deed does to the stores, as if no other task used them. -/
def Deed.effect (s : SharedStore α) : Deed Task α → SharedStore α
  | created _ => s.create
  | shared handle _ => s.share handle
  | done _ handle request _ => (request.call s handle).2
  | begun .. | locked _ => s

def replay (ds : List (Deed Task α)) : SharedStore α := ds.foldl Deed.effect single

/-! ### Kinship of handles -/

/-- One handle comes from the other by sharing, or both from a third, and so on. -/
def Kin (ds : List (Deed Task α)) : Nat → Nat → Prop :=
  Relation.EqvGen fun g h => Deed.shared g h ∈ ds

theorem Kin.mono {ds es : List (Deed Task α)} (sub : ∀ deed ∈ ds, deed ∈ es) {g h : Nat}
    (kin : Kin ds g h) : Kin es g h :=
  Relation.EqvGen.mono (fun _ _ hmem => sub _ hmem) g h kin

def Deed.IsKnown (s : SharedStore α) : Deed Task α → Prop
  | shared handle made => ∃ i, s.handles[handle]? = some i ∧ s.handles[made]? = some i
  | done _ handle _ _ => ∃ i, s.handles[handle]? = some i
  | created _ | begun .. | locked _ => True

theorem Deed.IsKnown.mono {s t : SharedStore α} {deed : Deed Task α} (known : deed.IsKnown s)
    (grown : s.handles <+: t.handles) : deed.IsKnown t := by
  obtain ⟨more, grown⟩ := grown
  cases deed with
  | shared handle made =>
    obtain ⟨i, hhandle, hmade⟩ := known
    refine ⟨i, ?_, ?_⟩
    · rw [← grown, getElem?_append_of_some hhandle]
    · rw [← grown, getElem?_append_of_some hmade]
  | done task handle request returned =>
    obtain ⟨i, hhandle⟩ := known
    exact ⟨i, by rw [← grown, getElem?_append_of_some hhandle]⟩
  | created _ | begun _ _ _ | locked _ => trivial

theorem reaches_of_kin {ds : List (Deed Task α)} {s : SharedStore α}
    (known : ∀ deed ∈ ds, deed.IsKnown s) {g h : Nat} (kin : Kin ds g h) :
    s.handles[g]? = s.handles[h]? := by
  induction kin with
  | rel g h hmem =>
    obtain ⟨i, hg, hh⟩ := known _ hmem
    rw [hg, hh]
  | refl g => rfl
  | symm g h _ ih => exact ih.symm
  | trans g h k _ _ ih ih' => exact ih.trans ih'

/-! ### Accounts -/

def Deed.callOn? (s : SharedStore α) (i : Nat) : Deed Task α → Option (Request α × List α)
  | done _ handle request returned =>
    if s.handles[handle]? = some i then some (request, returned) else none
  | created _ | shared .. | begun .. | locked _ => none

def callsOn (s : SharedStore α) (i : Nat) (ds : List (Deed Task α)) : List (Request α × List α) :=
  ds.filterMap (Deed.callOn? s i)

def appendedTo (s : SharedStore α) (i : Nat) (ds : List (Deed Task α)) : List α :=
  (callsOn s i ds).filterMap fun call => call.1.item?

def drainedFrom (s : SharedStore α) (i : Nat) (ds : List (Deed Task α)) : List (List α) :=
  (callsOn s i ds).filterMap fun call => call.1.drained? call.2

theorem callsOn_snoc (s : SharedStore α) (i : Nat) (ds : List (Deed Task α)) (deed : Deed Task α) :
    callsOn s i (ds ++ [deed]) = callsOn s i ds ++ (deed.callOn? s i).toList :=
  Pool.History.filterMap_snoc _ ds deed

theorem callsOn_of_grown {s t : SharedStore α} {ds : List (Deed Task α)}
    (known : ∀ deed ∈ ds, deed.IsKnown s) (grown : s.handles <+: t.handles) (i : Nat) :
    callsOn t i ds = callsOn s i ds := by
  refine List.filterMap_congr fun deed hmem => ?_
  cases deed with
  | done task handle request returned =>
    obtain ⟨j, hhandle⟩ := known _ hmem
    obtain ⟨more, grown⟩ := grown
    rw [Deed.callOn?, Deed.callOn?, ← grown, getElem?_append_of_some hhandle, hhandle]
  | created _ | shared _ _ | begun _ _ _ | locked _ => rfl

theorem callsOn_of_unreached {s : SharedStore α} {ds : List (Deed Task α)}
    {i : Nat} (unreached : i ∉ s.handles) : callsOn s i ds = [] := by
  refine List.filterMap_eq_nil_iff.2 fun deed _ => ?_
  cases deed with
  | done task handle request returned =>
    exact if_neg fun hhandle => unreached (List.mem_of_getElem? hhandle)
  | created _ | shared _ _ | begun _ _ _ | locked _ => rfl

/-- What was drained, and then what is there, is what was appended. -/
def Balances (calls : List (Request α × List α)) (now : List α) : Prop :=
  (calls.filterMap fun call => call.1.drained? call.2).flatten ++ now =
    calls.filterMap fun call => call.1.item?

theorem Balances.snoc {s : SharedStore α} (sound : s.IsSound) {g i : Nat}
    (reaches : s.handles[g]? = some i) {calls : List (Request α × List α)}
    (balances : Balances calls (s.items g)) (request : Request α) :
    Balances (calls ++ [(request, (request.call s g).1)]) ((request.call s g).2.items g) := by
  unfold Balances at balances ⊢
  rw [Pool.History.filterMap_snoc, Pool.History.filterMap_snoc, ← balances]
  cases request with
  | append item => simp [Request.item?, Request.drained?, Request.call, items_append sound reaches]
  | drain =>
    rw [Request.call, items_drain sound reaches]
    simp [Request.item?, Request.drained?, drain]

/-- What the handles and the contents of the stores tell of all that was done. -/
structure Accounts (ds : List (Deed Task α)) (s : SharedStore α) : Prop where
  known : ∀ deed ∈ ds, deed.IsKnown s
  kin : ∀ g h i, s.handles[g]? = some i → s.handles[h]? = some i → Kin ds g h
  balances : ∀ i now, s.contents[i]? = some now → Balances (callsOn s i ds) now

theorem accounts_single : Accounts ([] : List (Deed Task α)) .single := by
  refine ⟨nofun, fun g h i hg hh => ?_, fun i now hnow => ?_⟩
  · have hfirst : ∀ g : Nat, (single : SharedStore α).handles[g]? = some i → g = 0 := by
      intro g hg
      exact Nat.lt_one_iff.1 (List.getElem?_eq_some_iff.1 hg).1
    rw [hfirst g hg, hfirst h hh]
    exact .refl 0
  · have hi : i = 0 := Nat.lt_one_iff.1 (List.getElem?_eq_some_iff.1 hnow).1
    subst hi
    obtain rfl : [] = now := Option.some.inj hnow
    rfl

namespace Accounts

variable {ds : List (Deed Task α)} {s t : SharedStore α} {deed : Deed Task α}

theorem known_snoc (accounts : Accounts ds s) (grown : s.handles <+: t.handles)
    (known : deed.IsKnown t) : ∀ d ∈ ds ++ [deed], d.IsKnown t := by
  intro d hd
  rcases List.mem_append.1 hd with hd | hd
  · exact (accounts.known d hd).mono grown
  · rwa [List.mem_singleton.1 hd]

theorem kin_snoc (accounts : Accounts ds s) {g h i : Nat} (hg : s.handles[g]? = some i)
    (hh : s.handles[h]? = some i) : Kin (ds ++ [deed]) g h :=
  (accounts.kin g h i hg hh).mono fun _ hd => List.mem_append_left _ hd

theorem callsOn_grown (accounts : Accounts ds s) (grown : s.handles <+: t.handles) (i : Nat)
    (other : deed.callOn? t i = none) : callsOn t i (ds ++ [deed]) = callsOn s i ds := by
  rw [callsOn_snoc, other, callsOn_of_grown accounts.known grown]
  exact List.append_nil _

theorem begun (accounts : Accounts ds s) (task : Task) (handle : Nat) (request : Request α) :
    Accounts (ds ++ [.begun task handle request]) s := by
  refine ⟨accounts.known_snoc List.prefix_rfl trivial, fun g h i => accounts.kin_snoc,
    fun i now hnow => ?_⟩
  rw [accounts.callsOn_grown List.prefix_rfl i rfl]
  exact accounts.balances i now hnow

theorem locked (accounts : Accounts ds s) (task : Task) : Accounts (ds ++ [.locked task]) s := by
  refine ⟨accounts.known_snoc List.prefix_rfl trivial, fun g h i => accounts.kin_snoc,
    fun i now hnow => ?_⟩
  rw [accounts.callsOn_grown List.prefix_rfl i rfl]
  exact accounts.balances i now hnow

theorem created (accounts : Accounts ds s) (sound : s.IsSound) (made : Nat) :
    Accounts (ds ++ [.created made]) s.create := by
  have grown : s.handles <+: s.create.handles := List.prefix_append _ _
  refine ⟨accounts.known_snoc grown trivial, fun g h i hg hh => ?_, fun i now hnow => ?_⟩
  · -- only the new handle reaches the new store
    have hold : ∀ g : Nat, s.handles[g]? = some i → i ≠ s.contents.length := fun g hg =>
      Nat.ne_of_lt (sound i (List.mem_of_getElem? hg))
    rcases getElem?_snoc_iff.1 hg with hg | ⟨rfl, hi⟩
    · rcases getElem?_snoc_iff.1 hh with hh | ⟨-, hi⟩
      · exact accounts.kin_snoc hg hh
      · exact absurd hi.symm (hold g hg)
    · rcases getElem?_snoc_iff.1 hh with hh | ⟨rfl, -⟩
      · exact absurd hi.symm (hold h hh)
      · exact .refl _
  · rw [accounts.callsOn_grown grown i rfl]
    rcases getElem?_snoc_iff.1 hnow with hnow | ⟨rfl, rfl⟩
    · exact accounts.balances i now hnow
    · rw [callsOn_of_unreached fun hmem => Nat.lt_irrefl _ (sound _ hmem)]
      rfl

theorem shared (accounts : Accounts ds s) {g i : Nat} (reaches : s.handles[g]? = some i) :
    Accounts (ds ++ [.shared g s.handles.length]) (s.share g) := by
  rw [share_eq reaches]
  have grown : s.handles <+: s.handles ++ [i] := List.prefix_append _ _
  have hmade : Kin (ds ++ [.shared g s.handles.length]) g s.handles.length :=
    .rel _ _ (List.mem_append_right _ List.mem_cons_self)
  have known : (.shared g s.handles.length : Deed Task α).IsKnown ⟨s.contents, s.handles ++ [i]⟩ :=
    ⟨i, getElem?_append_of_some reaches _, List.getElem?_concat_length⟩
  refine ⟨accounts.known_snoc grown known, fun h k j hh hk => ?_, fun j now hnow => ?_⟩
  · rcases getElem?_snoc_iff.1 hh with hh | ⟨rfl, rfl⟩
    · rcases getElem?_snoc_iff.1 hk with hk | ⟨rfl, rfl⟩
      · exact accounts.kin_snoc hh hk
      · exact (accounts.kin_snoc hh reaches).trans _ _ _ hmade
    · rcases getElem?_snoc_iff.1 hk with hk | ⟨rfl, -⟩
      · exact (hmade.symm _ _).trans _ _ _ (accounts.kin_snoc reaches hk)
      · exact .refl _
  · rw [accounts.callsOn_grown grown j rfl]
    exact accounts.balances j now hnow

theorem done (accounts : Accounts ds s) (sound : s.IsSound) {g i : Nat}
    (reaches : s.handles[g]? = some i) (task : Task) (request : Request α) :
    Accounts (ds ++ [.done task g request (request.call s g).1]) (request.call s g).2 := by
  rw [← put_call sound reaches]
  have same : (s.put g ((request.call s g).2.items g)).handles = s.handles := s.handles_put g _
  have grown : s.handles <+: (s.put g ((request.call s g).2.items g)).handles :=
    same ▸ List.prefix_rfl
  refine ⟨accounts.known_snoc grown ⟨i, same ▸ reaches⟩, fun h k j hh hk => ?_,
    fun j now hnow => ?_⟩
  · rw [same] at hh hk
    exact accounts.kin_snoc hh hk
  · have hfound := getElem?_contents sound reaches
    rw [contents_put reaches] at hnow
    rw [callsOn_snoc, callsOn_of_grown accounts.known grown, Deed.callOn?, same, reaches]
    by_cases hij : i = j
    · subst hij
      rw [List.getElem?_set_self (List.getElem?_eq_some_iff.1 hfound).1] at hnow
      obtain rfl := Option.some.inj hnow
      rw [if_pos rfl]
      exact (accounts.balances i _ hfound).snoc sound reaches request
    · rw [List.getElem?_set_ne hij] at hnow
      rw [if_neg fun h => hij (Option.some.inj h)]
      simpa using accounts.balances j now hnow

end Accounts

end Breakage.SharedStore
