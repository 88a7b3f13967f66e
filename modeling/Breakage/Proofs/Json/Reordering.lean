import Breakage.Proofs.Json.Fields

/-!
Trees that are the same but for the order of the members in their objects, at any depth (`Reorders`).
They are equally deep and equally clean, and the fields of a record are found in the one as in the other.
Main statement: `Reorders.slots`.
-/

namespace Breakage.Json

mutual

/-- The trees are the same but for the order of members. -/
inductive Reorders : Json → Json → Prop where
  | null : Reorders .null .null
  | bool (b : Bool) : Reorders (.bool b) (.bool b)
  | number (n : Number) : Reorders (.number n) (.number n)
  | string (t : Text) : Reorders (.string t) (.string t)
  | array {items items' : List Json} (each : ReordersItems items items') :
    Reorders (.array items) (.array items')
  | object {members between members' : List (Text × Json)} (each : ReordersMembers members between)
    (order : between.Perm members') : Reorders (.object members) (.object members')

inductive ReordersItems : List Json → List Json → Prop where
  | nil : ReordersItems [] []
  | cons {v w : Json} {items items' : List Json} (value : Reorders v w)
    (rest : ReordersItems items items') : ReordersItems (v :: items) (w :: items')

inductive ReordersMembers : List (Text × Json) → List (Text × Json) → Prop where
  | nil : ReordersMembers [] []
  | cons (k : Text) {v w : Json} {members members' : List (Text × Json)} (value : Reorders v w)
    (rest : ReordersMembers members members') : ReordersMembers ((k, v) :: members) ((k, w) :: members')

end

variable {α β κ : Type} {S : α → α → Prop} {decode : Json → Option α}

def SameMember (m m' : κ × Json) : Prop := m'.1 = m.1 ∧ m.2.Reorders m'.2

def SameMembers (members members' : List (κ × Json)) : Prop :=
  ∃ between, List.Forall₂ SameMember members between ∧ between.Perm members'

theorem reordersItems_iff {items items' : List Json} :
    ReordersItems items items' ↔ List.Forall₂ Reorders items items' := by
  constructor
  · intro h
    induction items generalizing items' with
    | nil =>
      cases h
      exact .nil
    | cons v rest ih =>
      cases h with
      | cons value rest => exact .cons value (ih rest)
  · intro h
    induction h with
    | nil => exact .nil
    | cons value _ ih => exact .cons value ih

theorem reordersMembers_iff {members members' : List (Text × Json)} :
    ReordersMembers members members' ↔ List.Forall₂ SameMember members members' := by
  constructor
  · intro h
    induction members generalizing members' with
    | nil =>
      cases h
      exact .nil
    | cons m rest ih =>
      cases h with
      | cons k value rest => exact .cons ⟨rfl, value⟩ (ih rest)
  · intro h
    induction h with
    | nil => exact .nil
    | @cons m m' _ _ same _ ih =>
      obtain ⟨k, v⟩ := m
      obtain ⟨k', w⟩ := m'
      obtain ⟨rfl, value⟩ := same
      exact .cons _ value ih

theorem reorders_object_iff {members : List (Text × Json)} {w : Json} :
    Reorders (.object members) w ↔ ∃ members', w = .object members' ∧ SameMembers members members' := by
  constructor
  · intro h
    cases h with
    | object each order => exact ⟨_, rfl, _, reordersMembers_iff.1 each, order⟩
  · rintro ⟨members', rfl, between, each, order⟩
    exact .object (reordersMembers_iff.2 each) order

/-! ### The relation -/

mutual

theorem Reorders.refl (v : Json) : v.Reorders v := by
  match v with
  | .null => exact .null
  | .bool b => exact .bool b
  | .number n => exact .number n
  | .string t => exact .string t
  | .array items => exact .array (.refl items)
  | .object members => exact .object (.refl members) (List.Perm.refl members)

theorem ReordersItems.refl (items : List Json) : ReordersItems items items := by
  match items with
  | [] => exact .nil
  | v :: rest => exact .cons (.refl v) (.refl rest)

theorem ReordersMembers.refl (members : List (Text × Json)) : ReordersMembers members members := by
  match members with
  | [] => exact .nil
  | (k, v) :: rest => exact .cons k (.refl v) (.refl rest)

end

mutual

theorem Reorders.symm {v w : Json} (h : v.Reorders w) : w.Reorders v := by
  match h with
  | .null => exact .null
  | .bool b => exact .bool b
  | .number n => exact .number n
  | .string t => exact .string t
  | .array each => exact .array each.symm
  | .object each order =>
    obtain ⟨between, each', order'⟩ :=
      List.perm_comp_forall₂ order.symm (reordersMembers_iff.1 each.symm)
    exact .object (reordersMembers_iff.2 each') order'

theorem ReordersItems.symm {items items' : List Json} (h : ReordersItems items items') :
    ReordersItems items' items := by
  match h with
  | .nil => exact .nil
  | .cons value rest => exact .cons value.symm rest.symm

theorem ReordersMembers.symm {members members' : List (Text × Json)}
    (h : ReordersMembers members members') : ReordersMembers members' members := by
  match h with
  | .nil => exact .nil
  | .cons k value rest => exact .cons k value.symm rest.symm

end

theorem depthOfMembers_eq_of_perm {members members' : List (Text × Json)} (h : members.Perm members') :
    depthOfMembers members = depthOfMembers members' := by
  induction h with
  | nil => rfl
  | cons m _ ih => rw [depthOfMembers, depthOfMembers, ih]
  | swap m m' rest => exact Nat.max_left_comm _ _ _
  | trans _ _ ih ih' => exact ih.trans ih'

theorem areCleanMembers_eq_of_perm {members members' : List (Text × Json)} (h : members.Perm members') :
    areCleanMembers members = areCleanMembers members' := by
  induction h with
  | nil => rfl
  | cons m _ ih => rw [areCleanMembers, areCleanMembers, ih]
  | swap m m' rest => simp only [areCleanMembers, Bool.and_left_comm]
  | trans _ _ ih ih' => exact ih.trans ih'

mutual

theorem Reorders.depth_eq {v w : Json} (h : v.Reorders w) : v.depth = w.depth := by
  match h with
  | .null | .bool _ | .number _ | .string _ => rfl
  | .array each => rw [depth, depth, each.depth_eq]
  | .object each order => rw [depth, depth, each.depth_eq, depthOfMembers_eq_of_perm order]

theorem ReordersItems.depth_eq {items items' : List Json} (h : ReordersItems items items') :
    depthOfItems items = depthOfItems items' := by
  match h with
  | .nil => rfl
  | .cons value rest => rw [depthOfItems, depthOfItems, value.depth_eq, rest.depth_eq]

theorem ReordersMembers.depth_eq {members members' : List (Text × Json)}
    (h : ReordersMembers members members') : depthOfMembers members = depthOfMembers members' := by
  match h with
  | .nil => rfl
  | .cons k value rest => rw [depthOfMembers, depthOfMembers, value.depth_eq, rest.depth_eq]

end

mutual

theorem Reorders.isClean_eq {v w : Json} (h : v.Reorders w) : v.isClean = w.isClean := by
  match h with
  | .null | .bool _ | .number _ | .string _ => rfl
  | .array each => rw [isClean, isClean, each.areClean_eq]
  | .object each order => rw [isClean, isClean, each.areClean_eq, areCleanMembers_eq_of_perm order]

theorem ReordersItems.areClean_eq {items items' : List Json} (h : ReordersItems items items') :
    areCleanItems items = areCleanItems items' := by
  match h with
  | .nil => rfl
  | .cons value rest => rw [areCleanItems, areCleanItems, value.isClean_eq, rest.areClean_eq]

theorem ReordersMembers.areClean_eq {members members' : List (Text × Json)}
    (h : ReordersMembers members members') : areCleanMembers members = areCleanMembers members' := by
  match h with
  | .nil => rfl
  | .cons k value rest => rw [areCleanMembers, areCleanMembers, value.isClean_eq, rest.areClean_eq]

end

theorem Reorders.isKeepable_eq {v w : Json} (h : v.Reorders w) (outer : Nat) :
    v.isKeepable outer = w.isKeepable outer := by
  rw [isKeepable, isKeepable, h.depth_eq, h.isClean_eq]

theorem Reorders.isNull_eq {v w : Json} (h : v.Reorders w) : v.isNull = w.isNull := by
  cases h <;> rfl

theorem Reorders.asText?_eq {v w : Json} (h : v.Reorders w) : v.asText? = w.asText? := by
  cases h <;> rfl

/-! ### Lists of members -/

theorem SameMembers.filter {members members' : List (κ × Json)} (h : SameMembers members members')
    (p : κ → Bool) : SameMembers (members.filter fun m => p m.1) (members'.filter fun m => p m.1) := by
  obtain ⟨between, each, order⟩ := h
  refine ⟨_, List.rel_filter (fun m m' same => ?_) each, order.filter _⟩
  change p m.1 = true ↔ p m'.1 = true
  rw [same.1]

theorem SameMembers.keys_perm {members members' : List (κ × Json)} (h : SameMembers members members') :
    (members.map Prod.fst).Perm (members'.map Prod.fst) := by
  obtain ⟨between, each, order⟩ := h
  have hkeys : List.Forall₂ Eq (members.map Prod.fst) (between.map Prod.fst) :=
    List.forall₂_map_left_iff.2 (List.forall₂_map_right_iff.2 (each.imp fun _ _ same => same.1.symm))
  rw [List.forall₂_eq_eq_eq] at hkeys
  exact hkeys ▸ order.map Prod.fst

theorem SameMembers.exists_mem {members members' : List (κ × Json)} (h : SameMembers members members')
    {m' : κ × Json} (hm : m' ∈ members') : ∃ m ∈ members, SameMember m m' := by
  obtain ⟨between, each, order⟩ := h
  exact exists_mem_of_forall₂ each (order.mem_iff.2 hm)

/-! ### Reading -/

/-- What is read of a tree is read of a reordered one, but for the differences that `S` allows. -/
def Tracks (S : α → α → Prop) (decode : Json → Option α) : Prop :=
  ∀ ⦃v w : Json⦄, v.Reorders w → ∀ ⦃a : α⦄, decode v = some a → ∃ a', decode w = some a' ∧ S a a'

theorem tracks_asText? : Tracks Eq asText? := fun _ _ h a ha => ⟨a, h.asText?_eq ▸ ha, rfl⟩

theorem exists_mapM_of_forall₂ {Q : β → β → Prop} {f g : β → Option α} {bs bs' : List β} {as : List α}
    (related : List.Forall₂ Q bs bs')
    (step : ∀ b b', Q b b' → ∀ a, f b = some a → ∃ a', g b' = some a' ∧ S a a')
    (h : bs.mapM f = some as) : ∃ as', bs'.mapM g = some as' ∧ List.Forall₂ S as as' := by
  rw [mapM_eq_some_iff] at h
  simp only [mapM_eq_some_iff]
  induction related generalizing as with
  | nil =>
    cases h
    exact ⟨[], .nil, .nil⟩
  | cons hb _ ih =>
    obtain ⟨a, as, ha, hrest, rfl⟩ := List.forall₂_cons_left_iff.1 h
    obtain ⟨a', ha', hS⟩ := step _ _ hb a ha
    obtain ⟨as', has', hrest'⟩ := ih hrest
    exact ⟨a' :: as', .cons ha' has', .cons hS hrest'⟩

theorem Tracks.list (h : Tracks S decode) : Tracks (List.Forall₂ S) (decodeList decode) := by
  intro v w reorders as has
  cases reorders with
  | array each =>
    have step (v w : Json) (value : v.Reorders w) (a : α) (ha : decode v = some a) := h value ha
    exact exists_mapM_of_forall₂ (reordersItems_iff.1 each) step has
  | null | bool | number | string | object => cases has

theorem tracks_texts : Tracks Eq (decodeList asText?) := by
  intro v w h texts htexts
  obtain ⟨texts', htexts', same⟩ := tracks_asText?.list h htexts
  rw [List.forall₂_eq_eq_eq] at same
  exact ⟨texts', htexts', same⟩

namespace Slot

inductive Reorders : Slot → Slot → Prop where
  | given {v w : Json} (value : v.Reorders w) : Reorders (.given v) (.given w)
  | missing : Reorders .missing .missing
  | cut : Reorders .cut .cut

theorem Reorders.required {s s' : Slot} (reorders : s.Reorders s') (h : Tracks S decode) {a : α}
    (ha : s.required decode = some a) : ∃ a', s'.required decode = some a' ∧ S a a' := by
  cases reorders with
  | given value => exact h value ha
  | missing | cut => cases ha

theorem Reorders.withDefault {s s' : Slot} (reorders : s.Reorders s') (h : Tracks S decode) {default a : α}
    (same : S default default) (ha : s.withDefault default decode = some a) :
    ∃ a', s'.withDefault default decode = some a' ∧ S a a' := by
  cases reorders with
  | given value => exact h value ha
  | missing | cut =>
    cases ha
    exact ⟨default, rfl, same⟩

theorem Reorders.nullable {s s' : Slot} (reorders : s.Reorders s') (h : Tracks Eq decode) {o : Option α}
    (ho : s.nullable decode = some o) : s'.nullable decode = some o := by
  cases reorders with
  | @given v w value =>
    rw [Slot.nullable, ← value.isNull_eq]
    rw [Slot.nullable] at ho
    split_ifs at ho ⊢
    · exact ho
    · obtain ⟨a, ha, rfl⟩ := Option.map_eq_some_iff.1 ho
      obtain ⟨_, ha', rfl⟩ := h value ha
      rw [ha', Option.map_some]
  | missing | cut => exact ho

end Slot

theorem SameMembers.single {members members' : List (Text × Json)} (h : SameMembers members members')
    {name : String} {s : Slot} (hs : single members name = some s) :
    ∃ s', single members' name = some s' ∧ s.Reorders s' := by
  obtain ⟨between, each, order⟩ := h.filter (· == .plain name)
  unfold Json.single at hs ⊢
  split at hs
  · rename_i hnone
    cases hs
    rw [hnone] at each
    cases each
    rw [List.nil_perm.1 order]
    exact ⟨_, rfl, .missing⟩
  · rename_i m hone
    cases hs
    rw [hone] at each
    obtain ⟨m', _, same, hrest, rfl⟩ := List.forall₂_cons_left_iff.1 each
    cases hrest
    rw [← List.singleton_perm.1 order]
    exact ⟨_, rfl, .given same.2⟩
  · cases hs

theorem AreItems.reorders {names : List String} {slots : List Slot} {items items' : List Json}
    (fields : AreItems names slots items) (each : List.Forall₂ Reorders items items') :
    ∃ slots', AreItems names slots' items' ∧ List.Forall₂ Slot.Reorders slots slots' := by
  induction fields generalizing items' with
  | nil =>
    cases each
    exact ⟨[], .nil, .nil⟩
  | given _ ih =>
    cases each with
    | cons value each =>
      obtain ⟨slots', fields', hslots⟩ := ih each
      exact ⟨_, .given fields', .cons (.given value) hslots⟩
  | cut _ ih =>
    cases each
    obtain ⟨slots', fields', hslots⟩ := ih .nil
    exact ⟨_, .cut fields', .cons .cut hslots⟩

theorem Reorders.slots {v w : Json} (h : v.Reorders w) {names : List String} {slots : List Slot}
    (hslots : v.slots names = some slots) :
    ∃ slots', w.slots names = some slots' ∧ List.Forall₂ Slot.Reorders slots slots' := by
  cases v with
  | object members =>
    obtain ⟨members', rfl, same⟩ := reorders_object_iff.1 h
    unfold Json.slots at hslots ⊢
    dsimp only at hslots ⊢
    have hany : (members'.any fun m => m.1 == .unpaired) = members.any fun m => m.1 == .unpaired := by
      have hkeys := same.keys_perm.any_eq (f := (· == .unpaired))
      rw [List.any_map, List.any_map] at hkeys
      exact hkeys.symm
    rw [hany]
    split_ifs at hslots ⊢
    exact exists_mapM_of_forall₂ (Q := Eq) (List.forall₂_same.2 fun _ _ => rfl)
      (fun name _ hname s hs => hname ▸ same.single hs) hslots
  | array items =>
    cases h with
    | array each =>
      obtain ⟨slots', fields', hslots⟩ :=
        (arraySlots_eq_some_iff.1 hslots).reorders (reordersItems_iff.1 each)
      exact ⟨slots', arraySlots_eq_some_iff.2 fields', hslots⟩
  | null | bool | number | string => cases hslots

theorem tracks_of_slots {names : List String} {make : List Slot → Option α}
    (h : ∀ slots slots', List.Forall₂ Slot.Reorders slots slots' → ∀ a, make slots = some a →
      ∃ a', make slots' = some a' ∧ S a a') : Tracks S fun v => v.slots names >>= make := by
  intro v w reorders a ha
  obtain ⟨slots, hslots, ha⟩ := Option.bind_eq_some_iff.1 ha
  obtain ⟨slots', hslots', each⟩ := reorders.slots hslots
  obtain ⟨a', ha', same⟩ := h slots slots' each a ha
  exact ⟨a', Option.bind_eq_some_iff.2 ⟨slots', hslots', ha'⟩, same⟩

end Breakage.Json
