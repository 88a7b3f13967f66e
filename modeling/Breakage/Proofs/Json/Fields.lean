import Breakage.Json.Codec
import Mathlib.Data.List.Forall2
import Mathlib.Data.List.Perm.Basic

/-!
Records in trees. An object is a record when it has each known member at most once, wherever it stands
and whatever else is there, and every name in it is a text; an array is one when it has no item too
many (`HasFields`). Main statement: `slots_eq_some_iff`.
-/

namespace Breakage.Json

variable {α : Type} {decode : Json → Option α} {R : α → Json → Prop}

/-! ### Lists -/

theorem mapM_eq_some_iff {β : Type} {f : β → Option α} {bs : List β} {as : List α} :
    bs.mapM f = some as ↔ List.Forall₂ (fun b a => f b = some a) bs as := by
  induction bs generalizing as with
  | nil =>
    rw [List.mapM_nil, List.forall₂_nil_left_iff]
    exact ⟨fun h => (Option.some.inj h).symm, fun h => h ▸ rfl⟩
  | cons b rest ih =>
    rw [List.mapM_cons, List.forall₂_cons_left_iff]
    simp only [Option.bind_eq_bind, Option.bind_eq_some_iff, Option.pure_def, Option.some.injEq]
    constructor
    · rintro ⟨a, ha, as, has, rfl⟩
      exact ⟨a, as, ha, ih.1 has, rfl⟩
    · rintro ⟨a, as, ha, has, rfl⟩
      exact ⟨a, ha, as, ih.2 has, rfl⟩

theorem exists_mem_of_forall₂ {α β : Type} {R : α → β → Prop} {as : List α} {bs : List β}
    (related : List.Forall₂ R as bs) {b : β} (hb : b ∈ bs) : ∃ a ∈ as, R a b := by
  induction related with
  | nil => cases hb
  | cons first _ ih =>
    rcases List.mem_cons.1 hb with rfl | hb
    · exact ⟨_, List.mem_cons_self, first⟩
    · obtain ⟨a, ha, hR⟩ := ih hb
      exact ⟨a, List.mem_cons_of_mem _ ha, hR⟩

theorem decodeList_eq_some_iff (h : ∀ a v, decode v = some a ↔ R a v) {v : Json} {as : List α} :
    decodeList decode v = some as ↔ ∃ items, v = .array items ∧ List.Forall₂ R as items := by
  have hitems (items : List Json) : items.mapM decode = some as ↔ List.Forall₂ R as items := by
    simp only [mapM_eq_some_iff, h]
    exact ⟨List.Forall₂.flip, List.Forall₂.flip⟩
  cases v with
  | array items =>
    refine (hitems items).trans ⟨fun h => ⟨items, rfl, h⟩, ?_⟩
    rintro ⟨_, heq, h⟩
    cases heq
    exact h
  | null | bool | number | string | object => exact ⟨nofun, nofun⟩

/-! ### Single values -/

def IsText (s : String) (v : Json) : Prop := v = .text s

theorem asText?_eq_some_iff (s : String) (v : Json) : v.asText? = some s ↔ IsText s v := by
  constructor
  · intro h
    unfold asText? at h
    split at h
    · rw [Option.some.inj h]
      rfl
    · cases h
  · rintro rfl
    rfl

/-- The tree is an integer token with this value, which fits into 64 bits with a sign. -/
def IsLong (n : Int) (v : Json) : Prop :=
  (-9223372036854775808 ≤ n ∧ n ≤ 9223372036854775807) ∧ ∃ t, v = .number t ∧ t.toInt? = some n

theorem decodeLong_eq_some_iff (n : Int) (v : Json) : decodeLong v = some n ↔ IsLong n v := by
  unfold decodeLong asIntIn? IsLong
  simp only [Option.bind_eq_bind, Option.bind_eq_some_iff, Bool.and_eq_true, decide_eq_true_eq]
  constructor
  · rintro ⟨k, hk, h⟩
    split_ifs at h with hrange
    cases h
    cases v with
    | number t => exact ⟨hrange, t, rfl, hk⟩
    | null | bool | string | array | object => cases hk
  · rintro ⟨hrange, t, rfl, ht⟩
    exact ⟨n, ht, if_pos hrange⟩

/-- The tree stands for the choice of this name: the name, or an object with the name and null. -/
inductive IsChoice (name : String) : Json → Prop where
  | bare : IsChoice name (.text name)
  | member : IsChoice name (.object [(.plain name, .null)])

theorem choiceName?_eq_some_iff (name : String) (v : Json) :
    v.choiceName? = some name ↔ IsChoice name v := by
  constructor
  · intro h
    unfold choiceName? at h
    split at h
    · cases h
      exact .bare
    · cases h
      exact .member
    · cases h
  · intro h
    cases h <;> rfl

namespace Slot

inductive Holds (R : α → Json → Prop) (a : α) : Slot → Prop where
  | given {v : Json} (h : R a v) : Holds R a (.given v)

/-- The slot stands for nothing when it is empty or holds null. -/
inductive MayHold (R : α → Json → Prop) : Option α → Slot → Prop where
  | missing : MayHold R none .missing
  | cut : MayHold R none .cut
  | null : MayHold R none (.given .null)
  | given {a : α} {v : Json} (h : R a v) : MayHold R (some a) (.given v)

theorem required_eq_some_iff (h : ∀ a v, decode v = some a ↔ R a v) {s : Slot} {a : α} :
    s.required decode = some a ↔ s.Holds R a := by
  cases s with
  | given v => exact (h a v).trans ⟨.given, fun | .given hv => hv⟩
  | missing | cut => exact ⟨nofun, nofun⟩

theorem optional_eq_some_iff (h : ∀ a v, decode v = some a ↔ R a v) (present : ∀ a, ¬R a .null)
    {s : Slot} {o : Option α} : s.optional decode = some o ↔ MayHold R o s := by
  cases s with
  | given v =>
    change (if v.isNull then some none else (decode v).map some) = some o ↔ _
    split_ifs with hnull
    · obtain rfl : v = .null := by
        cases v with
        | null => rfl
        | bool | number | string | array | object => cases hnull
      refine ⟨fun ho => Option.some.inj ho ▸ .null, fun ho => ?_⟩
      cases ho with
      | null => rfl
      | given hv => exact absurd hv (present _)
    · rw [Option.map_eq_some_iff]
      constructor
      · rintro ⟨a, ha, rfl⟩
        exact .given ((h a v).1 ha)
      · intro ho
        cases ho with
        | null => exact absurd rfl hnull
        | given hv => exact ⟨_, (h _ v).2 hv, rfl⟩
  | missing => exact ⟨fun ho => Option.some.inj ho ▸ .missing, fun | .missing => rfl⟩
  | cut => exact ⟨fun ho => Option.some.inj ho ▸ .cut, fun | .cut => rfl⟩

inductive Lacks (bad : Json → Prop) : Slot → Prop where
  | missing : Lacks bad .missing
  | cut : Lacks bad .cut
  | given {v : Json} (h : bad v) : Lacks bad (.given v)

/-- A field that may be left out has a bad value. -/
inductive Spoils (bad : Json → Prop) : Slot → Prop where
  | given {v : Json} (present : v ≠ .null) (h : bad v) : Spoils bad (.given v)

section

variable {bad : Json → Prop}

theorem holds_or_lacks (h : ∀ v, (∃ a, R a v) ∨ bad v) (s : Slot) :
    (∃ a, s.Holds R a) ∨ s.Lacks bad := by
  cases s with
  | given v =>
    rcases h v with ⟨a, ha⟩ | hbad
    · exact .inl ⟨a, .given ha⟩
    · exact .inr (.given hbad)
  | missing => exact .inr .missing
  | cut => exact .inr .cut

theorem mayHold_or_spoils (h : ∀ v, (∃ a, R a v) ∨ bad v) (s : Slot) :
    (∃ o, MayHold R o s) ∨ s.Spoils bad := by
  cases s with
  | given v =>
    rcases h v with ⟨a, ha⟩ | hbad
    · exact .inl ⟨some a, .given ha⟩
    · by_cases hnull : v = .null
      · exact .inl ⟨none, hnull ▸ .null⟩
      · exact .inr (.given hnull hbad)
  | missing => exact .inl ⟨none, .missing⟩
  | cut => exact .inl ⟨none, .cut⟩

theorem Lacks.not_holds (h : ∀ v a, bad v → ¬R a v) {s : Slot} {a : α} (lacks : s.Lacks bad) :
    ¬s.Holds R a := by
  rintro ⟨ha⟩
  cases lacks with
  | given hbad => exact h _ a hbad ha

theorem Spoils.not_mayHold (h : ∀ v a, bad v → ¬R a v) {s : Slot} {o : Option α}
    (spoils : s.Spoils bad) : ¬MayHold R o s := by
  cases spoils with
  | given present hbad =>
    intro ho
    cases ho with
    | null => exact present rfl
    | given ha => exact h _ _ hbad ha

end

end Slot

/-! ### Records -/

/-- The members are the named fields in their order, but for those that are missing. -/
inductive AreMembers : List String → List Slot → List (Text × Json) → Prop where
  | nil : AreMembers [] [] []
  | given {name : String} {names : List String} {v : Json} {slots : List Slot}
    {members : List (Text × Json)} (rest : AreMembers names slots members) :
    AreMembers (name :: names) (.given v :: slots) ((.plain name, v) :: members)
  | missing {name : String} {names : List String} {slots : List Slot}
    {members : List (Text × Json)} (rest : AreMembers names slots members) :
    AreMembers (name :: names) (.missing :: slots) members

/-- The items are the named fields in their order, and the last fields may be cut off. -/
inductive AreItems : List String → List Slot → List Json → Prop where
  | nil : AreItems [] [] []
  | given {name : String} {names : List String} {v : Json} {slots : List Slot} {items : List Json}
    (rest : AreItems names slots items) : AreItems (name :: names) (.given v :: slots) (v :: items)
  | cut {name : String} {names : List String} {slots : List Slot} (rest : AreItems names slots []) :
    AreItems (name :: names) (.cut :: slots) []

def IsUnknown (names : List String) (m : Text × Json) : Prop :=
  ∃ name, m.1 = .plain name ∧ name ∉ names

inductive HasFields (names : List String) (slots : List Slot) : Json → Prop where
  | object {members known unknown : List (Text × Json)} (order : members.Perm (known ++ unknown))
    (fields : AreMembers names slots known) (others : ∀ m ∈ unknown, IsUnknown names m) :
    HasFields names slots (.object members)
  | array {items : List Json} (fields : AreItems names slots items) :
    HasFields names slots (.array items)

theorem arraySlots_eq_some_iff {names : List String} {items : List Json} {slots : List Slot} :
    arraySlots names items = some slots ↔ AreItems names slots items := by
  induction names generalizing items slots with
  | nil =>
    cases items with
    | nil => exact ⟨fun h => Option.some.inj h ▸ .nil, fun | .nil => rfl⟩
    | cons => exact ⟨nofun, nofun⟩
  | cons name names ih =>
    cases items with
    | nil =>
      rw [arraySlots, Option.map_eq_some_iff]
      constructor
      · rintro ⟨rest, hrest, rfl⟩
        exact .cut (ih.1 hrest)
      · rintro ⟨⟩
        exact ⟨_, ih.2 ‹_›, rfl⟩
    | cons v items =>
      rw [arraySlots, Option.map_eq_some_iff]
      constructor
      · rintro ⟨rest, hrest, rfl⟩
        exact .given (ih.1 hrest)
      · rintro ⟨⟩
        exact ⟨_, ih.2 ‹_›, rfl⟩

theorem AreMembers.exists_name {names : List String} {slots : List Slot}
    {members : List (Text × Json)} (h : AreMembers names slots members) {m : Text × Json}
    (hm : m ∈ members) : ∃ name ∈ names, m.1 = .plain name := by
  induction h with
  | nil => cases hm
  | given _ ih =>
    rcases List.mem_cons.1 hm with rfl | hm
    · exact ⟨_, List.mem_cons_self, rfl⟩
    · obtain ⟨name, hname, heq⟩ := ih hm
      exact ⟨name, List.mem_cons_of_mem _ hname, heq⟩
  | missing _ ih =>
    obtain ⟨name, hname, heq⟩ := ih hm
    exact ⟨name, List.mem_cons_of_mem _ hname, heq⟩

theorem IsUnknown.tail {name : String} {names : List String} {m : Text × Json}
    (h : IsUnknown (name :: names) m) : IsUnknown names m := by
  obtain ⟨other, heq, hother⟩ := h
  exact ⟨other, heq, fun h => hother (List.mem_cons_of_mem _ h)⟩

theorem filter_name_eq_nil {name : String} {names : List String} {slots : List Slot}
    {known unknown : List (Text × Json)} (fields : AreMembers names slots known) (fresh : name ∉ names)
    (others : ∀ m ∈ unknown, IsUnknown (name :: names) m) :
    ((known ++ unknown).filter fun m => m.1 == .plain name) = [] := by
  refine List.filter_eq_nil_iff.2 fun m hm h => ?_
  rw [beq_iff_eq] at h
  rcases List.mem_append.1 hm with hm | hm
  · obtain ⟨other, hother, heq⟩ := fields.exists_name hm
    cases h.symm.trans heq
    exact fresh hother
  · obtain ⟨other, heq, hother⟩ := others m hm
    cases h.symm.trans heq
    exact hother List.mem_cons_self

theorem mapM_single_of_areMembers {names : List String} {slots : List Slot}
    {known : List (Text × Json)} (fields : AreMembers names slots known) (distinct : names.Nodup)
    {members unknown : List (Text × Json)} (order : members.Perm (known ++ unknown))
    (others : ∀ m ∈ unknown, IsUnknown names m) : names.mapM (single members) = some slots := by
  induction fields generalizing unknown with
  | nil => rfl
  | @given name names v slots known rest ih =>
    obtain ⟨fresh, distinct⟩ := List.nodup_cons.1 distinct
    -- for the fields behind it, the member of the first one is one of the others
    have horder : members.Perm (known ++ (.plain name, v) :: unknown) :=
      order.trans List.perm_middle.symm
    have hrest := ih distinct horder
      (List.forall_mem_cons.2 ⟨⟨name, rfl, fresh⟩, fun m hm => (others m hm).tail⟩)
    have hfilter := order.filter fun m => m.1 == .plain name
    rw [List.cons_append, List.filter_cons_of_pos (by simp), filter_name_eq_nil rest fresh others,
      List.perm_singleton] at hfilter
    rw [List.mapM_cons, single, hfilter, hrest]
    rfl
  | @missing name names slots known rest ih =>
    obtain ⟨fresh, distinct⟩ := List.nodup_cons.1 distinct
    have hrest := ih distinct order fun m hm => (others m hm).tail
    have hfilter := order.filter fun m => m.1 == .plain name
    rw [filter_name_eq_nil rest fresh others, List.perm_nil] at hfilter
    rw [List.mapM_cons, single, hfilter, hrest]
    rfl

theorem single_filter_ne {members : List (Text × Json)} {name other : String} (h : other ≠ name) :
    single (members.filter fun m => !(m.1 == .plain name)) other = single members other := by
  rw [single, single, List.filter_filter]
  congr 1
  refine List.filter_congr fun m _ => ?_
  by_cases hm : m.1 = .plain other
  · simp [hm, h]
  · simp [hm]

theorem AreMembers.cons_single {members known : List (Text × Json)} {name : String}
    {names : List String} {slot : Slot} {slots : List Slot} (h : single members name = some slot)
    (rest : AreMembers names slots known) : AreMembers (name :: names) (slot :: slots)
      ((members.filter fun m => m.1 == .plain name) ++ known) := by
  unfold single at h
  split at h
  · rename_i hnone
    cases h
    rw [hnone]
    exact .missing rest
  · rename_i m hone
    cases h
    have hm : m ∈ members.filter fun m => m.1 == .plain name := hone ▸ List.mem_singleton_self m
    have hname : m.1 = .plain name := by simpa using (List.mem_filter.1 hm).2
    have hpair : m = (.plain name, m.2) := by rw [← hname]
    rw [hone, hpair]
    exact .given rest
  · cases h

theorem exists_areMembers_of_mapM_single {names : List String} {slots : List Slot}
    (distinct : names.Nodup) {members : List (Text × Json)} (texts : ∀ m ∈ members, m.1 ≠ .unpaired)
    (h : names.mapM (single members) = some slots) :
    ∃ known unknown, members.Perm (known ++ unknown) ∧ AreMembers names slots known ∧
      ∀ m ∈ unknown, IsUnknown names m := by
  rw [mapM_eq_some_iff] at h
  induction names generalizing slots members with
  | nil =>
    cases h
    refine ⟨[], members, .refl _, .nil, fun m hm => ?_⟩
    match hname : m.1 with
    | .plain name => exact ⟨name, hname, List.not_mem_nil⟩
    | .unpaired => exact absurd hname (texts m hm)
  | cons name names ih =>
    obtain ⟨fresh, distinct⟩ := List.nodup_cons.1 distinct
    obtain ⟨slot, rest, hslot, hrest, rfl⟩ := List.forall₂_cons_left_iff.1 h
    let others := members.filter fun m => !(m.1 == .plain name)
    have hothers : List.Forall₂ (fun n s => single others n = some s) names rest :=
      ((List.forall₂_and_left _ _).2 ⟨fun n hn => ne_of_mem_of_not_mem hn fresh, hrest⟩).imp
        fun n s hs => (single_filter_ne hs.1).trans hs.2
    obtain ⟨known, unknown, order, fields, hunknown⟩ :=
      ih distinct (fun m hm => texts m (List.mem_filter.1 hm).1) hothers
    refine ⟨_, unknown, ?_, fields.cons_single hslot, fun m hm => ?_⟩
    · rw [List.append_assoc]
      exact (List.filter_append_perm (fun m => m.1 == .plain name) members).symm.trans
        (order.append_left _)
    · obtain ⟨other, heq, hother⟩ := hunknown m hm
      have hmem : m ∈ others := order.mem_iff.2 (List.mem_append_right _ hm)
      have hne : m.1 ≠ .plain name := by simpa using (List.mem_filter.1 hmem).2
      refine ⟨other, heq, fun h => ?_⟩
      rcases List.mem_cons.1 h with rfl | h
      · exact hne heq
      · exact hother h

theorem slots_eq_some_iff {names : List String} (distinct : names.Nodup) {v : Json}
    {slots : List Slot} : v.slots names = some slots ↔ HasFields names slots v := by
  cases v with
  | object members =>
    have htexts : (members.any fun m => m.1 == .unpaired) = true ↔ ∃ m ∈ members, m.1 = .unpaired := by
      simp
    rw [Json.slots]
    split_ifs with hany
    · refine ⟨nofun, fun h => ?_⟩
      obtain ⟨m, hm, hunpaired⟩ := htexts.1 hany
      cases h with
      | object order fields others =>
        rcases List.mem_append.1 (order.mem_iff.1 hm) with hm | hm
        · obtain ⟨name, -, heq⟩ := fields.exists_name hm
          cases hunpaired.symm.trans heq
        · obtain ⟨name, heq, -⟩ := others m hm
          cases hunpaired.symm.trans heq
    · constructor
      · intro h
        obtain ⟨known, unknown, order, fields, others⟩ := exists_areMembers_of_mapM_single distinct
          (fun m hm hunpaired => hany (htexts.2 ⟨m, hm, hunpaired⟩)) h
        exact .object order fields others
      · rintro ⟨order, fields, others⟩
        exact mapM_single_of_areMembers fields distinct order others
  | array items =>
    exact arraySlots_eq_some_iff.trans ⟨.array, fun | .array fields => fields⟩
  | null | bool | number | string => exact ⟨nofun, nofun⟩

theorem HasFields.unique {names : List String} (distinct : names.Nodup) {v : Json}
    {slots slots' : List Slot} (h : HasFields names slots v) (h' : HasFields names slots' v) :
    slots = slots' :=
  Option.some.inj <|
    ((slots_eq_some_iff distinct).2 h).symm.trans ((slots_eq_some_iff distinct).2 h')

theorem AreMembers.length_eq {names : List String} {slots : List Slot}
    {members : List (Text × Json)} (h : AreMembers names slots members) :
    slots.length = names.length := by
  induction h with
  | nil => rfl
  | given _ ih | missing _ ih => rw [List.length_cons, List.length_cons, ih]

theorem AreItems.length_eq {names : List String} {slots : List Slot} {items : List Json}
    (h : AreItems names slots items) : slots.length = names.length := by
  induction h with
  | nil => rfl
  | given _ ih | cut _ ih => rw [List.length_cons, List.length_cons, ih]

theorem HasFields.length_eq {names : List String} {v : Json} {slots : List Slot}
    (h : HasFields names slots v) : slots.length = names.length := by
  cases h with
  | object _ fields _ => exact fields.length_eq
  | array fields => exact fields.length_eq

end Breakage.Json
