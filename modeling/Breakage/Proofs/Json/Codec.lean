import Breakage.Json.Codec
import Breakage.Proofs.Json.Layout

/-!
Codecs and the texts they write. What a codec restores from a tree, it reads back from both texts of
the tree, and a text that it can read may be replaced by the one it writes (`Codec.Restores.roundTrips`).
-/

namespace Breakage.Json

/-! ### Parts of trees -/

theorem itemsHaveTokens_iff {items : List Json} :
    ItemsHaveTokens items ↔ ∀ v ∈ items, v.HasTokens := by
  induction items with
  | nil => simp [ItemsHaveTokens]
  | cons v rest ih => simp [ItemsHaveTokens, ih]

theorem membersHaveTokens_iff {members : List (Text × Json)} :
    MembersHaveTokens members ↔ ∀ m ∈ members, m.2.HasTokens := by
  induction members with
  | nil => simp [MembersHaveTokens]
  | cons m rest ih => simp [MembersHaveTokens, ih]

@[simp] theorem hasTokens_record {members : List (String × Json)} :
    (record members).HasTokens ↔ ∀ m ∈ members, m.2.HasTokens := by
  rw [record, HasTokens, membersHaveTokens_iff, List.forall_mem_map]

@[simp] theorem hasTokens_text (s : String) : (text s).HasTokens := trivial

@[simp] theorem hasTokens_bool (b : Bool) : (Json.bool b).HasTokens := trivial

@[simp] theorem hasTokens_ofNat (n : Nat) : (ofNat n).HasTokens := Number.isToken_ofNat n

variable {α : Type} {encode : α → Json} {decode : Json → Option α}

@[simp] theorem hasTokens_ofList {as : List α} :
    (ofList encode as).HasTokens ↔ ∀ a ∈ as, (encode a).HasTokens := by
  rw [ofList, HasTokens, itemsHaveTokens_iff, List.forall_mem_map]

@[simp] theorem hasTokens_ofOption {o : Option α} :
    (ofOption encode o).HasTokens ↔ ∀ a, o = some a → (encode a).HasTokens := by
  cases o with
  | none => exact ⟨fun _ _ h => absurd h.symm (Option.some_ne_none _), fun _ => trivial⟩
  | some a => exact ⟨fun h b hb => Option.some.inj hb ▸ h, fun h => h a rfl⟩

theorem decodeList_ofList {as : List α} (h : ∀ a ∈ as, decode (encode a) = some a) :
    decodeList decode (ofList encode as) = some as := by
  change (as.map encode).mapM decode = some as
  induction as with
  | nil => rfl
  | cons a rest ih =>
    rw [List.map_cons, List.mapM_cons, h a List.mem_cons_self,
      ih fun b hb => h b (List.mem_cons_of_mem _ hb)]
    rfl

theorem decodeList_text (as : List String) : decodeList asText? (ofList text as) = some as :=
  decodeList_ofList fun _ _ => rfl

theorem exists_of_mem_decodeList {v : Json} {as : List α} (h : decodeList decode v = some as) {a : α}
    (ha : a ∈ as) : ∃ w, decode w = some a := by
  obtain ⟨items, -, hitems⟩ := Option.bind_eq_some_iff.1 h
  clear h
  induction items generalizing as with
  | nil =>
    cases hitems
    exact absurd ha List.not_mem_nil
  | cons w rest ih =>
    rw [List.mapM_cons] at hitems
    obtain ⟨b, hb, hitems⟩ := Option.bind_eq_some_iff.1 hitems
    obtain ⟨bs, hbs, hitems⟩ := Option.bind_eq_some_iff.1 hitems
    cases hitems
    rcases List.mem_cons.1 ha with rfl | ha
    · exact ⟨w, hb⟩
    · exact ih ha hbs

namespace Slot

theorem nullable_ofOption {o : Option α} (h : ∀ a, o = some a → decode (encode a) = some a)
    (present : ∀ a, (encode a).isNull = false) :
    (given (ofOption encode o)).nullable decode = some o := by
  cases o with
  | none => rfl
  | some a =>
    change (if (encode a).isNull then some none else (decode (encode a)).map some) = some (some a)
    rw [present, if_neg Bool.false_ne_true, h a rfl]
    rfl

theorem optional_elim {o : Option α} (h : ∀ a, o = some a → decode (encode a) = some a)
    (present : ∀ a, (encode a).isNull = false) :
    (o.elim missing fun a => given (encode a)).optional decode = some o := by
  cases o with
  | none => rfl
  | some a => exact nullable_ofOption h present

theorem exists_of_nullable {s : Slot} {a : α} (h : s.nullable decode = some (some a)) :
    ∃ v, decode v = some a := by
  cases s with
  | missing | cut => cases h
  | given v =>
    change (if v.isNull then some none else (decode v).map some) = some (some a) at h
    split at h
    · cases h
    · obtain ⟨b, hb, hsome⟩ := Option.map_eq_some_iff.1 h
      exact ⟨v, hsome ▸ hb⟩

theorem exists_of_required {s : Slot} {a : α} (h : s.required decode = some a) :
    ∃ v, decode v = some a := by
  cases s with
  | given v => exact ⟨v, h⟩
  | missing | cut => cases h

end Slot

namespace Codec

theorem word_restored {n : Nat} (h : n < 4294967296) : word.decode (word.encode n) = some n := by
  have hvalue : (ofNat n).asInt? = some (n : Int) := by
    have hn := Number.toInt?_ofInt n
    rwa [Number.ofInt, decide_eq_false (by omega), Int.natAbs_natCast] at hn
  change ((ofNat n).asIntIn? 0 4294967295).map Int.toNat = some n
  rw [asIntIn?, hvalue]
  simp only [Option.bind_eq_bind, Option.bind_some]
  rw [if_pos (by simp; omega)]
  rfl

theorem lt_of_word {v : Json} {n : Nat} (h : word.decode v = some n) : n < 4294967296 := by
  obtain ⟨k, hk, rfl⟩ := Option.map_eq_some_iff.1 h
  obtain ⟨i, -, hi⟩ := Option.bind_eq_some_iff.1 hk
  split at hi
  · rename_i bounds
    cases hi
    simp only [Bool.and_eq_true, decide_eq_true_eq] at bounds
    omega
  · cases hi

theorem find?_name {names : List (String × α)} (distinct : (names.map Prod.fst).Nodup)
    {n : String × α} (hn : n ∈ names) : names.find? (fun m => m.1 == n.1) = some n := by
  induction names with
  | nil => exact absurd hn List.not_mem_nil
  | cons m rest ih =>
    rw [List.map_cons, List.nodup_cons] at distinct
    rcases List.mem_cons.1 hn with rfl | hn
    · rw [List.find?_cons_of_pos (by simp)]
    · have hne : m.1 ≠ n.1 := fun h => distinct.1 (h ▸ List.mem_map_of_mem hn)
      rw [List.find?_cons_of_neg (by simpa using hne), ih distinct.2 hn]

theorem choice_restored [DecidableEq α] {names : List (String × α)}
    (distinct : (names.map Prod.fst).Nodup) (complete : ∀ a, a ∈ names.map Prod.snd) :
    (choice names).IsFaithful := by
  intro a
  obtain ⟨n', hn', ha⟩ := List.mem_map.1 (complete a)
  cases hfind : names.find? fun n => decide (n.2 = a) with
  | none => exact absurd ha (by simpa using List.find?_eq_none.1 hfind n' hn')
  | some n =>
    have hvalue : n.2 = a := by simpa using List.find?_some hfind
    have htext : (choice names).encode a = Json.text n.1 := by rw [choice]; simp only [hfind]
    have hname : (Json.text n.1).choiceName? = some n.1 := rfl
    rw [htext, choice]
    simp only [hname, Option.bind_eq_bind, Option.bind_some,
      find?_name distinct (List.mem_of_find?_eq_some hfind), hvalue, Option.pure_def]

@[simp] theorem hasTokens_choice [DecidableEq α] (names : List (String × α)) (a : α) :
    ((choice names).encode a).HasTokens := by
  simp only [choice]
  split <;> trivial

theorem decode_of_slots {v : Json} {names : List String} {fields : List Slot}
    (h : v.slots names = some fields) {f : List Slot → Option α} {a : α} (hf : f fields = some a) :
    v.slots names >>= f = some a := Option.bind_eq_some_iff.2 ⟨fields, h, hf⟩

/-- The values that fit are restored from their trees, and these can be written. -/
structure Restores (c : Codec α) (fits : α → Prop) : Prop where
  restored : ∀ a, fits a → c.decode (c.encode a) = some a
  tokens : ∀ a, fits a → (c.encode a).HasTokens

/-- The values that fit are read from what is written of them, on one line or indented, and however
the tree is laid out. A text that is read as such a value may be replaced by the line that is written:
this is read as the same value, and it is what is written again. -/
structure RoundTrips (c : Codec α) (fits : α → Prop) : Prop where
  line : ∀ a, fits a → c.read? (c.write a) = some a
  indented : ∀ a, fits a → c.read? (c.encode a).pretty = some a
  spelled : ∀ a s g g', fits a → Spells (c.encode a) s → IsGapText g → IsGapText g' →
    c.read? (String.ofList (g ++ (s ++ g'))) = some a
  rewritten : ∀ text a, c.read? text = some a → fits a →
    c.read? (c.write a) = some a ∧ (c.read? (c.write a)).map c.write = some (c.write a)

theorem Restores.roundTrips {c : Codec α} {fits : α → Prop} (restores : c.Restores fits) :
    c.RoundTrips fits := by
  have hline : ∀ a, fits a → c.read? (c.write a) = some a := by
    intro a ha
    rw [read?, write, parse?_compact (restores.tokens a ha)]
    exact restores.restored a ha
  refine ⟨hline, fun a ha => ?_, fun a s g g' ha spells gap gap' => ?_,
    fun text a _ ha => ⟨hline a ha, ?_⟩⟩
  · rw [read?, parse?_pretty (restores.tokens a ha)]
    exact restores.restored a ha
  · rw [read?, parse?, String.toList_ofList, parseChars_of_spells spells gap gap']
    exact restores.restored a ha
  · rw [hline a ha]
    rfl

end Codec

end Breakage.Json
