import Breakage.Proofs.Json.Tokens

/-!
JSON texts and the trees they stand for (`Denotes`): any gaps between the tokens, and the tokens in any
of the ways to write them. Every such text is read as its tree (`parseChars_of_denotes`), so that it
stands for one tree only (`Denotes.unique`).
-/

namespace Breakage.Json

def IsGapText (g : List Char) : Prop := ∀ c ∈ g, isGap c = true

theorem isGapText_nil : IsGapText [] := fun _ hc => absurd hc List.not_mem_nil

mutual

/-- The text is one for the tree, without gaps around it. -/
inductive Denotes : List Char → Json → Prop where
  | null : Denotes ['n', 'u', 'l', 'l'] .null
  | yes : Denotes ['t', 'r', 'u', 'e'] (.bool true)
  | no : Denotes ['f', 'a', 'l', 's', 'e'] (.bool false)
  | number {n : Number} {s : List Char} (denotes : DenotesNumber s n) : Denotes s (.number n)
  | string {t : Text} {s : List Char} (denotes : DenotesString s t) : Denotes s (.string t)
  | emptyArray {g : List Char} (gap : IsGapText g) : Denotes ('[' :: (g ++ [']'])) (.array [])
  | array {items : List Json} {s : List Char} (inside : DenotesItems s items) :
    Denotes ('[' :: s) (.array items)
  | emptyObject {g : List Char} (gap : IsGapText g) : Denotes ('{' :: (g ++ ['}'])) (.object [])
  | object {members : List (Text × Json)} {s : List Char} (inside : DenotesMembers s members) :
    Denotes ('{' :: s) (.object members)

inductive DenotesItems : List Char → List Json → Prop where
  | last {v : Json} {g s g' : List Char} (gap : IsGapText g) (value : Denotes s v)
    (gap' : IsGapText g') : DenotesItems (g ++ (s ++ (g' ++ [']']))) [v]
  | more {v : Json} {items : List Json} {g s g' t : List Char} (gap : IsGapText g)
    (value : Denotes s v) (gap' : IsGapText g') (rest : DenotesItems t items) :
    DenotesItems (g ++ (s ++ (g' ++ ',' :: t))) (v :: items)

inductive DenotesMembers : List Char → List (Text × Json) → Prop where
  | last {k : Text} {v : Json} {a key b c s d : List Char} (before : IsGapText a)
    (name : DenotesString key k) (behind : IsGapText b) (gap : IsGapText c) (value : Denotes s v)
    (gap' : IsGapText d) :
    DenotesMembers (a ++ (key ++ (b ++ ':' :: (c ++ (s ++ (d ++ ['}'])))))) [(k, v)]
  | more {k : Text} {v : Json} {members : List (Text × Json)} {a key b c s d t : List Char}
    (before : IsGapText a) (name : DenotesString key k) (behind : IsGapText b) (gap : IsGapText c)
    (value : Denotes s v) (gap' : IsGapText d) (rest : DenotesMembers t members) :
    DenotesMembers (a ++ (key ++ (b ++ ':' :: (c ++ (s ++ (d ++ ',' :: t)))))) ((k, v) :: members)

end

/-! ### Reading -/

theorem skipGap_append {g : List Char} (gap : IsGapText g) (s : List Char) :
    skipGap (g ++ s) = skipGap s := List.dropWhile_append_of_pos gap

theorem skipGap_cons {c : Char} (h : isGap c = false) (s : List Char) : skipGap (c :: s) = c :: s :=
  List.dropWhile_cons_of_neg (by simp [h])

theorem skipGap_skipGap (s : List Char) : skipGap (skipGap s) = skipGap s := by
  induction s with
  | nil => rfl
  | cons c s ih =>
    cases hc : isGap c with
    | true =>
      have hskip : skipGap (c :: s) = skipGap s := skipGap_append (g := [c]) (by simp [IsGapText, hc]) s
      rw [hskip, ih]
    | false => rw [skipGap_cons hc, skipGap_cons hc]

theorem readValue_skipGap (fuel : Nat) (s : List Char) :
    readValue fuel (skipGap s) = readValue fuel s := by
  cases fuel with
  | zero => rw [readValue, readValue]
  | succ fuel => rw [readValue, readValue, skipGap_skipGap]

theorem readItems_skipGap (fuel : Nat) (s : List Char) :
    readItems fuel (skipGap s) = readItems fuel s := by
  cases fuel with
  | zero => rw [readItems, readItems]
  | succ fuel => rw [readItems, readItems, readValue_skipGap]

theorem readMembers_skipGap (fuel : Nat) (s : List Char) :
    readMembers fuel (skipGap s) = readMembers fuel s := by
  cases fuel with
  | zero => rw [readMembers, readMembers]
  | succ fuel => rw [readMembers, readMembers, skipGap_skipGap]

theorem readValue_append {g : List Char} (gap : IsGapText g) (fuel : Nat) (s : List Char) :
    readValue fuel (g ++ s) = readValue fuel s := by
  rw [← readValue_skipGap, skipGap_append gap, readValue_skipGap]

theorem goesOn_of_isGap {c : Char} (h : isGap c = true) : goesOn c = false := by
  simp only [isGap, Bool.or_eq_true, beq_iff_eq] at h
  rcases h with ((rfl | rfl) | rfl) | rfl <;> decide

theorem stop_of_gap {g : List Char} (gap : IsGapText g) {c : Char} (h : goesOn c = false)
    (s : List Char) : ∀ d ∈ (g ++ c :: s).head?, goesOn d = false := by
  intro d hd
  cases g with
  | nil => rwa [← Option.some.inj hd]
  | cons b g =>
    rw [← Option.some.inj hd]
    exact goesOn_of_isGap (gap b List.mem_cons_self)

theorem DenotesNumber.exists_first {n : Number} {s : List Char} (h : DenotesNumber s n) :
    ∃ c more, s = c :: more ∧ isGap c = false ∧ c ∉ ['"', '[', '{', 't', 'f', 'n', ']'] := by
  obtain ⟨c, more, hs, hc⟩ := h.exists_cons
  refine ⟨c, more, hs, ?_⟩
  rcases hc with rfl | hc
  · decide
  · constructor
    · cases hgap : isGap c with
      | false => rfl
      | true =>
        rw [(goesOn_eq_false.1 (goesOn_of_isGap hgap)).1] at hc
        cases hc
    · intro hmem
      simp only [List.mem_cons, List.not_mem_nil, or_false] at hmem
      rcases hmem with rfl | rfl | rfl | rfl | rfl | rfl | rfl <;> exact absurd hc (by decide)

theorem Denotes.exists_cons {v : Json} {s : List Char} (h : Denotes s v) :
    ∃ c more, s = c :: more ∧ isGap c = false ∧ c ≠ ']' := by
  cases h with
  | number denotes =>
    obtain ⟨c, more, hs, hgap, hc⟩ := denotes.exists_first
    exact ⟨c, more, hs, hgap, fun h => hc (by simp [h])⟩
  | string denotes =>
    obtain ⟨body, hbody, -⟩ := readText_of_denotes denotes
    exact ⟨_, body, hbody, rfl, by decide⟩
  | null | yes | no | emptyArray | array | emptyObject | object => exact ⟨_, _, rfl, rfl, by decide⟩

theorem DenotesItems.exists_cons {items : List Json} {s : List Char} (h : DenotesItems s items)
    (rest : List Char) : ∃ c more, skipGap (s ++ rest) = c :: more ∧ c ≠ ']' := by
  cases h with
  | @last _ _ _ g' gap value | @more _ _ _ _ _ _ gap value =>
    obtain ⟨c, more, rfl, hgap, hc⟩ := value.exists_cons
    rw [List.append_assoc, skipGap_append gap, List.append_assoc, List.cons_append, skipGap_cons hgap]
    exact ⟨c, _, rfl, hc⟩

theorem DenotesMembers.exists_cons {members : List (Text × Json)} {s : List Char}
    (h : DenotesMembers s members) (rest : List Char) : ∃ more, skipGap (s ++ rest) = '"' :: more := by
  cases h with
  | last before name | more before name =>
    obtain ⟨body, hbody, -⟩ := readText_of_denotes name
    rw [List.append_assoc, skipGap_append before, hbody, List.cons_append, List.cons_append,
      skipGap_cons (by decide)]
    exact ⟨_, rfl⟩

theorem readValue_array {fuel : Nat} {items : List Json} {s rest : List Char}
    (inside : DenotesItems s items) (h : readItems fuel (s ++ rest) = some (items, rest)) :
    readValue (fuel + 1) ('[' :: (s ++ rest)) = some (.array items, rest) := by
  obtain ⟨c, more, hskip, hc⟩ := inside.exists_cons rest
  rw [← readItems_skipGap, hskip] at h
  rw [readValue, skipGap_cons (by decide)]
  dsimp only
  rw [if_neg (by decide), if_pos rfl, hskip]
  split
  · rename_i heq
    exact absurd (List.cons.inj heq).1 hc
  · rw [h]
    rfl

theorem readValue_object {fuel : Nat} {members : List (Text × Json)} {s rest : List Char}
    (inside : DenotesMembers s members) (h : readMembers fuel (s ++ rest) = some (members, rest)) :
    readValue (fuel + 1) ('{' :: (s ++ rest)) = some (.object members, rest) := by
  obtain ⟨more, hskip⟩ := inside.exists_cons rest
  rw [← readMembers_skipGap, hskip] at h
  rw [readValue, skipGap_cons (by decide)]
  dsimp only
  rw [if_neg (by decide), if_neg (by decide), if_pos rfl, hskip]
  split
  · rename_i heq
    exact absurd (List.cons.inj heq).1 (by decide)
  · rw [h]
    rfl

theorem readValue_number {fuel : Nat} {n : Number} {s : List Char} (h : DenotesNumber s n)
    {rest : List Char} (stop : ∀ c ∈ rest.head?, goesOn c = false) :
    readValue (fuel + 1) (s ++ rest) = some (.number n, rest) := by
  obtain ⟨c, more, hs, hgap, hc⟩ := h.exists_first
  have hread := readNumber_of_denotes h stop
  simp only [List.mem_cons, List.not_mem_nil, or_false, not_or] at hc
  obtain ⟨hquote, hbracket, hbrace, ht, hf, hn, -⟩ := hc
  rw [hs, List.cons_append] at hread ⊢
  rw [readValue, skipGap_cons hgap]
  dsimp only
  rw [if_neg hquote, if_neg hbracket, if_neg hbrace, if_neg ht, if_neg hf, if_neg hn, hread]
  rfl

theorem readValue_string {fuel : Nat} {t : Text} {s : List Char} (h : DenotesString s t)
    (rest : List Char) : readValue (fuel + 1) (s ++ rest) = some (.string t, rest) := by
  obtain ⟨body, hbody, hread⟩ := readText_of_denotes h
  rw [hbody, List.cons_append, readValue, skipGap_cons (by decide)]
  dsimp only
  rw [if_pos rfl, hread]
  rfl

theorem exists_fuel {length fuel : Nat} (positive : 0 < length) (enough : 2 * length ≤ fuel) :
    ∃ f, fuel = f + 1 ∧ ∀ k < length, 2 * k ≤ f :=
  ⟨fuel - 1, by omega, fun k hk => by omega⟩

mutual

theorem readValue_of_denotes {v : Json} {s : List Char} (h : Denotes s v) {fuel : Nat}
    (enough : 2 * s.length ≤ fuel) {rest : List Char} (stop : ∀ c ∈ rest.head?, goesOn c = false) :
    readValue fuel (s ++ rest) = some (v, rest) := by
  obtain ⟨first, tail, hfirst, -⟩ := h.exists_cons
  obtain ⟨fuel, rfl, hfuel⟩ := exists_fuel (by rw [hfirst]; exact Nat.succ_pos _) enough
  match h with
  | .null | .yes | .no => rfl
  | .number denotes => exact readValue_number denotes stop
  | .string denotes => exact readValue_string denotes rest
  | .emptyArray gap =>
    rw [List.cons_append, readValue, skipGap_cons (by decide)]
    dsimp only
    rw [if_neg (by decide), if_pos rfl, List.append_assoc, skipGap_append gap]
    rfl
  | .array inside =>
    exact readValue_array inside (readItems_of_denotes inside (hfuel _ (Nat.lt_succ_self _)) rest)
  | .emptyObject gap =>
    rw [List.cons_append, readValue, skipGap_cons (by decide)]
    dsimp only
    rw [if_neg (by decide), if_neg (by decide), if_pos rfl, List.append_assoc, skipGap_append gap]
    rfl
  | .object inside =>
    exact readValue_object inside (readMembers_of_denotes inside (hfuel _ (Nat.lt_succ_self _)) rest)

theorem readItems_of_denotes {items : List Json} {s : List Char} (h : DenotesItems s items) {fuel : Nat}
    (enough : 2 * s.length ≤ fuel) (rest : List Char) :
    readItems fuel (s ++ rest) = some (items, rest) := by
  match h with
  | @DenotesItems.last v g s g' gap value gap' =>
    simp only [List.length_append, List.length_cons] at enough
    obtain ⟨fuel, rfl, hfuel⟩ := exists_fuel (by omega) enough
    have hvalue := readValue_of_denotes value (hfuel s.length (by omega))
      (stop_of_gap gap' (c := ']') (by decide) rest)
    simp only [List.append_assoc, List.singleton_append] at hvalue ⊢
    rw [readItems, readValue_append gap, hvalue]
    simp only [Option.bind_eq_bind, Option.bind_some]
    rw [skipGap_append gap', skipGap_cons (by decide)]
    rfl
  | @DenotesItems.more v items g s g' t gap value gap' more =>
    simp only [List.length_append, List.length_cons] at enough
    obtain ⟨fuel, rfl, hfuel⟩ := exists_fuel (by omega) enough
    have hvalue := readValue_of_denotes value (hfuel s.length (by omega))
      (stop_of_gap gap' (c := ',') (by decide) (t ++ rest))
    have hitems := readItems_of_denotes more (hfuel t.length (by omega)) rest
    simp only [List.append_assoc, List.cons_append] at hvalue ⊢
    rw [readItems, readValue_append gap, hvalue]
    simp only [Option.bind_eq_bind, Option.bind_some]
    rw [skipGap_append gap', skipGap_cons (by decide)]
    simp only [hitems, Option.bind_some, Option.pure_def]

theorem readMembers_of_denotes {members : List (Text × Json)} {s : List Char}
    (h : DenotesMembers s members) {fuel : Nat} (enough : 2 * s.length ≤ fuel) (rest : List Char) :
    readMembers fuel (s ++ rest) = some (members, rest) := by
  match h with
  | @DenotesMembers.last k v a key b c s d before name behind gap value gap' =>
    simp only [List.length_append, List.length_cons] at enough
    obtain ⟨fuel, rfl, hfuel⟩ := exists_fuel (by omega) enough
    have hvalue := readValue_of_denotes value (hfuel s.length (by omega))
      (stop_of_gap gap' (c := '}') (by decide) rest)
    obtain ⟨body, rfl, hbody⟩ := readText_of_denotes name
    have hread := hbody (b ++ ':' :: (c ++ (s ++ (d ++ ('}' :: rest)))))
    simp only [List.append_assoc, List.cons_append, List.nil_append] at hvalue hread ⊢
    rw [readMembers, skipGap_append before, skipGap_cons (by decide)]
    simp only [hread, Option.bind_eq_bind, Option.bind_some]
    rw [skipGap_append behind, skipGap_cons (by decide)]
    simp only [readValue_append gap, hvalue, Option.bind_some]
    rw [skipGap_append gap', skipGap_cons (by decide)]
    rfl
  | @DenotesMembers.more k v members a key b c s d t before name behind gap value gap' more =>
    simp only [List.length_append, List.length_cons] at enough
    obtain ⟨fuel, rfl, hfuel⟩ := exists_fuel (by omega) enough
    have hvalue := readValue_of_denotes value (hfuel s.length (by omega))
      (stop_of_gap gap' (c := ',') (by decide) (t ++ rest))
    have hmembers := readMembers_of_denotes more (hfuel t.length (by omega)) rest
    obtain ⟨body, rfl, hbody⟩ := readText_of_denotes name
    have hread := hbody (b ++ ':' :: (c ++ (s ++ (d ++ ',' :: (t ++ rest)))))
    simp only [List.append_assoc, List.cons_append] at hvalue hread ⊢
    rw [readMembers, skipGap_append before, skipGap_cons (by decide)]
    simp only [hread, Option.bind_eq_bind, Option.bind_some]
    rw [skipGap_append behind, skipGap_cons (by decide)]
    simp only [readValue_append gap, hvalue, Option.bind_some]
    rw [skipGap_append gap', skipGap_cons (by decide)]
    simp only [hmembers, Option.bind_some, Option.pure_def]

end

theorem parseChars_of_denotes {v : Json} {s g g' : List Char} (h : Denotes s v) (gap : IsGapText g)
    (gap' : IsGapText g') : parseChars (g ++ (s ++ g')) = some v := by
  have stop : ∀ c ∈ g'.head?, goesOn c = false :=
    fun c hc => goesOn_of_isGap (gap' c (List.mem_of_mem_head? hc))
  have enough : 2 * s.length ≤ 2 * (g ++ (s ++ g')).length + 2 := by
    simp only [List.length_append]
    omega
  have hvalue := readValue_of_denotes h enough stop
  have hskip : skipGap g' = [] := by
    rw [← List.append_nil g', skipGap_append gap']
    rfl
  rw [parseChars, readValue_append gap, hvalue]
  simp only [Option.bind_eq_bind, Option.bind_some, hskip]
  rfl

/-- A text stands for one tree only. -/
theorem Denotes.unique {v w : Json} {s : List Char} (hv : Denotes s v) (hw : Denotes s w) : v = w :=
  Option.some.inj <|
    (parseChars_of_denotes hv isGapText_nil isGapText_nil).symm.trans
      (parseChars_of_denotes hw isGapText_nil isGapText_nil)

end Breakage.Json
