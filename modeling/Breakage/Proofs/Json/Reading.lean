import Breakage.Proofs.Json.Grammar
import Breakage.Proofs.Text.Lines

/-!
What the reader of JSON takes is a JSON text, and the tree it gives is the one that the text stands
for. With the other direction this tells the reader as a whole: `parseChars_eq_some_iff`, and
`parse?_trim_eq_some_iff` for a text whose blanks at the ends are cut off first.
-/

namespace Breakage.Json

open Breakage.Text (isBlank IsBlankText IsTrimmed Strips)

/-! ### Tokens -/

theorem hasPieces_of_readPieces {s rest : List Char} {ps : List Piece}
    (h : readPieces s = some (ps, rest)) : ∃ body, s = body ++ '"' :: rest ∧ HasPieces body ps := by
  fun_induction readPieces s generalizing ps with
  | case1 => cases h
  | case2 rest =>
    cases h
    exact ⟨[], rfl, .nil⟩
  | case3 a b c d s ih =>
    simp only [Option.bind_eq_bind, Option.bind_eq_some_iff, Option.pure_def] at h
    obtain ⟨n, hn, ⟨more, left⟩, hmore, heq⟩ := h
    cases heq
    obtain ⟨body, rfl, hbody⟩ := ih hmore
    exact ⟨_, rfl, .unit hn hbody⟩
  | case4 letter s _ ih =>
    simp only [Option.bind_eq_bind, Option.bind_eq_some_iff, Option.pure_def] at h
    obtain ⟨c, hc, ⟨more, left⟩, hmore, heq⟩ := h
    cases heq
    obtain ⟨body, rfl, hbody⟩ := ih hmore
    exact ⟨_, rfl, .letter hc hbody⟩
  | case5 => cases h
  | case6 c s quote _ hletter control ih =>
    simp only [Option.bind_eq_bind, Option.bind_eq_some_iff, Option.pure_def] at h
    obtain ⟨⟨more, left⟩, hmore, heq⟩ := h
    cases heq
    obtain ⟨body, rfl, hbody⟩ := ih hmore
    -- a backslash has a letter behind it
    have backslash : c ≠ '\\' := fun hc => by
      cases body with
      | nil => exact hletter _ _ hc rfl
      | cons d body => exact hletter _ _ hc rfl
    exact ⟨_, rfl, .plain quote backslash (Nat.not_lt.1 control) hbody⟩

theorem denotesString_of_readText {s rest : List Char} {t : Text} (h : readText s = some (t, rest)) :
    ∃ text, '"' :: s = text ++ rest ∧ DenotesString text t := by
  simp only [readText, Option.bind_eq_bind, Option.bind_eq_some_iff, Option.pure_def] at h
  obtain ⟨⟨ps, left⟩, hps, h⟩ := h
  obtain ⟨body, rfl, hbody⟩ := hasPieces_of_readPieces hps
  cases hjoin : joinPieces ps with
  | some cs =>
    simp only [hjoin] at h
    cases h
    refine ⟨'"' :: (body ++ ['"']), by simp, .plain ?_⟩
    rw [String.toList_ofList]
    exact hbody.denotesChars hjoin
  | none =>
    simp only [hjoin] at h
    cases h
    refine ⟨'"' :: (body ++ ['"']), by simp, .unpaired hbody fun cs hcs => ?_⟩
    obtain ⟨ps', hps', hjoin'⟩ := hcs.exists_pieces
    rw [hbody.unique hps', hjoin'] at hjoin
    cases hjoin

theorem isDigit_of_mem_takeWhile {s : List Char} : ∀ c ∈ s.takeWhile Char.isDigit, c.isDigit = true :=
  fun _ => List.mem_takeWhile_imp

theorem readWhole_spec {s ds rest : List Char} (h : readWhole s = some (ds, rest)) :
    s = ds ++ rest ∧ (∀ c ∈ ds, c.isDigit = true) ∧ ds ≠ [] ∧ (ds.head? = some '0' → ds = ['0']) := by
  unfold readWhole at h
  split at h
  · cases h
    exact ⟨rfl, by simp, by simp, fun _ => rfl⟩
  · rename_i hzero
    dsimp only at h
    split_ifs at h with hempty
    cases h
    refine ⟨List.takeWhile_append_dropWhile.symm, isDigit_of_mem_takeWhile, by simpa using hempty,
      fun hhead => ?_⟩
    obtain ⟨more, hmore⟩ := List.head?_eq_some_iff.1 hhead
    have hs : s = '0' :: (more ++ s.dropWhile Char.isDigit) := by
      rw [← List.cons_append, ← hmore, List.takeWhile_append_dropWhile]
    exact absurd hs (hzero _)

theorem readFraction_spec {s rest : List Char} {fraction : Option (List Char)}
    (h : readFraction s = some (fraction, rest)) :
    s = (fraction.elim [] fun ds => '.' :: ds) ++ rest ∧
      ∀ ds, fraction = some ds → ds ≠ [] ∧ ∀ c ∈ ds, c.isDigit = true := by
  unfold readFraction at h
  split at h
  · dsimp only at h
    split_ifs at h with hempty
    cases h
    refine ⟨?_, ?_⟩
    · rw [Option.elim_some, List.cons_append, List.takeWhile_append_dropWhile]
    · rintro ds heq
      cases heq
      exact ⟨by simpa using hempty, isDigit_of_mem_takeWhile⟩
  · cases h
    exact ⟨rfl, nofun⟩

theorem readExponentDigits_spec {negative : Bool} {s rest : List Char} {e : Option Int}
    (h : readExponentDigits negative s = some (e, rest)) :
    ∃ ds, s = ds ++ rest ∧ ds ≠ [] ∧ (∀ c ∈ ds, c.isDigit = true) ∧
      e = some (if negative then -(Nat.ofDigitChars 10 ds 0 : Int) else Nat.ofDigitChars 10 ds 0) := by
  unfold readExponentDigits at h
  dsimp only at h
  split_ifs at h with hempty
  all_goals
    cases h
    exact ⟨_, List.takeWhile_append_dropWhile.symm, by simpa using hempty, isDigit_of_mem_takeWhile,
      by simp [*]⟩

theorem denotesExponent_of_readExponent {s rest : List Char} {e : Option Int}
    (h : readExponent s = some (e, rest)) : ∃ text, s = text ++ rest ∧ DenotesExponent text e := by
  unfold readExponent at h
  split at h
  · rename_i c s
    split_ifs at h with mark
    · rw [Bool.or_eq_true, decide_eq_true_eq, decide_eq_true_eq] at mark
      split at h
      all_goals
        obtain ⟨ds, rfl, some_digit, digits, rfl⟩ := readExponentDigits_spec h
      · exact ⟨_, rfl, .plus mark some_digit digits⟩
      · exact ⟨_, rfl, .minus mark some_digit digits⟩
      · exact ⟨_, rfl, .bare mark some_digit digits⟩
    · cases h
      exact ⟨[], rfl, .none⟩
  · cases h
    exact ⟨[], rfl, .none⟩

theorem readUnsigned_spec {negative : Bool} {s rest : List Char} {n : Number}
    (h : readUnsigned negative s = some (n, rest)) :
    ∃ text, sign negative ++ s = text ++ rest ∧ DenotesNumber text n := by
  simp only [readUnsigned, Option.bind_eq_bind, Option.bind_eq_some_iff, Option.pure_def] at h
  obtain ⟨⟨whole, left⟩, hwhole, ⟨fraction, left'⟩, hfraction, ⟨exponent, left''⟩, hexponent, heq⟩ := h
  cases heq
  obtain ⟨rfl, digits, some_digit, leading⟩ := readWhole_spec hwhole
  obtain ⟨rfl, decimals⟩ := readFraction_spec hfraction
  obtain ⟨text, rfl, denotes⟩ := denotesExponent_of_readExponent hexponent
  exact ⟨_, by simp [fractionText], .token ⟨digits, some_digit, leading, decimals⟩ denotes⟩

theorem denotesNumber_of_readNumber {s rest : List Char} {n : Number}
    (h : readNumber s = some (n, rest)) : ∃ text, s = text ++ rest ∧ DenotesNumber text n := by
  unfold readNumber at h
  split at h
  · exact readUnsigned_spec h
  · exact readUnsigned_spec h

theorem expect_spec {cs s rest : List Char} (h : expect cs s = some rest) : s = cs ++ rest := by
  fun_induction expect cs s with
  | case1 =>
    cases h
    rfl
  | case2 | case4 => cases h
  | case3 _ cs s ih => rw [ih h, List.cons_append]

theorem exists_gap (s : List Char) : ∃ g, IsGapText g ∧ s = g ++ skipGap s :=
  ⟨s.takeWhile isGap, fun _ => List.mem_takeWhile_imp, List.takeWhile_append_dropWhile.symm⟩

/-! ### Values -/

theorem exists_gap_of_skipGap {s rest : List Char} {c : Char} (h : skipGap s = c :: rest) :
    ∃ g, IsGapText g ∧ s = g ++ c :: rest := by
  obtain ⟨g, gap, hs⟩ := exists_gap s
  exact ⟨g, gap, by rw [← h, ← hs]⟩

theorem denotes_of_word {c : Char} {word more rest : List Char} {v w : Json}
    (denotes : Denotes (c :: word) v) (h : ((expect word more).map fun r => (v, r)) = some (w, rest)) :
    ∃ text, c :: more = text ++ rest ∧ Denotes text w := by
  obtain ⟨left, hleft, heq⟩ := Option.map_eq_some_iff.1 h
  cases heq
  exact ⟨_, by rw [expect_spec hleft, List.cons_append], denotes⟩

mutual

theorem denotes_of_readValue {fuel : Nat} {s rest : List Char} {v : Json}
    (h : readValue fuel s = some (v, rest)) :
    ∃ g text, s = g ++ (text ++ rest) ∧ IsGapText g ∧ Denotes text v := by
  match fuel with
  | 0 => cases h
  | fuel + 1 =>
    rw [readValue] at h
    obtain ⟨g, gap, hs⟩ := exists_gap s
    suffices hvalue : ∃ text, skipGap s = text ++ rest ∧ Denotes text v by
      obtain ⟨text, htext, denotes⟩ := hvalue
      exact ⟨g, text, by rw [← htext, ← hs], gap, denotes⟩
    cases hskip : skipGap s with
    | nil =>
      rw [hskip] at h
      cases h
    | cons c more =>
      rw [hskip] at h
      dsimp only at h
      split_ifs at h with hquote hbracket hbrace ht hf hn
      · obtain ⟨⟨t, left⟩, ht, heq⟩ := Option.map_eq_some_iff.1 h
        cases heq
        obtain ⟨text, htext, denotes⟩ := denotesString_of_readText ht
        exact ⟨text, by rw [hquote, htext], .string denotes⟩
      · split at h
        · rename_i hclose
          cases h
          obtain ⟨g, gap, rfl⟩ := exists_gap_of_skipGap hclose
          exact ⟨_, by simp [hbracket], .emptyArray gap⟩
        · obtain ⟨⟨items, left⟩, hitems, heq⟩ := Option.map_eq_some_iff.1 h
          cases heq
          rw [readItems_skipGap] at hitems
          obtain ⟨text, rfl, denotes⟩ := denotes_of_readItems hitems
          exact ⟨_, by rw [hbracket, List.cons_append], .array denotes⟩
      · split at h
        · rename_i hclose
          cases h
          obtain ⟨g, gap, rfl⟩ := exists_gap_of_skipGap hclose
          exact ⟨_, by simp [hbrace], .emptyObject gap⟩
        · obtain ⟨⟨members, left⟩, hmembers, heq⟩ := Option.map_eq_some_iff.1 h
          cases heq
          rw [readMembers_skipGap] at hmembers
          obtain ⟨text, rfl, denotes⟩ := denotes_of_readMembers hmembers
          exact ⟨_, by rw [hbrace, List.cons_append], .object denotes⟩
      · rw [ht]
        exact denotes_of_word .yes h
      · rw [hf]
        exact denotes_of_word .no h
      · rw [hn]
        exact denotes_of_word .null h
      · obtain ⟨⟨n, left⟩, hnumber, heq⟩ := Option.map_eq_some_iff.1 h
        cases heq
        obtain ⟨text, htext, denotes⟩ := denotesNumber_of_readNumber hnumber
        exact ⟨text, htext, .number denotes⟩

theorem denotes_of_readItems {fuel : Nat} {s rest : List Char} {items : List Json}
    (h : readItems fuel s = some (items, rest)) :
    ∃ text, s = text ++ rest ∧ DenotesItems text items := by
  match fuel with
  | 0 => cases h
  | fuel + 1 =>
    simp only [readItems, Option.bind_eq_bind, Option.bind_eq_some_iff] at h
    obtain ⟨⟨v, left⟩, hvalue, h⟩ := h
    obtain ⟨g, text, rfl, gap, denotes⟩ := denotes_of_readValue hvalue
    dsimp only at h
    split at h
    · rename_i more hskip
      obtain ⟨g', gap', rfl⟩ := exists_gap_of_skipGap hskip
      simp only [Option.bind_eq_some_iff, Option.pure_def] at h
      obtain ⟨⟨items, left⟩, hitems, heq⟩ := h
      cases heq
      obtain ⟨tail, rfl, htail⟩ := denotes_of_readItems hitems
      exact ⟨_, by simp, .more gap denotes gap' htail⟩
    · rename_i more hskip
      obtain ⟨g', gap', rfl⟩ := exists_gap_of_skipGap hskip
      cases h
      exact ⟨_, by simp, .last gap denotes gap'⟩
    · cases h

theorem denotes_of_readMembers {fuel : Nat} {s rest : List Char} {members : List (Text × Json)}
    (h : readMembers fuel s = some (members, rest)) :
    ∃ text, s = text ++ rest ∧ DenotesMembers text members := by
  match fuel with
  | 0 => cases h
  | fuel + 1 =>
    rw [readMembers] at h
    split at h
    · rename_i name hopen
      obtain ⟨before, hbefore, rfl⟩ := exists_gap_of_skipGap hopen
      simp only [Option.bind_eq_bind, Option.bind_eq_some_iff] at h
      obtain ⟨⟨k, left⟩, hname, h⟩ := h
      obtain ⟨key, hkey, name⟩ := denotesString_of_readText hname
      rw [hkey]
      dsimp only at h
      split at h
      · rename_i behind hcolon
        obtain ⟨gap, hgap, rfl⟩ := exists_gap_of_skipGap hcolon
        simp only [Option.bind_eq_some_iff] at h
        obtain ⟨⟨v, left⟩, hvalue, h⟩ := h
        obtain ⟨g, text, rfl, hg, denotes⟩ := denotes_of_readValue hvalue
        dsimp only at h
        split at h
        · rename_i more hskip
          obtain ⟨g', gap', rfl⟩ := exists_gap_of_skipGap hskip
          simp only [Option.bind_eq_some_iff, Option.pure_def] at h
          obtain ⟨⟨members, left⟩, hmembers, heq⟩ := h
          cases heq
          obtain ⟨tail, rfl, htail⟩ := denotes_of_readMembers hmembers
          exact ⟨_, by simp, .more hbefore name hgap hg denotes gap' htail⟩
        · rename_i more hskip
          obtain ⟨g', gap', rfl⟩ := exists_gap_of_skipGap hskip
          cases h
          exact ⟨_, by simp, .last hbefore name hgap hg denotes gap'⟩
        · cases h
      · cases h
    · cases h

end

/-- The reader takes the texts of a tree with gaps around it, and no others. -/
theorem parseChars_eq_some_iff {s : List Char} {v : Json} : parseChars s = some v ↔
    ∃ g text g', s = g ++ (text ++ g') ∧ IsGapText g ∧ IsGapText g' ∧ Denotes text v := by
  constructor
  · intro h
    simp only [parseChars, Option.bind_eq_bind, Option.bind_eq_some_iff] at h
    obtain ⟨⟨v, rest⟩, hvalue, h⟩ := h
    dsimp only at h
    split_ifs at h with hrest
    cases h
    obtain ⟨g, text, rfl, gap, denotes⟩ := denotes_of_readValue hvalue
    obtain ⟨g', gap', hg'⟩ := exists_gap rest
    rw [List.isEmpty_iff.1 hrest, List.append_nil] at hg'
    exact ⟨g, text, rest, rfl, gap, hg' ▸ gap', denotes⟩
  · rintro ⟨g, text, g', rfl, gap, gap', denotes⟩
    exact parseChars_of_denotes denotes gap gap'

/-! ### The ends of a text -/

theorem isBlank_of_isGap {c : Char} (h : isGap c = true) : isBlank c = true := by
  simp only [isGap, Bool.or_eq_true, beq_iff_eq] at h
  rcases h with ((rfl | rfl) | rfl) | rfl <;> decide

theorem IsGapText.isBlankText {g : List Char} (gap : IsGapText g) : IsBlankText g :=
  fun c hc => isBlank_of_isGap (gap c hc)

theorem mem_getLast?_append {α : Type} {as bs : List α} {a : α} (h : a ∈ (as ++ bs).getLast?) :
    a ∈ bs.getLast? ∨ bs = [] ∧ a ∈ as.getLast? := by
  cases bs with
  | nil => exact .inr ⟨rfl, by rwa [List.append_nil] at h⟩
  | cons b bs =>
    rw [List.getLast?_append_of_ne_nil _ (List.cons_ne_nil b bs)] at h
    exact .inl h

theorem DenotesExponent.last {s : List Char} {e : Option Int} (h : DenotesExponent s e) :
    ∀ c ∈ s.getLast?, c.isDigit = true := by
  intro c hc
  cases h with
  | none => cases hc
  | bare _ some_digit digits =>
    rw [List.getLast?_cons_of_ne_nil some_digit] at hc
    exact digits c (List.mem_of_getLast? hc)
  | plus _ some_digit digits | minus _ some_digit digits =>
    rw [List.getLast?_cons_cons, List.getLast?_cons_of_ne_nil some_digit] at hc
    exact digits c (List.mem_of_getLast? hc)

theorem DenotesNumber.last {s : List Char} {n : Number} (h : DenotesNumber s n) :
    ∀ c ∈ s.getLast?, c.isDigit = true := by
  intro c hc
  cases h with
  | token token denotes =>
    rcases mem_getLast?_append hc with hc | ⟨hnil, -⟩
    · rcases mem_getLast?_append hc with hc | ⟨-, hc⟩
      · rcases mem_getLast?_append hc with hc | ⟨-, hc⟩
        · exact denotes.last c hc
        · unfold fractionText at hc
          cases hf : n.fraction with
          | none =>
            rw [hf] at hc
            cases hc
          | some ds =>
            obtain ⟨hne, hdigits⟩ := token.decimals ds hf
            rw [hf, Option.elim_some, List.getLast?_cons_of_ne_nil hne] at hc
            exact hdigits c (List.mem_of_getLast? hc)
      · exact token.digits c (List.mem_of_getLast? hc)
    · exact absurd (List.append_eq_nil_iff.1 hnil).1 token.some_digit

theorem DenotesItems.getLast?_eq {s : List Char} {items : List Json} (h : DenotesItems s items) :
    s.getLast? = some ']' := by
  match h with
  | .last .. => simp [List.getLast?_append]
  | .more _ _ _ rest => simp [List.getLast?_append, List.getLast?_cons, rest.getLast?_eq]

theorem DenotesMembers.getLast?_eq {s : List Char} {members : List (Text × Json)}
    (h : DenotesMembers s members) : s.getLast? = some '}' := by
  match h with
  | .last .. => simp [List.getLast?_append, List.getLast?_cons]
  | .more _ _ _ _ _ _ rest => simp [List.getLast?_append, List.getLast?_cons, rest.getLast?_eq]

theorem isTrimmed_of_ends {s : List Char} {a b : Char} (first : s.head? = some a)
    (last : s.getLast? = some b) (ha : isBlank a = false) (hb : isBlank b = false) : IsTrimmed s where
  first c hc := by
    rw [first] at hc
    rwa [← Option.some.inj hc]
  last c hc := by
    rw [last] at hc
    rwa [← Option.some.inj hc]

theorem Denotes.isTrimmed {s : List Char} {v : Json} (h : Denotes s v) : IsTrimmed s := by
  cases h with
  | null | yes | no => exact isTrimmed_of_ends rfl rfl (by decide) (by decide)
  | number denotes =>
    refine ⟨fun c hc => ?_, fun c hc => Text.isBlank_eq_false_of_isDigit (denotes.last c hc)⟩
    obtain ⟨d, more, rfl, hd⟩ := denotes.exists_cons
    cases hc
    rcases hd with rfl | hd
    · decide
    · exact Text.isBlank_eq_false_of_isDigit hd
  | string denotes =>
    cases denotes with
    | plain | unpaired =>
      refine isTrimmed_of_ends (b := '"') rfl ?_ (by decide) (by decide)
      rw [← List.cons_append, List.getLast?_concat]
  | emptyArray =>
    refine isTrimmed_of_ends (b := ']') rfl ?_ (by decide) (by decide)
    rw [← List.cons_append, List.getLast?_concat]
  | array inside =>
    refine isTrimmed_of_ends (b := ']') rfl ?_ (by decide) (by decide)
    rw [List.getLast?_cons, inside.getLast?_eq, Option.getD_some]
  | emptyObject =>
    refine isTrimmed_of_ends (b := '}') rfl ?_ (by decide) (by decide)
    rw [← List.cons_append, List.getLast?_concat]
  | object inside =>
    refine isTrimmed_of_ends (b := '}') rfl ?_ (by decide) (by decide)
    rw [List.getLast?_cons, inside.getLast?_eq, Option.getD_some]

theorem parse?_trim_eq_some_iff {s : String} {v : Json} :
    parse? (Breakage.Text.trim s) = some v ↔ ∃ text, Strips s.toList text ∧ Denotes text v := by
  rw [parse?, Breakage.Text.trim, String.toList_ofList, parseChars_eq_some_iff]
  constructor
  · rintro ⟨g, text, g', hs, gap, gap', denotes⟩
    refine ⟨text, Text.trimChars_eq_iff.1 ?_, denotes⟩
    rw [← Text.trimChars_eq_self_iff.2 (Text.strips_trimChars s.toList).1, hs,
      Text.trimChars_append gap.isBlankText gap'.isBlankText,
      Text.trimChars_eq_self_iff.2 denotes.isTrimmed]
  · rintro ⟨text, strips, denotes⟩
    refine ⟨[], text, [], ?_, isGapText_nil, isGapText_nil, denotes⟩
    rw [Text.trimChars_of_strips strips, List.append_nil, List.nil_append]

end Breakage.Json
