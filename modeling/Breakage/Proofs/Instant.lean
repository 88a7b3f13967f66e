import Breakage.Instant
import Breakage.Proofs.Json.Tokens
import Breakage.Proofs.Text.Lines
import Mathlib.Algebra.GroupWithZero.Nat

/-!
Points in time as they are written: with all the digits of every field, and as many decimals as are
needed. Main statement: `Instant.parse?_render`.
-/

namespace Breakage

namespace Text

variable {width n : Nat}

theorem isDigit_padded : ∀ c ∈ padded width n, c.isDigit = true := by
  intro c hc
  rw [padded, List.leftpad, List.mem_append] at hc
  rcases hc with hc | hc
  · rw [(List.mem_replicate.1 hc).2]
    rfl
  · exact Json.isDigit_toDigits c hc

theorem length_padded (positive : 0 < width) (h : n < 10 ^ width) :
    (padded width n).length = width := by
  have hlength := (Nat.length_toDigits_le_iff (by decide) positive).2 h
  rw [padded, List.leftpad, List.length_append, List.length_replicate]
  omega

theorem ofDigitChars_padded : Nat.ofDigitChars 10 (padded width n) 0 = n := by
  rw [padded, List.leftpad, Nat.ofDigitChars_append, Nat.ofDigitChars_replicate_zero, Nat.mul_zero,
    Nat.ofDigitChars_ten_toDigits]

theorem exists_padded (width n : Nat) :
    ∃ d ds, padded width n = d :: ds ∧ d.isDigit = true := by
  have hne : padded width n ≠ [] := by simp [padded, List.leftpad, Nat.toDigits_ne_nil]
  obtain ⟨d, ds, h⟩ := List.exists_cons_of_ne_nil hne
  exact ⟨d, ds, h, isDigit_padded d (h ▸ List.mem_cons_self)⟩

theorem trimStart_padded (rest : List Char) :
    trimStart (padded width n ++ rest) = padded width n ++ rest := by
  obtain ⟨d, ds, h, hd⟩ := exists_padded width n
  rw [h, List.cons_append, trimStart_cons_of_not_blank _ (isBlank_eq_false_of_isDigit hd)]

end Text

namespace Instant

open Text (padded trimStart isBlank)

/-! ### Fields -/

theorem readDigits_padded {width k n : Nat} (positive : 0 < k) (h : n < 10 ^ k) (le : k ≤ width)
    {rest : List Char} (stop : k < width → ∀ c ∈ rest.head?, c.isDigit = false) :
    readDigits (some width) (padded k n ++ rest) = some (n, rest) := by
  have hlength := Text.length_padded positive h
  have hrun : ((padded k n ++ rest).takeWhile Char.isDigit).take width = padded k n := by
    by_cases hk : k < width
    · rw [(Json.takeWhile_append_of_stop Text.isDigit_padded (stop hk)).1]
      exact List.take_of_length_le (by omega)
    · rw [List.takeWhile_append_of_pos Text.isDigit_padded, List.take_left' (by omega)]
  have hne : (padded k n).isEmpty = false := by
    rw [List.isEmpty_eq_false_iff, ← List.length_pos_iff, hlength]
    exact positive
  simp only [readDigits, hrun, hne, Text.ofDigitChars_padded]
  rw [if_neg Bool.false_ne_true, List.drop_left]

theorem readField_padded {n : Nat} (h : n < 100) (rest : List Char) :
    readField (padded 2 n ++ rest) = some (n, rest) := by
  rw [readField, Text.trimStart_padded]
  exact readDigits_padded (by decide) h (by decide) fun hk => absurd hk (by decide)

theorem readYear_padded {n : Nat} (h : n ≤ 9999) (rest : List Char) :
    readYear (padded 4 n ++ rest) = some ((n : Int), rest) := by
  have hread : readDigits (some 4) (padded 4 n ++ rest) = some (n, rest) :=
    readDigits_padded (by decide) (Nat.lt_succ_of_le h) (by decide) fun hk => absurd hk (by decide)
  obtain ⟨d, ds, hd, hdigit⟩ := Text.exists_padded 4 n
  rw [readYear, Text.trimStart_padded]
  split
  · rename_i heq
    rw [hd, List.cons_append] at heq
    rw [(List.cons.inj heq).1] at hdigit
    cases hdigit
  · rename_i heq
    rw [hd, List.cons_append] at heq
    rw [(List.cons.inj heq).1] at hdigit
    cases hdigit
  · rw [hread]
    rfl

theorem readMark_cons {mark : Char} (h : isBlank mark = false) (rest : List Char) :
    readMark mark (mark :: rest) = some rest := by
  rw [readMark, Text.trimStart_cons_of_not_blank _ h]
  exact if_pos rfl

theorem readFraction_padded {k n : Nat} (positive : 0 < k) (le : k ≤ 9) (h : n < 10 ^ k) :
    readFraction ('.' :: padded k n ++ ['Z']) = some (n * 10 ^ (9 - k), ['Z']) := by
  have hread : readDigits (some 9) (padded k n ++ ['Z']) = some (n, ['Z']) :=
    readDigits_padded positive h le fun _ => by simp
  rw [List.cons_append, readFraction, hread, Option.map_some, List.length_append,
    Text.length_padded positive h]
  simp

theorem readFraction_fractionText {nano : Nat} (h : nano < 1000000000) :
    readFraction (fractionText nano ++ ['Z']) = some (nano, ['Z']) := by
  unfold fractionText
  split_ifs with hzero hmilli hmicro
  · rw [hzero]
    rfl
  · rw [readFraction_padded (by decide) (by decide) (by omega)]
    congr 2
    omega
  · rw [readFraction_padded (by decide) (by decide) (by omega)]
    congr 2
    omega
  · rw [readFraction_padded (by decide) (by decide) (by omega)]
    congr 2
    omega

/-! ### Instants -/

/-- An instant of the years with four digits, outside a leap second. -/
structure IsPlain (t : Instant) : Prop where
  valid : t.isValid = true
  first : 0 ≤ t.year
  last : t.year ≤ 9999
  second : t.second < 60

theorem fromLocal_zero {t : Instant} (hour : t.hour < 24) (minute : t.minute < 60) :
    t.fromLocal 0 = t := by
  have hminutes : (t.hour : Int) * 60 + t.minute - 0 = ((t.hour * 60 + t.minute : Nat) : Int) := by
    omega
  have hrest : (((t.hour * 60 + t.minute : Nat) : Int) % 1440).toNat = t.hour * 60 + t.minute := by
    omega
  have hhour : (t.hour * 60 + t.minute) / 60 = t.hour := by omega
  have hminute : (t.hour * 60 + t.minute) % 60 = t.minute := by omega
  simp only [fromLocal, hminutes, hrest, hhour, hminute]
  rw [if_neg (by omega), if_neg (by omega)]

theorem parse?_render {t : Instant} (plain : t.IsPlain) : parse? t.render = some t := by
  obtain ⟨hvalid, first, last, second⟩ := plain
  have hfields := hvalid
  simp only [isValid, Bool.and_eq_true, decide_eq_true_eq] at hfields
  obtain ⟨⟨⟨⟨⟨⟨⟨⟨⟨-, -⟩, -⟩, hmonth⟩, -⟩, hday⟩, hhour⟩, hminute⟩, -⟩, hnano⟩ := hfields
  have hyear : (t.year.toNat : Int) = t.year := Int.toNat_of_nonneg first
  have htext : t.renderChars = padded 4 t.year.toNat ++ '-' :: (padded 2 t.month ++ '-' ::
      (padded 2 t.day ++ 'T' :: (padded 2 t.hour ++ ':' :: (padded 2 t.minute ++ ':' ::
        (padded 2 t.second ++ (fractionText t.nano ++ ['Z'])))))) := by
    simp only [renderChars, yearText, first, last, decide_true, Bool.and_self, if_true,
      List.append_assoc, List.cons_append]
  have hdash : isBlank '-' = false := by decide
  have hcolon : isBlank ':' = false := by decide
  have hdays : t.day < 100 := by
    have hmost : daysIn t.year t.month ≤ 31 := by
      unfold daysIn
      split_ifs <;> decide
    omega
  have hzone : readZone (trimStart ['Z']) = some (0, []) := by decide
  -- the fields are read one after the other, each up to its mark
  have hnext {α β : Type} {x : Option α} {a : α} {f : α → Option β} {b : β} (hx : x = some a)
      (hf : f a = some b) : x.bind f = some b := by rw [hx, Option.bind_some, hf]
  rw [parse?, render, String.toList_ofList, parseChars, htext]
  refine hnext (readYear_padded (by omega) _) ?_
  refine hnext (readMark_cons hdash _) ?_
  refine hnext (readField_padded (by omega) _) ?_
  refine hnext (readMark_cons hdash _) ?_
  refine hnext (readField_padded hdays _) ?_
  refine hnext (readField_padded (by omega) _) ?_
  refine hnext (readMark_cons hcolon _) ?_
  refine hnext (readField_padded (by omega) _) ?_
  refine hnext (readMark_cons hcolon _) ?_
  refine hnext (readField_padded (by omega) _) ?_
  refine hnext (readFraction_fractionText hnano) ?_
  refine hnext hzone ?_
  have hend : (trimStart []).isEmpty = true := rfl
  dsimp only
  rw [hyear, fromLocal_zero hhour hminute, hvalid, hend]
  rfl

end Instant

end Breakage
