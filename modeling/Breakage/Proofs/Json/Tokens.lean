import Breakage.Json.Printer
import Breakage.Json.Reader
import Mathlib.Tactic.SplitIfs

/-!
Strings and numbers as they may be written, and as they are read from the start of a text. A character
of a string stands for itself or is escaped in one of several ways; a string ends with its quote
(`readText_of_denotes`). A number ends where nothing follows that could belong to a number
(`readNumber_of_denotes`). What is written is one of the ways to write it.
-/

namespace Breakage.Json

open Breakage.Text (hexValue)

/-! ### Strings -/

inductive DenotesChar : List Char → Char → Prop where
  | plain {c : Char} (quote : c ≠ '"') (backslash : c ≠ '\\') (control : 0x20 ≤ c.toNat) :
    DenotesChar [c] c
  | letter {l c : Char} (h : unescape l = some c) : DenotesChar ['\\', l] c
  | unit {a b c d : Char} {n : Nat} (h : hexQuad a b c d = some n) (high : isHighSurrogate n = false)
    (low : isLowSurrogate n = false) : DenotesChar ['\\', 'u', a, b, c, d] (Char.ofNat n)
  | pair {a b c d a' b' c' d' : Char} {n n' : Nat} (h : hexQuad a b c d = some n)
    (h' : hexQuad a' b' c' d' = some n') (high : isHighSurrogate n = true)
    (low : isLowSurrogate n' = true) :
    DenotesChar ['\\', 'u', a, b, c, d, '\\', 'u', a', b', c', d']
      (Char.ofNat (0x10000 + (n - 0xD800) * 0x400 + (n' - 0xDC00)))

inductive DenotesChars : List Char → List Char → Prop where
  | nil : DenotesChars [] []
  | cons {s t cs : List Char} {c : Char} (first : DenotesChar s c) (rest : DenotesChars t cs) :
    DenotesChars (s ++ t) (c :: cs)

/-- The text between two quotes is made of these pieces, which need not go together. -/
inductive HasPieces : List Char → List Piece → Prop where
  | nil : HasPieces [] []
  | plain {c : Char} {s : List Char} {ps : List Piece} (quote : c ≠ '"') (backslash : c ≠ '\\')
    (control : 0x20 ≤ c.toNat) (rest : HasPieces s ps) : HasPieces (c :: s) (.char c :: ps)
  | letter {l c : Char} {s : List Char} {ps : List Piece} (h : unescape l = some c)
    (rest : HasPieces s ps) : HasPieces ('\\' :: l :: s) (.char c :: ps)
  | unit {a b c d : Char} {n : Nat} {s : List Char} {ps : List Piece} (h : hexQuad a b c d = some n)
    (rest : HasPieces s ps) : HasPieces ('\\' :: 'u' :: a :: b :: c :: d :: s) (.unit n :: ps)

inductive DenotesString : List Char → Text → Prop where
  | plain {body : List Char} {s : String} (chars : DenotesChars body s.toList) :
    DenotesString ('"' :: (body ++ ['"'])) (.plain s)
  | unpaired {body : List Char} {ps : List Piece} (pieces : HasPieces body ps)
    (lone : ∀ cs, ¬DenotesChars body cs) : DenotesString ('"' :: (body ++ ['"'])) .unpaired

theorem hexValue_digitChar {n : Nat} (h : n < 16) : hexValue (Nat.digitChar n) = some n :=
  (by decide : ∀ k : Fin 16, hexValue (Nat.digitChar k) = some k.val) ⟨n, h⟩

theorem joinPieces_unit {n : Nat} (high : isHighSurrogate n = false) (low : isLowSurrogate n = false)
    (ps : List Piece) : joinPieces (.unit n :: ps) = (joinPieces ps).map (Char.ofNat n :: ·) := by
  match ps with
  | [] | .char _ :: _ | .unit _ :: _ => simp [joinPieces, high, low]

theorem readPieces_letter {letter c : Char} (hc : unescape letter = some c) (s : List Char) :
    readPieces ('\\' :: letter :: s) = (readPieces s).map fun r => (.char c :: r.1, r.2) := by
  rw [readPieces, hc]
  · cases readPieces s <;> rfl
  · rintro _ _ _ _ _ rfl
    cases hc

theorem readPieces_plain {c : Char} (quote : c ≠ '"') (backslash : c ≠ '\\') (h : 0x20 ≤ c.toNat)
    (s : List Char) : readPieces (c :: s) = (readPieces s).map fun r => (.char c :: r.1, r.2) := by
  rw [readPieces, if_neg (Nat.not_lt.2 h)]
  · cases readPieces s <;> rfl
  · exact quote
  · exact fun _ _ _ _ _ h => absurd h backslash
  · exact fun _ _ h => absurd h backslash

theorem readPieces_unit {a b c d : Char} {n : Nat} (h : hexQuad a b c d = some n) (s : List Char) :
    readPieces ('\\' :: 'u' :: a :: b :: c :: d :: s) =
      (readPieces s).map fun r => (.unit n :: r.1, r.2) := by
  rw [readPieces, h]
  cases readPieces s <;> rfl

theorem HasPieces.read {body : List Char} {ps : List Piece} (h : HasPieces body ps)
    (rest : List Char) : readPieces (body ++ '"' :: rest) = some (ps, rest) := by
  induction h with
  | nil => rw [List.nil_append, readPieces]
  | plain quote backslash control _ ih =>
    rw [List.cons_append, readPieces_plain quote backslash control, ih]
    rfl
  | letter hl _ ih =>
    rw [List.cons_append, List.cons_append, readPieces_letter hl, ih]
    rfl
  | unit hn _ ih =>
    simp only [List.cons_append]
    rw [readPieces_unit hn, ih]
    rfl

theorem HasPieces.unique {body : List Char} {ps ps' : List Piece} (h : HasPieces body ps)
    (h' : HasPieces body ps') : ps = ps' := by
  have hread := (h.read []).symm.trans (h'.read [])
  cases hread
  rfl

theorem DenotesChars.exists_pieces {body cs : List Char} (h : DenotesChars body cs) :
    ∃ ps, HasPieces body ps ∧ joinPieces ps = some cs := by
  induction h with
  | nil => exact ⟨[], .nil, rfl⟩
  | cons first _ ih =>
    obtain ⟨ps, hpieces, hjoin⟩ := ih
    cases first with
    | plain quote backslash control =>
      exact ⟨_, .plain quote backslash control hpieces, by rw [joinPieces, hjoin]; rfl⟩
    | letter hl => exact ⟨_, .letter hl hpieces, by rw [joinPieces, hjoin]; rfl⟩
    | unit hn high low =>
      exact ⟨_, .unit hn hpieces, by rw [joinPieces_unit high low, hjoin]; rfl⟩
    | pair hn hn' high low =>
      refine ⟨_, .unit hn (.unit hn' hpieces), ?_⟩
      rw [joinPieces, if_pos high, if_pos low, hjoin]
      rfl

theorem HasPieces.denotesChars {body cs : List Char} {ps : List Piece} (h : HasPieces body ps)
    (hjoin : joinPieces ps = some cs) : DenotesChars body cs := by
  fun_induction joinPieces ps generalizing body cs with
  | case1 =>
    cases hjoin
    cases h
    exact .nil
  | case2 c ps ih =>
    obtain ⟨cs, hcs, rfl⟩ := Option.map_eq_some_iff.1 hjoin
    cases h with
    | plain quote backslash control rest => exact .cons (.plain quote backslash control) (ih rest hcs)
    | letter hl rest => exact .cons (.letter hl) (ih rest hcs)
  | case3 high low ps hhigh hlow ih =>
    obtain ⟨cs, hcs, rfl⟩ := Option.map_eq_some_iff.1 hjoin
    cases h with
    | unit hn rest =>
      cases rest with
      | unit hn' rest => exact .cons (.pair hn hn' hhigh hlow) (ih rest hcs)
  | case4 | case5 => cases hjoin
  | case6 high low ps hhigh hlow ih =>
    obtain ⟨cs, hcs, rfl⟩ := Option.map_eq_some_iff.1 hjoin
    cases h with
    | unit hn rest =>
      exact .cons (.unit hn (Bool.eq_false_iff.2 hhigh) (Bool.eq_false_iff.2 hlow)) (ih rest hcs)
  | case7 => cases hjoin
  | case8 n ps hps hn ih =>
    obtain ⟨cs, hcs, rfl⟩ := Option.map_eq_some_iff.1 hjoin
    rw [Bool.or_eq_true, not_or, Bool.not_eq_true, Bool.not_eq_true] at hn
    cases h with
    | unit hn' rest => exact .cons (.unit hn' hn.1 hn.2) (ih rest hcs)

theorem readText_of_denotes {s : List Char} {t : Text} (h : DenotesString s t) :
    ∃ body, s = '"' :: body ∧ ∀ rest, readText (body ++ rest) = some (t, rest) := by
  cases h with
  | @plain body text chars =>
    obtain ⟨ps, hpieces, hjoin⟩ := chars.exists_pieces
    refine ⟨_, rfl, fun rest => ?_⟩
    rw [List.append_assoc, List.singleton_append, readText, hpieces.read]
    simp only [Option.bind_eq_bind, Option.bind_some, hjoin, String.ofList_toList, Option.pure_def]
  | @unpaired body ps pieces lone =>
    have hjoin : joinPieces ps = none :=
      Option.eq_none_iff_forall_ne_some.2 fun cs hcs => lone cs (pieces.denotesChars hcs)
    refine ⟨_, rfl, fun rest => ?_⟩
    rw [List.append_assoc, List.singleton_append, readText, pieces.read]
    simp only [Option.bind_eq_bind, Option.bind_some, hjoin, Option.pure_def]

theorem hexQuad_digitChar {n : Nat} (h : n < 256) :
    hexQuad '0' '0' (Nat.digitChar (n / 16)) (Nat.digitChar (n % 16)) = some n := by
  rw [hexQuad, hexValue_digitChar (Nat.div_lt_of_lt_mul h),
    hexValue_digitChar (Nat.mod_lt _ (by decide)), show hexValue '0' = some 0 by decide]
  simp only [Option.bind_eq_bind, Option.bind_some, Option.pure_def]
  congr 1
  omega

theorem denotesChar_escape (c : Char) : DenotesChar (escape c) c := by
  have named {n : Nat} (h : c.toNat = n) : some (Char.ofNat n) = some c := by
    rw [← h, Char.ofNat_toNat]
  unfold escape
  split_ifs with quote backslash newline carriage tab backspace feed control
  · exact .letter (by rw [quote]; rfl)
  · exact .letter (by rw [backslash]; rfl)
  · exact .letter (by rw [newline]; rfl)
  · exact .letter (by rw [carriage]; rfl)
  · exact .letter (by rw [tab]; rfl)
  · exact .letter (l := 'b') (named backspace)
  · exact .letter (l := 'f') (named feed)
  · have high : isHighSurrogate c.toNat = false := by simp [isHighSurrogate]; omega
    have low : isLowSurrogate c.toNat = false := by simp [isLowSurrogate]; omega
    have hunit := DenotesChar.unit (hexQuad_digitChar (Nat.lt_trans control (by decide))) high low
    rwa [Char.ofNat_toNat] at hunit
  · exact .plain quote backslash (Nat.not_lt.1 control)

theorem denotesChars_flatMap (cs : List Char) : DenotesChars (cs.flatMap escape) cs := by
  induction cs with
  | nil => exact .nil
  | cons c cs ih => exact .cons (denotesChar_escape c) ih

theorem denotesString_render (t : Text) : DenotesString t.render t := by
  cases t with
  | plain s => exact .plain (denotesChars_flatMap s.toList)
  | unpaired =>
    have hpieces : HasPieces ['\\', 'u', 'd', '8', '0', '0'] [.unit 0xD800] := .unit (by decide) .nil
    refine .unpaired hpieces fun cs hcs => ?_
    obtain ⟨ps, hps, hjoin⟩ := hcs.exists_pieces
    rw [← hpieces.unique hps] at hjoin
    cases hjoin

/-! ### Numbers -/

theorem takeWhile_append_of_stop {α : Type} {p : α → Bool} {run rest : List α}
    (hrun : ∀ a ∈ run, p a = true) (stop : ∀ a ∈ rest.head?, p a = false) :
    (run ++ rest).takeWhile p = run ∧ (run ++ rest).dropWhile p = rest := by
  have hrest : rest.takeWhile p = [] ∧ rest.dropWhile p = rest := by
    cases rest with
    | nil => exact ⟨rfl, rfl⟩
    | cons a rest =>
      have ha := stop a rfl
      exact ⟨List.takeWhile_cons_of_neg (by simp [ha]), List.dropWhile_cons_of_neg (by simp [ha])⟩
  rw [List.takeWhile_append_of_pos hrun, List.dropWhile_append_of_pos hrun, hrest.1, hrest.2,
    List.append_nil]
  exact ⟨rfl, rfl⟩

theorem isDigit_toDigits {n : Nat} : ∀ c ∈ Nat.toDigits 10 n, c.isDigit = true :=
  fun _ h => Nat.isDigit_of_mem_toDigits (by decide) (by decide) h

/-- A number as the grammar has it: there are digits where there have to be, and no zero before the
others. -/
structure Number.IsToken (n : Number) : Prop where
  digits : ∀ c ∈ n.whole, c.isDigit = true
  some_digit : n.whole ≠ []
  leading : n.whole.head? = some '0' → n.whole = ['0']
  decimals : ∀ ds, n.fraction = some ds → ds ≠ [] ∧ ∀ c ∈ ds, c.isDigit = true

inductive DenotesExponent : List Char → Option Int → Prop where
  | none : DenotesExponent [] none
  | bare {e : Char} {ds : List Char} (mark : e = 'e' ∨ e = 'E') (some_digit : ds ≠ [])
    (digits : ∀ c ∈ ds, c.isDigit = true) :
    DenotesExponent (e :: ds) (some (Nat.ofDigitChars 10 ds 0 : Int))
  | plus {e : Char} {ds : List Char} (mark : e = 'e' ∨ e = 'E') (some_digit : ds ≠ [])
    (digits : ∀ c ∈ ds, c.isDigit = true) :
    DenotesExponent (e :: '+' :: ds) (some (Nat.ofDigitChars 10 ds 0 : Int))
  | minus {e : Char} {ds : List Char} (mark : e = 'e' ∨ e = 'E') (some_digit : ds ≠ [])
    (digits : ∀ c ∈ ds, c.isDigit = true) :
    DenotesExponent (e :: '-' :: ds) (some (-(Nat.ofDigitChars 10 ds 0 : Int)))

def fractionText (n : Number) : List Char := n.fraction.elim [] fun ds => '.' :: ds

inductive DenotesNumber : List Char → Number → Prop where
  | token {n : Number} {exponent : List Char} (token : n.IsToken)
    (denotes : DenotesExponent exponent n.exponent) :
    DenotesNumber (sign n.negative ++ (n.whole ++ (fractionText n ++ exponent))) n

def goesOn (c : Char) : Bool := c.isDigit || c == '.' || c == 'e' || c == 'E'

theorem goesOn_eq_false {c : Char} :
    goesOn c = false ↔ c.isDigit = false ∧ c ≠ '.' ∧ c ≠ 'e' ∧ c ≠ 'E' := by
  simp only [goesOn, Bool.or_eq_false_iff, beq_eq_false_iff_ne, and_assoc, ne_eq]

theorem head?_toDigits_ne_zero {n : Nat} (h : n ≠ 0) : (Nat.toDigits 10 n).head? ≠ some '0' := by
  induction n using Nat.strongRecOn with
  | _ n ih =>
    rw [Nat.toDigits_eq_if (by decide)]
    split
    · rename_i hlt
      have hne : Nat.digitChar n ≠ '0' := by
        rw [Ne, Nat.digitChar_eq_zero]
        exact h
      simpa using hne
    · rename_i hge
      have hquotient : n / 10 ≠ 0 := by omega
      rw [List.head?_append, Option.or_of_isSome (by simp [Nat.toDigits_ne_nil])]
      exact ih (n / 10) (by omega) hquotient

theorem Number.isToken_ofNat (n : Nat) : (ofNat n).IsToken where
  digits := isDigit_toDigits
  some_digit := Nat.toDigits_ne_nil
  leading h := by
    by_cases hzero : n = 0
    · subst hzero
      rfl
    · exact absurd h (head?_toDigits_ne_zero hzero)
  decimals := nofun

variable {n : Number} {rest : List Char}

theorem readWhole_append (token : n.IsToken) (stop : ∀ c ∈ rest.head?, c.isDigit = false) :
    readWhole (n.whole ++ rest) = some (n.whole, rest) := by
  obtain ⟨htake, hdrop⟩ := takeWhile_append_of_stop token.digits stop
  unfold readWhole
  split
  · rename_i more hzero
    have hwhole : n.whole = ['0'] := by
      have hhead : (n.whole ++ rest).head? = some '0' := by rw [hzero]; rfl
      rw [List.head?_append, Option.or_of_isSome (by simp [token.some_digit])] at hhead
      exact token.leading hhead
    rw [hwhole] at hzero ⊢
    rw [← (List.cons.inj hzero).2]
    rfl
  · rw [htake, hdrop, if_neg (by simpa using token.some_digit)]

theorem readFraction_append (token : n.IsToken)
    (stop : ∀ c ∈ rest.head?, c ≠ '.' ∧ c.isDigit = false) :
    readFraction (fractionText n ++ rest) = some (n.fraction, rest) := by
  unfold fractionText
  cases hfraction : n.fraction with
  | none =>
    rw [Option.elim_none, List.nil_append, readFraction]
    rintro more rfl
    exact (stop '.' rfl).1 rfl
  | some ds =>
    obtain ⟨hne, hdigits⟩ := token.decimals ds hfraction
    obtain ⟨htake, hdrop⟩ := takeWhile_append_of_stop hdigits fun c hc => (stop c hc).2
    rw [Option.elim_some, List.cons_append, readFraction]
    simp only [htake, hdrop]
    rw [if_neg (by simpa using hne)]

theorem readExponentDigits_append {ds : List Char} (some_digit : ds ≠ [])
    (digits : ∀ c ∈ ds, c.isDigit = true) (stop : ∀ c ∈ rest.head?, goesOn c = false)
    (negative : Bool) : readExponentDigits negative (ds ++ rest) =
      some (some (if negative then -(Nat.ofDigitChars 10 ds 0 : Int) else Nat.ofDigitChars 10 ds 0),
        rest) := by
  obtain ⟨htake, hdrop⟩ := takeWhile_append_of_stop digits fun c hc => (goesOn_eq_false.1 (stop c hc)).1
  simp only [readExponentDigits, htake, hdrop]
  rw [if_neg (by simpa using some_digit)]

theorem readExponent_append {exponent : List Char} {e : Option Int} (h : DenotesExponent exponent e)
    (stop : ∀ c ∈ rest.head?, goesOn c = false) : readExponent (exponent ++ rest) = some (e, rest) := by
  cases h with
  | none =>
    cases rest with
    | nil => rfl
    | cons c rest =>
      obtain ⟨-, -, hsmall, hcapital⟩ := goesOn_eq_false.1 (stop c rfl)
      rw [List.nil_append]
      unfold readExponent
      dsimp only
      rw [if_neg (by simp [hsmall, hcapital])]
  | @bare c ds mark some_digit digits =>
    rw [List.cons_append]
    unfold readExponent
    dsimp only
    rw [if_pos (by simpa using mark)]
    have hfirst (d : Char) (hd : d.isDigit = false) (more : List Char) : ds ++ rest ≠ d :: more := by
      obtain ⟨first, others, rfl⟩ := List.exists_cons_of_ne_nil some_digit
      intro h
      have hdigit := digits first List.mem_cons_self
      rw [(List.cons.inj h).1, hd] at hdigit
      cases hdigit
    split
    · exact absurd ‹_› (hfirst '+' rfl _)
    · exact absurd ‹_› (hfirst '-' rfl _)
    · rw [readExponentDigits_append some_digit digits stop, if_neg Bool.false_ne_true]
  | @plus c ds mark some_digit digits =>
    simp only [List.cons_append]
    unfold readExponent
    dsimp only
    rw [if_pos (by simpa using mark)]
    change readExponentDigits false (ds ++ rest) = _
    rw [readExponentDigits_append some_digit digits stop, if_neg Bool.false_ne_true]
  | @minus c ds mark some_digit digits =>
    simp only [List.cons_append]
    unfold readExponent
    dsimp only
    rw [if_pos (by simpa using mark)]
    change readExponentDigits true (ds ++ rest) = _
    rw [readExponentDigits_append some_digit digits stop, if_pos rfl]

theorem DenotesNumber.exists_cons {s : List Char} (h : DenotesNumber s n) :
    ∃ c more, s = c :: more ∧ (c = '-' ∨ c.isDigit = true) := by
  cases h with
  | token token _ =>
    obtain ⟨d, ds, hds⟩ := List.exists_cons_of_ne_nil token.some_digit
    have hd := token.digits d (hds ▸ List.mem_cons_self)
    cases hn : n.negative with
    | true => exact ⟨_, _, rfl, .inl rfl⟩
    | false => exact ⟨d, _, by rw [hds]; rfl, .inr hd⟩

theorem DenotesExponent.head {exponent : List Char} {e : Option Int} (h : DenotesExponent exponent e)
    (stop : ∀ c ∈ rest.head?, goesOn c = false) :
    ∀ c ∈ (exponent ++ rest).head?, c ≠ '.' ∧ c.isDigit = false := by
  intro c hc
  cases h with
  | none =>
    obtain ⟨hdigit, hpoint, -⟩ := goesOn_eq_false.1 (stop c hc)
    exact ⟨hpoint, hdigit⟩
  | bare mark | plus mark | minus mark =>
    obtain rfl := Option.some.inj hc
    rcases mark with rfl | rfl <;> decide

theorem readNumber_of_denotes {s : List Char} (h : DenotesNumber s n)
    (stop : ∀ c ∈ rest.head?, goesOn c = false) : readNumber (s ++ rest) = some (n, rest) := by
  cases h with
  | @token _ exponent token denotes =>
    have hexponent := denotes.head stop
    have hfraction : ∀ c ∈ (fractionText n ++ (exponent ++ rest)).head?, c.isDigit = false := by
      intro c hc
      unfold fractionText at hc
      cases hf : n.fraction with
      | none =>
        rw [hf, Option.elim_none, List.nil_append] at hc
        exact (hexponent c hc).2
      | some ds =>
        rw [hf, Option.elim_some, List.cons_append, List.head?_cons, Option.mem_some] at hc
        subst hc
        decide
    have hunsigned : readUnsigned n.negative (n.whole ++ (fractionText n ++ (exponent ++ rest))) =
        some (n, rest) := by
      rw [readUnsigned, readWhole_append token hfraction]
      simp only [Option.bind_eq_bind, Option.bind_some]
      rw [readFraction_append token hexponent]
      simp only [Option.bind_some]
      rw [readExponent_append denotes stop]
      rfl
    simp only [List.append_assoc]
    cases hn : n.negative with
    | true =>
      rw [hn] at hunsigned
      exact hunsigned
    | false =>
      rw [hn] at hunsigned
      obtain ⟨d, ds, hds⟩ := List.exists_cons_of_ne_nil token.some_digit
      have hd := token.digits d (hds ▸ List.mem_cons_self)
      rw [sign, if_neg Bool.false_ne_true, List.nil_append, readNumber, hunsigned]
      intro more h
      rw [hds, List.cons_append] at h
      rw [(List.cons.inj h).1] at hd
      exact absurd hd (by decide)

theorem denotesNumber_render (token : n.IsToken) : DenotesNumber n.render n := by
  have hexponent (e : Option Int) : DenotesExponent
      (e.elim [] fun e => 'e' :: (sign (decide (e < 0)) ++ Nat.toDigits 10 e.natAbs)) e := by
    cases e with
    | none => exact .none
    | some e =>
      have hvalue : Nat.ofDigitChars 10 (Nat.toDigits 10 e.natAbs) 0 = e.natAbs :=
        Nat.ofDigitChars_ten_toDigits
      by_cases he : e < 0
      · have hexp := DenotesExponent.minus (.inl rfl) (Nat.toDigits_ne_nil (b := 10) (n := e.natAbs))
          isDigit_toDigits
        rw [hvalue, show -(e.natAbs : Int) = e by omega] at hexp
        simpa only [Option.elim_some, he, decide_true, sign, if_true, List.singleton_append] using hexp
      · have hexp := DenotesExponent.bare (.inl rfl) (Nat.toDigits_ne_nil (b := 10) (n := e.natAbs))
          isDigit_toDigits
        rw [hvalue, show (e.natAbs : Int) = e by omega] at hexp
        simpa only [Option.elim_some, he, decide_false, sign, Bool.false_eq_true, if_false,
          List.nil_append] using hexp
  have h := DenotesNumber.token token (hexponent n.exponent)
  rw [Number.render]
  simpa only [fractionText, List.append_assoc] using h

end Breakage.Json
