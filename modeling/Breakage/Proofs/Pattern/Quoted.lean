import Breakage.Pattern.Support
import Breakage.Proofs.Pattern.Reader

/-!
A text as a pattern: with a backslash before each sign it stands for itself. Main statements: such a
pattern is read as the characters of the text (`readParts_quoted`, `parse?_quoted`), so that every
text can be asked for (`isRunnable_quoted`).
-/

namespace Breakage.Pattern

def quoted (s : List Char) : List Char :=
  s.flatMap fun c => if isEscapable c then ['\\', c] else [c]

def literal (c : Char) : Pattern := .atom (.literal ⟨c, false⟩)

theorem readParts_sign {c : Char} (h : isEscapable c = true) (fuel : Nat)
    (branches parts : List Pattern) (rest : List Char) (names : List (List Char)) :
    readParts (fuel + 1) branches parts ⟨'\\' :: c :: rest, false, names⟩ =
      readParts fuel branches (parts ++ [literal c]) ⟨rest, false, names⟩ := by
  simp [readParts, skip, readAtom, readEscape, h, literal]

theorem readParts_plain {c : Char} (h : isEscapable c = false) (fuel : Nat)
    (branches parts : List Pattern) (rest : List Char) (names : List (List Char)) :
    readParts (fuel + 1) branches parts ⟨c :: rest, false, names⟩ =
      readParts fuel branches (parts ++ [literal c]) ⟨rest, false, names⟩ := by
  have ne {d : Char} (hd : isEscapable d = true) : c ≠ d := by
    rintro rfl
    exact Bool.noConfusion (h.symm.trans hd)
  -- whatever means something else in a pattern is a sign
  have means : c ≠ ')' ∧ c ≠ '|' ∧ c ≠ '(' ∧ c ≠ '?' ∧ c ≠ '*' ∧ c ≠ '+' ∧ c ≠ '.' ∧ c ≠ '^' ∧
      c ≠ '$' ∧ c ≠ '[' ∧ c ≠ '\\' ∧ c ≠ '{' :=
    ⟨ne rfl, ne rfl, ne rfl, ne rfl, ne rfl, ne rfl, ne rfl, ne rfl, ne rfl, ne rfl, ne rfl, ne rfl⟩
  simp [readParts, skip, readAtom, literal, means]

/-- Before anything else in a pattern, a quoted text is its characters one by one. -/
theorem readParts_quoted (fuel : Nat) (branches parts : List Pattern) (s rest : List Char)
    (names : List (List Char)) :
    readParts (fuel + s.length) branches parts ⟨quoted s ++ rest, false, names⟩ =
      readParts fuel branches (parts ++ s.map literal) ⟨rest, false, names⟩ := by
  induction s generalizing parts with
  | nil => simp [quoted]
  | cons c s ih =>
    have again : parts ++ (c :: s).map literal = parts ++ [literal c] ++ s.map literal := by simp
    rw [again, ← ih]
    cases h : isEscapable c with
    | true =>
      have text : quoted (c :: s) ++ rest = '\\' :: c :: (quoted s ++ rest) := by simp [quoted, h]
      exact text ▸ readParts_sign h _ _ _ _ _
    | false =>
      have text : quoted (c :: s) ++ rest = c :: (quoted s ++ rest) := by simp [quoted, h]
      exact text ▸ readParts_plain h _ _ _ _ _

theorem depthOfAll_literals (s : List Char) : depthOfAll (s.map literal) = 0 := by
  induction s with
  | nil => rfl
  | cons c rest ih => simp [depthOfAll, literal, depth, ih]

theorem depth_ofParts_le (parts : List Pattern) : (ofParts parts).depth ≤ depthOfAll parts + 1 := by
  match parts with
  | [] => simp [ofParts, depth]
  | [p] => simp [ofParts, depthOfAll]
  | p :: q :: rest => simp [ofParts, depth]

theorem parse?_quoted (s : List Char) : parse? (quoted s) = some (ofParts (s.map literal)) := by
  have reading : readParts ((quoted s).length + 1) [] [] ⟨quoted s, false, []⟩ =
      some (ofParts (s.map literal), ⟨[], false, []⟩) := by
    let fuel := (quoted s).length + 1
    have parts := readParts_quoted fuel [] [] s [] []
    rw [List.append_nil, List.nil_append] at parts
    have more : readParts fuel [] [] ⟨quoted s, false, []⟩ =
        readParts (fuel + s.length) [] [] ⟨quoted s, false, []⟩ :=
      readParts_eq [] [] (Nat.lt_succ_self _) (Nat.lt_add_right _ (Nat.lt_succ_self _))
    rw [more, parts]
    rfl
  have shallow : (ofParts (s.map literal)).depth ≤ depthLimit := by
    have depth_le := depth_ofParts_le (s.map literal)
    rw [depthOfAll_literals] at depth_le
    exact Nat.le_trans depth_le (by decide)
  simp [parse?, reading, shallow]

theorem runAll?_literals (s : List Char) : runAll? .initial (s.map literal) = some .initial := by
  induction s with
  | nil => rfl
  | cons c rest ih =>
    rw [List.map_cons, runAll?, Option.bind_eq_some_iff]
    exact ⟨.initial, rfl, ih⟩

theorem isRunnable_quoted (s : List Char) : isRunnable (quoted s) = true := by
  rw [isRunnable, parse?_quoted, Option.bind_some]
  match s with
  | [] => rfl
  | [c] => rfl
  | c :: d :: rest =>
    exact Option.isSome_of_eq_some (runAll?_literals (c :: d :: rest))

end Breakage.Pattern
