import Breakage.Path

/-!
Module names. A name is the key of a module: its digest file and its lines in a report go by it.
A name made from a target name has no other characters than a C identifier (`isWordChar_wordChar`).
-/

namespace Breakage

structure ModuleName where
  text : String
  deriving DecidableEq, Repr, Inhabited

namespace ModuleName

instance : LT ModuleName := ⟨fun a b => a.text < b.text⟩

instance (a b : ModuleName) : Decidable (a < b) := inferInstanceAs (Decidable (a.text < b.text))

theorem lt_iff {a b : ModuleName} : a < b ↔ a.text < b.text := Iff.rfl

theorem lt_trans {a b c : ModuleName} (h : a < b) (h' : b < c) : a < c := String.lt_trans h h'

theorem lt_irrefl (a : ModuleName) : ¬a < a := String.lt_irrefl a.text

theorem eq_of_not_lt {a b : ModuleName} (h : ¬a < b) (h' : ¬b < a) : a = b := by
  cases a; cases b
  simp only [lt_iff] at h h'
  exact congrArg ModuleName.mk (String.le_antisymm (String.not_lt.1 h') (String.not_lt.1 h))

def isWordChar (c : Char) : Bool := c.isAlphanum || c == '_'

/-- Every other character becomes an underscore. -/
def wordChar (c : Char) : Char := if isWordChar c then c else '_'

def canonicalChars : List Char → List Char
  | [] => []
  | c :: r => if c.isDigit then '_' :: (c :: r).map wordChar else (c :: r).map wordChar

def ofTarget (target : String) : ModuleName := ⟨String.ofList (canonicalChars target.toList)⟩

/-- A letter or an underscore, then letters, digits and underscores, all of them ASCII. -/
def isIdentifier (m : ModuleName) : Bool :=
  match m.text.toList with
  | [] => false
  | c :: r => isWordChar c && !c.isDigit && r.all isWordChar

def digestPath (m : ModuleName) (dir : Path) : Path := dir.join (m.text ++ ".json")

def codec : Json.Codec ModuleName where
  encode m := Json.text m.text
  decode v := v.asText?.map ModuleName.mk

theorem isWordChar_wordChar (c : Char) : isWordChar (wordChar c) = true := by
  unfold wordChar
  split
  · assumption
  · decide

end ModuleName

end Breakage
