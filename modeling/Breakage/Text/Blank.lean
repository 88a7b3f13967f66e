import Breakage.Text.Ranges

/-!
White space, and texts without it at their ends. A character is blank when it has the Unicode
property White_Space. Main statement: `trimStart` stops at what is no blank.
-/

namespace Breakage.Text

/-- The blank characters as closed ranges of code points, ascending and apart. -/
def blankRanges : List (Nat × Nat) :=
  [(0x09, 0x0D), (0x20, 0x20), (0x85, 0x85), (0xA0, 0xA0), (0x1680, 0x1680), (0x2000, 0x200A),
   (0x2028, 0x2029), (0x202F, 0x202F), (0x205F, 0x205F), (0x3000, 0x3000)]

def isBlank (c : Char) : Bool := inRanges blankRanges c

def trimStart (s : List Char) : List Char := s.dropWhile isBlank

def trimEnd (s : List Char) : List Char := (s.reverse.dropWhile isBlank).reverse

def trimChars (s : List Char) : List Char := trimEnd (trimStart s)

def trim (s : String) : String := String.ofList (trimChars s.toList)

theorem trimStart_cons_of_not_blank {c : Char} (r : List Char) (h : isBlank c = false) :
    trimStart (c :: r) = c :: r := by
  simp [trimStart, h]

end Breakage.Text
