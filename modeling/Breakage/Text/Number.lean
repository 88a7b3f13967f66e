/-!
Natural numbers in decimal digits: written to a width, and read from an argument or a setting,
where a plus sign may stand before them.
-/

namespace Breakage.Text

/-- Decimal digits with leading zeros up to a width. -/
def padded (width n : Nat) : List Char := (Nat.toDigits 10 n).leftpad width '0'

def hexValue (c : Char) : Option Nat :=
  if '0' ≤ c && c ≤ '9' then some (c.toNat - 48)
  else if 'a' ≤ c && c ≤ 'f' then some (c.toNat - 87)
  else if 'A' ≤ c && c ≤ 'F' then some (c.toNat - 55)
  else none

def readDigits? (digits : List Char) : Option Nat :=
  if digits.isEmpty || !digits.all Char.isDigit then none else some (Nat.ofDigitChars 10 digits 0)

def readNumber? : List Char → Option Nat
  | '+' :: digits => readDigits? digits
  | digits => readDigits? digits

end Breakage.Text
