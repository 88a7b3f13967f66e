/-!
Numbers as JSON writes them. An integer token has an exact value of any size; every other number is
taken as a binary64 value, for which it counts only so many digits as fit into 64 bits. Main
statement: an integer is written as a token with its value.
-/

namespace Breakage.Json

structure Number where
  negative : Bool
  /-- the digits before the point -/
  whole : List Char
  /-- the digits behind the point, where there is one -/
  fraction : Option (List Char)
  exponent : Option Int
  deriving DecidableEq, Repr

namespace Number

def ofNat (n : Nat) : Number := ⟨false, Nat.toDigits 10 n, none, none⟩

def ofInt (n : Int) : Number := ⟨decide (n < 0), Nat.toDigits 10 n.natAbs, none, none⟩

def isIntegral (n : Number) : Bool := n.fraction.isNone && n.exponent.isNone

/-- The value of an integer token; minus zero is no integer. -/
def toInt? (n : Number) : Option Int :=
  let magnitude := Nat.ofDigitChars 10 n.whole 0
  if n.isIntegral && !(n.negative && magnitude == 0) then
    some (if n.negative then -(magnitude : Int) else magnitude)
  else none

/-! ### The value in binary64 -/

def countedLimit : Nat := Nat.pow 2 64

/-- The number with as many of the digits put behind it as stay below the limit, and how many are
left. -/
def countDigits (n : Nat) : List Char → Nat × Nat
  | [] => (n, 0)
  | d :: rest =>
    let next := Nat.ofDigitChars 10 [d] n
    if next < countedLimit then countDigits next rest else (n, rest.length + 1)

/-- The digits counted, and the power of ten of the last of them. The digits behind the point are
counted even where some before it were left out. -/
def counted (n : Number) : Nat × Int :=
  let decimals := n.fraction.getD []
  let (whole, beyond) := countDigits 0 n.whole
  let (digits, left) := countDigits whole decimals
  (digits, (beyond : Int) - (decimals.length - left : Nat) + n.exponent.getD 0)

def precision : Nat := 53

/-- The nearest number with so many significant bits; of two the one with an even last bit. -/
def roundBinary (n : Nat) : Nat :=
  if n < Nat.pow 2 precision then n
  else
    let unit := Nat.pow 2 (Nat.log2 n + 1 - precision)
    let quotient := n / unit
    let rest := 2 * (n % unit)
    let up := decide (unit < rest) || (rest == unit && quotient % 2 == 1)
    (quotient + up.toNat) * unit

/-- The powers of ten that are multiplied with in one step have at most this exponent. -/
def largestPower : Int := 308

/-- The binary64 value is finite. Both the digits and the power of ten are rounded before they are
multiplied, and their product once more. -/
def isFinite (n : Number) : Bool :=
  let (digits, power) := n.counted
  digits == 0 || decide (power < 0) ||
    (decide (power ≤ largestPower) &&
      decide (roundBinary (roundBinary digits * roundBinary (Nat.pow 10 power.toNat)) <
        Nat.pow 2 1024))

theorem toInt?_ofInt (n : Int) : (ofInt n).toInt? = some n := by
  have value : Nat.ofDigitChars 10 (Nat.toDigits 10 n.natAbs) 0 = n.natAbs :=
    Nat.ofDigitChars_ten_toDigits
  have magnitude : (if n < 0 then -(n.natAbs : Int) else n.natAbs) = n := by split <;> omega
  have integer : (!(decide (n < 0) && n.natAbs == 0)) = true := by
    by_cases h : n = 0 <;> simp [h]
  simp only [toInt?, ofInt, isIntegral, value, decide_eq_true_eq, magnitude, integer,
    Option.isNone_none, Bool.and_self, if_true]

end Number

end Breakage.Json
