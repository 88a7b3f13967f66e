import Breakage.Text.Number

/-!
Lengths of time and their display: in the largest unit of s, ms, µs and ns that they reach, with
as many decimals as they need.
-/

namespace Breakage

structure Duration where
  seconds : Nat
  nanos : Nat
  deriving DecidableEq, Repr

namespace Duration

/-- Nanoseconds beyond a second are carried over. -/
def ofParts (seconds nanos : Nat) : Duration :=
  ⟨seconds + nanos / 1000000000, nanos % 1000000000⟩

def ofMillis (n : Nat) : Duration := ⟨n / 1000, n % 1000 * 1000000⟩

def isZero (d : Duration) : Bool := d.seconds == 0 && d.nanos == 0

/-- The `places` digits of `n`, from the left, without the zeros at the end. -/
def decimals (places n : Nat) : List Char :=
  ((Text.padded places n).reverse.dropWhile (· == '0')).reverse

def decimal (whole places part : Nat) : String :=
  if part = 0 then toString whole
  else toString whole ++ "." ++ String.ofList (decimals places part)

def display (d : Duration) : String :=
  if 0 < d.seconds then decimal d.seconds 9 d.nanos ++ "s"
  else if 1000000 ≤ d.nanos then decimal (d.nanos / 1000000) 6 (d.nanos % 1000000) ++ "ms"
  else if 1000 ≤ d.nanos then decimal (d.nanos / 1000) 3 (d.nanos % 1000) ++ "µs"
  else toString d.nanos ++ "ns"

end Duration

end Breakage
