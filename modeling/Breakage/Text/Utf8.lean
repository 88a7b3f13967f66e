/-!
Bytes of texts in UTF-8. `decodeUtf8` puts U+FFFD in the place of every ill-formed piece, where a
piece is as long as it could still have become a character; `isUtf8` tells whether there is none.
-/

namespace Breakage.Text

abbrev Bytes := List UInt8

def isContinuation (b : UInt8) : Bool := 0x80 ≤ b && b ≤ 0xBF

/-- What the second byte of a character may be, after its first. -/
def secondFits (first second : UInt8) : Bool :=
  if first = 0xE0 then 0xA0 ≤ second && second ≤ 0xBF
  else if first = 0xED then 0x80 ≤ second && second ≤ 0x9F
  else if first = 0xF0 then 0x90 ≤ second && second ≤ 0xBF
  else if first = 0xF4 then 0x80 ≤ second && second ≤ 0x8F
  else isContinuation second

/-- How many bytes a character has that begins with this one; none if no character does. -/
def sequenceLength (first : UInt8) : Option Nat :=
  if first < 0x80 then some 1
  else if 0xC2 ≤ first && first ≤ 0xDF then some 2
  else if 0xE0 ≤ first && first ≤ 0xEF then some 3
  else if 0xF0 ≤ first && first ≤ 0xF4 then some 4
  else none

/-- The bytes of the longest well-formed beginning of a character of `wanted` bytes. -/
def takeSequence (first : UInt8) (wanted : Nat) (rest : Bytes) : Bytes :=
  match rest with
  | [] => [first]
  | second :: more =>
    if wanted ≤ 1 || !secondFits first second then [first]
    else first :: second :: (more.take (wanted - 2)).takeWhile isContinuation

def codePoint : Bytes → Nat
  | [a] => a.toNat
  | [a, b] => (a.toNat - 0xC0) * 0x40 + (b.toNat - 0x80)
  | [a, b, c] => (a.toNat - 0xE0) * 0x1000 + (b.toNat - 0x80) * 0x40 + (c.toNat - 0x80)
  | [a, b, c, d] =>
    (a.toNat - 0xF0) * 0x40000 + (b.toNat - 0x80) * 0x1000 + (c.toNat - 0x80) * 0x40 + (d.toNat - 0x80)
  | _ => 0

/-- The characters of the bytes, with none in the place of each ill-formed piece. -/
def utf8Pieces (fuel : Nat) (bytes : Bytes) : List (Option Char) :=
  match fuel, bytes with
  | 0, _ => []
  | _, [] => []
  | fuel + 1, first :: rest =>
    match sequenceLength first with
    | none => none :: utf8Pieces fuel rest
    | some wanted =>
      let taken := takeSequence first wanted rest
      let piece := if taken.length = wanted then some (Char.ofNat (codePoint taken)) else none
      piece :: utf8Pieces fuel (rest.drop (taken.length - 1))

def decodeUtf8 (bytes : Bytes) : String :=
  String.ofList ((utf8Pieces bytes.length bytes).map fun c => c.getD '\uFFFD')

def isUtf8 (bytes : Bytes) : Bool := (utf8Pieces bytes.length bytes).all Option.isSome

/-! ### Places in a text, counted in bytes -/

/-- What follows so many bytes; none if the place is inside a character or beyond the end. -/
def dropBytes : Nat → List Char → Option (List Char)
  | 0, s => some s
  | _ + 1, [] => none
  | n + 1, c :: rest => if c.utf8Size ≤ n + 1 then dropBytes (n + 1 - c.utf8Size) rest else none

def takeBytes : Nat → List Char → Option (List Char)
  | 0, _ => some []
  | _ + 1, [] => none
  | n + 1, c :: rest =>
    if c.utf8Size ≤ n + 1 then (takeBytes (n + 1 - c.utf8Size) rest).map (c :: ·) else none

def piece (low high : Nat) (s : List Char) : Option (List Char) :=
  (takeBytes high s).bind (dropBytes low)

end Breakage.Text
