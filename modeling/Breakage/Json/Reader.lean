import Breakage.Json
import Breakage.Text.Number

/-!
Reading JSON. The grammar is exact: no comment, no comma too many, no raw control character in a
string, no leading zero, and nothing after the value but blanks.
-/

namespace Breakage.Json

open Breakage.Text (hexValue)

def isGap (c : Char) : Bool := c == ' ' || c == '\t' || c == '\n' || c == '\r'

def skipGap (s : List Char) : List Char := s.dropWhile isGap

def hexQuad (a b c d : Char) : Option Nat := do
  return (← hexValue a) * 4096 + (← hexValue b) * 256 + (← hexValue c) * 16 + (← hexValue d)

/-- One element of a string as written. -/
inductive Piece where
  | char (c : Char)
  /-- a 16-bit unit, given by its number -/
  | unit (n : Nat)

def unescape (c : Char) : Option Char :=
  if c = '"' then some '"'
  else if c = '\\' then some '\\'
  else if c = '/' then some '/'
  else if c = 'b' then some (Char.ofNat 0x08)
  else if c = 'f' then some (Char.ofNat 0x0C)
  else if c = 'n' then some '\n'
  else if c = 'r' then some '\r'
  else if c = 't' then some '\t'
  else none

def readPieces : List Char → Option (List Piece × List Char)
  | [] => none
  | '"' :: rest => some ([], rest)
  | '\\' :: 'u' :: a :: b :: c :: d :: rest => do
    let n ← hexQuad a b c d
    let (pieces, rest) ← readPieces rest
    return (.unit n :: pieces, rest)
  | '\\' :: letter :: rest => do
    let c ← unescape letter
    let (pieces, rest) ← readPieces rest
    return (.char c :: pieces, rest)
  | c :: rest =>
    if c.toNat < 0x20 then none
    else do
      let (pieces, rest) ← readPieces rest
      return (.char c :: pieces, rest)

def isHighSurrogate (n : Nat) : Bool := decide (0xD800 ≤ n) && decide (n < 0xDC00)

def isLowSurrogate (n : Nat) : Bool := decide (0xDC00 ≤ n) && decide (n < 0xE000)

/-- The characters of the pieces; two surrogates side by side make one, and a lone one is refused. -/
def joinPieces : List Piece → Option (List Char)
  | [] => some []
  | .char c :: rest => (joinPieces rest).map (c :: ·)
  | .unit high :: .unit low :: rest =>
    if isHighSurrogate high then
      if isLowSurrogate low then
        (joinPieces rest).map
          (Char.ofNat (0x10000 + (high - 0xD800) * 0x400 + (low - 0xDC00)) :: ·)
      else none
    else if isLowSurrogate high then none
    else (joinPieces (.unit low :: rest)).map (Char.ofNat high :: ·)
  | .unit n :: rest =>
    if isHighSurrogate n || isLowSurrogate n then none
    else (joinPieces rest).map (Char.ofNat n :: ·)

def readText (s : List Char) : Option (Text × List Char) := do
  let (pieces, rest) ← readPieces s
  match joinPieces pieces with
  | some chars => return (.plain (String.ofList chars), rest)
  | none => return (.unpaired, rest)

def readWhole : List Char → Option (List Char × List Char)
  | '0' :: rest => some (['0'], rest)
  | s =>
    let ds := s.takeWhile Char.isDigit
    if ds.isEmpty then none else some (ds, s.dropWhile Char.isDigit)

def readFraction : List Char → Option (Option (List Char) × List Char)
  | '.' :: rest =>
    let ds := rest.takeWhile Char.isDigit
    if ds.isEmpty then none else some (some ds, rest.dropWhile Char.isDigit)
  | s => some (none, s)

def readExponentDigits (negative : Bool) (s : List Char) : Option (Option Int × List Char) :=
  let ds := s.takeWhile Char.isDigit
  if ds.isEmpty then none
  else
    let n : Int := Nat.ofDigitChars 10 ds 0
    some (some (if negative then -n else n), s.dropWhile Char.isDigit)

def readExponent : List Char → Option (Option Int × List Char)
  | c :: rest =>
    if c = 'e' || c = 'E' then
      match rest with
      | '+' :: more => readExponentDigits false more
      | '-' :: more => readExponentDigits true more
      | _ => readExponentDigits false rest
    else some (none, c :: rest)
  | [] => some (none, [])

def readUnsigned (negative : Bool) (s : List Char) : Option (Number × List Char) := do
  let (whole, s) ← readWhole s
  let (fraction, s) ← readFraction s
  let (exponent, s) ← readExponent s
  return (⟨negative, whole, fraction, exponent⟩, s)

def readNumber : List Char → Option (Number × List Char)
  | '-' :: rest => readUnsigned true rest
  | s => readUnsigned false s

def expect : List Char → List Char → Option (List Char)
  | [], s => some s
  | _, [] => none
  | c :: cs, d :: s => if c = d then expect cs s else none

mutual

def readValue : Nat → List Char → Option (Json × List Char)
  | 0, _ => none
  | fuel + 1, s =>
    match skipGap s with
    | [] => none
    | c :: rest =>
      if c = '"' then (readText rest).map fun p => (.string p.1, p.2)
      else if c = '[' then
        match skipGap rest with
        | ']' :: rest => some (.array [], rest)
        | rest => (readItems fuel rest).map fun p => (.array p.1, p.2)
      else if c = '{' then
        match skipGap rest with
        | '}' :: rest => some (.object [], rest)
        | rest => (readMembers fuel rest).map fun p => (.object p.1, p.2)
      else if c = 't' then (expect ['r', 'u', 'e'] rest).map fun r => (.bool true, r)
      else if c = 'f' then (expect ['a', 'l', 's', 'e'] rest).map fun r => (.bool false, r)
      else if c = 'n' then (expect ['u', 'l', 'l'] rest).map fun r => (.null, r)
      else (readNumber (c :: rest)).map fun p => (.number p.1, p.2)

def readItems : Nat → List Char → Option (List Json × List Char)
  | 0, _ => none
  | fuel + 1, s => do
    let (v, s) ← readValue fuel s
    match skipGap s with
    | ',' :: rest =>
      let (vs, rest) ← readItems fuel rest
      return (v :: vs, rest)
    | ']' :: rest => return ([v], rest)
    | _ => none

def readMembers : Nat → List Char → Option (List (Text × Json) × List Char)
  | 0, _ => none
  | fuel + 1, s =>
    match skipGap s with
    | '"' :: s => do
      let (k, s) ← readText s
      match skipGap s with
      | ':' :: s =>
        let (v, s) ← readValue fuel s
        match skipGap s with
        | ',' :: rest =>
          let (ms, rest) ← readMembers fuel rest
          return ((k, v) :: ms, rest)
        | '}' :: rest => return ([(k, v)], rest)
        | _ => none
      | _ => none
    | _ => none

end

/-- The tree of a text. A value takes at least one character, so twice as many steps as there are
characters are enough. -/
def parseChars (s : List Char) : Option Json := do
  let (v, rest) ← readValue (2 * s.length + 2) s
  if (skipGap rest).isEmpty then some v else none

def parse? (s : String) : Option Json := parseChars s.toList

end Breakage.Json
