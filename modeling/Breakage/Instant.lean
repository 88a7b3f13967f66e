import Breakage.Json.Codec
import Breakage.Text.Blank
import Breakage.Text.Number

/-!
Points in time by the calendar of UTC, to the nanosecond. Reading takes the forms of RFC 3339
with some latitude (blanks before a field, a lower-case `t`, any whole-minute offset from UTC);
writing gives one form, in UTC.
-/

namespace Breakage

/-- The second is 60 in a leap second. -/
structure Instant where
  year : Int
  month : Nat
  day : Nat
  hour : Nat
  minute : Nat
  second : Nat
  nano : Nat
  deriving DecidableEq, Repr

namespace Instant

def isLeapYear (year : Int) : Bool :=
  decide (year % 4 = 0) && (decide (year % 100 ≠ 0) || decide (year % 400 = 0))

def daysIn (year : Int) (month : Nat) : Nat :=
  if month = 2 then (if isLeapYear year then 29 else 28)
  else if month = 4 || month = 6 || month = 9 || month = 11 then 30
  else 31

def firstYear : Int := -262143

def lastYear : Int := 262142

def isValid (t : Instant) : Bool :=
  decide (firstYear ≤ t.year) && decide (t.year ≤ lastYear) &&
  decide (1 ≤ t.month) && decide (t.month ≤ 12) &&
  decide (1 ≤ t.day) && decide (t.day ≤ daysIn t.year t.month) &&
  decide (t.hour < 24) && decide (t.minute < 60) && decide (t.second ≤ 60) &&
  decide (t.nano < 1000000000)

def nextDay (t : Instant) : Instant :=
  if t.day < daysIn t.year t.month then { t with day := t.day + 1 }
  else if t.month < 12 then { t with month := t.month + 1, day := 1 }
  else { t with year := t.year + 1, month := 1, day := 1 }

def previousDay (t : Instant) : Instant :=
  if 1 < t.day then { t with day := t.day - 1 }
  else if 1 < t.month then { t with month := t.month - 1, day := daysIn t.year (t.month - 1) }
  else { t with year := t.year - 1, month := 12, day := 31 }

/-- The instant of a local time that is `offset` minutes ahead of UTC, by less than a day. -/
def fromLocal (t : Instant) (offset : Int) : Instant :=
  let minutes : Int := t.hour * 60 + t.minute - offset
  let day := if minutes < 0 then t.previousDay else if 1440 ≤ minutes then t.nextDay else t
  let rest := (minutes % 1440).toNat
  { day with hour := rest / 60, minute := rest % 60 }

/-! ### Writing -/

open Text (padded)

/-- Four digits, with a sign outside the years 0 to 9999. -/
def yearText (year : Int) : List Char :=
  if 0 ≤ year && year ≤ 9999 then padded 4 year.toNat
  else (if year < 0 then '-' else '+') :: padded 4 year.natAbs

/-- No digits, or three, six or nine, whichever are enough. -/
def fractionText (nano : Nat) : List Char :=
  if nano = 0 then []
  else if nano % 1000000 = 0 then '.' :: padded 3 (nano / 1000000)
  else if nano % 1000 = 0 then '.' :: padded 6 (nano / 1000)
  else '.' :: padded 9 nano

def renderChars (t : Instant) : List Char :=
  yearText t.year ++ '-' :: padded 2 t.month ++ '-' :: padded 2 t.day ++
    'T' :: padded 2 t.hour ++ ':' :: padded 2 t.minute ++ ':' :: padded 2 t.second ++
    fractionText t.nano ++ ['Z']

def render (t : Instant) : String := String.ofList t.renderChars

/-! ### Reading -/

open Text (trimStart isBlank)

def readDigits (width : Option Nat) (s : List Char) : Option (Nat × List Char) :=
  let run := s.takeWhile Char.isDigit
  let ds := match width with
    | some w => run.take w
    | none => run
  if ds.isEmpty then none else some (Nat.ofDigitChars 10 ds 0, s.drop ds.length)

def readField (s : List Char) : Option (Nat × List Char) := readDigits (some 2) (trimStart s)

def readYear (s : List Char) : Option (Int × List Char) :=
  match trimStart s with
  | '-' :: rest => (readDigits none rest).map fun p => (-(p.1 : Int), p.2)
  | '+' :: rest => (readDigits none rest).map fun p => ((p.1 : Int), p.2)
  | s => (readDigits (some 4) s).map fun p => ((p.1 : Int), p.2)

def readMark (mark : Char) (s : List Char) : Option (List Char) :=
  match trimStart s with
  | c :: rest => if c = mark then some rest else none
  | [] => none

/-- The fraction of a second in nanoseconds; digits after the ninth are passed over. -/
def readFraction : List Char → Option (Nat × List Char)
  | '.' :: rest =>
    (readDigits (some 9) rest).map fun p =>
      (p.1 * Nat.pow 10 (9 - (rest.length - p.2.length)), p.2.dropWhile Char.isDigit)
  | s => some (0, s)

def readTwoDigits : List Char → Option (Nat × List Char)
  | a :: b :: rest =>
    if a.isDigit && b.isDigit then some (Nat.ofDigitChars 10 [a, b] 0, rest) else none
  | _ => none

def readOffset (s : List Char) : Option (Int × List Char) :=
  match s with
  | [] => none
  | c :: rest =>
    if c = 'Z' || c = 'z' then some (0, rest)
    else do
      let negative ←
        if c = '+' then some false else if c = '-' || c = '\u2212' then some true else none
      let (hours, rest) ← readTwoDigits rest
      let (minutes, rest) ← readTwoDigits (rest.dropWhile fun c => c == ':' || isBlank c)
      if 60 ≤ minutes || 24 ≤ hours then none
      else
        let offset : Int := hours * 60 + minutes
        some (if negative then -offset else offset, rest)

def readZone (s : List Char) : Option (Int × List Char) :=
  match s with
  | a :: b :: c :: rest =>
    if a.toLower = 'u' && b.toLower = 't' && c.toLower = 'c' then some (0, rest) else readOffset s
  | _ => readOffset s

def parseChars (s : List Char) : Option Instant := do
  let (year, s) ← readYear s
  let s ← readMark '-' s
  let (month, s) ← readField s
  let s ← readMark '-' s
  let (day, s) ← readField s
  let s ← match s with
    | c :: rest => if c = 'T' || c = 't' || c = ' ' then some rest else none
    | [] => none
  let (hour, s) ← readField s
  let s ← readMark ':' s
  let (minute, s) ← readField s
  let s ← readMark ':' s
  let (second, s) ← readField s
  let (nano, s) ← readFraction s
  let (offset, s) ← readZone (trimStart s)
  let here : Instant := ⟨year, month, day, hour, minute, second, nano⟩
  let instant := here.fromLocal offset
  if here.isValid && instant.isValid && (trimStart s).isEmpty then some instant else none

def parse? (s : String) : Option Instant := parseChars s.toList

def codec : Json.Codec Instant where
  encode t := Json.text t.render
  decode v := v.asText?.bind parse?

end Instant

end Breakage
