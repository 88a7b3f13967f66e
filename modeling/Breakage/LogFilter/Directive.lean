import Breakage.LogFilter.Level
import Breakage.Pattern.Support
import Breakage.Text.Utf8

/-!
Directives of a log filter. A directive is a level, or a target, a span and a field, each of them
left out at will, with a level for what they select. A field may be followed by the value that it is
to have: a number or a pattern.
-/

namespace Breakage

/-- The level of a directive, and whether it looks at the values of fields. -/
structure Directive where
  level : LogLevel
  readsValues : Bool
  deriving DecidableEq, Repr

namespace Directive

/-! ### Fields -/

def withoutSign : List Char → List Char
  | '+' :: rest => rest
  | '-' :: rest => rest
  | s => s

def areDigits (s : List Char) : Bool := !s.isEmpty && s.all Char.isDigit

def isExponent : List Char → Bool
  | [] => true
  | c :: rest => (c == 'e' || c == 'E') && areDigits (withoutSign rest)

/-- Digits with a point somewhere, or none, and perhaps an exponent; or the name of a value that is
not finite. -/
def isNumber (s : List Char) : Bool :=
  let s := withoutSign s
  let whole := s.takeWhile Char.isDigit
  let (decimals, rest) := match s.drop whole.length with
    | '.' :: rest => (rest.takeWhile Char.isDigit, rest.dropWhile Char.isDigit)
    | rest => ([], rest)
  (!(whole ++ decimals).isEmpty && isExponent rest) ||
    ["inf", "infinity", "nan"].any fun name => name.toList == s.map Char.toLower

def isValue (s : List Char) : Bool := isNumber s || Pattern.isRunnable s

/-- Whether a value is asked for; none if what is asked for is no value. The value goes from the
first equals sign to the next. -/
def readField (text : List Char) : Option Bool :=
  match text.splitOn '=' with
  | _ :: value :: _ => if isValue value then some true else none
  | _ => some false

/-! ### Whole directives -/

/-- Where the reading of a directive has come to; the numbers are the places where pieces begin. -/
inductive State where
  | start
  | word (place : Nat)
  | span (place : Nat)
  | field (place : Nat)
  | fields
  | target
  | level (place : Nat)
  deriving DecidableEq, Repr

def beginsTarget (c : Char) : Bool :=
  c == '-' || c == ':' || c == '_' || Text.isLetterOrNumeral c

/-- The state after the character at a place, and whether a value is asked for by now. Places are
counted in bytes, and behind each of the signs that end a piece there is the next one. -/
def step (text : List Char) (place : Nat) (c : Char) : State × Bool → Option (State × Bool)
  | (.start, v) =>
    if c = '[' then some (.span (place + 1), v)
    else if beginsTarget c then some (.word place, v)
    else none
  | (.word low, v) =>
    if c = '=' then some (.level (place + 1), v)
    else if c = '[' then some (.span (place + 1), v)
    else some (.word low, v)
  | (.span low, v) =>
    if c = ']' then some (.target, v)
    else if c = '{' then some (.field (place + 1), v)
    else some (.span low, v)
  | (.field low, v) =>
    if c = '}' then do
      let field ← Text.piece low place text
      if field.isEmpty then none else return (.fields, v || (← readField field))
    else some (.field low, v)
  | (.fields, v) => if c = ']' then some (.target, v) else none
  | (.target, v) => if c = '=' then some (.level (place + 1), v) else none
  | (.level low, v) => some (.level low, v)

def walk (text : List Char) : Nat → List Char → State × Bool → Option (State × Bool)
  | _, [], s => some s
  | place, c :: rest, s => (step text place c s).bind (walk text (place + c.utf8Size) rest)

/-- The directive in a text. Places are counted without the blanks at its ends, and the pieces are
then cut from the text with them. -/
def read (text : List Char) : Option Directive := do
  match ← walk text 0 (Text.trimChars text) (.start, false) with
  | (.word low, v) => return ⟨(LogLevel.read (← Text.dropBytes low text)).getD .trace, v⟩
  | (.level low, v) =>
    let level ← Text.dropBytes low text
    if level.isEmpty then return ⟨.trace, v⟩ else return ⟨← LogLevel.read level, v⟩
  | (.target, v) => return ⟨.trace, v⟩
  | _ => none

end Directive

end Breakage
