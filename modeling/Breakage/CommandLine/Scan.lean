import Breakage.CommandLine.Grammar
import Breakage.Text.Number

/-!
Reading a command line by a grammar. An option waits for its values until something else comes;
then they are checked and kept. What begins with a hyphen is an option and never a value, unless
the values were put behind an equals sign or come after two hyphens.
-/

namespace Breakage.CommandLine

/-- Why the reading ended before the command was known. -/
inductive Stop where
  | misuse
  /-- the user asked for help -/
  | help
  | version
  deriving DecidableEq, Repr

/-- An option, or the argument, that may still get values. -/
structure Waiting where
  key : Key
  takes : Takes
  values : List String
  deriving DecidableEq, Repr

structure Scan where
  /-- checked, in order of appearance -/
  given : List (Key × List String)
  waiting : Option Waiting
  /-- the next word is a value of the waiting option -/
  wantsValue : Bool
  /-- the argument has its value -/
  hasPositional : Bool
  /-- there are no more options to come -/
  isTrailing : Bool
  deriving DecidableEq, Repr

def largestCount : Nat := 18446744073709551615

def readCount (s : String) : Option Nat :=
  (Text.readNumber? s.toList).filter fun n => decide (n ≤ largestCount)

def Form.fits (value : String) : Form → Bool
  | .text => true
  | .path => value != ""
  | .count => (readCount value).isSome

namespace Scan

def start : Scan := ⟨[], none, false, false, false⟩

def has (s : Scan) (key : Key) : Bool := s.given.any fun g => decide (g.1 = key)

def keep (s : Scan) (key : Key) (takes : Takes) (values : List String) : Except Stop Scan :=
  let kept := { s with given := s.given ++ [(key, values)] }
  match takes with
  | .nothing =>
    if key = .help then .error .help
    else if key = .version then .error .version
    else if s.has key then .error .misuse
    else .ok kept
  | .one form =>
    match values with
    | [value] => if s.has key || !form.fits value then .error .misuse else .ok kept
    | _ => .error .misuse
  | .many form =>
    if values.isEmpty || !(values.all fun value => form.fits value) then .error .misuse else .ok kept

def settle (s : Scan) : Except Stop Scan :=
  match s.waiting with
  | none => .ok s
  | some w => keep { s with waiting := none } w.key w.takes w.values

def whole (s : Scan) (p : Parameter) (values : List String) : Except Stop Scan := do
  let s ← s.settle
  keep { s with wantsValue := false } p.key p.takes values

def await (s : Scan) (p : Parameter) : Except Stop Scan := do
  let s ← s.settle
  return { s with waiting := some ⟨p.key, p.takes, []⟩, wantsValue := true }

def option (s : Scan) (p : Parameter) (attached : Option String) : Except Stop Scan :=
  match p.takes, attached with
  | .nothing, some _ => .error .misuse
  | .nothing, none => s.whole p []
  | _, some value => s.whole p [value]
  | _, none => s.await p

def word (s : Scan) (g : Grammar) (value : String) : Except Stop Scan :=
  match s.waiting, s.wantsValue && !s.isTrailing with
  | some w, true =>
    let more := match w.takes with
      | .many _ => true
      | _ => false
    .ok { s with waiting := some { w with values := w.values ++ [value] }, wantsValue := more }
  | _, _ =>
    match g.positional with
    | none => .error .misuse
    | some p =>
      if p.takesRest then do
        let earlier := match s.waiting with
          | some w => if w.key = p.key then w.values else []
          | none => []
        let s ← if earlier.isEmpty then s.settle else pure s
        return { s with
          waiting := some ⟨p.key, .many .text, earlier ++ [value]⟩
          wantsValue := false
          isTrailing := true }
      else if s.hasPositional then .error .misuse
      else do
        let s ← s.settle
        return { s with
          waiting := some ⟨p.key, .one .text, [value]⟩
          wantsValue := false
          hasPositional := true }

def splitEquals : List Char → List Char × Option (List Char)
  | [] => ([], none)
  | c :: rest =>
    if c = '=' then ([], some rest)
    else
      let (name, value) := splitEquals rest
      (c :: name, value)

def longWord (s : Scan) (g : Grammar) (all : String) (chars : List Char) : Except Stop Scan :=
  let (name, attached) := splitEquals chars
  match g.long? (String.ofList name) with
  | some p => s.option p (attached.map String.ofList)
  | none => if g.takesRest then s.word g all else .error .misuse

/-- The value that follows a short name within its word; an equals sign before it does not count. -/
def attachedShort : List Char → Option String
  | [] => none
  | '=' :: rest => some (String.ofList rest)
  | chars => some (String.ofList chars)

def shortNames (s : Scan) (g : Grammar) : List Char → Except Stop Scan
  | [] => .ok s
  | c :: rest =>
    match g.short? c with
    | none => .error .misuse
    | some p =>
      if p.takes = .nothing then do
        let s ← s.whole p []
        shortNames s g rest
      else s.option p (attachedShort rest)

def shortWord (s : Scan) (g : Grammar) (all : String) (chars : List Char) : Except Stop Scan :=
  if g.takesRest && chars.any fun c => (g.short? c).isNone then s.word g all
  else s.shortNames g chars

def read (s : Scan) (g : Grammar) (w : String) : Except Stop Scan :=
  if s.isTrailing then s.word g w
  else match w.toList with
    | ['-', '-'] => .ok { s with isTrailing := true }
    | '-' :: '-' :: chars => s.longWord g w chars
    | ['-'] => s.word g w
    | '-' :: chars => s.shortWord g w chars
    | _ => s.word g w

def isCommand (s : Scan) (g : Grammar) (w : String) : Bool :=
  !s.isTrailing && !s.wantsValue && g.commands.contains w

/-- All words up to the name of a command, and the command with the words behind it. -/
def readAll (s : Scan) (g : Grammar) : List String → Except Stop (Scan × Option (String × List String))
  | [] => .ok (s, none)
  | w :: rest =>
    if s.isCommand g w then .ok (s, some (w, rest))
    else do
      let s ← s.read g w
      readAll s g rest

end Scan

inductive Origin where
  | environment | commandLine
  deriving DecidableEq, Repr

abbrev Given := List (Key × Origin × List String)

/-- Takes the options that were not given from the environment. -/
def addEnvironment (environment : List (String × String)) (given : Given) :
    List Parameter → Except Stop Given
  | [] => .ok given
  | p :: rest =>
    let setting := p.variableName.bind fun name => environment.find? fun e => e.1 == name
    match setting, given.any fun g => decide (g.1 = p.key) with
    | some (_, value), false =>
      let fits := match p.takes with
        | .nothing => true
        | .one form => form.fits value
        | .many form => form.fits value
      if fits then addEnvironment environment (given ++ [(p.key, .environment, [value])]) rest
      else .error .misuse
    | _, _ => addEnvironment environment given rest

def Scan.finish (s : Scan) (g : Grammar) (environment : List (String × String)) : Except Stop Given := do
  let s ← s.settle
  addEnvironment environment (s.given.map fun e => (e.1, .commandLine, e.2)) g.parameters

def Given.values (given : Given) (key : Key) : List String :=
  (given.filter fun g => decide (g.1 = key)).flatMap fun g => g.2.2

def Given.origin? (given : Given) (key : Key) : Option Origin :=
  (given.find? fun g => decide (g.1 = key)).map fun g => g.2.1

end Breakage.CommandLine
