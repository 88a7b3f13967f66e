import Breakage.Pattern
import Breakage.Text.Blank
import Breakage.Text.Letter
import Breakage.Text.Number

/-!
Reading patterns. The text of a pattern stands between braces, so it has no closing brace in it,
and whatever needs one (a counted repetition, a character by a code of any length) is never complete
and is refused. In verbose mode blanks and comments between the parts are passed over.
-/

namespace Breakage.Pattern

open Text (isBlank isLetter isLetterOrNumeral hexValue)

/-- What follows blanks and comments; a comment goes from a number sign to the end of its line. -/
def afterGap (inComment : Bool) : List Char → List Char
  | [] => []
  | c :: rest =>
    if inComment then afterGap (c != '\n') rest
    else if isBlank c then afterGap false rest
    else if c = '#' then afterGap true rest
    else c :: rest

def skip (verbose : Bool) (s : List Char) : List Char := if verbose then afterGap false s else s

/-- The character that decides what a hyphen before it means: the first that is no blank, also at
the beginning of a comment, or else the very next one. -/
def peek (verbose : Bool) (s : List Char) : Option Char :=
  if verbose then
    let next := match s.dropWhile isBlank with
      | '#' :: rest => (rest.dropWhile isBlank).head?
      | rest => rest.head?
    next.or s.head?
  else s.head?

/-! ### Escapes -/

def readHexDigits (verbose : Bool) : Nat → Nat → List Char → Option (Nat × List Char)
  | 0, n, s => some (n, s)
  | count + 1, n, s =>
    match skip verbose s with
    | [] => none
    | c :: rest => do readHexDigits verbose count (n * 16 + (← hexValue c)) rest

def readCode (verbose : Bool) (digits : Nat) (s : List Char) : Option (Atom × List Char) := do
  let (n, rest) ← readHexDigits verbose digits 0 s
  if n.isValidChar then some (.literal ⟨Char.ofNat n, digits == 2⟩, rest) else none

def controls : List (Char × Char) :=
  [('a', Char.ofNat 0x07), ('f', Char.ofNat 0x0C), ('t', '\t'), ('n', '\n'), ('r', '\r'),
   ('v', Char.ofNat 0x0B)]

/-- ASCII characters that stand for themselves behind a backslash. -/
def isEscapable (c : Char) : Bool := decide (c.toNat < 128) && !c.isAlphanum && c != '<' && c != '>'

/-- What the characters behind a backslash stand for. Classes by a property are not known. -/
def readEscape (verbose : Bool) : List Char → Option (Atom × List Char)
  | [] => none
  | c :: rest =>
    if isEscapable c then some (.literal ⟨c, false⟩, rest)
    else if c = 'x' then readCode verbose 2 rest
    else if c = 'u' then readCode verbose 4 rest
    else if c = 'U' then readCode verbose 8 rest
    else if c = 'd' || c = 's' || c = 'w' then some (.shorthand false, rest)
    else if c = 'D' || c = 'S' || c = 'W' then some (.shorthand true, rest)
    else if c = 'A' || c = 'z' then some (.assertion .text, rest)
    else if c = 'b' || c = 'B' || c = '<' || c = '>' then some (.assertion .word, rest)
    else (controls.find? fun k => k.1 == c).map fun k => (.literal ⟨k.2, false⟩, rest)

/-! ### Bracketed classes -/

def classNames : List String :=
  ["alnum", "alpha", "ascii", "blank", "cntrl", "digit", "graph", "lower", "print", "punct", "space",
   "upper", "word", "xdigit"]

def readNamed : List Char → Option (ClassSet × List Char)
  | ':' :: s =>
    let (negated, s) := match s with
      | '^' :: rest => (true, rest)
      | _ => (false, s)
    match s.dropWhile (· != ':') with
    | ':' :: ']' :: rest =>
      if classNames.any fun name => name.toList == s.takeWhile (· != ':') then
        some (.named negated, rest)
      else none
    | _ => none
  | _ => none

/-- How many hyphens there are at the beginning, and what follows them. -/
def readHyphens (verbose inComment : Bool) (count : Nat) : List Char → Nat × List Char
  | [] => (count, [])
  | c :: rest =>
    if inComment then readHyphens verbose (c != '\n') count rest
    else if verbose && isBlank c then readHyphens verbose false count rest
    else if verbose && c == '#' then readHyphens verbose true count rest
    else if c = '-' then readHyphens verbose false (count + 1) rest
    else (count, c :: rest)

def plain (c : Char) : ClassSet := .literal ⟨c, false⟩

/-- The beginning of a class behind its bracket: whether it is negated, and the hyphens, or the
closing bracket, that stand for themselves there. -/
def readStart (verbose : Bool) (s : List Char) : Option (Bool × List ClassSet × List Char) :=
  let (negated, s) := match skip verbose s with
    | '^' :: rest => (true, rest)
    | s => (false, s)
  match readHyphens verbose false 0 s with
  | (_, []) => none
  | (0, ']' :: rest) =>
    match skip verbose rest with
    | [] => none
    | s => some (negated, [plain ']'], s)
  | (count, s) => some (negated, List.replicate count (plain '-'), s)

def readMember (verbose : Bool) : List Char → Option (Atom × List Char)
  | [] => none
  | '\\' :: rest => readEscape verbose rest
  | c :: rest => some (.literal ⟨c, false⟩, rest)

def Atom.asItem? : Atom → Option ClassSet
  | .literal l => some (.literal l)
  | .shorthand negated => some (.shorthand negated)
  | .assertion _ => none

def rangeOf? : Atom → Atom → Option ClassSet
  | .literal low, .literal high => if low.char ≤ high.char then some (.range low high) else none
  | _, _ => none

def readItem (verbose : Bool) (s : List Char) : Option (ClassSet × List Char) := do
  let (first, s) ← readMember verbose s
  match skip verbose s with
  | [] => none
  | '-' :: rest =>
    if peek verbose rest = some ']' || peek verbose rest = some '-' then
      return (← first.asItem?, '-' :: rest)
    else
      let (last, rest) ← readMember verbose (skip verbose rest)
      return (← rangeOf? first last, rest)
  | s => return (← first.asItem?, s)

/-- The items read so far, as the right side of the operation before them if there is one. -/
def join (left : Option ClassSet) (items : List ClassSet) : ClassSet :=
  match left with
  | none => .ofItems items
  | some left => .operation left (.ofItems items)

def readItems (verbose : Bool) :
    Nat → Option ClassSet → List ClassSet → List Char → Option (ClassSet × List Char)
  | 0, _, _, _ => none
  | fuel + 1, left, items, s =>
    match skip verbose s with
    | [] => none
    | ']' :: rest => some (join left items, rest)
    | '&' :: '&' :: rest => readItems verbose fuel (some (join left items)) [] rest
    | '-' :: '-' :: rest => readItems verbose fuel (some (join left items)) [] rest
    | '~' :: '~' :: rest => readItems verbose fuel (some (join left items)) [] rest
    | '[' :: rest =>
      match readNamed rest with
      | some (item, rest) => readItems verbose fuel left (items ++ [item]) rest
      | none => do
        let (negated, first, rest) ← readStart verbose rest
        let (set, rest) ← readItems verbose fuel none first rest
        readItems verbose fuel left (items ++ [.bracketed negated set]) rest
    | s => do
      let (item, rest) ← readItem verbose s
      readItems verbose fuel left (items ++ [item]) rest

def readClass (verbose : Bool) (s : List Char) : Option (Pattern × List Char) := do
  let (negated, first, s) ← readStart verbose s
  let (set, s) ← readItems verbose (s.length + 1) none first s
  return (.bracketed negated set, s)

/-! ### Groups -/

def flagLetters : List (Char × Flag) :=
  [('i', .ignoreCase), ('m', .multiLine), ('s', .dotAll), ('U', .swapGreed), ('u', .unicode),
   ('R', .crlf), ('x', .verbose)]

/-- Switches up to a colon or a closing parenthesis, of which the answer tells whether it was the
colon. No flag may be named twice, and a hyphen, before those to be switched off, only once. -/
def readSwitches (on afterHyphen : Bool) (switches : List Switch) :
    List Char → Option (List Switch × Bool × List Char)
  | [] => none
  | c :: rest =>
    if c = ':' || c = ')' then
      if afterHyphen then none else some (switches, c == ':', rest)
    else if c = '-' then
      if on then readSwitches false true switches rest else none
    else
      match flagLetters.find? fun k => k.1 == c with
      | none => none
      | some (_, flag) =>
        if (setting switches flag).isSome then none
        else readSwitches on false (switches ++ [(flag, on)]) rest

def isName : List Char → Bool
  | [] => false
  | c :: rest =>
    (c == '_' || isLetter c) &&
      rest.all fun c => c == '_' || c == '.' || c == '[' || c == ']' || isLetterOrNumeral c

structure Cursor where
  rest : List Char
  verbose : Bool
  /-- the names of the groups so far -/
  names : List (List Char)

inductive Opening where
  | group (switches : List Switch)
  /-- switches for what follows, closed already -/
  | switches (switches : List Switch)

def readName (c : Cursor) (s : List Char) : Option (Opening × Cursor) :=
  let name := s.takeWhile (· != '>')
  match s.drop name.length with
  | '>' :: rest =>
    if isName name && !c.names.contains name then
      some (.group [], { c with rest := rest, names := name :: c.names })
    else none
  | _ => none

/-- What follows an opening parenthesis; looking around is refused. -/
def readOpening (c : Cursor) : Option (Opening × Cursor) :=
  match skip c.verbose c.rest with
  | '?' :: '<' :: '=' :: _ => none
  | '?' :: '<' :: '!' :: _ => none
  | '?' :: 'P' :: '<' :: s => readName c s
  | '?' :: '<' :: s => readName c s
  | '?' :: s =>
    match readSwitches true false [] s with
    | none => none
    | some (switches, true, rest) => some (.group switches, { c with rest := rest })
    | some ([], false, _) => none
    | some (switches, false, rest) => some (.switches switches, { c with rest := rest })
  | s => some (.group [], { c with rest := s })

/-! ### Whole patterns -/

def repeatLast (parts : List Pattern) : Option (List Pattern) :=
  match parts.getLast? with
  | none => none
  | some (.flags _) => none
  | some p => some (parts.dropLast ++ [.repeated p])

/-- A question mark behind a repetition only changes what is tried first. -/
def withoutMark : List Char → List Char
  | '?' :: rest => rest
  | s => s

def readAtom (verbose : Bool) : List Char → Option (Pattern × List Char)
  | [] => none
  | '.' :: rest => some (.dot, rest)
  | '^' :: rest => some (.atom (.assertion .line), rest)
  | '$' :: rest => some (.atom (.assertion .line), rest)
  | '[' :: rest => readClass verbose rest
  | '\\' :: rest => (readEscape verbose rest).map fun p => (.atom p.1, p.2)
  | '{' :: _ => none
  | c :: rest => some (.atom (.literal ⟨c, false⟩), rest)

/-- Alternatives up to a closing parenthesis or the end: the branches before this one, and the parts
of this one so far. -/
def readParts : Nat → List Pattern → List Pattern → Cursor → Option (Pattern × Cursor)
  | 0, _, _, _ => none
  | fuel + 1, branches, parts, c =>
    let done := branches ++ [.ofParts parts]
    match skip c.verbose c.rest with
    | [] => some (.ofBranches done, { c with rest := [] })
    | ')' :: rest => some (.ofBranches done, { c with rest := ')' :: rest })
    | '|' :: rest => readParts fuel done [] { c with rest := rest }
    | '(' :: rest => do
      let (opening, next) ← readOpening { c with rest := rest }
      match opening with
      | .switches switches =>
        let verbose := (setting switches .verbose).getD c.verbose
        readParts fuel branches (parts ++ [.flags switches]) { next with verbose := verbose }
      | .group switches =>
        let verbose := (setting switches .verbose).getD c.verbose
        let (body, inner) ← readParts fuel [] [] { next with verbose := verbose }
        match inner.rest with
        | ')' :: rest =>
          readParts fuel branches (parts ++ [.group switches body])
            { inner with rest := rest, verbose := c.verbose }
        | _ => none
    | s@(first :: rest) =>
      if first = '?' || first = '*' || first = '+' then do
        let parts ← repeatLast parts
        readParts fuel branches parts { c with rest := withoutMark rest }
      else do
        let (part, rest) ← readAtom c.verbose s
        readParts fuel branches (parts ++ [part]) { c with rest := rest }

def depthLimit : Nat := 250

def parse? (s : List Char) : Option Pattern := do
  let (p, c) ← readParts (s.length + 1) [] [] ⟨s, false, []⟩
  if c.rest.isEmpty && decide (p.depth ≤ depthLimit) then some p else none

end Breakage.Pattern
