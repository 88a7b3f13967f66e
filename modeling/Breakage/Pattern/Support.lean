import Breakage.Pattern.Reader

/-!
Which patterns can be run. There are no tables of scripts: while characters of all scripts count,
neither case nor shorthands nor word boundaries can be decided. While only ASCII counts they can,
but then nothing may match half of a character, which a negated class or a dot would.
-/

namespace Breakage.Pattern

/-- The flags that matter here. -/
structure Modes where
  ignoreCase : Bool
  /-- characters of all scripts count -/
  unicode : Bool
  deriving DecidableEq, Repr

namespace Modes

def initial : Modes := ⟨false, true⟩

def switched (m : Modes) (switches : List Switch) : Modes :=
  ⟨(setting switches .ignoreCase).getD m.ignoreCase, (setting switches .unicode).getD m.unicode⟩

def runsLiteral (m : Modes) (l : Literal) : Bool :=
  if m.unicode then !m.ignoreCase else !(l.isByte && decide (127 < l.char.toNat))

/-- A class holds single bytes where only ASCII counts. -/
def runsMember (m : Modes) (l : Literal) : Bool :=
  if m.unicode then !m.ignoreCase else decide (l.char.toNat ≤ 127)

def runsAtom (m : Modes) : Atom → Bool
  | .literal l => m.runsLiteral l
  | .shorthand negated => !m.unicode && !negated
  | .assertion .word => !m.unicode
  | .assertion _ => true

mutual

def runsSet (m : Modes) : ClassSet → Bool
  | .literal l => m.runsMember l
  | .range low high => m.runsMember low && m.runsMember high
  | .shorthand negated => !m.unicode && !negated
  | .named negated => if m.unicode then !m.ignoreCase else !negated
  | .bracketed negated set => (m.unicode || !negated) && m.runsSet set
  | .union items => m.runsItems items
  | .operation left right => m.runsSet left && m.runsSet right

def runsItems (m : Modes) : List ClassSet → Bool
  | [] => true
  | item :: rest => m.runsSet item && m.runsItems rest

end

end Modes

mutual

/-- The modes behind a pattern that can be run; switches stay on to the end of their group. -/
def run? (m : Modes) : Pattern → Option Modes
  | .empty => some m
  | .atom a => if m.runsAtom a then some m else none
  | .dot => if m.unicode then some m else none
  | .flags switches => some (m.switched switches)
  | .bracketed negated set =>
    if (m.unicode || !negated) && m.runsSet set then some m else none
  | .repeated p => p.run? m
  | .group switches p => (p.run? (m.switched switches)).map fun _ => m
  | .sequence parts => runAll? m parts
  | .alternatives branches => runAll? m branches

def runAll? (m : Modes) : List Pattern → Option Modes
  | [] => some m
  | p :: rest => (p.run? m).bind fun m => runAll? m rest

end

def isRunnable (s : List Char) : Bool := ((parse? s).bind (run? .initial)).isSome

end Breakage.Pattern
