/-!
Patterns that the value of a field has to match: regular expressions as trees. `depth` counts how
deep the parts of a pattern stand in one another; single characters have none.
-/

namespace Breakage

namespace Pattern

/-- A character, and whether it was written by the two digits of a byte. -/
structure Literal where
  char : Char
  isByte : Bool
  deriving DecidableEq, Repr

inductive Flag where
  | ignoreCase | multiLine | dotAll | swapGreed | unicode | crlf | verbose
  deriving DecidableEq, Repr

abbrev Switch := Flag × Bool

def setting (switches : List Switch) (flag : Flag) : Option Bool :=
  (switches.find? fun s => decide (s.1 = flag)).map Prod.snd

inductive Assertion where
  | line | text | word
  deriving DecidableEq, Repr

inductive Atom where
  | literal (l : Literal)
  /-- digits, blanks or word characters, or all others -/
  | shorthand (negated : Bool)
  | assertion (a : Assertion)
  deriving DecidableEq, Repr

inductive ClassSet where
  | literal (l : Literal)
  | range (low high : Literal)
  | shorthand (negated : Bool)
  /-- one of the named classes of ASCII characters -/
  | named (negated : Bool)
  | bracketed (negated : Bool) (set : ClassSet)
  | union (items : List ClassSet)
  /-- an intersection or a difference -/
  | operation (left right : ClassSet)

namespace ClassSet

def ofItems : List ClassSet → ClassSet
  | [item] => item
  | items => .union items

mutual

def depth : ClassSet → Nat
  | bracketed _ set => set.depth + 1
  | union [] => 0
  | union (item :: rest) => max item.depth (depthOfItems rest) + 1
  | operation left right => max left.depth right.depth + 1
  | _ => 0

def depthOfItems : List ClassSet → Nat
  | [] => 0
  | item :: rest => max item.depth (depthOfItems rest)

end

end ClassSet

end Pattern

inductive Pattern where
  | empty
  | atom (a : Pattern.Atom)
  | dot
  | flags (switches : List Pattern.Switch)
  | bracketed (negated : Bool) (set : Pattern.ClassSet)
  | repeated (p : Pattern)
  | group (switches : List Pattern.Switch) (p : Pattern)
  | sequence (parts : List Pattern)
  | alternatives (branches : List Pattern)

namespace Pattern

def ofParts : List Pattern → Pattern
  | [] => .empty
  | [p] => p
  | parts => .sequence parts

def ofBranches : List Pattern → Pattern
  | [p] => p
  | branches => .alternatives branches

mutual

def depth : Pattern → Nat
  | bracketed _ set => set.depth + 1
  | repeated p => p.depth + 1
  | group _ p => p.depth + 1
  | sequence parts => depthOfAll parts + 1
  | alternatives branches => depthOfAll branches + 1
  | _ => 0

def depthOfAll : List Pattern → Nat
  | [] => 0
  | p :: rest => max p.depth (depthOfAll rest)

end

end Pattern

end Breakage
