import Breakage.Json.Number

/-!
JSON texts as trees. A tree keeps what a reader may want to refuse later: members that are
repeated, numbers of any size, and strings that are no text.
-/

namespace Breakage

/-- The contents of a string: a text, or something that holds half of a surrogate pair. -/
inductive Json.Text where
  | plain (s : String)
  | unpaired
  deriving DecidableEq, Repr

inductive Json where
  | null
  | bool (b : Bool)
  | number (n : Json.Number)
  | string (s : Json.Text)
  | array (items : List Json)
  | object (members : List (Json.Text × Json))

namespace Json

instance : Inhabited Json := ⟨.null⟩

def text (s : String) : Json := .string (.plain s)

def ofNat (n : Nat) : Json := .number (.ofNat n)

def ofInt (n : Int) : Json := .number (.ofInt n)

def ofList {α : Type} (f : α → Json) (xs : List α) : Json := .array (xs.map f)

def ofOption {α : Type} (f : α → Json) : Option α → Json
  | none => .null
  | some a => f a

def record (members : List (String × Json)) : Json :=
  .object (members.map fun m => (.plain m.1, m.2))

def asText? : Json → Option String
  | .string (.plain s) => some s
  | _ => none

def asBool? : Json → Option Bool
  | .bool b => some b
  | _ => none

def asList? : Json → Option (List Json)
  | .array items => some items
  | _ => none

def asInt? : Json → Option Int
  | .number n => n.toInt?
  | _ => none

def asIntIn? (low high : Int) (v : Json) : Option Int := do
  let n ← v.asInt?
  if low ≤ n && n ≤ high then some n else none

def refusal : String := "<json error>"

def isNull : Json → Bool
  | .null => true
  | _ => false

/-- The last member of this name in an object. -/
def get? (v : Json) (name : String) : Option Json :=
  match v with
  | .object members => (members.reverse.find? fun m => m.1 == .plain name).map Prod.snd
  | _ => none

mutual

/-- How many arrays and objects are open at the innermost place. -/
def depth : Json → Nat
  | .array items => depthOfItems items + 1
  | .object members => depthOfMembers members + 1
  | _ => 0

def depthOfItems : List Json → Nat
  | [] => 0
  | v :: rest => max v.depth (depthOfItems rest)

def depthOfMembers : List (Text × Json) → Nat
  | [] => 0
  | (_, v) :: rest => max v.depth (depthOfMembers rest)

end

mutual

def isClean : Json → Bool
  | .number n => n.isFinite
  | .string s => s != .unpaired
  | .array items => areCleanItems items
  | .object members => areCleanMembers members
  | _ => true

def areCleanItems : List Json → Bool
  | [] => true
  | v :: rest => v.isClean && areCleanItems rest

def areCleanMembers : List (Text × Json) → Bool
  | [] => true
  | (k, v) :: rest => k != .unpaired && v.isClean && areCleanMembers rest

end

/-- The number of arrays and objects that may be open where a tree is kept as it is. -/
def depthLimit : Nat := 127

def isKeepable (outer : Nat) (v : Json) : Bool :=
  decide (outer + v.depth ≤ depthLimit) && v.isClean

end Json

end Breakage
