import Breakage.Json.Printer
import Breakage.Json.Reader

/-!
Values of the library as JSON trees. A record is an object whose members may come in any order,
or an array of its fields in their order; a choice is its name, or an object with that name and
null. Unknown members are passed over, and a known one may come only once.
-/

namespace Breakage.Json

/-- How the values of a type are written as a tree and read back. -/
structure Codec (α : Type) where
  encode : α → Json
  decode : Json → Option α

/-- What stands in a tree for one field of a record. -/
inductive Slot where
  | given (v : Json)
  /-- an object without the member -/
  | missing
  /-- an array that ends before the field -/
  | cut

namespace Slot

def required {α : Type} (decode : Json → Option α) : Slot → Option α
  | given v => decode v
  | _ => none

/-- A field that may be null, and may be left out of an object. -/
def nullable {α : Type} (decode : Json → Option α) : Slot → Option (Option α)
  | given v => if v.isNull then some none else (decode v).map some
  | missing => some none
  | cut => none

/-- A field with a value for the case that it is not there. -/
def withDefault {α : Type} (default : α) (decode : Json → Option α) : Slot → Option α
  | given v => decode v
  | _ => some default

/-- A field that may be null, and may be left out everywhere. -/
def optional {α : Type} (decode : Json → Option α) (s : Slot) : Option (Option α) :=
  s.withDefault none fun v => if v.isNull then some none else (decode v).map some

end Slot

/-- The one value with this key: none at all is fine, two are not. -/
def single (members : List (Text × Json)) (name : String) : Option Slot :=
  match members.filter fun m => m.1 == .plain name with
  | [] => some .missing
  | [m] => some (.given m.2)
  | _ => none

def arraySlots : List String → List Json → Option (List Slot)
  | [], [] => some []
  | [], _ :: _ => none
  | _ :: names, [] => (arraySlots names []).map (Slot.cut :: ·)
  | _ :: names, v :: rest => (arraySlots names rest).map (Slot.given v :: ·)

/-- The slots of the named fields, in the order of the names. -/
def slots (names : List String) : Json → Option (List Slot)
  | .object members =>
    if members.any fun m => m.1 == .unpaired then none else names.mapM (single members)
  | .array items => arraySlots names items
  | _ => none

def choiceName? : Json → Option String
  | .string (.plain s) => some s
  | .object [(.plain s, .null)] => some s
  | _ => none

def decodeLong (v : Json) : Option Int := v.asIntIn? (-9223372036854775808) 9223372036854775807

def decodeList {α : Type} (decode : Json → Option α) (v : Json) : Option (List α) := do
  let items ← v.asList?
  items.mapM decode

namespace Codec

def choice {α : Type} [DecidableEq α] (names : List (String × α)) : Codec α where
  encode a := match names.find? fun n => decide (n.2 = a) with
    | some n => Json.text n.1
    | none => .null
  decode v := do
    let s ← v.choiceName?
    let n ← names.find? fun n => n.1 == s
    return n.2

def text : Codec String := ⟨Json.text, asText?⟩

def word : Codec Nat := ⟨ofNat, fun v => (v.asIntIn? 0 4294967295).map Int.toNat⟩

def list {α : Type} (c : Codec α) : Codec (List α) := ⟨ofList c.encode, decodeList c.decode⟩

variable {α : Type} (c : Codec α)

def write (a : α) : String := (c.encode a).compact

def read? (s : String) : Option α := (parse? s).bind c.decode

/-- What is read is what was written. -/
def IsFaithful : Prop := ∀ a, c.decode (c.encode a) = some a

end Codec

end Breakage.Json
