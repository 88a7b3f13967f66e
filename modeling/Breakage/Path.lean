import Breakage.Json.Codec
import Breakage.Text.Quoted

/-!
Paths as they are written. A path is a text; what it denotes depends on a directory and on the
files there (`FileTree.locate`).
-/

namespace Breakage

structure Path where
  text : String
  deriving DecidableEq, Repr, Inhabited

namespace Path

def startsWithSlash : List Char → Bool
  | '/' :: _ => true
  | _ => false

def isAbsolute (p : Path) : Bool := startsWithSlash p.text.toList

/-- The path that `tail` denotes as seen from `base`: `tail` itself if it is absolute; otherwise the
two with one slash between them, unless `base` is empty or ends in one. -/
def join (base : Path) (tail : String) : Path :=
  if startsWithSlash tail.toList then ⟨tail⟩
  else match base.text.toList.reverse with
    | [] => ⟨tail⟩
    | '/' :: _ => ⟨base.text ++ tail⟩
    | _ => ⟨base.text ++ "/" ++ tail⟩

def components (p : Path) : List String := (p.text.toList.splitOn '/').map String.ofList

/-- The names that a path leads along: its pieces that are not empty and do not stay in place. -/
def names (p : Path) : List String := p.components.filter fun n => decide (n ≠ "" ∧ n ≠ ".")

def quoted (p : Path) : String := Text.quoted p.text

def codec : Json.Codec Path where
  encode p := Json.text p.text
  decode v := v.asText?.map Path.mk

end Path

end Breakage
