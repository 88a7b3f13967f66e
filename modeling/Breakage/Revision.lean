import Breakage.Json.Codec

/-!
Revisions: commits by their full identifier.
-/

namespace Breakage

structure Revision where
  id : String
  deriving DecidableEq, Repr, Inhabited

namespace Revision

def shortLength : Nat := 12

def short (r : Revision) : String := String.ofList (r.id.toList.take shortLength)

def codec : Json.Codec Revision := ⟨fun r => .text r.id, fun v => v.asText?.map Revision.mk⟩

end Revision

end Breakage
