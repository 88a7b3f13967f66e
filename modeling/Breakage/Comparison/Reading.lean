import Breakage.Comparison

/-!
Reading what a digester prints about one module: a JSON object with a list of diagnostics. Those
of one category are breaking changes. The whole text is read or nothing of it.
-/

namespace Breakage.Comparison

structure Reported where
  severity : Severity
  message : String
  category : Option String
  location : Option Location

namespace Reported

def breakageCategory : String := "api-breakage"

def isBreaking (r : Reported) : Bool := r.category == some breakageCategory

def diagnostic (r : Reported) : Diagnostic := ⟨r.severity, r.message, r.location⟩

def decodeLocation (v : Json) : Option Location := do
  let [file, line] ← v.slots ["file", "line"] | none
  return .ofReported ⟨← file.required Json.asText?⟩ (← line.optional Json.decodeLong)

def decode (v : Json) : Option Reported := do
  let [severity, message, category, location] ← v.slots
    ["severity", "message", "category", "location"] | none
  return ⟨← severity.required Severity.codec.decode, ← message.required Json.asText?,
    ← category.optional Json.asText?, ← location.optional decodeLocation⟩

end Reported

def decodeReport (v : Json) : Option (List Reported) := do
  let [diagnostics] ← v.slots ["diagnostics"] | none
  diagnostics.withDefault [] (Json.decodeList Reported.decode)

/-- The comparison of a module by the diagnostics reported; breaking changes and others keep their
order. -/
def ofReported (module : ModuleName) (reported : List Reported) : Comparison where
  module := module
  breakingChanges := (reported.filter Reported.isBreaking).map Reported.diagnostic
  otherDiagnostics := (reported.filter fun r => !r.isBreaking).map Reported.diagnostic

def unreadable : String := "unreadable comparison output: " ++ Json.refusal

def read (module : ModuleName) (output : String) : Except String Comparison :=
  match (Json.parse? (Text.trim output)).bind decodeReport with
  | some reported => .ok (ofReported module reported)
  | none => .error unreadable

end Breakage.Comparison
