import Breakage.Path

/-!
Diagnostics: a severity, a message and perhaps a place in a source file.
-/

namespace Breakage

inductive Severity where
  | error | fatal | warning | note | remark | ignored
  deriving DecidableEq, Repr

def Severity.codec : Json.Codec Severity := .choice
  [("error", .error), ("fatal", .fatal), ("warning", .warning), ("note", .note),
   ("remark", .remark), ("ignored", .ignored)]

/-- Lines count from one and are below 2^32. -/
structure Location where
  file : Path
  line : Option Nat
  deriving DecidableEq, Repr

namespace Location

/-- The highest line number that tools can mean; the next one stands for "unknown". -/
def lastLine : Nat := 4294967294

/-- A line as a tool reports it: nothing that is not a line number is kept. -/
def ofReported (file : Path) (line : Option Int) : Location :=
  ⟨file, (line.filter fun (n : Int) => decide (0 < n) && decide (n ≤ (lastLine : Int))).map Int.toNat⟩

def display (l : Location) : String :=
  match l.line with
  | some n => l.file.text ++ ":" ++ toString n
  | none => l.file.text

def codec : Json.Codec Location where
  encode l := .record [("file", Path.codec.encode l.file), ("line", .ofOption .ofNat l.line)]
  decode v := do
    let [file, line] ← v.slots ["file", "line"] | none
    return ⟨← file.required Path.codec.decode, ← line.nullable Json.Codec.word.decode⟩

end Location

structure Diagnostic where
  severity : Severity
  /-- for a breaking change the exact text that an allowlist names -/
  message : String
  location : Option Location
  deriving DecidableEq, Repr

namespace Diagnostic

def codec : Json.Codec Diagnostic where
  encode d := .record
    [("severity", Severity.codec.encode d.severity), ("message", .text d.message),
     ("location", .ofOption Location.codec.encode d.location)]
  decode v := do
    let [severity, message, location] ← v.slots ["severity", "message", "location"] | none
    return ⟨← severity.required Severity.codec.decode, ← message.required Json.asText?,
      ← location.nullable Location.codec.decode⟩

end Diagnostic

end Breakage
