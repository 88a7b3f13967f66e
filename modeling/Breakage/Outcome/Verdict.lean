import Breakage.Outcome

/-!
The verdict on an outcome: failed when a module could not be compared or has breaking changes.
Modules that were skipped do not count.
-/

namespace Breakage

structure Verdict where
  passed : Bool
  violations : List String
  message : String
  deriving DecidableEq, Repr

namespace Verdict

def failure (m : ModuleName) (error : String) : String :=
  "Module '" ++ m.text ++ "' could not be compared: " ++ error

def breakage (c : Comparison) : String :=
  "Module '" ++ c.module.text ++ "' has " ++ toString c.breakingChanges.length ++
    (if c.breakingChanges.length = 1 then " breaking change" else " breaking changes")

/-- Failures first, then breakage, each by module name. -/
def violationsOf (o : Outcome) : List String :=
  o.failed.entries.map (fun e => failure e.1 e.2) ++
    (o.sortedResults.filter fun c => !c.isClean).map breakage

def ofViolations (violations : List String) : Verdict where
  passed := violations.isEmpty
  violations := violations
  message :=
    if violations.isEmpty then "No API breakage detected"
    else "Gate failed with " ++ toString violations.length ++ " violation(s)"

def ofOutcome (o : Outcome) : Verdict := ofViolations (violationsOf o)

def codec : Json.Codec Verdict where
  encode v := .record
    [("passed", .bool v.passed), ("violations", .ofList .text v.violations),
     ("message", .text v.message)]
  decode v := do
    let [passed, violations, message] ← v.slots ["passed", "violations", "message"] | none
    return ⟨← passed.required Json.asBool?, ← violations.required (Json.decodeList Json.asText?),
      ← message.required Json.asText?⟩

theorem passed_ofOutcome (o : Outcome) : (ofOutcome o).passed = true ↔ (ofOutcome o).violations = [] := by
  simp [ofOutcome, ofViolations]

end Verdict

end Breakage
