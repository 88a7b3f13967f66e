import Breakage.Allowlist
import Breakage.Diagnostic
import Breakage.Module.Name

/-!
The comparison of one module with its baseline: the breaking changes, and the other diagnostics.
-/

namespace Breakage

structure Comparison where
  module : ModuleName
  /-- in the order of the digester -/
  breakingChanges : List Diagnostic
  otherDiagnostics : List Diagnostic
  deriving DecidableEq, Repr

namespace Comparison

def clean (module : ModuleName) : Comparison := ⟨module, [], []⟩

def isClean (c : Comparison) : Bool := c.breakingChanges.isEmpty

def filterAllowed (c : Comparison) (allowlist : Allowlist) : Comparison :=
  { c with breakingChanges := c.breakingChanges.filter fun d => !allowlist.contains d.message }

def changes (c : Comparison) : List String := c.breakingChanges.map Diagnostic.message

def codec : Json.Codec Comparison where
  encode c := .record
    [("module", ModuleName.codec.encode c.module),
     ("breaking_changes", .ofList Diagnostic.codec.encode c.breakingChanges),
     ("other_diagnostics", .ofList Diagnostic.codec.encode c.otherDiagnostics)]
  decode v := do
    let [module, breaking, other] ← v.slots ["module", "breaking_changes", "other_diagnostics"]
      | none
    return ⟨← module.required ModuleName.codec.decode,
      ← breaking.required (Json.decodeList Diagnostic.codec.decode),
      ← other.required (Json.decodeList Diagnostic.codec.decode)⟩

theorem mem_filterAllowed {c : Comparison} {allowlist : Allowlist} {d : Diagnostic} :
    d ∈ (c.filterAllowed allowlist).breakingChanges ↔
      d ∈ c.breakingChanges ∧ allowlist.contains d.message = false := by
  simp [filterAllowed]

end Comparison

/-- Why a requested module was not compared. -/
inductive SkipReason where
  | notInBaseline
  /-- the baseline has the module, but there is no digest of it -/
  | generationFailed
  deriving DecidableEq, Repr

def SkipReason.codec : Json.Codec SkipReason :=
  .choice [("not_in_baseline", .notInBaseline), ("generation_failed", .generationFailed)]

end Breakage
