import Breakage.Instant
import Breakage.Outcome.Verdict
import Breakage.Revision

/-!
The summary of a run for programs, in JSON: one entry for every requested module, and the verdict.
-/

namespace Breakage

inductive ModuleStatus where
  | clean | breaking | skipped | failed
  deriving DecidableEq, Repr

def ModuleStatus.codec : Json.Codec ModuleStatus := .choice
  [("clean", .clean), ("breaking", .breaking), ("skipped", .skipped), ("failed", .failed)]

structure ModuleEntry where
  module : String
  status : ModuleStatus
  skipReason : Option SkipReason
  error : Option String
  breakingChanges : List String
  deriving DecidableEq, Repr

namespace ModuleEntry

def ofOutcome (o : Outcome) (m : ModuleName) : ModuleEntry :=
  match o.skipped.get? m, o.failed.get? m, o.result? m with
  | some reason, _, _ => ⟨m.text, .skipped, some reason, none, []⟩
  | none, some error, _ => ⟨m.text, .failed, none, some error, []⟩
  | none, none, some c =>
    ⟨m.text, if c.isClean then .clean else .breaking, none, none, c.changes⟩
  | none, none, none => ⟨m.text, .failed, none, none, []⟩

/-- The reason and the error are left out where there is none. -/
def codec : Json.Codec ModuleEntry where
  encode e := .record <|
    [("module", .text e.module), ("status", ModuleStatus.codec.encode e.status)] ++
    (e.skipReason.map fun r => ("skip_reason", SkipReason.codec.encode r)).toList ++
    (e.error.map fun t => ("error", .text t)).toList ++
    [("breaking_changes", .ofList .text e.breakingChanges)]
  decode v := do
    let [module, status, reason, error, changes] ← v.slots
      ["module", "status", "skip_reason", "error", "breaking_changes"] | none
    return ⟨← module.required Json.asText?, ← status.required ModuleStatus.codec.decode,
      ← reason.optional SkipReason.codec.decode, ← error.optional Json.asText?,
      ← changes.withDefault [] (Json.decodeList Json.asText?)⟩

end ModuleEntry

structure Summary where
  schemaVersion : String
  generatedAt : Instant
  treeish : String
  revision : String
  modules : List ModuleEntry
  verdict : Verdict
  deriving DecidableEq, Repr

namespace Summary

def currentSchema : String := "1.0"

def ofOutcome (now : Instant) (treeish : String) (revision : Revision) (o : Outcome)
    (verdict : Verdict) : Summary where
  schemaVersion := currentSchema
  generatedAt := now
  treeish := treeish
  revision := revision.id
  modules := o.requested.toList.map (ModuleEntry.ofOutcome o)
  verdict := verdict

def codec : Json.Codec Summary where
  encode s := .record
    [("schema_version", .text s.schemaVersion), ("generated_at", Instant.codec.encode s.generatedAt),
     ("baseline_treeish", .text s.treeish), ("baseline_revision", .text s.revision),
     ("modules", .ofList ModuleEntry.codec.encode s.modules),
     ("verdict", Verdict.codec.encode s.verdict)]
  decode v := do
    let [schema, generated, treeish, revision, modules, verdict] ← v.slots
      ["schema_version", "generated_at", "baseline_treeish", "baseline_revision", "modules",
       "verdict"] | none
    return ⟨← schema.required Json.asText?, ← generated.required Instant.codec.decode,
      ← treeish.required Json.asText?, ← revision.required Json.asText?,
      ← modules.required (Json.decodeList ModuleEntry.codec.decode),
      ← verdict.required Verdict.codec.decode⟩

def text (s : Summary) : String := (codec.encode s).pretty

end Summary

end Breakage
