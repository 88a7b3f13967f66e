import Breakage.Duration
import Breakage.OsError

/-!
What can go wrong in a run. A fault ends the run, except that a fault of the digester concerns
one module only.
-/

namespace Breakage

inductive Fault where
  /-- names that select nothing, in the order given -/
  | invalidSelection (rejected : List String)
  | noModulesSelected
  | revisionNotFound (treeish reason : String)
  | git (reason : String)
  | build (reason : String)
  | tool (program module reason : String)
  | toolTimeout (program module : String) (limit : Duration)
  | allowlistUnreadable (path : Path) (cause : OsError)
  | baselineDirectory (path : Path) (reason : String)
  | packageDescription (reason : String)
  /-- a text that is not the JSON asked for -/
  | serialization (cause : String)
  | io (cause : OsError)
  deriving Repr

namespace Fault

def message : Fault → String
  | invalidSelection rejected => "invalid module selection: " ++ ", ".intercalate rejected
  | noModulesSelected => "no modules selected for API comparison"
  | revisionNotFound treeish reason => "could not resolve revision '" ++ treeish ++ "': " ++ reason
  | git reason => "git error: " ++ reason
  | build reason => "build failed: " ++ reason
  | tool program module reason => program ++ " failed for module " ++ module ++ ": " ++ reason
  | toolTimeout program module limit =>
    program ++ " timed out after " ++ limit.display ++ " for module " ++ module
  | allowlistUnreadable path cause =>
    "failed to read breakage allowlist " ++ path.quoted ++ ": " ++ cause.message
  | baselineDirectory path reason =>
    "baseline directory " ++ path.quoted ++ " is unusable: " ++ reason
  | packageDescription reason => "invalid package description: " ++ reason
  | serialization cause => "serialization error: " ++ cause
  | io cause => "io error: " ++ cause.message

def cause? : Fault → Option String
  | allowlistUnreadable _ cause => some cause.message
  | serialization cause => some cause
  | io cause => some cause.message
  | _ => none

end Fault

end Breakage
