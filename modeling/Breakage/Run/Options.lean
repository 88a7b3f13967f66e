import Breakage.Duration
import Breakage.Json.Codec
import Breakage.Path

/-!
What one run is to do, and with what tools.
-/

namespace Breakage

structure RunOptions where
  /-- the baseline, as the user names it -/
  treeish : String
  products : List String
  targets : List String
  /-- where digests are kept from run to run; a temporary directory if there is none -/
  baselineDirectory : Option Path
  allowlist : Option Path
  regenerate : Bool
  deriving DecidableEq, Repr

namespace RunOptions

def ofTreeish (treeish : String) : RunOptions := ⟨treeish, [], [], none, none, false⟩

def codec : Json.Codec RunOptions where
  encode o := .record
    [("treeish", .text o.treeish), ("products", .ofList .text o.products),
     ("targets", .ofList .text o.targets),
     ("baseline_dir", .ofOption Path.codec.encode o.baselineDirectory),
     ("allowlist_path", .ofOption Path.codec.encode o.allowlist),
     ("regenerate_baseline", .bool o.regenerate)]
  decode v := do
    let [treeish, products, targets, directory, allowlist, regenerate] ← v.slots
      ["treeish", "products", "targets", "baseline_dir", "allowlist_path", "regenerate_baseline"]
      | none
    return ⟨← treeish.required Json.asText?, ← products.required (Json.decodeList Json.asText?),
      ← targets.required (Json.decodeList Json.asText?), ← directory.nullable Path.codec.decode,
      ← allowlist.nullable Path.codec.decode, ← regenerate.required Json.asBool?⟩

end RunOptions

structure Toolchain where
  packagePath : Path
  buildTool : String
  digester : String
  jobs : Nat
  /-- for each call of the digester -/
  timeLimit : Option Duration
  deriving DecidableEq, Repr

namespace Toolchain

def defaultBuildTool : String := "swift"

def defaultDigester : String := "api-digester"

def usual (jobs : Nat) : Toolchain := ⟨⟨"."⟩, defaultBuildTool, defaultDigester, jobs, none⟩

end Toolchain

end Breakage
