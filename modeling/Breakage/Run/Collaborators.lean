import Breakage.Comparison
import Breakage.Fault
import Breakage.Host
import Breakage.Package
import Breakage.Revision

/-!
Those a run works with: version control, the build of the package, and the digester that takes the
interface of a module into a file and compares a module with such a file. Each of them may do to
the host what it likes. The digester is called in tasks of their own and may crash there.
-/

namespace Breakage

abbrev Action (α : Type) := Host → Except Fault α × Host

/-- How a task ended: with an answer, or by a crash with some words. -/
inductive Ending (α : Type) where
  | returned (a : α)
  | crashed (words : String)
  deriving Repr

def crashText (task : Nat) (words : String) : String :=
  "task " ++ toString task ++ " panicked with message " ++ Text.quoted words

structure BuildPlan where
  packageRoot : Path
  /-- where the compiled modules are -/
  moduleDirectory : Path
  deriving DecidableEq, Repr

structure VersionControl where
  resolve : (treeish : String) → Action Revision
  /-- puts the revision into a new directory, and gives the root of the tree there -/
  checkOut : Revision → (destination : Path) → Action Path

structure BuildSystem where
  /-- the packages of the tree at this root -/
  graph : (root : Path) → Action PackageGraph
  build : (root : Path) → Action BuildPlan
  workers : Nat

structure Digester where
  language : Language
  /-- writes the digest of a module to the file -/
  dump : ModuleName → BuildPlan → (output : Path) → Host → Ending (Except Fault Unit) × Host
  /-- compares a module with the digest in a file; the allowlist is there to be passed on -/
  compare : (baseline : Path) → ModuleName → BuildPlan → (allowlist : Option Path) → Host →
    Ending (Except Fault Comparison) × Host

structure Collaborators where
  versionControl : VersionControl
  buildSystem : BuildSystem
  digester : Digester

end Breakage
