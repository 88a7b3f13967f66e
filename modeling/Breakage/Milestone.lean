import Breakage.Module.Name

/-!
The milestones of a run, for those who watch it from outside.
-/

namespace Breakage

inductive Milestone where
  | started (treeish revision : String) (modules : Nat)
  /-- every baseline digest that there will be is in place -/
  | baselineReady (directory : Path) (dumped generationFailures : Nat)
  | compared (module : ModuleName) (breakingChanges : Nat)
  | judged (passed : Bool) (violations : Nat)
  deriving DecidableEq, Repr

end Breakage
