import Breakage.Comparison
import Breakage.Module.Set

/-!
The outcome of the comparison of many modules. Each requested module is to be found in one place
only: skipped, failed, or among the results. `isPartition` tests this by counting.
-/

namespace Breakage

structure Outcome where
  requested : ModuleSet
  skipped : ModuleMap SkipReason
  /-- with the text of the error -/
  failed : ModuleMap String
  /-- in the order in which the comparisons ended -/
  results : List Comparison

namespace Outcome

def pending (requested : ModuleSet) : Outcome := ⟨requested, .empty, .empty, []⟩

instance : Inhabited Outcome := ⟨pending .empty⟩

def succeeded (o : Outcome) : ModuleSet := .ofList (o.results.map Comparison.module)

/-- The first result for the module. -/
def result? (o : Outcome) (m : ModuleName) : Option Comparison :=
  o.results.find? fun c => decide (c.module = m)

/-- The results by module name; those of one module stay in their order. -/
def sortedResults (o : Outcome) : List Comparison :=
  o.results.mergeSort fun a b => decide (¬b.module < a.module)

/-- In how many places a module is found. -/
def hits (o : Outcome) (m : ModuleName) : Nat :=
  (o.skipped.contains m).toNat + (o.failed.contains m).toNat + (decide (m ∈ o.succeeded)).toNat

/-- Every requested module is in one place, and nothing else is in any. -/
def isPartition (o : Outcome) : Bool :=
  o.skipped.size + o.failed.size + o.results.length == o.requested.size &&
  o.succeeded.size == o.results.length &&
  o.requested.toList.all fun m => o.hits m == 1

theorem sortedResults_perm (o : Outcome) : o.sortedResults.Perm o.results :=
  List.mergeSort_perm _ _

end Outcome

end Breakage
