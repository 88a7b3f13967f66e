import Breakage.Fault
import Breakage.Journal
import Breakage.Package

/-!
Choosing the modules to compare. Without any name they are the library modules of the package;
otherwise the ones that the named products and targets stand for. Every name is looked at before
the selection fails, so that one run shows all the wrong ones.
-/

namespace Breakage

namespace PackageGraph

def selectProduct (g : PackageGraph) (language : Language) (name : String) :
    Except String (List ModuleName) :=
  match g.product? name with
  | none => .error ("no such product '" ++ name ++ "'")
  | some (package, product) =>
    if product.kind.isLibrary then .ok (package.productModules language product)
    else .error ("'" ++ name ++ "' is not a library product")

def selectTarget (g : PackageGraph) (language : Language) (name : String) :
    Except String (List ModuleName) :=
  match g.target? name with
  | none => .error ("no such target '" ++ name ++ "'")
  | some target =>
    if target.kind ≠ .library then .error ("'" ++ name ++ "' is not a library target")
    else if target.language ≠ language then
      .error ("'" ++ name ++ "' is not a " ++ language.display ++ " language target")
    else .ok [target.module]

end PackageGraph

/-- What the names of a selection came to. -/
structure Selection where
  modules : ModuleSet
  /-- the names that select nothing, in the order given -/
  rejected : List String
  /-- one message for each rejected name -/
  complaints : List String

namespace Selection

def empty : Selection := ⟨.empty, [], []⟩

def add (s : Selection) (name : String) : Except String (List ModuleName) → Selection
  | .ok modules => { s with modules := s.modules.insertAll modules }
  | .error complaint =>
    { s with rejected := s.rejected ++ [name], complaints := s.complaints ++ [complaint] }

/-- The products are looked at before the targets. -/
def ofNames (g : PackageGraph) (language : Language) (products targets : List String) : Selection :=
  targets.foldl (fun s name => s.add name (g.selectTarget language name))
    (products.foldl (fun s name => s.add name (g.selectProduct language name)) empty)

/-- The modules selected, if all names are right and stand for any. -/
def modules? (s : Selection) : Except Fault ModuleSet :=
  if !s.rejected.isEmpty then .error (.invalidSelection s.rejected)
  else if s.modules.isEmpty then .error .noModulesSelected
  else .ok s.modules

end Selection

def PackageGraph.select (g : PackageGraph) (language : Language) (products targets : List String) :
    Except Fault ModuleSet × List Event :=
  if products.isEmpty && targets.isEmpty then (.ok (g.libraryModules language), [])
  else
    let s := Selection.ofNames g language products targets
    (s.modules?, s.complaints.map Event.error)

end Breakage
