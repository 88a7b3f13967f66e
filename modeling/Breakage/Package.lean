import Breakage.Module.Set

/-!
Packages: products made of targets, and the targets. A name may be given to several products or
targets; the first one bears it.
-/

namespace Breakage

inductive Linkage where
  | automatic | static | dynamic
  deriving DecidableEq, Repr

inductive ProductKind where
  | library (linkage : Linkage)
  | executable | plugin | snippet | test | macroKind
  deriving DecidableEq, Repr

inductive TargetKind where
  | library | executable | test | plugin | macroKind | system | binary | snippet
  deriving DecidableEq, Repr

inductive Language where
  | swift | clang | other
  deriving DecidableEq, Repr

def ProductKind.isLibrary : ProductKind → Bool
  | .library _ => true
  | _ => false

def Language.display : Language → String
  | .swift => "Swift"
  | .clang => "C-family"
  | .other => "other"

structure Target where
  name : String
  module : ModuleName
  kind : TargetKind
  language : Language
  deriving DecidableEq, Repr

/-- A library target in the language. -/
def Target.isDiffable (t : Target) (language : Language) : Bool :=
  decide (t.kind = .library) && decide (t.language = language)

structure Product where
  name : String
  kind : ProductKind
  /-- names of targets -/
  targets : List String
  deriving DecidableEq, Repr

structure Package where
  name : String
  products : List Product
  targets : List Target
  deriving DecidableEq, Repr

namespace Package

def target? (p : Package) (name : String) : Option Target := p.targets.find? fun t => t.name == name

/-- The targets that the names in a product stand for in this package; a name without a target
stands for none. -/
def productTargets (p : Package) (product : Product) : List Target :=
  product.targets.filterMap p.target?

def productModules (p : Package) (language : Language) (product : Product) : List ModuleName :=
  ((p.productTargets product).filter fun t => decide (t.language = language)).map Target.module

end Package

structure PackageGraph where
  packages : List Package
  deriving DecidableEq, Repr, Inhabited

namespace PackageGraph

/-- The first product of this name, with the package that owns it. -/
def product? (g : PackageGraph) (name : String) : Option (Package × Product) :=
  g.packages.findSome? fun p =>
    (p.products.find? fun product => product.name == name).map fun product => (p, product)

def target? (g : PackageGraph) (name : String) : Option Target :=
  g.packages.findSome? fun p => p.target? name

/-- The modules in the language that belong to a library product. -/
def libraryModules (g : PackageGraph) (language : Language) : ModuleSet :=
  .ofList (g.packages.flatMap fun p =>
    (p.products.filter fun product => product.kind.isLibrary).flatMap (p.productModules language))

/-- The modules of the library targets in the language, whether or not a product names them. -/
def diffableModules (g : PackageGraph) (language : Language) : ModuleSet :=
  .ofList (g.packages.flatMap fun p =>
    (p.targets.filter fun t => t.isDiffable language).map Target.module)

def ofLibraries (name : String) (libraries : List String) : PackageGraph :=
  ⟨[{ name
      products := libraries.map fun l => ⟨l, .library .automatic, [l]⟩
      targets := libraries.map fun l => ⟨l, .ofTarget l, .library, .swift⟩ }]⟩

end PackageGraph

end Breakage
