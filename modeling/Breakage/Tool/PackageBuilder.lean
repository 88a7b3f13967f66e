import Breakage.Package.Description
import Breakage.Process
import Breakage.Run.Collaborators

/-!
Building packages by a command that can describe and build the package in a directory.
-/

namespace Breakage

structure PackageBuilder where
  tool : String
  jobs : Nat
  deriving DecidableEq, Repr

namespace PackageBuilder

/-- A builder does at least one job at a time. -/
def withJobs (tool : String) (jobs : Nat) : PackageBuilder := ⟨tool, max jobs 1⟩

def call (b : PackageBuilder) (root : Path) (arguments : List String) : Action String := fun h =>
  match Command.run ⟨b.tool :: arguments, some root, none⟩ h with
  | (.error e, h) => (.error (.build e.message), h)
  | (.ok output, h) =>
    if output.succeeded then (.ok output.text, h)
    else
      (.error (.build (b.tool ++ " " ++ " ".intercalate arguments ++ " failed with " ++
        output.failureSummary)), h)

def graph (b : PackageBuilder) (root : Path) : Action PackageGraph := fun h =>
  match b.call root ["package", "--package-path", root.text, "describe", "--type", "json"] h with
  | (.error e, h) => (.error e, h)
  | (.ok text, h) => (Description.read text, h)

def build (b : PackageBuilder) (root : Path) : Action BuildPlan := fun h =>
  match b.call root ["build", "--package-path", root.text, "-j", toString b.jobs] h with
  | (.error e, h) => (.error e, h)
  | (.ok _, h) =>
    match b.call root ["build", "--package-path", root.text, "--show-bin-path"] h with
    | (.error e, h) => (.error e, h)
    | (.ok text, h) => (.ok ⟨root, ⟨Text.trim text⟩⟩, h)

def buildSystem (b : PackageBuilder) : BuildSystem := ⟨b.graph, b.build, b.jobs⟩

end PackageBuilder

end Breakage
