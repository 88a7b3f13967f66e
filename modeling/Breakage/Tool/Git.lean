import Breakage.Process
import Breakage.Run.Collaborators

/-!
Version control by the command `git`, for the repository in a directory.
-/

namespace Breakage

structure GitRepository where
  root : Path
  deriving DecidableEq, Repr

namespace GitRepository

def call (directory : Path) (arguments : List String) : Action String := fun h =>
  match Command.run ⟨"git" :: arguments, some directory, none⟩ h with
  | (.error e, h) => (.error (.git ("failed to run git: " ++ e.message)), h)
  | (.ok output, h) =>
    if output.succeeded then (.ok (Text.trim output.text), h)
    else
      (.error (.git ("git " ++ " ".intercalate arguments ++ " failed: " ++
        Text.trim output.errorText)), h)

def resolve (g : GitRepository) (treeish : String) : Action Revision := fun h =>
  match call g.root ["rev-parse", "--verify", "--quiet", treeish ++ "^\x7bcommit\x7d"] h with
  | (.error e, h) => (.error (.revisionNotFound treeish e.message), h)
  | (.ok id, h) =>
    if id = "" then (.error (.revisionNotFound treeish "git rev-parse returned empty output"), h)
    else (.ok ⟨id⟩, h)

/-- Clones without copying the objects, and checks the revision out in the clone. -/
def checkOut (g : GitRepository) (revision : Revision) (destination : Path) : Action Path := fun h =>
  let clone := ["clone", "--quiet", "--shared", "--no-checkout", g.root.text, destination.text]
  match call g.root clone h with
  | (.error e, h) => (.error e, h)
  | (.ok _, h) =>
    match call destination ["checkout", "--quiet", "--detach", revision.id] h with
    | (.error e, h) => (.error e, h)
    | (.ok _, h) => (.ok destination, h)

def versionControl (g : GitRepository) : VersionControl := ⟨g.resolve, g.checkOut⟩

end GitRepository

end Breakage
