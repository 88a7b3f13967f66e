import Breakage.FileTree
import Breakage.Instant

/-!
The machine a run works on: its files, its clock and the programs that can be called there.
Programs are given by their answers, so that whatever they do is an argument of the run.
-/

namespace Breakage

structure Invocation where
  program : String
  arguments : List String
  directory : Place
  deriving DecidableEq, Repr

structure Reply where
  /-- the exit code; none when a signal ended the program -/
  exit : Option Int
  output : Text.Bytes
  errorOutput : Text.Bytes
  /-- it is still at work when any time limit is up -/
  isSlow : Bool
  deriving DecidableEq, Repr

structure Programs where
  /-- why a program of this name cannot be started in a place -/
  obstacle? : Place → FileTree → String → Option OsError
  answer : Invocation → FileTree → Except OsError Reply × FileTree

structure Host where
  files : FileTree
  workingDirectory : Place
  /-- the directory for temporary directories -/
  temporary : Path
  /-- endings for the names of temporary directories, tried in turn -/
  endings : List String
  now : Instant
  programs : Programs
  /-- oldest first -/
  invocations : List Invocation

namespace Host

def exists? (h : Host) (path : Path) : Bool := h.files.exists? h.workingDirectory path

def readText (h : Host) (path : Path) : Except OsError String :=
  h.files.readText h.workingDirectory path

def write (h : Host) (path : Path) (text : String) : Except OsError Host := do
  return { h with files := ← h.files.write h.workingDirectory path (.text text) }

def removeFile (h : Host) (path : Path) : Host :=
  { h with files := h.files.removeFile h.workingDirectory path }

def removeTree (h : Host) (path : Path) : Host :=
  { h with files := h.files.removeTree h.workingDirectory path }

def makeDirectories (h : Host) (path : Path) : Except OsError Unit × Host :=
  let (r, files) := h.files.makeDirectories h.workingDirectory path
  (r, { h with files := files })

def namesIn (h : Host) (path : Path) : List String :=
  match h.files.locate h.workingDirectory path with
  | .ok p => h.files.names p
  | .error _ => []

/-- Makes the first directory of these names that is not there yet. -/
def makeFresh (h : Host) (stem : String) : List String → Except OsError (Path × Host)
  | [] => .error (.at h.temporary (.other "too many temporary files exist"))
  | ending :: rest =>
    let path := h.temporary.join (stem ++ ending)
    match h.files.makeDirectory h.workingDirectory path with
    | .ok files => .ok (path, { h with files := files })
    | .error .fileExists => h.makeFresh stem rest
    | .error e => .error (.at path e)

def makeTemporary (h : Host) (stem : String) : Except OsError (Path × Host) :=
  h.makeFresh stem h.endings

end Host

end Breakage
