import Breakage.Duration
import Breakage.Host
import Breakage.Text.Blank

/-!
Running other programs to their end, with a time limit if need be.
-/

namespace Breakage

structure Command where
  /-- the program and its arguments -/
  words : List String
  /-- the one of the caller if there is none -/
  directory : Option Path
  limit : Option Duration
  deriving DecidableEq, Repr

inductive ProcessError where
  | emptyCommand
  | spawn (program : String) (cause : OsError)
  | wait (program : String) (cause : OsError)
  | timedOut (program : String) (limit : Duration)
  deriving Repr

def ProcessError.message : ProcessError → String
  | emptyCommand => "empty command line"
  | spawn program cause => "failed to spawn " ++ program ++ ": " ++ cause.message
  | wait program cause => "failed waiting for " ++ program ++ ": " ++ cause.message
  | timedOut program limit => program ++ " timed out after " ++ limit.display

structure Output where
  /-- minus one after a signal -/
  exitCode : Int
  text : String
  errorText : String
  succeeded : Bool
  deriving DecidableEq, Repr

namespace Output

def ofReply (r : Reply) : Output where
  exitCode := r.exit.getD (-1)
  text := Text.decodeUtf8 r.output
  errorText := Text.decodeUtf8 r.errorOutput
  succeeded := r.exit == some 0

def failureSummary (o : Output) : String :=
  let reason := Text.trim o.errorText
  "exit code " ++ toString o.exitCode ++ (if reason = "" then "" else ": " ++ reason)

end Output

namespace Command

def program (c : Command) : String := c.words.head?.getD ""

def hasNul (s : String) : Bool := s.toList.contains (Char.ofNat 0)

/-- The directory that a program is started in. -/
def startingPlace (h : Host) : Option Path → Except OsError Place
  | none => .ok h.workingDirectory
  | some path => do
    let p ← h.files.locate h.workingDirectory path
    match h.files.lookup p with
    | none => .error .notFound
    | some (.file _) => .error .notDirectory
    | some .directory => .ok p

/-- The program as it is started. The directory is entered before the program is looked up. -/
def start (c : Command) (h : Host) (program : String) (arguments : List String) :
    Except OsError Invocation := do
  if c.words.any hasNul || c.directory.any fun d => hasNul d.text then throw .nulInCommand
  let place ← startingPlace h c.directory
  match h.programs.obstacle? place h.files program with
  | some e => throw e
  | none => return ⟨program, arguments, place⟩

/-- The limit, where a program that is slow or not reaches it. -/
def reached? (c : Command) (isSlow : Bool) : Option Duration :=
  c.limit.filter fun limit => isSlow || limit.isZero

/-- A program that reaches its limit is ended before it has done anything to the files. -/
def run (c : Command) (h : Host) : Except ProcessError Output × Host :=
  match c.words with
  | [] => (.error .emptyCommand, h)
  | program :: arguments =>
    match c.start h program arguments with
    | .error e => (.error (.spawn program e), h)
    | .ok invocation =>
      let h := { h with invocations := h.invocations ++ [invocation] }
      match h.programs.answer invocation h.files with
      | (.error e, files) => (.error (.wait program e), { h with files := files })
      | (.ok reply, files) =>
        match c.reached? reply.isSlow with
        | some limit => (.error (.timedOut program limit), h)
        | none => (.ok (.ofReply reply), { h with files := files })

end Command

end Breakage
