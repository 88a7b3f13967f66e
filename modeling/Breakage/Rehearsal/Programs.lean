import Breakage.Host

/-!
Programs that follow a script. A call is answered by the first rule that fits it. Besides, a
`clone` makes its directory and a `dump` writes its file, as the programs they stand for do.
-/

namespace Breakage.Rehearsal

inductive Side where
  /-- below the home directory -/
  | current
  | baseline
  deriving DecidableEq, Repr

structure Rule where
  program : String
  /-- all of them have to be among the arguments -/
  words : List String
  side : Option Side
  output : Text.Bytes
  errorOutput : Text.Bytes
  exit : Int
  /-- a signal ends the program after its output -/
  isKilled : Bool
  /-- the program makes the directory or file that it is called for -/
  writes : Bool
  isSlow : Bool

structure Script where
  home : Place
  programs : List String
  /-- programs that are there but must not be started -/
  forbidden : List String
  rules : List Rule

namespace Script

def side (s : Script) (i : Invocation) : Side :=
  if s.home.isPrefixOf i.directory then .current else .baseline

def fits (s : Script) (i : Invocation) (r : Rule) : Bool :=
  r.program == i.program && (r.words.all fun w => i.arguments.contains w) &&
    r.side.all fun side => decide (side = s.side i)

/-- What a call gets that no rule fits. -/
def silent (program : String) : Rule := ⟨program, [], none, [], [], 0, false, true, false⟩

def rule (s : Script) (i : Invocation) : Rule := (s.rules.find? (s.fits i)).getD (silent i.program)

def effect (i : Invocation) (files : FileTree) : FileTree :=
  match i.arguments.getLast? with
  | none => files
  | some last =>
    if i.arguments.head? = some "clone" then (files.makeDirectories i.directory ⟨last⟩).2
    else if i.arguments.head? = some "dump" then
      match files.write i.directory ⟨last⟩ (.text (Json.record []).compact) with
      | .ok files => files
      | .error _ => files
    else files

def answer (s : Script) (i : Invocation) (files : FileTree) : Except OsError Reply × FileTree :=
  let r := s.rule i
  let exit := if r.isKilled then none else some r.exit
  (.ok ⟨exit, r.output, r.errorOutput, r.isSlow⟩, if r.writes then effect i files else files)

def fileObstacle (here : Place) (files : FileTree) (program : String) : OsError :=
  match files.status here ⟨program⟩ with
  | .ok _ => .permissionDenied
  | .error e => e

def obstacle? (s : Script) (here : Place) (files : FileTree) (program : String) : Option OsError :=
  if s.forbidden.contains program then some .permissionDenied
  else if s.programs.contains program then none
  else if program.toList.contains '/' then some (fileObstacle here files program)
  else if program = "." || program = ".." then some .permissionDenied
  else if FileTree.nameLimit < program.utf8ByteSize then some .nameTooLong
  else some .notFound

def host (s : Script) : Programs := ⟨s.obstacle?, s.answer⟩

end Script

end Breakage.Rehearsal
