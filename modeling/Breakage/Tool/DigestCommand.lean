import Breakage.Comparison.Reading
import Breakage.Process
import Breakage.Run.Collaborators

/-!
The digester as a command. `dump` writes the digest of a module to a file; `compare` prints a report
in JSON. Since the command may exit with an error just because it found something, the report
decides and not the exit code.
-/

namespace Breakage

structure DigestCommand where
  program : String
  limit : Option Duration
  deriving DecidableEq, Repr

namespace DigestCommand

def processFault (d : DigestCommand) (m : ModuleName) : ProcessError → Fault
  | .timedOut _ limit => .toolTimeout d.program m.text limit
  | e => .tool d.program m.text e.message

def call (d : DigestCommand) (m : ModuleName) (plan : BuildPlan) (arguments : List String) :
    Action Output := fun h =>
  match Command.run ⟨d.program :: arguments, some plan.packageRoot, d.limit⟩ h with
  | (.error e, h) => (.error (d.processFault m e), h)
  | (.ok output, h) => (.ok output, h)

def dumpArguments (m : ModuleName) (plan : BuildPlan) (output : Path) : List String :=
  ["dump", "--module", m.text, "--module-dir", plan.moduleDirectory.text, "--output", output.text]

def compareArguments (baseline : Path) (m : ModuleName) (plan : BuildPlan) (allowlist : Option Path) :
    List String :=
  ["compare", "--module", m.text, "--module-dir", plan.moduleDirectory.text,
    "--baseline", baseline.text] ++
  match allowlist with
  | some path => ["--breakage-allowlist", path.text]
  | none => []

def dump (d : DigestCommand) (m : ModuleName) (plan : BuildPlan) (output : Path) : Action Unit :=
  fun h =>
    match d.call m plan (dumpArguments m plan output) h with
    | (.error e, h) => (.error e, h)
    | (.ok o, h) =>
      if o.succeeded then (.ok (), h) else (.error (.tool d.program m.text o.failureSummary), h)

def reportFault (d : DigestCommand) (m : ModuleName) (o : Output) (reason : String) : Fault :=
  .tool d.program m.text
    (if o.succeeded then reason else reason ++ " (" ++ o.failureSummary ++ ")")

def compare (d : DigestCommand) (baseline : Path) (m : ModuleName) (plan : BuildPlan)
    (allowlist : Option Path) : Action Comparison := fun h =>
  match d.call m plan (compareArguments baseline m plan allowlist) h with
  | (.error e, h) => (.error e, h)
  | (.ok o, h) =>
    match Comparison.read m o.text with
    | .ok c => (.ok c, h)
    | .error reason => (.error (d.reportFault m o reason), h)

/-- A command never crashes the task that calls it. -/
def digester (d : DigestCommand) : Digester where
  language := .swift
  dump m plan output h :=
    let (r, h) := d.dump m plan output h
    (.returned r, h)
  compare baseline m plan allowlist h :=
    let (r, h) := d.compare baseline m plan allowlist h
    (.returned r, h)

end DigestCommand

end Breakage
