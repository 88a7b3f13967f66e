import Breakage.CommandLine.Scan
import Breakage.LogFilter
import Breakage.Run.Options

/-!
What the user asks for on the command line, and how much of it is logged.
-/

namespace Breakage.CommandLine

inductive Request where
  | diagnose (toolchain : Toolchain) (options : RunOptions) (reportPath : Option Path)
  /-- the command by its former name -/
  | renamed
  deriving DecidableEq, Repr

structure Words where
  program : Given
  command : Given

namespace Words

/-- The values for a key: those given to the command, unless only the program has them from the
command line. -/
def values (w : Words) (key : Key) : List String :=
  match w.command.origin? key, w.program.origin? key with
  | none, _ => w.program.values key
  | some .environment, some .commandLine => w.program.values key
  | some _, _ => w.command.values key

def value? (w : Words) (key : Key) : Option String := (w.values key).head?

def isGiven (w : Words) (key : Key) : Bool :=
  (w.command.origin? key).isSome || (w.program.origin? key).isSome

def toolchain (w : Words) (machineJobs : Nat) : Toolchain where
  packagePath := ⟨(w.value? .packagePath).getD "."⟩
  buildTool := (w.value? .buildTool).getD Toolchain.defaultBuildTool
  digester := (w.value? .digester).getD Toolchain.defaultDigester
  jobs := max (((w.value? .jobs).bind readCount).getD machineJobs) 1
  timeLimit := ((w.value? .timeLimit).bind readCount).map fun n => ⟨n, 0⟩

def options (w : Words) (treeish : String) : RunOptions where
  treeish := treeish
  products := w.values .products
  targets := w.values .targets
  baselineDirectory := (w.value? .baselineDirectory).map Path.mk
  allowlist := (w.value? .allowlist).map Path.mk
  regenerate := w.isGiven .regenerate

end Words

def readCommand (environment : List (String × String)) (name : String) (words : List String) :
    Except Stop Given := do
  let grammar := commandGrammar name
  let (scan, _) ← Scan.start.readAll grammar words
  let given ← scan.finish grammar environment
  match grammar.positional with
  | some p => if p.isRequired && (given.origin? p.key).isNone then .error .misuse else .ok given
  | none => .ok given

def readHelp : List String → Stop
  | [] => .help
  | [name] => if programGrammar.commands.contains name then .help else .misuse
  | _ => .misuse

def request (machineJobs : Nat) (name : String) (words : Words) : Except Stop Request :=
  if name = diagnoseName then
    match words.command.values .treeish with
    | [treeish] =>
      .ok (.diagnose (words.toolchain machineJobs) (words.options treeish)
        ((words.value? .reportPath).map Path.mk))
    | _ => .error .misuse
  else .ok .renamed

/-- The words of a command line, and the name of the command that they are for. -/
def readWords (environment : List (String × String)) (words : List String) :
    Except Stop (String × Words) := do
  let (scan, command) ← Scan.start.readAll programGrammar words
  match command with
  | none =>
    let _ ← scan.finish programGrammar environment
    .error .misuse
  | some (name, rest) =>
    if name = helpName then .error (readHelp rest)
    else
      let command ← readCommand environment name rest
      let program ← scan.finish programGrammar environment
      return (name, ⟨program, command⟩)

def parse (machineJobs : Nat) (environment : List (String × String)) (words : List String) :
    Except Stop Request := do
  let (name, w) ← readWords environment words
  request machineJobs name w

/-- The loudest level that is logged; nothing is if the words cannot be read. -/
def logLevel (environment : List (String × String)) (words : List String) : LogLevel :=
  match readWords environment words with
  | .error _ => .off
  | .ok (_, w) =>
    LogFilter.loudest (if w.isGiven .verbose then .debug else .info)
      (environment.lookup LogFilter.environmentName)

end Breakage.CommandLine
