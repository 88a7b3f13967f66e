import Breakage.CommandLine.Request
import Breakage.Tool.Toolchain

/-!
The program `apidiff`: it compares the public interface of a package with a baseline revision, and
its exit code tells whether all is well: a comparison ends with zero only if it `succeeds` and its
summary, where one is asked for, could be written.
-/

namespace Breakage.CommandLine

def version : String := "0.3.1"

/-- What the program leaves behind. -/
structure Finish where
  exitCode : Nat
  output : String
  /-- the last error, with its causes -/
  errorText : Option String

def indented (indent : String) (text : String) : String :=
  ("\n" ++ indent).intercalate ((text.toList.splitOn '\n').map String.ofList)

def numbered : Nat → List String → List String
  | _, [] => []
  | n, c :: rest =>
    let number := toString n
    (String.ofList (List.replicate (5 - number.length) ' ') ++ number ++ ": " ++
      indented "       " c) :: numbered (n + 1) rest

def errorText (context : String) (causes : List String) : String :=
  "Error: " ++ context ++
  match causes with
  | [] => ""
  | [cause] => "\n\nCaused by:\n    " ++ indented "    " cause
  | causes => "\n\nCaused by:\n" ++ "\n".intercalate (numbered 0 causes)

def diagnoseContext (treeish : String) : String :=
  "failed to diagnose API breaking changes against '" ++ treeish ++ "'"

def writeSummary (path : Path) (summary : Summary) (h : Host) : Except OsError Host :=
  h.write path summary.text

def writeContext (path : Path) : String := "write " ++ path.quoted

def succeeds (passed errorsReported : Bool) : Bool := passed && !errorsReported

def deliver (report : RunReport) (reportPath : Option Path) (s : Session) : Finish × Session :=
  let exitCode := if succeeds report.verdict.passed s.journal.errorsReported then 0 else 1
  let finish : Finish := ⟨exitCode, report.report.text, none⟩
  match reportPath with
  | none => (finish, report.close s)
  | some path =>
    match writeSummary path (report.summary s.host.now) s.host with
    | .ok host => (finish, report.close { s with host := host })
    | .error e =>
      ({ finish with exitCode := 1, errorText := some (errorText (writeContext path) [e.message]) },
        report.close s)

def failure (options : RunOptions) (e : Fault) : Finish :=
  ⟨1, "", some (errorText (diagnoseContext options.treeish) (e.message :: e.cause?.toList))⟩

def breakdown : Finish := ⟨101, "", none⟩

def diagnose (engine : Engine) (timing : Timing) (options : RunOptions) (reportPath : Option Path)
    (s : Session) : Finish × Session :=
  match engine.run timing options s with
  | (.ok report, s) => deliver report reportPath s
  | (.error (.fault e), s) => (failure options e, s)
  | (.error .overload, s) => (breakdown, s)

def renamedNotice : String :=
  "apidiff " ++ formerName ++ " has been renamed to apidiff " ++ diagnoseName

def usage : String := "Usage: apidiff [OPTIONS] " ++ diagnoseName ++ " <TREEISH>\n"

def refuse : Stop → Finish
  | .misuse => ⟨2, "", none⟩
  | .help => ⟨0, usage, none⟩
  | .version => ⟨0, "apidiff " ++ version ++ "\n", none⟩

def run (machineJobs : Nat) (timing : Timing) (environment : List (String × String))
    (words : List String) (h : Host) : Finish × Session :=
  let s := Session.ofHost h
  match parse machineJobs environment words with
  | .error stop => (refuse stop, s)
  | .ok .renamed => (⟨1, renamedNotice ++ "\n", none⟩, s)
  | .ok (.diagnose toolchain options reportPath) =>
    diagnose toolchain.engine timing options reportPath s

end Breakage.CommandLine
