import Breakage.Journal
import Breakage.Outcome

/-!
The report for people: a block of lines for each module that was skipped or compared, in name
order. A failed module has no block, since its error was shown when it failed.
-/

namespace Breakage

structure Report where
  lines : List String
  deriving DecidableEq, Repr

namespace Report

def text (r : Report) : String := String.join (r.lines.map fun line => line ++ "\n")

def hasInfix (needle : List Char) : List Char → Bool
  | [] => needle.isEmpty
  | c :: rest => needle.isPrefixOf (c :: rest) || hasInfix needle rest

def contains (r : Report) (needle : String) : Bool :=
  r.lines.any fun line => hasInfix needle.toList line.toList

def skipLine (m : ModuleName) : SkipReason → String
  | .notInBaseline => "Skipping " ++ m.text ++ " because it does not exist in the baseline"
  | .generationFailed => "Skipping " ++ m.text ++ " because its baseline could not be generated"

/-- What stands before the message of a breaking change. -/
def changeMark : String := "  💔 "

def header (c : Comparison) : String :=
  if c.breakingChanges.length = 0 then "No breaking changes detected in " ++ c.module.text
  else
    toString c.breakingChanges.length ++
      (if c.breakingChanges.length = 1 then " breaking change" else " breaking changes") ++
      " detected in " ++ c.module.text ++ ":"

def resultLines (c : Comparison) : List String := header c :: c.changes.map (changeMark ++ ·)

def block (o : Outcome) (m : ModuleName) : List String :=
  match o.skipped.get? m with
  | some reason => [skipLine m reason]
  | none => (o.result? m).elim [] resultLines

def ofOutcome (o : Outcome) : Report := ⟨o.requested.toList.flatMap (block o)⟩

/-- The event for a diagnostic that is no breaking change; ignored ones have none. -/
def event? (d : Diagnostic) : Option Event :=
  match d.severity with
  | .error | .fatal => some ⟨.error, d.message, d.location⟩
  | .warning => some ⟨.warning, d.message, d.location⟩
  | .note | .remark => some ⟨.info, d.message, d.location⟩
  | .ignored => none

def moduleEvents (o : Outcome) (m : ModuleName) : List Event :=
  match o.skipped.get? m with
  | some _ => []
  | none => (o.result? m).elim [] fun c => c.otherDiagnostics.filterMap event?

def events (o : Outcome) : List Event := o.requested.toList.flatMap (moduleEvents o)

end Report

end Breakage
