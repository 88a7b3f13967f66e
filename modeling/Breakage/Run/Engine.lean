import Breakage.Outcome.Report
import Breakage.Outcome.Summary
import Breakage.Package.Selection
import Breakage.Run.Baseline
import Breakage.Run.Compare
import Breakage.Run.Options

/-!
A whole run: resolve the baseline, choose the modules, read the allowlist, build, make the baseline
ready, compare, and report. A fault on the way ends the run before there is a report, and so does a
pool that is too large to be made; what was made for the run alone is then taken away.
-/

namespace Breakage

structure Engine where
  packageRoot : Path
  collaborators : Collaborators

/-- The order of events in the two parts of a run that do things side by side. -/
structure Timing where
  dumps : Pool.Schedule
  comparisons : Pool.Schedule

/-- The moves are made in the order in which the pool lists them. -/
def Timing.plain : Timing := ⟨fun _ => 0, fun _ => 0⟩

structure Prepared where
  revision : Revision
  modules : ModuleSet
  allowlist : Allowlist
  plan : BuildPlan

structure RunReport where
  treeish : String
  revision : Revision
  outcome : Outcome
  report : Report
  verdict : Verdict
  baseline : Baseline

namespace RunReport

def summary (r : RunReport) (now : Instant) : Summary :=
  .ofOutcome now r.treeish r.revision r.outcome r.verdict

/-- Gives up the report, and with it a temporary baseline directory. -/
def close (r : RunReport) (s : Session) : Session := r.baseline.directory.close s

end RunReport

/-- The allowlist in the file; an empty one if there is no file to read. -/
def Allowlist.load (h : Host) : Option Path → Except Fault Allowlist
  | none => .ok .empty
  | some path =>
    match h.readText path with
    | .ok content => .ok { Allowlist.parse content with source := some path }
    | .error e => .error (.allowlistUnreadable path e)

namespace Engine

variable (engine : Engine)

def selectModules (graph : PackageGraph) (options : RunOptions) : Run ModuleSet :=
  ExceptT.mk fun s =>
    let (r, events) :=
      graph.select engine.collaborators.digester.language options.products options.targets
    (r.mapError .fault, s.emitAll events)

def conclude (options : RunOptions) (revision : Revision) (baseline : Baseline) (outcome : Outcome) :
    StateM Session RunReport := fun s =>
  let verdict := Verdict.ofOutcome outcome
  let judged := .judged verdict.passed verdict.violations.length
  let s := (s.emitAll (Report.events outcome)).mark judged
  (⟨options.treeish, revision, outcome, .ofOutcome outcome, verdict, baseline⟩, s)

/-- The part of a run before it turns to the baseline. -/
def prepare (options : RunOptions) : Run Prepared := do
  let c := engine.collaborators
  let revision ← Run.ask (.resolve options.treeish) (c.versionControl.resolve options.treeish)
  let graph ← Run.ask (.graph engine.packageRoot) (c.buildSystem.graph engine.packageRoot)
  let modules ← engine.selectModules graph options
  Run.update (Session.mark · (.started options.treeish revision.id modules.size))
  let allowlist ← Run.ofExcept (Allowlist.load (← get).host options.allowlist)
  let plan ← Run.ask (.build engine.packageRoot) (c.buildSystem.build engine.packageRoot)
  return ⟨revision, modules, allowlist, plan⟩

def run (timing : Timing) (options : RunOptions) : Run RunReport := do
  let c := engine.collaborators
  let p ← engine.prepare options
  let baseline ← Baseline.prepare c p.modules p.revision options.baselineDirectory
    options.regenerate timing.dumps
  let directory := baseline.directory.path
  let dumps := baseline.dumps
  let ready := .baselineReady directory dumps.dumped.size dumps.generationFailures.size
  Run.update (Session.mark · ready)
  let outcome ← (compareAll c.digester p.plan directory p.allowlist dumps.generationFailures
    p.modules c.buildSystem.workers timing.comparisons).onHalt baseline.directory.close
  conclude options p.revision baseline outcome

end Engine

end Breakage
