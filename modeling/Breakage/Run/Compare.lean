import Breakage.Outcome
import Breakage.Run.Session
import Breakage.SharedStore

/-!
Comparing modules with their digests, so many at a time. A module without a digest is skipped.
What goes wrong with one module, a crash of its task included, fails that module and no other.
-/

namespace Breakage

structure Comparing where
  session : Session
  skipped : ModuleMap SkipReason
  results : SharedStore Comparison
  failures : SharedStore (ModuleName × String)
  /-- the modules whose task crashed -/
  aborted : ModuleMap String

namespace Comparing

def ofSession (s : Session) : Comparing := ⟨s, .empty, .single, .single, .empty⟩

abbrev Answer := Ending (Except Fault Comparison)

abbrev start (s : Session) (width : Nat) (modules : ModuleSet) : Pool Comparing ModuleName Answer :=
  Pool.init (.ofSession s) width modules.toList

def failureError (m : ModuleName) (reason : String) : Event :=
  .error ("failed to compare API to baseline for " ++ m.text ++ ": " ++ reason)

/-- The result for a module: the digester's, under the module's own name and without the changes
that are allowed. -/
def resultFor (m : ModuleName) (allowlist : Allowlist) (c : Comparison) : Comparison :=
  { c.filterAllowed allowlist with module := m }

def duty (digester : Digester) (plan : BuildPlan) (directory : Path) (allowlist : Allowlist)
    (generationFailures : ModuleSet) : Pool.Duty Comparing ModuleName Answer where
  admits m w := w.session.host.exists? (m.digestPath directory)
  refuse m w :=
    let reason := if m ∈ generationFailures then .generationFailed else .notInBaseline
    { w with skipped := w.skipped.insert m reason }
  call m w :=
    let baseline := m.digestPath directory
    let (answer, session) := w.session.ask (.compare m baseline allowlist.source)
      (digester.compare baseline m plan allowlist.source)
    (answer, { w with session := session })
  report m answer w :=
    match answer with
    | .returned (.ok c) =>
      let result := resultFor m allowlist c
      { w with
        session := w.session.mark (.compared m result.breakingChanges.length)
        results := w.results.append 0 result }
    | .returned (.error e) =>
      { w with
        session := w.session.emit (failureError m e.message)
        failures := w.failures.append 0 (m, e.message) }
    | .crashed _ => w
  settle task m answer w :=
    match answer with
    | .crashed words =>
      { w with
        session := w.session.emit (failureError m (crashText task words))
        aborted := w.aborted.insert m (crashText task words) }
    | .returned _ => w

def outcome (w : Comparing) (modules : ModuleSet) : Outcome where
  requested := modules
  skipped := w.skipped
  failed := (ModuleMap.ofList (w.failures.drain 0).1).merge w.aborted
  results := (w.results.drain 0).1

end Comparing

/-- Compares the modules with their digests in the directory, at most `width` at a time. -/
def compareAll (digester : Digester) (plan : BuildPlan) (directory : Path) (allowlist : Allowlist)
    (generationFailures modules : ModuleSet) (width : Nat) (schedule : Pool.Schedule) : Run Outcome :=
  Run.pooled width fun s =>
    let duty := Comparing.duty digester plan directory allowlist generationFailures
    let w := (duty.run schedule (Comparing.start s width modules)).world
    (w.outcome modules, w.session)

end Breakage
