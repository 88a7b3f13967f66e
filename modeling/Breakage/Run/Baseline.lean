import Breakage.Run.Session

/-!
Making ready the baseline: a directory with a digest for every module to compare. Digests that are
there already are taken as they are, unless all are to be made anew; if none is wanting, the
baseline is neither checked out nor built. A module whose digest cannot be made is left out.
-/

namespace Breakage

inductive BaselineDirectory where
  /-- named by the user, kept -/
  | kept (path : Path)
  /-- made for one run -/
  | temporary (path : Path)
  deriving DecidableEq, Repr

namespace BaselineDirectory

def path : BaselineDirectory → Path
  | kept p => p
  | temporary p => p

def close (d : BaselineDirectory) (s : Session) : Session :=
  match d with
  | kept _ => s
  | temporary p => { s with host := s.host.removeTree p }

def stem (revision : Revision) : String := "apidiff-baseline-" ++ revision.short ++ "-"

/-- The directory named, which is made if need be, or else a new temporary one. -/
def opened (named : Option Path) (revision : Revision) : Run BaselineDirectory :=
  ExceptT.mk fun s =>
    match named with
    | some path =>
      match s.host.makeDirectories path with
      | (.ok (), host) => (.ok (.kept path), { s with host := host })
      | (.error e, host) =>
        (.error (.fault (.baselineDirectory path e.message)), { s with host := host })
    | none =>
      match s.host.makeTemporary (stem revision) with
      | .ok (path, host) => (.ok (.temporary path), { s with host := host })
      | .error e => (.error (.fault (.baselineDirectory s.host.temporary e.message)), s)

end BaselineDirectory

structure Dumps where
  dumped : ModuleSet
  /-- the baseline has the module, but its digest could not be made -/
  generationFailures : ModuleSet
  notInBaseline : ModuleSet

namespace Dumps

def none : Dumps := ⟨.empty, .empty, .empty⟩

def isReported (d : Dumps) (m : ModuleName) : Bool :=
  decide (m ∈ d.dumped) || decide (m ∈ d.generationFailures)

end Dumps

structure Baseline where
  directory : BaselineDirectory
  dumps : Dumps

namespace Baseline

structure Dumping where
  session : Session
  dumps : Dumps

abbrev Dumped := Ending (Except Fault Unit)

abbrev Dumping.start (s : Session) (width : Nat) (needed : ModuleSet) :
    Pool Dumping ModuleName Dumped :=
  Pool.init ⟨s, .none⟩ width needed.toList

def removeDigest (directory : Path) (m : ModuleName) (s : Session) : Session :=
  { s with host := s.host.removeFile (m.digestPath directory) }

def failureWarning (m : ModuleName) (e : Fault) : Event :=
  .warning ("failed to generate API baseline for " ++ m.text ++ ": " ++ e.message)

def crashWarning (task : Nat) (words : String) : Event :=
  .warning ("baseline generation task failed: " ++ crashText task words)

def duty (digester : Digester) (plan : BuildPlan) (directory : Path) (defined : ModuleSet) :
    Pool.Duty Dumping ModuleName Dumped where
  admits m _ := decide (m ∈ defined)
  refuse m w :=
    { session := removeDigest directory m w.session
      dumps := { w.dumps with notInBaseline := w.dumps.notInBaseline.insert m } }
  call m w :=
    let output := m.digestPath directory
    let (answer, session) := w.session.ask (.dump m output) (digester.dump m plan output)
    (answer, { w with session := session })
  report m answer w :=
    match answer with
    | .returned (.error _) => { w with session := removeDigest directory m w.session }
    | _ => w
  settle task m answer w :=
    match answer with
    | .returned (.ok ()) => { w with dumps := { w.dumps with dumped := w.dumps.dumped.insert m } }
    | .returned (.error e) =>
      { session := w.session.emit (failureWarning m e)
        dumps := { w.dumps with generationFailures := w.dumps.generationFailures.insert m } }
    | .crashed words => { w with session := w.session.emit (crashWarning task words) }

/-- Counts a module as failed whose task ended without a word. -/
def sweep (directory : Path) (w : Dumping) (m : ModuleName) : Dumping :=
  { session := removeDigest directory m w.session
    dumps := { w.dumps with generationFailures := w.dumps.generationFailures.insert m } }

/-- The world after all tasks have been joined, with those that crashed accounted for. -/
def afterTasks (directory : Path) (p : Pool Dumping ModuleName Dumped) : Dumping :=
  let silent := (ModuleSet.ofList p.started).filter fun m => !p.world.dumps.isReported m
  silent.toList.foldl (sweep directory) p.world

/-- Makes the digests of the needed modules, so many at a time. -/
def dumpAll (digester : Digester) (plan : BuildPlan) (directory : Path) (defined needed : ModuleSet)
    (width : Nat) (schedule : Pool.Schedule) : Run Dumps :=
  Run.pooled width fun s =>
    let pool := Dumping.start s width needed
    let w := afterTasks directory ((duty digester plan directory defined).run schedule pool)
    (w.dumps, w.session)

def openCheckout : Run Path :=
  ExceptT.mk fun s =>
    match s.host.makeTemporary "apidiff-checkout-" with
    | .ok (path, host) => (.ok path, { s with host := host })
    | .error e => (.error (.fault (.io e)), s)

/-- Checks the baseline out, builds it, and works there with the modules that it defines. -/
def inCheckout {α : Type} (c : Collaborators) (revision : Revision)
    (body : BuildPlan → (defined : ModuleSet) → Run α) : Run α := do
  let checkout ← openCheckout
  let work : Run α := do
    let destination := checkout.join "baseline"
    let root ← Run.ask (.checkOut revision destination)
      (c.versionControl.checkOut revision destination)
    let plan ← Run.ask (.build root) (c.buildSystem.build root)
    let graph ← Run.ask (.graph root) (c.buildSystem.graph root)
    body plan (graph.diffableModules c.digester.language)
  work.finallyDo fun s => { s with host := s.host.removeTree checkout }

def generate (c : Collaborators) (revision : Revision) (directory : Path) (needed : ModuleSet)
    (schedule : Pool.Schedule) : Run Dumps :=
  inCheckout c revision fun plan defined =>
    dumpAll c.digester plan directory defined needed c.buildSystem.workers schedule

/-- The modules whose digest has to be made. -/
def needed (h : Host) (directory : Path) (modules : ModuleSet) (regenerate : Bool) : ModuleSet :=
  modules.filter fun m => regenerate || !h.exists? (m.digestPath directory)

def prepare (c : Collaborators) (modules : ModuleSet) (revision : Revision) (named : Option Path)
    (regenerate : Bool) (schedule : Pool.Schedule) : Run Baseline := do
  let directory ← BaselineDirectory.opened named revision
  let missing := needed (← get).host directory.path modules regenerate
  if missing.isEmpty then return ⟨directory, .none⟩
  else
    let dumps ← (generate c revision directory.path missing schedule).onHalt directory.close
    return ⟨directory, dumps⟩

end Baseline

end Breakage
