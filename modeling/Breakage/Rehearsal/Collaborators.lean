import Breakage.Run.Collaborators

/-!
Collaborators that follow a script: revisions from a table, fixed packages that are never really
built, and a digester whose answers are laid down for each module.
-/

namespace Breakage.Rehearsal

/-- Version control that knows the revisions of a table and checks out empty directories. -/
structure Revisions where
  table : List (String × Revision)

def Revisions.versionControl (r : Revisions) : VersionControl where
  resolve treeish h :=
    match r.table.find? fun e => e.1 == treeish with
    | some (_, revision) => (.ok revision, h)
    | none => (.error (.revisionNotFound treeish "unknown revision"), h)
  checkOut _ destination h :=
    match h.makeDirectories destination with
    | (.ok (), h) => (.ok destination, h)
    | (.error e, h) => (.error (.io e), h)

structure FixedPackage where
  root : Path
  graph : PackageGraph
  baseline : Option PackageGraph
  workers : Nat
  /-- only the current tree can be built -/
  failsElsewhere : Bool

namespace FixedPackage

def samePath (a b : Path) : Bool :=
  a.isAbsolute == b.isAbsolute && a.names == b.names

def buildSystem (p : FixedPackage) : BuildSystem where
  graph root h := (.ok (if samePath root p.root then p.graph else p.baseline.getD p.graph), h)
  build root h :=
    if p.failsElsewhere && !samePath root p.root then
      (.error (.build ("compilation failed in " ++ root.text)), h)
    else (.ok ⟨root, root.join ".build"⟩, h)
  workers := p.workers

end FixedPackage

/-- How the comparison of a module goes. -/
inductive Part where
  | report (breaking : List String) (other : List Diagnostic)
  | fail (reason : String)
  | crash
  deriving Repr

/-- A digester with a part for each module; the others compare clean. -/
structure ScriptedDigester where
  language : Language
  parts : ModuleMap Part
  /-- the modules whose dump fails -/
  failingDumps : List ModuleName
  /-- the modules whose dump crashes when it is done -/
  crashingDumps : List ModuleName
  /-- the module that a comparison is put down to, if not its own -/
  renamed : List (ModuleName × ModuleName)

namespace ScriptedDigester

def plain : ScriptedDigester := ⟨.swift, .empty, [], [], []⟩

def reported (d : ScriptedDigester) (m : ModuleName) : List String × List Diagnostic :=
  match d.parts.get? m with
  | some (.report breaking other) => (breaking, other)
  | _ => ([], [])

def setPart (d : ScriptedDigester) (m : ModuleName) (p : Part) : ScriptedDigester :=
  { d with parts := d.parts.insert m p }

def addBreaking (d : ScriptedDigester) (m : ModuleName) (messages : List String) : ScriptedDigester :=
  let (breaking, other) := d.reported m
  d.setPart m (.report (breaking ++ messages) other)

def addDiagnostic (d : ScriptedDigester) (m : ModuleName) (diagnostic : Diagnostic) :
    ScriptedDigester :=
  let (breaking, other) := d.reported m
  d.setPart m (.report breaking (other ++ [diagnostic]))

def failDump (d : ScriptedDigester) (m : ModuleName) : ScriptedDigester :=
  { d with failingDumps := m :: d.failingDumps }

def toolName : String := "fake-digester"

def digest (m : ModuleName) : String := (Json.record [("module", .text m.text)]).compact

def dump (d : ScriptedDigester) (m : ModuleName) (output : Path) (h : Host) :
    Except Fault Unit × Host :=
  if m ∈ d.failingDumps then (.error (.tool toolName m.text "dump failed"), h)
  else match h.write output (digest m) with
    | .ok h => (.ok (), h)
    | .error e => (.error (.io e), h)

def comparison (d : ScriptedDigester) (m : ModuleName) : Ending (Except Fault Comparison) :=
  let owner := ((d.renamed.find? fun r => decide (r.1 = m)).map Prod.snd).getD m
  match d.parts.get? m with
  | none => .returned (.ok (.clean owner))
  | some (.report breaking other) =>
    .returned (.ok ⟨owner, breaking.map fun message => ⟨.error, message, none⟩, other⟩)
  | some (.fail reason) => .returned (.error (.tool toolName m.text reason))
  | some .crash => .crashed ("digester crashed on " ++ m.text)

def digester (d : ScriptedDigester) : Digester where
  language := d.language
  dump m _ output h :=
    let (r, h) := d.dump m output h
    if m ∈ d.crashingDumps then (.crashed ("dump crashed on " ++ m.text), h) else (.returned r, h)
  compare _ m _ _ h := (d.comparison m, h)

end ScriptedDigester

end Breakage.Rehearsal
