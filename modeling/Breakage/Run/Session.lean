import Breakage.Journal
import Breakage.Milestone
import Breakage.Pool
import Breakage.Run.Collaborators

/-!
A session: the host, and what has been written down so far. Each call of a collaborator is noted
as it begins.
-/

namespace Breakage

inductive Call where
  | resolve (treeish : String)
  | checkOut (revision : Revision) (destination : Path)
  | graph (root : Path)
  | build (root : Path)
  | dump (module : ModuleName) (output : Path)
  | compare (module : ModuleName) (baseline : Path) (allowlist : Option Path)
  deriving DecidableEq, Repr

namespace Call

def isDump : Call → Bool
  | dump .. => true
  | _ => false

def isCompare : Call → Bool
  | compare .. => true
  | _ => false

def isCheckOut : Call → Bool
  | checkOut .. => true
  | _ => false

def builtRoot? : Call → Option Path
  | build root => some root
  | _ => none

def dumped? : Call → Option ModuleName
  | dump m _ => some m
  | _ => none

def compared? : Call → Option ModuleName
  | compare m _ _ => some m
  | _ => none

end Call

structure Session where
  host : Host
  journal : Journal
  milestones : List Milestone
  /-- oldest first -/
  calls : List Call

namespace Session

def ofHost (h : Host) : Session := ⟨h, .empty, [], []⟩

def emit (s : Session) (e : Event) : Session := { s with journal := s.journal.emit e }

def emitAll (s : Session) (es : List Event) : Session := { s with journal := s.journal.emitAll es }

def mark (s : Session) (m : Milestone) : Session := { s with milestones := s.milestones ++ [m] }

def note (s : Session) (c : Call) : Session := { s with calls := s.calls ++ [c] }

def ask {α : Type} (s : Session) (c : Call) (f : Host → α × Host) : α × Session :=
  let (a, host) := f s.host
  (a, { s.note c with host := host })

end Session

/-- What ends a run before its time. -/
inductive Halt where
  | fault (e : Fault)
  /-- more permits were asked for than a pool can have -/
  | overload

/-- A part of a run: it may come to a halt, and what was done before stays done. -/
abbrev Run (α : Type) := ExceptT Halt (StateM Session) α

namespace Run

def ask {α : Type} (c : Call) (f : Action α) : Run α :=
  ExceptT.mk fun s => let (r, s) := s.ask c f; (r.mapError .fault, s)

def update (f : Session → Session) : Run Unit := modify f

def ofExcept {α : Type} : Except Fault α → Run α
  | .ok a => pure a
  | .error e => throw (.fault e)

/-- What `body` does with a pool of so many permits, if there can be one. -/
def pooled {α : Type} (width : Nat) (body : StateM Session α) : Run α :=
  if Pool.widthLimit < width then throw .overload else liftM body

/-- What `body` does and then, however it ended, the tidying up. -/
def finallyDo {α : Type} (body : Run α) (tidy : Session → Session) : Run α :=
  ExceptT.mk fun s => let (r, s) := body s; (r, tidy s)

/-- What `body` does and, if it came to a halt, the tidying up. -/
def onHalt {α : Type} (body : Run α) (tidy : Session → Session) : Run α :=
  ExceptT.mk fun s => match body s with
    | (.ok a, s) => (.ok a, s)
    | (.error e, s) => (.error e, tidy s)

end Run

end Breakage
