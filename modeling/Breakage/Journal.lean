import Breakage.Diagnostic

/-!
The journal of a run: the events shown to the user, and a flag that tells whether one of them was
an error. An event is entered in two steps, the flag before the event, so that many tasks may
write at once.
-/

namespace Breakage

inductive Level where
  | error | warning | info
  deriving DecidableEq, Repr

def Level.codec : Json.Codec Level :=
  .choice [("error", .error), ("warning", .warning), ("info", .info)]

structure Event where
  level : Level
  message : String
  location : Option Location
  deriving DecidableEq, Repr

namespace Event

def error (message : String) : Event := ⟨.error, message, none⟩

def warning (message : String) : Event := ⟨.warning, message, none⟩

def info (message : String) : Event := ⟨.info, message, none⟩

def isError (e : Event) : Bool := decide (e.level = .error)

def codec : Json.Codec Event where
  encode e := .record
    [("level", Level.codec.encode e.level), ("message", .text e.message),
     ("location", .ofOption Location.codec.encode e.location)]
  decode v := do
    let [level, message, location] ← v.slots ["level", "message", "location"] | none
    return ⟨← level.required Level.codec.decode, ← message.required Json.asText?,
      ← location.nullable Location.codec.decode⟩

end Event

structure Journal where
  errorsReported : Bool
  /-- oldest first -/
  events : List Event
  deriving DecidableEq, Repr

namespace Journal

def empty : Journal := ⟨false, []⟩

instance : Inhabited Journal := ⟨empty⟩

/-- The first step of entering an event: an error raises the flag. -/
def raiseFor (e : Event) (j : Journal) : Journal :=
  { j with errorsReported := j.errorsReported || e.isError }

/-- The second step of entering an event. -/
def append (e : Event) (j : Journal) : Journal := { j with events := j.events ++ [e] }

def emit (j : Journal) (e : Event) : Journal := (j.raiseFor e).append e

def emitAll (j : Journal) (es : List Event) : Journal := es.foldl emit j

def messages (j : Journal) (level : Level) : List String :=
  (j.events.filter fun e => decide (e.level = level)).map Event.message

/-- The flag is raised just when there is an error among the events. -/
def IsConsistent (j : Journal) : Prop := j.errorsReported = j.events.any Event.isError

theorem isConsistent_empty : empty.IsConsistent := rfl

theorem events_emitAll (j : Journal) (es : List Event) : (j.emitAll es).events = j.events ++ es := by
  induction es generalizing j with
  | nil => simp [emitAll]
  | cons e rest ih =>
    have : j.emitAll (e :: rest) = (j.emit e).emitAll rest := rfl
    rw [this, ih]
    simp [emit, append, raiseFor]

end Journal

end Breakage
