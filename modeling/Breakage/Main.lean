import Breakage.CommandLine.Program
import Breakage.Rehearsal.Scene

/-!
The program `apidiff` in a scene that is given on standard input.
-/

open Breakage

namespace Breakage.Stage

def home : Place := ["work"]

def temporary : Place := ["tmp"]

def endings : List String := (List.range 1000).map toString

def now : Instant := ⟨2026, 1, 1, 0, 0, 0, 0⟩

end Breakage.Stage

open Breakage.Stage in
def main (words : List String) : IO UInt32 := do
  let text ← (← IO.getStdin).readToEnd
  match Json.parse? text with
  | none =>
    IO.eprintln "the scene is not JSON"
    return 2
  | some v =>
    let scene := Rehearsal.Scene.read home [home, temporary] v
    let host := scene.host home temporary endings now
    let (finish, session) := CommandLine.run 1 .plain scene.environment words host
    for event in session.journal.upTo (CommandLine.logLevel scene.environment words) do
      IO.eprintln event.message
    IO.print finish.output
    for text in finish.errorText do
      IO.eprintln text
    return finish.exitCode.toUInt32
