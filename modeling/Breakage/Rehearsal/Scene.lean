import Breakage.Json.Reader
import Breakage.Rehearsal.Programs

/-!
Scenes: a machine laid down in advance, with its files, the answers of its programs and its
environment. A scene is read from JSON; what is left out of it is empty.
-/

namespace Breakage.Rehearsal

structure Scene where
  files : FileTree
  script : Script
  environment : List (String × String)

namespace Scene

/-! ### Reading -/

def field? (v : Json) (name : String) : Option Json := (v.get? name).filter fun x => !x.isNull

def text? (v : Json) (name : String) : Option String := (field? v name).bind Json.asText?

def list (v : Json) (name : String) : List Json := ((field? v name).bind Json.asList?).getD []

def members (v : Json) (name : String) : List (String × Json) :=
  match field? v name with
  | some (.object ms) => ms.filterMap fun m => match m.1 with
    | .plain k => some (k, m.2)
    | .unpaired => none
  | _ => []

def bytesOfHex : List Char → Text.Bytes
  | a :: b :: rest =>
    let value (c : Char) : Nat := (Text.hexValue c).getD 0
    UInt8.ofNat (value a * 16 + value b) :: bytesOfHex rest
  | _ => []

/-- A text, or the bytes in the field of that name with the ending `_hex`. -/
def bytes (v : Json) (name : String) : Text.Bytes :=
  match text? v (name ++ "_hex") with
  | some digits => bytesOfHex digits.toList
  | none => ((text? v name).getD "").toUTF8.toList

/-- A text is a file, and so are bytes given as `hex`; null is a directory. -/
def entry (v : Json) : FileTree.Entry :=
  match v with
  | .string (.plain s) => .file (.text s)
  | v => match text? v "hex" with
    | some digits => .file (.ofBytes (bytesOfHex digits.toList))
    | none => .directory

def place (t : FileTree) (p : Place) (e : FileTree.Entry) : FileTree :=
  let above := (List.range p.length).map fun n => p.take n
  let t := above.foldl (fun t q => if t.isDirectory q then t else t.put q .directory) t
  if e = .directory && t.isDirectory p then t else t.put p e

def placeAll (t : FileTree) (home : Place) (entries : List (String × Json)) : FileTree :=
  entries.foldl (fun t f => place t (home ++ Path.names ⟨f.1⟩) (entry f.2)) t

def exitCodes : Int := 256

def rule (v : Json) : Rule :=
  let words := (list v "match").filterMap Json.asText?
  let exit := ((field? v "exit").bind Json.asInt?).getD 0
  let bool (name : String) : Option Bool := (field? v name).bind Json.asBool?
  { program := words.headD ""
    words := words.tail
    side := (text? v "side").map fun s => if s = "current" then .current else .baseline
    output := bytes v "stdout"
    errorOutput := bytes v "stderr"
    exit := exit % exitCodes
    isKilled := (bool "killed").getD false
    writes := (bool "write").getD (decide (exit = 0))
    isSlow := (field? v "sleep_ms").isSome }

/-- The scene with its files below `home`, where the directories given are to be found as well. -/
def read (home : Place) (directories : List Place) (v : Json) : Scene :=
  let bare := directories.foldl (fun t p => place t p .directory) .empty
  { files := placeAll bare home (members v "files")
    script :=
      { home := home
        programs := ["git", "swift", "api-digester", "custom-build", "custom digester"]
        forbidden := ["not-executable"]
        rules := (list v "tools").map rule }
    environment := (members v "env").filterMap fun m => m.2.asText?.map fun s => (m.1, s) }

def host (s : Scene) (workingDirectory temporary : Place) (endings : List String) (now : Instant) :
    Host where
  files := s.files
  workingDirectory := workingDirectory
  temporary := FileTree.pathOf true temporary.reverse
  endings := endings
  now := now
  programs := s.script.host
  invocations := []

end Scene

end Breakage.Rehearsal
