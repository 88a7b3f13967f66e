import Breakage.OsError
import Breakage.Text.Utf8

/-!
A tree of directories and files, and how paths lead through it. A path is walked name by name from
a place; every name but the last has to lead to a directory that is there. Main statements: a
write is read back, and a write changes nothing elsewhere.
-/

namespace Breakage

abbrev Place := List String

namespace FileTree

/-- The contents of a file; bytes are kept only where they are no text. -/
inductive Content where
  | text (s : String)
  | raw (bytes : Text.Bytes)
  deriving DecidableEq, Repr

def Content.ofBytes (bytes : Text.Bytes) : Content :=
  if Text.isUtf8 bytes then .text (Text.decodeUtf8 bytes) else .raw bytes

inductive Entry where
  | directory
  | file (content : Content)
  deriving DecidableEq, Repr

end FileTree

/-- What is at each place. The root is a directory that is always there. -/
structure FileTree where
  entries : List (Place × FileTree.Entry)
  deriving DecidableEq, Repr

namespace FileTree

def empty : FileTree := ⟨[]⟩

instance : Inhabited FileTree := ⟨empty⟩

def lookup (t : FileTree) (p : Place) : Option Entry :=
  if p = [] then some .directory
  else (t.entries.find? fun e => decide (e.1 = p)).map Prod.snd

def isDirectory (t : FileTree) (p : Place) : Bool := t.lookup p == some .directory

def put (t : FileTree) (p : Place) (e : Entry) : FileTree :=
  ⟨(p, e) :: t.entries.filter fun o => decide (o.1 ≠ p)⟩

def erase (t : FileTree) (p : Place) : FileTree := ⟨t.entries.filter fun o => decide (o.1 ≠ p)⟩

/-- The tree without the place and all below it. -/
def prune (t : FileTree) (p : Place) : FileTree := ⟨t.entries.filter fun o => !p.isPrefixOf o.1⟩

def names (t : FileTree) (p : Place) : List String :=
  t.entries.filterMap fun e => if e.1.dropLast = p then e.1.getLast? else none

theorem lookup_put (t : FileTree) (p q : Place) (e : Entry) (h : q ≠ []) :
    (t.put p e).lookup q = if q = p then some e else t.lookup q := by
  obtain ⟨es⟩ := t
  simp only [lookup, put, h, if_false, List.find?_cons]
  by_cases hq : p = q
  · simp [hq]
  · simp only [hq, decide_false, Ne.symm hq, if_false, List.find?_filter]
    congr 2
    funext o
    by_cases ho : o.1 = q
    · simp [ho, Ne.symm hq]
    · simp [ho]

theorem lookup_erase (t : FileTree) (p q : Place) (h : q ≠ []) :
    (t.erase p).lookup q = if q = p then none else t.lookup q := by
  obtain ⟨es⟩ := t
  simp only [lookup, erase, h, if_false, List.find?_filter]
  by_cases hq : q = p
  · subst hq
    simp
  · simp only [hq, if_false]
    congr 2
    funext o
    by_cases ho : o.1 = q
    · simp [ho, hq]
    · simp [ho]

/-! ### Walking -/

/-- The most bytes in a name, and in a path with its end mark. -/
def nameLimit : Nat := 255

def pathLimit : Nat := 4096

/-- From a place along one name. The place has to be a directory; the next one may be missing. -/
def step (t : FileTree) (here : Place) (name : String) : Except OsError Place :=
  match t.lookup here with
  | none => .error .notFound
  | some (.file _) => .error .notDirectory
  | some .directory =>
    if name = "" || name = "." then .ok here
    else if name = ".." then .ok here.dropLast
    else if nameLimit < name.utf8ByteSize then .error .nameTooLong
    else .ok (here ++ [name])

def walk (t : FileTree) (here : Place) (names : List String) : Except OsError Place :=
  names.foldlM t.step here

def start (here : Place) (path : Path) : Place := if path.isAbsolute then [] else here

def textError? (path : Path) : Option OsError :=
  if path.text.toList.contains (Char.ofNat 0) then some .nulInPath
  else if path.text = "" then some .notFound
  else if pathLimit ≤ path.text.utf8ByteSize then some .nameTooLong
  else none

def locate (t : FileTree) (here : Place) (path : Path) : Except OsError Place :=
  match textError? path with
  | some e => .error e
  | none => t.walk (start here path) path.components

/-- The names without the empty ones at the end. -/
def withoutEnd (names : List String) : List String := (names.reverse.dropWhile (· = "")).reverse

def endsInSlash (path : Path) : Bool := path.text.toList.getLast? == some '/'

/-- The place of something to be made; a slash at the end does not count. -/
def locateNew (t : FileTree) (here : Place) (path : Path) : Except OsError Place :=
  match textError? path with
  | some e => .error e
  | none => t.walk (start here path) (withoutEnd path.components)

/-! ### Requests -/

def status (t : FileTree) (here : Place) (path : Path) : Except OsError Entry := do
  let p ← t.locate here path
  match t.lookup p with
  | some e => .ok e
  | none => .error .notFound

/-- There is something; a path that cannot be followed has nothing. -/
def exists? (t : FileTree) (here : Place) (path : Path) : Bool := (t.status here path).isOk

def readText (t : FileTree) (here : Place) (path : Path) : Except OsError String := do
  match ← t.status here path with
  | .directory => .error .isDirectory
  | .file (.raw _) => .error .notText
  | .file (.text s) => .ok s

def write (t : FileTree) (here : Place) (path : Path) (content : Content) :
    Except OsError FileTree := do
  let p ← t.locateNew here path
  if endsInSlash path || t.isDirectory p then .error .isDirectory
  else .ok (t.put p (.file content))

/-- The file is taken away; a directory stays, and so does what cannot be reached. -/
def removeFile (t : FileTree) (here : Place) (path : Path) : FileTree :=
  match t.locate here path with
  | .error _ => t
  | .ok p => if t.isDirectory p then t else t.erase p

def removeTree (t : FileTree) (here : Place) (path : Path) : FileTree :=
  match t.locate here path with
  | .error _ => t
  | .ok p => t.prune p

def makeDirectory (t : FileTree) (here : Place) (path : Path) : Except OsError FileTree := do
  let p ← t.locateNew here path
  match t.lookup p with
  | some _ => .error .fileExists
  | none => .ok (t.put p .directory)

/-- Goes on from the tree with the error, unless the path denotes a directory. -/
def unlessDirectory (t : FileTree) (here : Place) (path : Path) (e : OsError) :
    Except OsError Unit × FileTree :=
  match t.status here path with
  | .ok .directory => (.ok (), t)
  | _ => (.error e, t)

def pathOf (absolute : Bool) (reversed : List String) : Path :=
  ⟨(if absolute then "/" else "") ++ "/".intercalate reversed.reverse⟩

/-- Makes the directory and, where they are missing, those above it, of which the names are given,
the last one first. -/
def makeAbove (t : FileTree) (here : Place) (absolute : Bool) (path : Path) :
    List String → Except OsError Unit × FileTree
  | [] =>
    match t.makeDirectory here path with
    | .ok t => (.ok (), t)
    | .error e => t.unlessDirectory here path e
  | name :: rest =>
    match t.makeDirectory here path with
    | .ok t => (.ok (), t)
    | .error .notFound =>
      match makeAbove t here absolute (pathOf absolute (name :: rest)) rest with
      | (.error e, t) => (.error e, t)
      | (.ok (), t) =>
        match t.makeDirectory here path with
        | .ok t => (.ok (), t)
        | .error e => t.unlessDirectory here path e
    | .error e => t.unlessDirectory here path e

/-- Makes the directory with all that are missing above it. What was made before an error stays. -/
def makeDirectories (t : FileTree) (here : Place) (path : Path) : Except OsError Unit × FileTree :=
  if path.text = "" then (.ok (), t)
  else t.makeAbove here path.isAbsolute path path.names.reverse.tail

end FileTree

end Breakage
