import Breakage.Path
import Breakage.Text.Blank

/-!
Allowlists: messages of breaking changes that are to be passed over. In a file there is one on a
line, and blanks around it do not count.
-/

namespace Breakage

structure Allowlist where
  entries : List String
  /-- the file that it was read from -/
  source : Option Path
  deriving DecidableEq, Repr

namespace Allowlist

def empty : Allowlist := ⟨[], none⟩

instance : Inhabited Allowlist := ⟨empty⟩

def ofEntries (entries : List String) : Allowlist := ⟨entries.eraseDups, none⟩

def lines (content : String) : List String :=
  ((content.toList.splitOn '\n').map fun s => String.ofList (Text.trimChars s)).filter
    fun s => s != ""

def parse (content : String) : Allowlist := ofEntries (lines content)

/-- A message is on the list when an entry has exactly its text. -/
def contains (a : Allowlist) (message : String) : Bool := a.entries.contains message

def size (a : Allowlist) : Nat := a.entries.length

def isEmpty (a : Allowlist) : Bool := a.entries.isEmpty

theorem contains_ofEntries (entries : List String) (message : String) :
    (ofEntries entries).contains message = entries.contains message := by
  simp [ofEntries, contains]

end Allowlist

end Breakage
