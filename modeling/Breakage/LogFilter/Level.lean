import Breakage.Text.Number

/-!
Log levels, from silent to talkative. A level is written by its name in any case, or by its number.
-/

namespace Breakage

inductive LogLevel where
  | off | error | warn | info | debug | trace
  deriving DecidableEq, Repr

namespace LogLevel

def names : List (String × LogLevel) :=
  [("off", off), ("error", error), ("warn", warn), ("info", info), ("debug", debug), ("trace", trace)]

def rank : LogLevel → Nat
  | off => 0
  | error => 1
  | warn => 2
  | info => 3
  | debug => 4
  | trace => 5

def louder (a b : LogLevel) : LogLevel := if a.rank < b.rank then b else a

def ofRank (n : Nat) : Option LogLevel := (names.find? fun l => l.2.rank == n).map Prod.snd

def read (s : List Char) : Option LogLevel :=
  ((Text.readNumber? s).bind ofRank).or
    ((names.find? fun l => l.1.toList == s.map Char.toLower).map Prod.snd)

end LogLevel

end Breakage
