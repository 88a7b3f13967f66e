import Breakage.Json

/-!
Writing JSON: on one line without blanks, or indented by two blanks a level.
-/

namespace Breakage.Json

/-- A quote, a backslash and the control characters below U+0020 are escaped; all else stands as it is. -/
def escape (c : Char) : List Char :=
  if c = '"' then ['\\', '"']
  else if c = '\\' then ['\\', '\\']
  else if c = '\n' then ['\\', 'n']
  else if c = '\r' then ['\\', 'r']
  else if c = '\t' then ['\\', 't']
  else if c.toNat = 0x08 then ['\\', 'b']
  else if c.toNat = 0x0C then ['\\', 'f']
  else if c.toNat < 0x20 then ['\\', 'u', '0', '0', Nat.digitChar (c.toNat / 16), Nat.digitChar (c.toNat % 16)]
  else [c]

def Text.render : Text → List Char
  | .plain s => '"' :: (s.toList.flatMap escape ++ ['"'])
  | .unpaired => ['"', '\\', 'u', 'd', '8', '0', '0', '"']

def sign (negative : Bool) : List Char := if negative then ['-'] else []

def Number.render (n : Number) : List Char :=
  sign n.negative ++ n.whole ++
    n.fraction.elim [] (fun digits => '.' :: digits) ++
    n.exponent.elim [] fun e => 'e' :: (sign (decide (e < 0)) ++ Nat.toDigits 10 e.natAbs)

mutual

def render : Json → List Char
  | .null => ['n', 'u', 'l', 'l']
  | .bool true => ['t', 'r', 'u', 'e']
  | .bool false => ['f', 'a', 'l', 's', 'e']
  | .number n => n.render
  | .string s => s.render
  | .array [] => ['[', ']']
  | .array (v :: rest) => '[' :: (v.render ++ renderItems rest)
  | .object [] => ['{', '}']
  | .object ((k, v) :: rest) => '{' :: (k.render ++ ':' :: (v.render ++ renderMembers rest))

def renderItems : List Json → List Char
  | [] => [']']
  | v :: rest => ',' :: (v.render ++ renderItems rest)

def renderMembers : List (Text × Json) → List Char
  | [] => ['}']
  | (k, v) :: rest => ',' :: (k.render ++ ':' :: (v.render ++ renderMembers rest))

end

def newline (level : Nat) : List Char := '\n' :: List.replicate (2 * level) ' '

mutual

def renderIndented (level : Nat) : Json → List Char
  | .array (v :: rest) =>
    '[' :: (newline (level + 1) ++ renderIndented (level + 1) v ++ indentedItems level rest)
  | .object ((k, v) :: rest) =>
    '{' :: (newline (level + 1) ++ k.render ++ [':', ' '] ++ renderIndented (level + 1) v
      ++ indentedMembers level rest)
  | .null => ['n', 'u', 'l', 'l']
  | .bool true => ['t', 'r', 'u', 'e']
  | .bool false => ['f', 'a', 'l', 's', 'e']
  | .number n => n.render
  | .string s => s.render
  | .array [] => ['[', ']']
  | .object [] => ['{', '}']

def indentedItems (level : Nat) : List Json → List Char
  | [] => newline level ++ [']']
  | v :: rest => ',' :: (newline (level + 1) ++ renderIndented (level + 1) v ++ indentedItems level rest)

def indentedMembers (level : Nat) : List (Text × Json) → List Char
  | [] => newline level ++ ['}']
  | (k, v) :: rest =>
    ',' :: (newline (level + 1) ++ k.render ++ [':', ' '] ++ renderIndented (level + 1) v
      ++ indentedMembers level rest)

end

def compact (v : Json) : String := String.ofList v.render

def pretty (v : Json) : String := String.ofList (renderIndented 0 v)

end Breakage.Json
