import Breakage.Proofs.Json.Grammar

/-!
Texts of a tree whose tokens are as they are written, with gaps between them as one likes (`Spells`).
Such a text stands for the tree (`Spells.denotes`), and both of the texts that are written are such.
-/

namespace Breakage.Json

mutual

inductive Spells : Json → List Char → Prop where
  | null : Spells .null ['n', 'u', 'l', 'l']
  | yes : Spells (.bool true) ['t', 'r', 'u', 'e']
  | no : Spells (.bool false) ['f', 'a', 'l', 's', 'e']
  | number {n : Number} (token : n.IsToken) : Spells (.number n) n.render
  | string (t : Text) : Spells (.string t) t.render
  | emptyArray {g : List Char} (gap : IsGapText g) : Spells (.array []) ('[' :: (g ++ [']']))
  | array {items : List Json} {s : List Char} (inside : SpellsItems items s) :
    Spells (.array items) ('[' :: s)
  | emptyObject {g : List Char} (gap : IsGapText g) : Spells (.object []) ('{' :: (g ++ ['}']))
  | object {members : List (Text × Json)} {s : List Char} (inside : SpellsMembers members s) :
    Spells (.object members) ('{' :: s)

inductive SpellsItems : List Json → List Char → Prop where
  | last {v : Json} {g s g' : List Char} (gap : IsGapText g) (value : Spells v s)
    (gap' : IsGapText g') : SpellsItems [v] (g ++ (s ++ (g' ++ [']'])))
  | more {v : Json} {items : List Json} {g s g' t : List Char} (gap : IsGapText g)
    (value : Spells v s) (gap' : IsGapText g') (rest : SpellsItems items t) :
    SpellsItems (v :: items) (g ++ (s ++ (g' ++ ',' :: t)))

inductive SpellsMembers : List (Text × Json) → List Char → Prop where
  | last {k : Text} {v : Json} {a b c s d : List Char} (before : IsGapText a) (behind : IsGapText b)
    (gap : IsGapText c) (value : Spells v s) (gap' : IsGapText d) :
    SpellsMembers [(k, v)] (a ++ (k.render ++ (b ++ ':' :: (c ++ (s ++ (d ++ ['}']))))))
  | more {k : Text} {v : Json} {members : List (Text × Json)} {a b c s d t : List Char}
    (before : IsGapText a) (behind : IsGapText b) (gap : IsGapText c) (value : Spells v s)
    (gap' : IsGapText d) (rest : SpellsMembers members t) :
    SpellsMembers ((k, v) :: members)
      (a ++ (k.render ++ (b ++ ':' :: (c ++ (s ++ (d ++ ',' :: t))))))

end

mutual

theorem Spells.denotes {v : Json} {s : List Char} (h : Spells v s) : Denotes s v := by
  match h with
  | .null => exact .null
  | .yes => exact .yes
  | .no => exact .no
  | .number token => exact .number (denotesNumber_render token)
  | .string t => exact .string (denotesString_render t)
  | .emptyArray gap => exact .emptyArray gap
  | .array inside => exact .array inside.denotes
  | .emptyObject gap => exact .emptyObject gap
  | .object inside => exact .object inside.denotes

theorem SpellsItems.denotes {items : List Json} {s : List Char} (h : SpellsItems items s) :
    DenotesItems s items := by
  match h with
  | .last gap value gap' => exact .last gap value.denotes gap'
  | .more gap value gap' rest => exact .more gap value.denotes gap' rest.denotes

theorem SpellsMembers.denotes {members : List (Text × Json)} {s : List Char}
    (h : SpellsMembers members s) : DenotesMembers s members := by
  match h with
  | .last before behind gap value gap' =>
    exact .last before (denotesString_render _) behind gap value.denotes gap'
  | .more before behind gap value gap' rest =>
    exact .more before (denotesString_render _) behind gap value.denotes gap' rest.denotes

end

theorem parseChars_of_spells {v : Json} {s g g' : List Char} (h : Spells v s) (gap : IsGapText g)
    (gap' : IsGapText g') : parseChars (g ++ (s ++ g')) = some v :=
  parseChars_of_denotes h.denotes gap gap'

/-! ### Writing -/

theorem isGapText_newline (level : Nat) : IsGapText (newline level) := by
  intro c hc
  rcases List.mem_cons.1 hc with rfl | hc
  · rfl
  · rw [(List.mem_replicate.1 hc).2]
    rfl

mutual

def HasTokens : Json → Prop
  | .number n => n.IsToken
  | .array items => ItemsHaveTokens items
  | .object members => MembersHaveTokens members
  | _ => True

def ItemsHaveTokens : List Json → Prop
  | [] => True
  | v :: rest => v.HasTokens ∧ ItemsHaveTokens rest

def MembersHaveTokens : List (Text × Json) → Prop
  | [] => True
  | (_, v) :: rest => v.HasTokens ∧ MembersHaveTokens rest

end

mutual

theorem spells_render {v : Json} (h : v.HasTokens) : Spells v v.render := by
  match v with
  | .null => exact .null
  | .bool true => exact .yes
  | .bool false => exact .no
  | .number n => exact .number h
  | .string t => exact .string t
  | .array [] => exact .emptyArray isGapText_nil
  | .array (v :: rest) => exact .array (spells_renderItems (spells_render h.1) h.2)
  | .object [] => exact .emptyObject isGapText_nil
  | .object ((k, v) :: rest) => exact .object (spells_renderMembers k (spells_render h.1) h.2)

theorem spells_renderItems {v : Json} {s : List Char} (value : Spells v s) {items : List Json}
    (h : ItemsHaveTokens items) : SpellsItems (v :: items) (s ++ renderItems items) := by
  match items with
  | [] => exact .last isGapText_nil value isGapText_nil
  | w :: rest =>
    exact .more isGapText_nil value isGapText_nil (spells_renderItems (spells_render h.1) h.2)

theorem spells_renderMembers (k : Text) {v : Json} {s : List Char} (value : Spells v s)
    {members : List (Text × Json)} (h : MembersHaveTokens members) :
    SpellsMembers ((k, v) :: members) (k.render ++ ':' :: (s ++ renderMembers members)) := by
  match members with
  | [] => exact .last isGapText_nil isGapText_nil isGapText_nil value isGapText_nil
  | (k', w) :: rest =>
    exact .more isGapText_nil isGapText_nil isGapText_nil value isGapText_nil
      (spells_renderMembers k' (spells_render h.1) h.2)

end

mutual

theorem spells_renderIndented (level : Nat) {v : Json} (h : v.HasTokens) :
    Spells v (renderIndented level v) := by
  match v with
  | .null => exact .null
  | .bool true => exact .yes
  | .bool false => exact .no
  | .number n => exact .number h
  | .string t => exact .string t
  | .array [] => exact .emptyArray isGapText_nil
  | .array (v :: rest) =>
    rw [renderIndented, List.append_assoc]
    exact .array (spells_indentedItems level (spells_renderIndented (level + 1) h.1) h.2)
  | .object [] => exact .emptyObject isGapText_nil
  | .object ((k, v) :: rest) =>
    rw [renderIndented]
    simp only [List.append_assoc]
    exact .object (spells_indentedMembers level k (spells_renderIndented (level + 1) h.1) h.2)

theorem spells_indentedItems (level : Nat) {v : Json} {s : List Char} (value : Spells v s)
    {items : List Json} (h : ItemsHaveTokens items) :
    SpellsItems (v :: items) (newline (level + 1) ++ (s ++ indentedItems level items)) := by
  match items with
  | [] => exact .last (isGapText_newline _) value (isGapText_newline _)
  | w :: rest =>
    rw [indentedItems, List.append_assoc]
    exact .more (isGapText_newline _) value isGapText_nil
      (spells_indentedItems level (spells_renderIndented (level + 1) h.1) h.2)

theorem spells_indentedMembers (level : Nat) (k : Text) {v : Json} {s : List Char}
    (value : Spells v s) {members : List (Text × Json)} (h : MembersHaveTokens members) :
    SpellsMembers ((k, v) :: members) (newline (level + 1) ++ (k.render ++ ([':', ' '] ++
      (s ++ indentedMembers level members)))) := by
  have blank : IsGapText [' '] := by simp [IsGapText, isGap]
  match members with
  | [] => exact .last (isGapText_newline _) isGapText_nil blank value (isGapText_newline _)
  | (k', w) :: rest =>
    rw [indentedMembers]
    simp only [List.append_assoc]
    exact .more (isGapText_newline _) isGapText_nil blank value isGapText_nil
      (spells_indentedMembers level k' (spells_renderIndented (level + 1) h.1) h.2)

end

theorem parse?_compact {v : Json} (h : v.HasTokens) : parse? v.compact = some v := by
  have hread := parseChars_of_spells (spells_render h) isGapText_nil isGapText_nil
  rw [List.nil_append, List.append_nil] at hread
  rwa [parse?, compact, String.toList_ofList]

theorem parse?_pretty {v : Json} (h : v.HasTokens) : parse? v.pretty = some v := by
  have hread := parseChars_of_spells (spells_renderIndented 0 h) isGapText_nil isGapText_nil
  rw [List.nil_append, List.append_nil] at hread
  rwa [parse?, pretty, String.toList_ofList]

end Breakage.Json
