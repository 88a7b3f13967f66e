import Breakage.LogFilter.Directive
import Breakage.Proofs.Text.Lines

/-!
What can be written as a directive. Main statement: a text without blanks at its ends is read as a
directive just when it is spelled by a target, a span or both, and perhaps by a level behind an
equals sign, and the directive is the one that the spelling means (`read_eq_some_iff`).
-/

namespace Breakage

namespace Text

/-! ### Places -/

def byteCount : List Char → Nat
  | [] => 0
  | c :: rest => c.utf8Size + byteCount rest

@[simp] theorem byteCount_nil : byteCount [] = 0 := rfl

@[simp] theorem byteCount_cons (c : Char) (s : List Char) :
    byteCount (c :: s) = c.utf8Size + byteCount s := rfl

@[simp] theorem byteCount_append (s t : List Char) :
    byteCount (s ++ t) = byteCount s + byteCount t := by
  induction s with
  | nil => simp
  | cons c rest ih => simp [ih, Nat.add_assoc]

theorem dropBytes_append (s t : List Char) : dropBytes (byteCount s) (s ++ t) = some t := by
  induction s with
  | nil => cases t <;> rfl
  | cons c rest ih =>
    obtain ⟨n, hn⟩ : ∃ n, c.utf8Size + byteCount rest = n + 1 :=
      ⟨c.utf8Size + byteCount rest - 1, by have := c.utf8Size_pos; omega⟩
    have left : n + 1 - c.utf8Size = byteCount rest := by omega
    rw [byteCount_cons, hn, List.cons_append, dropBytes, if_pos (by omega), left, ih]

theorem takeBytes_append (s t : List Char) : takeBytes (byteCount s) (s ++ t) = some s := by
  induction s with
  | nil => cases t <;> rfl
  | cons c rest ih =>
    obtain ⟨n, hn⟩ : ∃ n, c.utf8Size + byteCount rest = n + 1 :=
      ⟨c.utf8Size + byteCount rest - 1, by have := c.utf8Size_pos; omega⟩
    have left : n + 1 - c.utf8Size = byteCount rest := by omega
    rw [byteCount_cons, hn, List.cons_append, takeBytes, if_pos (by omega), left, ih]
    rfl

theorem piece_append (s t u : List Char) :
    piece (byteCount s) (byteCount (s ++ t)) (s ++ t ++ u) = some t := by
  rw [piece, takeBytes_append, Option.bind_some, dropBytes_append]

end Text

namespace Directive

open Text (IsTrimmed byteCount dropBytes_append piece_append)

/-! ### Spellings -/

structure Span where
  name : List Char
  field : Option (List Char)

namespace Span

def fieldText (p : Span) : List Char :=
  match p.field with
  | none => []
  | some field => '{' :: (field ++ ['}'])

def text (p : Span) : List Char := '[' :: (p.name ++ (p.fieldText ++ [']']))

/-- No part of the span ends before its time. -/
structure IsProper (p : Span) : Prop where
  name : ∀ c ∈ p.name, c ≠ ']' ∧ c ≠ '{'
  field : ∀ field ∈ p.field, field ≠ [] ∧ ∀ c ∈ field, c ≠ '}'

def readsValues (p : Span) : Option Bool :=
  match p.field with
  | none => some false
  | some field => readField field

end Span

structure Spelling where
  /-- empty where it is left out -/
  target : List Char
  span : Option Span
  level : Option (List Char)

/-- The text can stand before the span and the level; it may be empty. -/
structure IsTarget (s : List Char) : Prop where
  begins : ∀ c ∈ s.head?, beginsTarget c = true
  goesOn : ∀ c ∈ s, c ≠ '=' ∧ c ≠ '['

namespace Spelling

def spanText (s : Spelling) : List Char :=
  match s.span with
  | none => []
  | some p => p.text

def levelText (s : Spelling) : List Char :=
  match s.level with
  | none => []
  | some level => '=' :: level

def text (s : Spelling) : List Char := s.target ++ (s.spanText ++ s.levelText)

structure IsProper (s : Spelling) : Prop where
  target : IsTarget s.target
  span : ∀ p ∈ s.span, p.IsProper
  selects : s.target ≠ [] ∨ s.span.isSome

def readsValues (s : Spelling) : Option Bool :=
  match s.span with
  | none => some false
  | some p => p.readsValues

/-- The level that is meant: everything is let through where none is written. A target by itself
may be the name of a level. -/
def levelMeant (s : Spelling) : Option LogLevel :=
  match s.level, s.span with
  | none, none => some ((LogLevel.read s.target).getD .trace)
  | none, some _ => some .trace
  | some [], _ => some .trace
  | some (c :: rest), _ => LogLevel.read (c :: rest)

def directive (s : Spelling) : Option Directive := do
  return ⟨← s.levelMeant, ← s.readsValues⟩

end Spelling

/-! ### From a spelling to its directive -/

theorem walk_append (text front back : List Char) (place : Nat) (s : State × Bool) :
    walk text place (front ++ back) s =
      (walk text place front s).bind (walk text (place + byteCount front) back) := by
  induction front generalizing place s with
  | nil => rfl
  | cons c rest ih =>
    rw [List.cons_append, walk, walk, Option.bind_assoc, Text.byteCount_cons]
    refine congrArg _ (funext fun s' => ?_)
    rw [ih, Nat.add_assoc]

theorem walk_of_stays {text : List Char} {s : State × Bool} {front : List Char}
    (stays : ∀ c ∈ front, ∀ place, step text place c s = some s) (place : Nat) :
    walk text place front s = some s := by
  induction front generalizing place with
  | nil => rfl
  | cons c rest ih =>
    rw [walk, stays c List.mem_cons_self place]
    exact ih (fun c hc => stays c (List.mem_cons_of_mem _ hc)) _

def afterTarget (target : List Char) : State := if target = [] then .start else .word 0

theorem walk_target {target : List Char} (h : IsTarget target) (text : List Char) :
    walk text 0 target (.start, false) = some (afterTarget target, false) := by
  cases target with
  | nil => rfl
  | cons c rest =>
    have first : step text 0 c (.start, false) = some (.word 0, false) := by
      simp [step, (h.goesOn c List.mem_cons_self).2, h.begins c rfl]
    have stays : ∀ c ∈ rest, ∀ place,
        step text place c (.word 0, false) = some (.word 0, false) :=
      fun c hc _ => by simp [step, h.goesOn c (List.mem_cons_of_mem _ hc)]
    rw [walk, first]
    exact walk_of_stays stays _

theorem step_afterTarget_bracket (target text : List Char) (place : Nat) :
    step text place '[' (afterTarget target, false) = some (.span (place + 1), false) := by
  unfold afterTarget
  split <;> simp [step]

theorem step_brace (opened field rest : List Char) (v : Bool) :
    step (opened ++ field ++ '}' :: rest) (byteCount (opened ++ field)) '}'
        (.field (byteCount opened), v) =
      if field = [] then none else (readField field).map fun w => (.fields, v || w) := by
  simp only [step, if_true, piece_append, Option.bind_eq_bind, Option.bind_some,
    List.isEmpty_iff]
  split
  · rfl
  · cases readField field <;> rfl

theorem walk_span {p : Span} (h : p.IsProper) (before after target : List Char) :
    walk (before ++ (p.text ++ after)) (byteCount before) p.text (afterTarget target, false) =
      p.readsValues.map fun v => (.target, v) := by
  obtain ⟨name, field⟩ := p
  have plain : ∀ text low, ∀ c ∈ name, ∀ place,
      step text place c (.span low, false) = some (.span low, false) :=
    fun text low c hc place => by simp [step, h.name c hc]
  cases field with
  | none =>
    have text_eq : Span.text ⟨name, none⟩ = '[' :: (name ++ [']']) := rfl
    rw [text_eq, walk, step_afterTarget_bracket, Option.bind_some, walk_append,
      walk_of_stays (plain _ _), Option.bind_some]
    simp [walk, step, Span.readsValues]
  | some field =>
    obtain ⟨nonempty, inner⟩ := h.field field rfl
    let opened := before ++ '[' :: (name ++ ['{'])
    have text_eq : Span.text ⟨name, some field⟩ =
        '[' :: (name ++ ('{' :: (field ++ ['}', ']']))) := by
      simp [Span.text, Span.fieldText]
    have whole : before ++ (Span.text ⟨name, some field⟩ ++ after) =
        opened ++ field ++ ('}' :: ']' :: after) := by
      simp [text_eq, opened]
    have stays : ∀ text low, ∀ c ∈ field, ∀ place,
        step text place c (.field low, false) = some (.field low, false) :=
      fun text low c hc place => by simp [step, inner c hc]
    have opens : ∀ text place low, step text place '{' (.span low, false) =
        some (.field (place + 1), false) := fun _ _ _ => by simp [step]
    have low_eq : byteCount before + '['.utf8Size + byteCount name + 1 = byteCount opened := by
      simp [opened, Nat.add_assoc, (by decide : '['.utf8Size = 1), (by decide : '{'.utf8Size = 1)]
    rw [whole, text_eq, walk, step_afterTarget_bracket, Option.bind_some, walk_append,
      walk_of_stays (plain _ _), Option.bind_some, walk, opens, Option.bind_some,
      (by decide : '{'.utf8Size = 1), low_eq, walk_append, walk_of_stays (stays _ _),
      Option.bind_some, ← Text.byteCount_append, walk, step_brace, if_neg nonempty]
    cases hfield : readField field <;> simp [walk, step, hfield, Span.readsValues]

namespace Spelling

def front (s : Spelling) : List Char := s.target ++ s.spanText

def middle (s : Spelling) : State :=
  match s.span with
  | none => afterTarget s.target
  | some _ => .target

def ending (s : Spelling) : State :=
  match s.level with
  | none => s.middle
  | some _ => .level (byteCount (s.front ++ ['=']))

theorem text_eq (s : Spelling) : s.text = s.front ++ s.levelText := by
  simp [text, front]

theorem IsProper.text_ne_nil {s : Spelling} (h : s.IsProper) : s.text ≠ [] := by
  intro empty
  obtain ⟨htarget, hrest⟩ := List.append_eq_nil_iff.1 empty
  have hspan := (List.append_eq_nil_iff.1 hrest).1
  rcases h.selects with selects | selects
  · exact selects htarget
  · obtain ⟨p, hp⟩ := Option.isSome_iff_exists.1 selects
    rw [spanText, hp] at hspan
    contradiction

end Spelling

theorem walk_front {s : Spelling} (h : s.IsProper) :
    walk s.text 0 s.front (.start, false) = s.readsValues.map fun v => (s.middle, v) := by
  obtain ⟨target, span, level⟩ := s
  rw [Spelling.front, walk_append, walk_target h.target, Option.bind_some, Nat.zero_add]
  cases span with
  | none => rfl
  | some p => exact walk_span (h.span p rfl) _ _ _

theorem walk_spelling {s : Spelling} (h : s.IsProper) :
    walk s.text 0 s.text (.start, false) = s.readsValues.map fun v => (s.ending, v) := by
  have walked := walk_front h
  conv => lhs; arg 3; rw [Spelling.text_eq]
  rw [walk_append, walked]
  obtain ⟨target, span, level⟩ := s
  cases level with
  | none => cases Spelling.readsValues ⟨target, span, none⟩ <;> rfl
  | some level =>
    have equals : ∀ text place v, step text place '='
        (Spelling.middle ⟨target, span, some level⟩, v) = some (.level (place + 1), v) := by
      intro text place v
      cases span with
      | none => simp [Spelling.middle, afterTarget, h.selects.resolve_right nofun, step]
      | some p => simp [Spelling.middle, step]
    have stays : ∀ text low v, ∀ c ∈ level, ∀ place,
        step text place c (.level low, v) = some (.level low, v) := fun _ _ _ _ _ _ => rfl
    cases Spelling.readsValues ⟨target, span, some level⟩ with
    | none => rfl
    | some v =>
      simp only [Option.map_some, Option.bind_some, Spelling.levelText, walk, equals, Nat.zero_add,
        Spelling.ending, Text.byteCount_append]
      exact walk_of_stays (stays _ _ _) _

theorem read_text {s : Spelling} (h : s.IsProper) (trimmed : IsTrimmed s.text) :
    read s.text = s.directive := by
  rw [read, Text.trimChars_eq_self_iff.2 trimmed, walk_spelling h, Spelling.directive]
  obtain ⟨target, span, level⟩ := s
  cases hvalues : Spelling.readsValues ⟨target, span, level⟩ with
  | none => cases Spelling.levelMeant ⟨target, span, level⟩ <;> rfl
  | some v =>
    simp only [Option.map_some, Option.bind_eq_bind, Option.bind_some]
    match span, level with
    | none, none =>
      have ends : Spelling.ending ⟨target, none, none⟩ = .word 0 :=
        if_neg (h.selects.resolve_right nofun)
      have whole : Spelling.text ⟨target, none, none⟩ = target := List.append_nil target
      simp only [ends, whole, Text.dropBytes, Spelling.levelMeant, Option.bind_some]
    | some p, none => rfl
    | span, some level =>
      have whole : Spelling.text ⟨target, span, some level⟩ =
          Spelling.front ⟨target, span, some level⟩ ++ ['='] ++ level := by
        simp [Spelling.text, Spelling.front, Spelling.levelText]
      simp only [Spelling.ending, whole, dropBytes_append, Option.bind_some]
      cases level with
      | nil => rfl
      | cons c rest => rfl

/-! ### From a text to a spelling -/

/-- The texts that lead to a state. -/
inductive Leads : List Char → State → Prop
  | start : Leads [] .start
  | word {target : List Char} {low : Nat} (proper : IsTarget target) (nonempty : target ≠ []) :
      Leads target (.word low)
  | span {target name : List Char} {low : Nat} (proper : IsTarget target)
      (named : ∀ c ∈ name, c ≠ ']' ∧ c ≠ '{') : Leads (target ++ '[' :: name) (.span low)
  | field {target name field : List Char} (proper : IsTarget target)
      (named : ∀ c ∈ name, c ≠ ']' ∧ c ≠ '{') (inner : ∀ c ∈ field, c ≠ '}') :
      Leads (target ++ '[' :: (name ++ ['{']) ++ field)
        (.field (byteCount (target ++ '[' :: (name ++ ['{']))))
  | fields {target name field : List Char} (proper : IsTarget target)
      (named : ∀ c ∈ name, c ≠ ']' ∧ c ≠ '{') (inner : ∀ c ∈ field, c ≠ '}')
      (nonempty : field ≠ []) : Leads (target ++ '[' :: (name ++ ['{']) ++ field ++ ['}']) .fields
  | target {target : List Char} {p : Span} (proper : IsTarget target) (span : p.IsProper) :
      Leads (target ++ p.text) .target
  | level {s : Spelling} {low : Nat} (proper : s.IsProper) (written : s.level.isSome) :
      Leads s.text (.level low)

theorem IsTarget.concat {target : List Char} (h : IsTarget target) (nonempty : target ≠ [])
    {c : Char} (goesOn : c ≠ '=' ∧ c ≠ '[') : IsTarget (target ++ [c]) where
  begins d hd := h.begins d (by rwa [List.head?_append_of_ne_nil _ nonempty] at hd)
  goesOn d hd := by
    rcases List.mem_append.1 hd with hd | hd
    · exact h.goesOn d hd
    · exact List.mem_singleton.1 hd ▸ goesOn

theorem beginsTarget_equals : beginsTarget '=' = false := by decide +kernel

theorem isTarget_nil : IsTarget [] := ⟨nofun, nofun⟩

section

variable {text target name : List Char} {place low : Nat} {c : Char} {v : Bool}
  {s' : State × Bool}

theorem leads_of_start (hstep : step text place c (.start, v) = some s') : Leads [c] s'.1 := by
  simp only [step] at hstep
  split at hstep
  next hc =>
    cases hstep
    subst hc
    exact .span isTarget_nil (List.forall_mem_nil fun c => c ≠ ']' ∧ c ≠ '{')
  next hc =>
    split at hstep
    next begins =>
      cases hstep
      have noEquals : c ≠ '=' := by
        rintro rfl
        exact absurd begins (by simp [beginsTarget_equals])
      exact .word ⟨by simpa using begins, by simp [noEquals, hc]⟩ (by simp)
    next => contradiction

theorem IsTarget.leads_of_word (proper : IsTarget target) (nonempty : target ≠ [])
    (hstep : step text place c (.word low, v) = some s') : Leads (target ++ [c]) s'.1 := by
  simp only [step] at hstep
  split at hstep
  next hc =>
    cases hstep
    subst hc
    have spelled : Spelling.IsProper ⟨target, none, some []⟩ := ⟨proper, nofun, .inl nonempty⟩
    exact .level spelled rfl
  next hc =>
    split at hstep
    next hb =>
      cases hstep
      subst hb
      exact .span proper nofun
    next hb =>
      cases hstep
      exact .word (proper.concat nonempty ⟨hc, hb⟩) (by simp)

theorem IsTarget.leads_of_span (proper : IsTarget target)
    (named : ∀ c ∈ name, c ≠ ']' ∧ c ≠ '{')
    (hstep : step text (byteCount (target ++ '[' :: name)) c (.span low, v) = some s') :
    Leads (target ++ '[' :: name ++ [c]) s'.1 := by
  simp only [step] at hstep
  split at hstep
  next hc =>
    cases hstep
    subst hc
    have closed : target ++ '[' :: name ++ [']'] = target ++ Span.text ⟨name, none⟩ := by
      simp [Span.text, Span.fieldText]
    exact closed ▸ .target proper ⟨named, nofun⟩
  next hc =>
    split at hstep
    next hb =>
      cases hstep
      subst hb
      have opened : target ++ '[' :: name ++ ['{'] = target ++ '[' :: (name ++ ['{']) := by simp
      have low_eq : byteCount (target ++ '[' :: (name ++ ['{'])) =
          byteCount (target ++ '[' :: name) + 1 := by
        simp [Nat.add_assoc, (by decide : '{'.utf8Size = 1)]
      have led := Leads.field proper named (List.forall_mem_nil fun c => c ≠ '}')
      rwa [List.append_nil, low_eq, ← opened] at led
    next hb =>
      cases hstep
      rw [List.append_assoc]
      exact .span proper (List.forall_mem_append.2 ⟨named, by simp [hc, hb]⟩)

variable {field rest : List Char}

theorem IsTarget.leads_of_field (proper : IsTarget target)
    (named : ∀ c ∈ name, c ≠ ']' ∧ c ≠ '{') (inner : ∀ c ∈ field, c ≠ '}')
    (hstep : step (target ++ '[' :: (name ++ ['{']) ++ field ++ c :: rest)
      (byteCount (target ++ '[' :: (name ++ ['{']) ++ field)) c
        (.field (byteCount (target ++ '[' :: (name ++ ['{']))), v) = some s') :
    Leads (target ++ '[' :: (name ++ ['{']) ++ field ++ [c]) s'.1 := by
  by_cases hc : c = '}'
  · subst hc
    rw [step_brace] at hstep
    split at hstep
    · contradiction
    next nonempty =>
      obtain ⟨w, -, rfl⟩ := Option.map_eq_some_iff.1 hstep
      exact .fields proper named inner nonempty
  · simp only [step, if_neg hc, Option.some.injEq] at hstep
    subst hstep
    rw [List.append_assoc]
    exact .field proper named (List.forall_mem_append.2 ⟨inner, by simp [hc]⟩)

theorem IsTarget.leads_of_fields (proper : IsTarget target)
    (named : ∀ c ∈ name, c ≠ ']' ∧ c ≠ '{') (inner : ∀ c ∈ field, c ≠ '}') (nonempty : field ≠ [])
    (hstep : step text place c (.fields, v) = some s') :
    Leads (target ++ '[' :: (name ++ ['{']) ++ field ++ ['}'] ++ [c]) s'.1 := by
  simp only [step] at hstep
  split at hstep
  next hc =>
    cases hstep
    subst hc
    have closed : target ++ '[' :: (name ++ ['{']) ++ field ++ ['}'] ++ [']'] =
        target ++ Span.text ⟨name, some field⟩ := by
      simp [Span.text, Span.fieldText]
    refine closed ▸ .target proper ⟨named, fun f hf => ?_⟩
    cases hf
    exact ⟨nonempty, inner⟩
  next => contradiction

theorem IsTarget.leads_of_target (proper : IsTarget target) {p : Span} (span : p.IsProper)
    (hstep : step text place c (.target, v) = some s') : Leads (target ++ p.text ++ [c]) s'.1 := by
  simp only [step] at hstep
  split at hstep
  next hc =>
    cases hstep
    subst hc
    have closed : target ++ p.text ++ ['='] = Spelling.text ⟨target, some p, some []⟩ := by
      simp [Spelling.text, Spelling.spanText, Spelling.levelText]
    refine closed ▸ .level ⟨proper, fun q hq => ?_, .inr rfl⟩ rfl
    cases hq
    exact span
  next => contradiction

theorem Spelling.IsProper.leads_of_level {s : Spelling} (proper : s.IsProper)
    (written : s.level.isSome) (hstep : step text place c (.level low, v) = some s') :
    Leads (s.text ++ [c]) s'.1 := by
  simp only [step, Option.some.injEq] at hstep
  subst hstep
  obtain ⟨target, span, level⟩ := s
  obtain ⟨level, rfl⟩ := Option.isSome_iff_exists.1 written
  have longer : Spelling.text ⟨target, span, some level⟩ ++ [c] =
      Spelling.text ⟨target, span, some (level ++ [c])⟩ := by
    simp [Spelling.text, Spelling.spanText, Spelling.levelText]
  exact longer ▸ .level ⟨proper.target, proper.span, proper.selects⟩ rfl

end

theorem Leads.step {before rest : List Char} {c : Char} {s s' : State × Bool}
    (h : Leads before s.1)
    (hstep : step (before ++ c :: rest) (byteCount before) c s = some s') :
    Leads (before ++ [c]) s'.1 := by
  obtain ⟨state, v⟩ := s
  cases h with
  | start => exact leads_of_start hstep
  | word proper nonempty => exact proper.leads_of_word nonempty hstep
  | span proper named => exact proper.leads_of_span named hstep
  | field proper named inner => exact proper.leads_of_field named inner hstep
  | fields proper named inner nonempty => exact proper.leads_of_fields named inner nonempty hstep
  | target proper span => exact proper.leads_of_target span hstep
  | level proper written => exact proper.leads_of_level written hstep

theorem Leads.walk {before rest : List Char} {s s' : State × Bool} (h : Leads before s.1)
    (hwalk : walk (before ++ rest) (byteCount before) rest s = some s') :
    Leads (before ++ rest) s'.1 := by
  induction rest generalizing before s with
  | nil =>
    cases hwalk
    rwa [List.append_nil]
  | cons c rest ih =>
    obtain ⟨next, hstep, hrest⟩ := Option.bind_eq_some_iff.1 hwalk
    have longer : before ++ c :: rest = before ++ [c] ++ rest := by simp
    have count : byteCount before + c.utf8Size = byteCount (before ++ [c]) := by simp
    have led := h.step hstep
    rw [longer, count] at hrest
    rw [longer]
    exact ih led hrest

theorem exists_spelling {t : List Char} {d : Directive} (trimmed : IsTrimmed t)
    (hread : read t = some d) : ∃ s : Spelling, s.IsProper ∧ s.text = t := by
  rw [read, Text.trimChars_eq_self_iff.2 trimmed] at hread
  obtain ⟨⟨state, v⟩, hwalk, hend⟩ := Option.bind_eq_some_iff.1 hread
  have led : Leads t state := @Leads.walk [] t (.start, false) (state, v) .start hwalk
  cases led with
  | start => contradiction
  | word proper nonempty =>
    exact ⟨⟨t, none, none⟩, ⟨proper, nofun, .inl nonempty⟩, by
      simp [Spelling.text, Spelling.spanText, Spelling.levelText]⟩
  | span => contradiction
  | field => contradiction
  | fields => contradiction
  | @target target p proper span =>
    refine ⟨⟨target, some p, none⟩, ⟨proper, fun q hq => ?_, .inr rfl⟩, by
      simp [Spelling.text, Spelling.spanText, Spelling.levelText]⟩
    cases hq
    exact span
  | @level s low proper written => exact ⟨s, proper, rfl⟩

theorem read_eq_some_iff {t : List Char} (trimmed : IsTrimmed t) (d : Directive) :
    read t = some d ↔ ∃ s : Spelling, s.IsProper ∧ s.text = t ∧ s.directive = some d := by
  constructor
  · intro hread
    obtain ⟨s, proper, rfl⟩ := exists_spelling trimmed hread
    exact ⟨s, proper, rfl, (read_text proper trimmed).symm.trans hread⟩
  · rintro ⟨s, proper, rfl, hs⟩
    exact (read_text proper trimmed).trans hs

end Directive

end Breakage
