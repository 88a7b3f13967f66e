import Breakage.Text.Blank
import Mathlib.Data.List.Forall2
import Mathlib.Data.List.TakeWhile

/-!
Texts without the blanks at their ends, and the lines of a text. Main statements: `trimChars` leaves
what `Strips` describes (`trimChars_eq_iff`), the pieces between line ends are the lines
(`mem_splitOn_iff`), and a carriage return before a line end is no part of a trimmed line
(`trimmed_crlf`).
-/

namespace Breakage.Text

/-! ### Blanks at the ends -/

/-- No blank is at the beginning or at the end. -/
structure IsTrimmed (s : List Char) : Prop where
  first : ∀ c ∈ s.head?, isBlank c = false
  last : ∀ c ∈ s.getLast?, isBlank c = false

def IsBlankText (s : List Char) : Prop := ∀ c ∈ s, isBlank c = true

/-- The second text is the first one without the blanks at its ends. -/
def Strips (s t : List Char) : Prop :=
  IsTrimmed t ∧ ∃ before after, s = before ++ (t ++ after) ∧ IsBlankText before ∧ IsBlankText after

theorem isBlank_eq_false_of_isDigit {c : Char} (h : c.isDigit = true) : isBlank c = false := by
  have bounds : 48 ≤ c.toNat ∧ c.toNat ≤ 57 := by
    simpa [Char.isDigit, UInt32.le_iff_toNat_le] using h
  have apart : ∀ r ∈ blankRanges, r.2 < 48 ∨ 57 < r.1 := by decide
  refine Bool.eq_false_iff.2 fun blank => ?_
  obtain ⟨r, hr, low, high⟩ := inRanges_iff.1 blank
  have := apart r hr
  omega

theorem dropWhile_eq_self_of_head? {α : Type} {p : α → Bool} {as : List α}
    (h : ∀ a ∈ as.head?, p a = false) : as.dropWhile p = as := by
  cases as with
  | nil => rfl
  | cons a rest => exact List.dropWhile_cons_of_neg (by simp [h a rfl])

theorem head?_dropWhile {α : Type} (p : α → Bool) (as : List α) :
    ∀ a ∈ (as.dropWhile p).head?, p a = false := by
  intro a ha
  have h := List.head?_dropWhile_not p as
  rwa [Option.mem_def.1 ha] at h

theorem strips_trimChars (s : List Char) : Strips s (trimChars s) := by
  let middle := trimStart s
  have hend : middle = trimEnd middle ++ (middle.reverse.takeWhile isBlank).reverse := by
    rw [trimEnd, ← List.reverse_append, List.takeWhile_append_dropWhile, List.reverse_reverse]
  refine ⟨⟨fun c hc => ?_, fun c hc => ?_⟩, s.takeWhile isBlank,
    (middle.reverse.takeWhile isBlank).reverse, ?_, fun c hc => ?_, fun c hc => ?_⟩
  · -- what is left begins as the text does behind the first blanks
    refine head?_dropWhile isBlank s c ?_
    change c ∈ middle.head?
    rw [hend]
    exact List.mem_head?_append_of_mem_head? hc
  · rw [trimChars, trimEnd, List.getLast?_reverse] at hc
    exact head?_dropWhile isBlank _ c hc
  · rw [trimChars, ← hend]
    exact List.takeWhile_append_dropWhile.symm
  · exact List.mem_takeWhile_imp hc
  · exact List.mem_takeWhile_imp (List.mem_reverse.1 hc)

theorem trimChars_of_strips {s t : List Char} (h : Strips s t) : trimChars s = t := by
  obtain ⟨⟨first, last⟩, before, after, rfl, hbefore, hafter⟩ := h
  have hstart : trimStart (before ++ (t ++ after)) = trimStart (t ++ after) :=
    List.dropWhile_append_of_pos hbefore
  cases t with
  | nil =>
    have hnil : trimStart after = [] := List.dropWhile_eq_nil_iff.2 hafter
    rw [trimChars, hstart, List.nil_append, hnil]
    rfl
  | cons c rest =>
    have hkeep : trimStart ((c :: rest) ++ after) = (c :: rest) ++ after :=
      dropWhile_eq_self_of_head? first
    have hlast : ∀ b ∈ (c :: rest).reverse.head?, isBlank b = false := by
      rwa [List.head?_reverse]
    have hreverse : ∀ b ∈ after.reverse, isBlank b = true :=
      fun b hb => hafter b (List.mem_reverse.1 hb)
    rw [trimChars, hstart, hkeep, trimEnd, List.reverse_append,
      List.dropWhile_append_of_pos hreverse, dropWhile_eq_self_of_head? hlast, List.reverse_reverse]

theorem trimChars_eq_iff {s t : List Char} : trimChars s = t ↔ Strips s t :=
  ⟨fun h => h ▸ strips_trimChars s, trimChars_of_strips⟩

theorem isBlankText_nil : IsBlankText [] := nofun

theorem trimChars_eq_self_iff {s : List Char} : trimChars s = s ↔ IsTrimmed s := by
  rw [trimChars_eq_iff]
  refine ⟨And.left, fun h => ⟨h, [], [], ?_, isBlankText_nil, isBlankText_nil⟩⟩
  rw [List.append_nil, List.nil_append]

theorem strips_nil {s : List Char} (h : IsBlankText s) : Strips s [] :=
  ⟨⟨nofun, nofun⟩, s, [], (List.append_nil s).symm, h, isBlankText_nil⟩

theorem trimChars_append {before after : List Char} (hbefore : IsBlankText before)
    (hafter : IsBlankText after) (s : List Char) :
    trimChars (before ++ (s ++ after)) = trimChars s := by
  obtain ⟨trimmed, a, b, hs, ha, hb⟩ := strips_trimChars s
  refine trimChars_of_strips ⟨trimmed, before ++ a, b ++ after, ?_, ?_, ?_⟩
  · conv => lhs; rw [hs]
    simp only [List.append_assoc]
  · exact fun c hc => (List.mem_append.1 hc).elim (hbefore c) (ha c)
  · exact fun c hc => (List.mem_append.1 hc).elim (hb c) (hafter c)

/-! ### Lines -/

/-- The text is a line of the content: it has no line end, and it reaches from the beginning or a line
end to a line end or the end. -/
def IsLine (content line : List Char) : Prop :=
  '\n' ∉ line ∧ ∃ before after, content = before ++ (line ++ after) ∧
    (before = [] ∨ before.getLast? = some '\n') ∧ (after = [] ∨ after.head? = some '\n')

theorem isLine_of_mem_splitOn {content line : List Char} (h : line ∈ content.splitOn '\n') :
    IsLine content line := by
  induction hlength : content.length using Nat.strongRecOn generalizing content with
  | _ length ih =>
    by_cases hend : '\n' ∈ content
    · obtain ⟨front, back, rfl, hfront⟩ := List.eq_append_cons_of_mem hend
      rw [List.splitOn_append_cons_self_of_not_mem hfront] at h
      rcases List.mem_cons.1 h with rfl | h
      · exact ⟨hfront, [], '\n' :: back, rfl, .inl rfl, .inr rfl⟩
      · -- a line of what follows the first line end
        obtain ⟨plain, before, after, hback, hbefore, hafter⟩ := ih back.length
          (by rw [← hlength, List.length_append, List.length_cons]; omega) h rfl
        refine ⟨plain, front ++ '\n' :: before, after, ?_, .inr ?_, hafter⟩
        · rw [hback, List.append_assoc]
          rfl
        · rcases hbefore with rfl | hbefore
          · exact List.getLast?_concat
          · rw [List.getLast?_append, List.getLast?_cons, hbefore]
            rfl
    · rw [List.splitOn_eq_singleton hend] at h
      obtain rfl := List.mem_singleton.1 h
      exact ⟨hend, [], [], by simp, .inl rfl, .inl rfl⟩

theorem mem_splitOn_append {line after : List Char} (plain : '\n' ∉ line)
    (hafter : after = [] ∨ after.head? = some '\n') : line ∈ (line ++ after).splitOn '\n' := by
  rcases hafter with rfl | hafter
  · rw [List.append_nil, List.splitOn_eq_singleton plain]
    exact List.mem_singleton_self line
  · obtain ⟨back, rfl⟩ := List.head?_eq_some_iff.1 hafter
    rw [List.splitOn_append_cons_self_of_not_mem plain]
    exact List.mem_cons_self

theorem mem_splitOn_iff {content line : List Char} :
    line ∈ content.splitOn '\n' ↔ IsLine content line := by
  refine ⟨isLine_of_mem_splitOn, ?_⟩
  rintro ⟨plain, before, after, rfl, hbefore, hafter⟩
  rcases hbefore with rfl | hbefore
  · exact mem_splitOn_append plain hafter
  · obtain ⟨front, rfl⟩ := List.getLast?_eq_some_iff.1 hbefore
    rw [List.append_assoc, List.singleton_append, List.splitOn_append_cons_self, List.mem_append]
    exact .inr (mem_splitOn_append plain hafter)

/-- The text with a carriage return before every line end that has none. -/
def crlf : List Char → List Char
  | [] => []
  | '\r' :: '\n' :: rest => '\r' :: '\n' :: crlf rest
  | '\n' :: rest => '\r' :: '\n' :: crlf rest
  | c :: rest => c :: crlf rest

theorem forall₂_modifyHead {α : Type} {r : α → α → Prop} {f : α → α}
    (hf : ∀ a b, r a b → r (f a) (f b)) {as bs : List α} (h : List.Forall₂ r as bs) :
    List.Forall₂ r (as.modifyHead f) (bs.modifyHead f) := by
  cases h with
  | nil => exact .nil
  | cons first rest => exact .cons (hf _ _ first) rest

theorem splitOn_crlf (s : List Char) :
    List.Forall₂ (fun line line' => line' = line ∨ line' = line ++ ['\r']) (s.splitOn '\n')
      ((crlf s).splitOn '\n') := by
  have hend (rest : List Char) : ('\n' :: rest).splitOn '\n' = [] :: rest.splitOn '\n' := by
    rw [List.splitOn_cons_eq_if_modifyHead, if_pos (beq_self_eq_true _)]
  have hreturn (rest : List Char) :
      ('\r' :: '\n' :: rest).splitOn '\n' = ['\r'] :: rest.splitOn '\n' := by
    rw [List.splitOn_cons_eq_if_modifyHead, if_neg (by decide), hend]
    rfl
  fun_induction crlf s with
  | case1 => exact .cons (.inl rfl) .nil
  | case2 rest ih =>
    rw [hreturn, hreturn]
    exact .cons (.inl rfl) ih
  | case3 rest ih =>
    rw [hend, hreturn]
    exact .cons (.inr rfl) ih
  | case4 c rest _ hc ih =>
    have hne : ¬(c == '\n') = true := by simpa using hc
    rw [List.splitOn_cons_eq_if_modifyHead, if_neg hne, List.splitOn_cons_eq_if_modifyHead, if_neg hne]
    refine forall₂_modifyHead (fun line line' h => ?_) ih
    exact h.imp (congrArg (c :: ·)) (congrArg (c :: ·))

theorem trimmed_crlf (s : List Char) :
    ((crlf s).splitOn '\n').map trimChars = (s.splitOn '\n').map trimChars := by
  have blank : IsBlankText ['\r'] := fun c hc => by rw [List.mem_singleton.1 hc]; decide
  refine (List.forall₂_eq_eq_eq ▸ List.forall₂_map_left_iff.2 (List.forall₂_map_right_iff.2 ?_))
  refine (splitOn_crlf s).flip.imp fun line' line h => ?_
  rcases h with rfl | rfl
  · rfl
  · exact trimChars_append isBlankText_nil blank line

end Breakage.Text
