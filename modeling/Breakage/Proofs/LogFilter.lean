import Breakage.CommandLine.Request
import Breakage.Proofs.LogFilter.Directive
import Breakage.Proofs.Pattern.Quoted

/-!
How much is logged. Main statements: a level is read from its name in any case or from its number
(`read_eq_some_iff`), the directives written one after the other with commas between them are read
back (`directives_spelled`), and an event of a run is logged unless there are directives and all of
them are too quiet for it (`mem_upTo_logLevel_iff`).
-/

namespace Breakage

/-! ### Levels -/

namespace LogLevel

theorem ofRank_eq_some_iff {n : Nat} {l : LogLevel} : ofRank n = some l ↔ n = l.rank := by
  constructor
  · intro h
    obtain ⟨⟨name, x⟩, hfind, rfl⟩ := Option.map_eq_some_iff.1 h
    have found := List.find?_some hfind
    exact (eq_of_beq found).symm
  · rintro rfl
    cases l <;> rfl

theorem find?_name_eq_some_iff {s : List Char} {l : LogLevel} :
    (names.find? fun p => p.1.toList == s).map Prod.snd = some l ↔
      (String.ofList s, l) ∈ names := by
  constructor
  · intro h
    obtain ⟨⟨name, x⟩, hfind, rfl⟩ := Option.map_eq_some_iff.1 h
    have found := List.find?_some hfind
    rw [← eq_of_beq found, String.ofList_toList]
    exact List.mem_of_find?_eq_some hfind
  · intro h
    have text : s = (String.ofList s).toList := String.toList_ofList.symm
    rw [text]
    generalize String.ofList s = name at h
    simp only [names, List.mem_cons, Prod.mk.injEq, List.not_mem_nil, or_false] at h
    rcases h with ⟨rfl, rfl⟩ | ⟨rfl, rfl⟩ | ⟨rfl, rfl⟩ | ⟨rfl, rfl⟩ | ⟨rfl, rfl⟩ | ⟨rfl, rfl⟩ <;> rfl

theorem toLower_of_isDigit {c : Char} (h : c.isDigit = true) : c.toLower = c := by
  simp only [Char.isDigit, Bool.and_eq_true, decide_eq_true_eq, ge_iff_le, UInt32.le_iff_toNat_le,
    (by decide : '9'.val.toNat = 57)] at h
  refine dif_neg fun upper => ?_
  simp only [ge_iff_le, UInt32.le_iff_toNat_le, (by decide : 'A'.val.toNat = 65)] at upper
  omega

theorem readNumber?_eq_none_of_toLower {c : Char} (rest : List Char)
    (digit : c.toLower.isDigit = false) (sign : c.toLower ≠ '+') :
    Text.readNumber? (c :: rest) = none := by
  have noDigit : c.isDigit = false := by
    by_contra h
    have h : c.isDigit = true := by simpa using h
    exact absurd h (by simpa only [toLower_of_isDigit h, Bool.not_eq_true] using digit)
  have noSign : c ≠ '+' := by
    rintro rfl
    exact sign rfl
  simp [Text.readNumber?, noSign, Text.readDigits?, noDigit]

theorem readNumber?_eq_none_of_name {s : List Char} {l : LogLevel}
    (h : (String.ofList (s.map Char.toLower), l) ∈ names) : Text.readNumber? s = none := by
  have initials : ∀ p ∈ names, (p.1.toList.head?.any fun c => !c.isDigit && c != '+') = true := by
    decide
  have initial := initials _ h
  rw [String.toList_ofList, List.head?_map] at initial
  match s, initial with
  | c :: rest, initial =>
    simp only [List.head?_cons, Option.map_some, Option.any_some, Bool.and_eq_true,
      Bool.not_eq_eq_eq_not, Bool.not_true, bne_iff_ne] at initial
    exact readNumber?_eq_none_of_toLower rest initial.1 initial.2

theorem read_eq_some_iff {s : List Char} {l : LogLevel} :
    read s = some l ↔
      Text.readNumber? s = some l.rank ∨ (String.ofList (s.map Char.toLower), l) ∈ names := by
  have number : (Text.readNumber? s).bind ofRank = some l ↔ Text.readNumber? s = some l.rank := by
    rw [Option.bind_eq_some_iff]
    simp only [ofRank_eq_some_iff, exists_eq_right]
  rw [read, Option.or_eq_some_iff, number, find?_name_eq_some_iff]
  refine or_congr_right ⟨And.right, fun h => ⟨?_, h⟩⟩
  rw [readNumber?_eq_none_of_name h]
  rfl

theorem le_rank_foldl_louder_iff {n : Nat} {l : LogLevel} {ls : List LogLevel} :
    n ≤ (ls.foldl louder l).rank ↔ n ≤ l.rank ∨ ∃ x ∈ ls, n ≤ x.rank := by
  induction ls generalizing l with
  | nil => simp
  | cons x rest ih =>
    have two : n ≤ (louder l x).rank ↔ n ≤ l.rank ∨ n ≤ x.rank := by
      unfold louder
      split <;> omega
    rw [List.foldl_cons, ih, two, List.exists_mem_cons_iff, or_assoc]

theorem rank_le_rank_trace (l : LogLevel) : l.rank ≤ trace.rank := by cases l <;> decide

end LogLevel

/-! ### Directives -/

namespace Directive

/-- Any text can be asked for as the value of a field. -/
theorem readField_quoted {name value : List Char} (hname : '=' ∉ name) (hvalue : '=' ∉ value) :
    readField (name ++ '=' :: Pattern.quoted value) = some true := by
  have hquoted : '=' ∉ Pattern.quoted value := by
    intro h
    obtain ⟨c, hc, h⟩ := List.mem_flatMap.1 h
    have same : c = '=' := by
      split at h <;> simp at h <;> exact h.symm
    exact hvalue (same ▸ hc)
  rw [readField, List.splitOn_append_cons_self_of_not_mem hname, List.splitOn_eq_singleton hquoted]
  simp [isValue, Pattern.isRunnable_quoted]

/-- The directive lets messages of this level through. -/
def Admits (d : Directive) (l : LogLevel) : Prop := d.readsValues = true ∨ l.rank ≤ d.level.rank

end Directive

namespace LogFilter

open Directive (Spelling)
open Text (IsTrimmed)

theorem directives_spelled {ss : List Spelling} (proper : ∀ s ∈ ss, s.IsProper)
    (plain : ∀ s ∈ ss, IsTrimmed s.text ∧ ',' ∉ s.text) :
    directives (String.ofList ([','].intercalate (ss.map Spelling.text))) =
      ss.filterMap Spelling.directive := by
  have pieces : (([','].intercalate (ss.map Spelling.text)).splitOn ',').filter
      (fun p => !p.isEmpty) = ss.map Spelling.text := by
    cases ss with
    | nil => rfl
    | cons s rest =>
      rw [List.splitOn_intercalate ',' (by simpa using fun t ht => (plain t ht).2) (by simp),
        List.filter_eq_self]
      simpa using fun t ht => (proper t ht).text_ne_nil
  rw [directives, String.toList_ofList, pieces, List.filterMap_map]
  exact List.filterMap_congr fun s hs => Directive.read_text (proper s hs) (plain s hs).1

theorem rank_le_loudest_iff {fallback l : LogLevel} {filter : Option String} :
    l.rank ≤ (loudest fallback filter).rank ↔
      (directives (filter.getD "") = [] ∧ l.rank ≤ fallback.rank) ∨
        ∃ d ∈ directives (filter.getD ""), d.Admits l := by
  unfold loudest
  split
  next empty => simp [empty]
  next nonempty =>
    obtain ⟨first, rest, hds⟩ := List.exists_cons_of_ne_nil nonempty
    rw [or_iff_right fun h => nonempty h.1]
    split
    next values =>
      obtain ⟨d, hd, hvalues⟩ := List.any_eq_true.1 values
      exact iff_of_true (LogLevel.rank_le_rank_trace l) ⟨d, hd, .inl hvalues⟩
    next values =>
      have quiet : ∀ d ∈ directives (filter.getD ""), ¬d.readsValues = true :=
        fun d hd hvalues => values (List.any_eq_true.2 ⟨d, hd, hvalues⟩)
      rw [LogLevel.le_rank_foldl_louder_iff]
      constructor
      · rintro (silent | ⟨x, hx, hle⟩)
        · -- every directive lets through what is silent
          refine ⟨first, hds ▸ List.mem_cons_self, .inr (Nat.le_trans silent (Nat.zero_le _))⟩
        · obtain ⟨d, hd, rfl⟩ := List.mem_map.1 hx
          exact ⟨d, hd, .inr hle⟩
      · rintro ⟨d, hd, hvalues | hle⟩
        · exact absurd hvalues (quiet d hd)
        · exact .inr ⟨d.level, List.mem_map_of_mem hd, hle⟩

theorem mem_upTo_loudest_iff {fallback : LogLevel} (loud : LogLevel.info.rank ≤ fallback.rank)
    {filter : Option String} {j : Journal} {e : Event} :
    e ∈ j.upTo (loudest fallback filter) ↔
      e ∈ j.events ∧ (directives (filter.getD "") = [] ∨
        ∃ d ∈ directives (filter.getD ""), d.Admits e.level.logged) := by
  have logged : e.level.logged.rank ≤ LogLevel.info.rank := by cases e.level <;> decide
  rw [Journal.upTo, List.mem_filter, decide_eq_true_iff, rank_le_loudest_iff,
    and_iff_left (Nat.le_trans logged loud)]

end LogFilter

/-- The words of the command line only decide whether there is a log. -/
theorem CommandLine.mem_upTo_logLevel_iff {environment : List (String × String)}
    {words : List String} {j : Journal} {e : Event} :
    e ∈ j.upTo (logLevel environment words) ↔
      e ∈ j.events ∧ (∃ read, readWords environment words = .ok read) ∧
        let ds := LogFilter.directives ((environment.lookup LogFilter.environmentName).getD "")
        ds = [] ∨ ∃ d ∈ ds, d.Admits e.level.logged := by
  unfold logLevel
  cases readWords environment words with
  | error stop =>
    have silent : e ∉ j.upTo .off := by
      have logged : ¬e.level.logged.rank ≤ LogLevel.off.rank := by cases e.level <;> decide
      simp [Journal.upTo, logged]
    simp [silent]
  | ok read =>
    have loud : LogLevel.info.rank ≤
        (if read.2.isGiven .verbose then LogLevel.debug else .info).rank := by
      split <;> decide
    simp [LogFilter.mem_upTo_loudest_iff loud]

end Breakage
