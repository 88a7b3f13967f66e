import Breakage.Proofs.Comparison.Rendering
import Breakage.Proofs.Outcome

/-!
Allowlists as files. A file stands for the set of its trimmed lines, so that files are put together as
sets are (`mem_parse_append`), and what the longer file lets through is less: a module can turn from
breaking to clean and a verdict from failed to passed, and neither of them back (`parse_combines`). A
message that is copied from a report into a file is allowed by it just when it has no blank at its ends
(`copied_allowed`).
-/

namespace Breakage

/-! ### Lines of a file -/

namespace Allowlist

open Text (IsBlankText IsLine Strips)

theorem mem_lines_iff {content message : String} :
    message ∈ lines content ↔
      message ≠ "" ∧ ∃ line, IsLine content.toList line ∧ Strips line message.toList := by
  simp only [lines, List.mem_filter, List.mem_map, Text.mem_splitOn_iff, bne_iff_ne,
    ← Text.trimChars_eq_iff]
  constructor
  · rintro ⟨⟨line, hline, rfl⟩, hne⟩
    exact ⟨hne, line, hline, (String.toList_ofList).symm⟩
  · rintro ⟨hne, line, hline, htrim⟩
    exact ⟨⟨line, hline, by rw [htrim, String.ofList_toList]⟩, hne⟩

theorem mem_parse {content message : String} :
    message ∈ (parse content).entries ↔ message ∈ lines content := by
  rw [parse, ofEntries, List.mem_eraseDups]

theorem contains_parse {content message : String} :
    (parse content).contains message = true ↔ message ∈ lines content := by
  rw [parse, contains_ofEntries, List.contains_iff_mem]

theorem lines_append (content content' : String) :
    lines (content ++ "\n" ++ content') = lines content ++ lines content' := by
  have hchars : (content ++ "\n" ++ content').toList = content.toList ++ '\n' :: content'.toList := by
    simp
  rw [lines, hchars, List.splitOn_append_cons_self, List.map_append, List.filter_append]
  rfl

theorem mem_parse_append {content content' message : String} :
    message ∈ (parse (content ++ "\n" ++ content')).entries ↔
      message ∈ (parse content).entries ∨ message ∈ (parse content').entries := by
  rw [mem_parse, lines_append, List.mem_append, mem_parse, mem_parse]

def withReturns (content : String) : String := String.ofList (Text.crlf content.toList)

theorem parse_withReturns (content : String) : parse (withReturns content) = parse content := by
  have hlines (s : List Char) : ((s.splitOn '\n').map fun line => String.ofList (Text.trimChars line)) =
      ((s.splitOn '\n').map Text.trimChars).map String.ofList := by
    rw [List.map_map]
    rfl
  rw [parse, parse, lines, lines, withReturns, String.toList_ofList, hlines, hlines,
    Text.trimmed_crlf]

/-- Every line of the first content that is not blank is a line of the second one too. -/
def AddsLines (content content' : String) : Prop :=
  ∀ line, IsLine content.toList line → ¬IsBlankText line → IsLine content'.toList line

theorem AddsLines.contains {content content' : String} (h : AddsLines content content')
    {message : String} (hm : (parse content).contains message = true) :
    (parse content').contains message = true := by
  rw [contains_parse, mem_lines_iff] at *
  obtain ⟨hne, line, hline, strips⟩ := hm
  refine ⟨hne, line, h line hline fun blank => hne ?_, strips⟩
  -- nothing is left of a blank line
  rw [← String.toList_eq_nil_iff, ← Text.trimChars_of_strips strips]
  exact Text.trimChars_of_strips (Text.strips_nil blank)

end Allowlist

/-! ### What passes -/

namespace Comparison

theorem filterAllowed_parse_append (c : Comparison) (content content' : String) :
    c.filterAllowed (.parse (content ++ "\n" ++ content')) =
      (c.filterAllowed (.parse content)).filterAllowed (.parse content') := by
  have hcontains (message : String) : (Allowlist.parse (content ++ "\n" ++ content')).contains message =
      ((Allowlist.parse content).contains message || (Allowlist.parse content').contains message) := by
    rw [Bool.eq_iff_iff, Bool.or_eq_true, Allowlist.contains_parse, Allowlist.contains_parse,
      Allowlist.contains_parse, Allowlist.lines_append, List.mem_append]
  simp only [filterAllowed, List.filter_filter, hcontains, Bool.not_or, Bool.and_comm]

theorem filterAllowed_comm (c : Comparison) (a b : Allowlist) :
    (c.filterAllowed a).filterAllowed b = (c.filterAllowed b).filterAllowed a := by
  simp only [filterAllowed, List.filter_filter, Bool.and_comm]

variable {a b : Allowlist} (h : ∀ message, a.contains message = true → b.contains message = true)
include h

theorem isClean_filterAllowed_mono {c : Comparison} (clean : (c.filterAllowed a).isClean = true) :
    (c.filterAllowed b).isClean = true := by
  simp only [isClean, filterAllowed, List.isEmpty_iff, List.filter_eq_nil_iff, Bool.not_eq_true,
    Bool.not_eq_false'] at clean ⊢
  exact fun d hd => h d.message (clean d hd)

end Comparison

namespace Outcome

def filterAllowed (o : Outcome) (a : Allowlist) : Outcome :=
  { o with results := o.results.map (·.filterAllowed a) }

/-- From the first outcome to the second one a module may turn from breaking to clean, and the verdict
from failed to passed; nothing else changes in them. -/
structure Improves (o o' : Outcome) : Prop where
  status : ∀ m, (ModuleEntry.ofOutcome o' m).status = (ModuleEntry.ofOutcome o m).status ∨
    ((ModuleEntry.ofOutcome o m).status = .breaking ∧ (ModuleEntry.ofOutcome o' m).status = .clean)
  passed : (Verdict.ofOutcome o).passed = true → (Verdict.ofOutcome o').passed = true

@[simp] theorem skipped_filterAllowed (o : Outcome) (a : Allowlist) :
    (o.filterAllowed a).skipped = o.skipped := rfl

@[simp] theorem failed_filterAllowed (o : Outcome) (a : Allowlist) :
    (o.filterAllowed a).failed = o.failed := rfl

@[simp] theorem result?_filterAllowed (o : Outcome) (a : Allowlist) (m : ModuleName) :
    (o.filterAllowed a).result? m = (o.result? m).map (·.filterAllowed a) := by
  rw [result?, filterAllowed, List.find?_map]
  rfl

section

variable {a b : Allowlist} (h : ∀ message, a.contains message = true → b.contains message = true)
include h

theorem status_filterAllowed (o : Outcome) (m : ModuleName) :
    (ModuleEntry.ofOutcome (o.filterAllowed b) m).status =
        (ModuleEntry.ofOutcome (o.filterAllowed a) m).status ∨
      ((ModuleEntry.ofOutcome (o.filterAllowed a) m).status = .breaking ∧
        (ModuleEntry.ofOutcome (o.filterAllowed b) m).status = .clean) := by
  simp only [ModuleEntry.ofOutcome, skipped_filterAllowed, failed_filterAllowed,
    result?_filterAllowed]
  cases o.skipped.get? m with
  | some reason => exact .inl rfl
  | none =>
    cases o.failed.get? m with
    | some error => exact .inl rfl
    | none =>
      cases o.result? m with
      | none => exact .inl rfl
      | some c =>
        simp only [Option.map_some]
        by_cases ha : (c.filterAllowed a).isClean = true
        · rw [if_pos ha, if_pos (Comparison.isClean_filterAllowed_mono h ha)]
          exact .inl rfl
        · rw [if_neg ha]
          split_ifs
          · exact .inr ⟨rfl, rfl⟩
          · exact .inl rfl

theorem passed_filterAllowed (o : Outcome)
    (passed : (Verdict.ofOutcome (o.filterAllowed a)).passed = true) :
    (Verdict.ofOutcome (o.filterAllowed b)).passed = true := by
  rw [Verdict.passed_ofOutcome_iff] at passed ⊢
  obtain ⟨hfailed, hclean⟩ := passed
  refine ⟨hfailed, List.forall_mem_map.2 fun c hc => ?_⟩
  exact Comparison.isClean_filterAllowed_mono h (hclean _ (List.mem_map_of_mem hc))

theorem improves_filterAllowed (o : Outcome) : (o.filterAllowed a).Improves (o.filterAllowed b) :=
  ⟨status_filterAllowed h o, passed_filterAllowed h o⟩

end

end Outcome

namespace Allowlist

open Text (IsLine Strips)

/-- A file allows the messages that are its trimmed lines, whichever line ends it has. Two files put
together allow what one of them allows, and a comparison passed through them is the one passed through
both, one after the other. With more lines in the file no outcome gets worse. -/
theorem parse_combines (content content' : String) :
    (∀ message, (parse content).contains message = true ↔
      message ≠ "" ∧ ∃ line, IsLine content.toList line ∧ Strips line message.toList) ∧
    (∀ message, message ∈ (parse (content ++ "\n" ++ content')).entries ↔
      message ∈ (parse content).entries ∨ message ∈ (parse content').entries) ∧
    parse (withReturns content) = parse content ∧
    (∀ c : Comparison,
      c.filterAllowed (parse (content ++ "\n" ++ content')) =
        (c.filterAllowed (parse content)).filterAllowed (parse content') ∧
      c.filterAllowed (parse (content ++ "\n" ++ content')) =
        (c.filterAllowed (parse content')).filterAllowed (parse content) ∧
      c.filterAllowed (parse content) = ⟨c.module,
        c.breakingChanges.filter fun d => !(parse content).contains d.message,
        c.otherDiagnostics⟩) ∧
    (AddsLines content content' → ∀ o : Outcome,
      (o.filterAllowed (parse content)).Improves (o.filterAllowed (parse content'))) := by
  refine ⟨fun message => ?_, fun message => mem_parse_append, parse_withReturns content, fun c => ?_,
    fun h o => ?_⟩
  · rw [contains_parse, mem_lines_iff]
  · have happend := c.filterAllowed_parse_append content content'
    exact ⟨happend, happend.trans (c.filterAllowed_comm _ _), rfl⟩
  · exact Outcome.improves_filterAllowed (fun _ => h.contains) o

/-- With one more line nothing is left of the changes. -/
theorem parse_combines_added :
    let o : Outcome := ⟨.empty, .empty, .empty,
      [⟨⟨"Foo"⟩, [⟨.error, "func gone", none⟩, ⟨.error, "var lost", none⟩], []⟩]⟩
    AddsLines "func gone" "var lost\nfunc gone\n" ∧
    (o.filterAllowed (parse "func gone")).Improves (o.filterAllowed (parse "var lost\nfunc gone\n")) ∧
    (o.filterAllowed (parse "func gone")).results = [⟨⟨"Foo"⟩, [⟨.error, "var lost", none⟩], []⟩] ∧
    (o.filterAllowed (parse "var lost\nfunc gone\n")).results = [⟨⟨"Foo"⟩, [], []⟩] := by
  have adds : AddsLines "func gone" "var lost\nfunc gone\n" := by
    intro line hline _
    rw [← Text.mem_splitOn_iff] at hline ⊢
    have hsingle : "func gone".toList.splitOn '\n' = ["func gone".toList] := by decide
    rw [hsingle, List.mem_singleton] at hline
    rw [hline]
    decide
  refine ⟨adds, (parse_combines _ _).2.2.2.2 adds _, ?_, ?_⟩
  · simp only [Outcome.filterAllowed, Comparison.filterAllowed, parse, contains_ofEntries]
    decide
  · simp only [Outcome.filterAllowed, Comparison.filterAllowed, parse, contains_ofEntries]
    decide

/-! ### Messages copied from a report -/

open Comparison (Entry Prints)

theorem contains_line {content message : String} (notBlank : ¬Text.IsBlankText message.toList)
    (line : IsLine content.toList message.toList) (trimmed : Text.IsTrimmed message.toList) :
    (parse content).contains message = true := by
  refine contains_parse.2 (mem_lines_iff.2 ⟨?_, _, line, ?_⟩)
  · rintro rfl
    exact notBlank Text.isBlankText_nil
  · exact Text.trimChars_eq_iff.1 (Text.trimChars_eq_self_iff.2 trimmed)

theorem isTrimmed_of_contains {content message : String}
    (h : (parse content).contains message = true) : Text.IsTrimmed message.toList := by
  obtain ⟨-, line, -, strips⟩ := mem_lines_iff.1 (contains_parse.1 h)
  exact strips.1

theorem diagnostic_mem_breaking {entries : List Entry} {e : Entry} (he : e ∈ entries)
    (category : e.category = some "api-breakage") : e.diagnostic ∈ Comparison.breaking entries :=
  List.mem_map_of_mem (List.mem_filter.2 ⟨he, decide_eq_true category⟩)

/-- The message of a breaking change that is printed stands in the report behind its mark. Without a
blank at its ends it is gone once it is a line of the file, and else there is no file that helps. -/
theorem copied_allowed (m : ModuleName) {output : String} {entries : List Entry}
    (prints : Prints output entries) {e : Entry} (he : e ∈ entries)
    (category : e.category = some "api-breakage") (notBlank : ¬Text.IsBlankText e.message.toList) :
    ∃ c, Comparison.read m output = .ok c ∧
      Report.changeMark ++ e.message ∈ Report.resultLines c ∧
      (Text.IsTrimmed e.message.toList → ∀ content, IsLine content.toList e.message.toList →
        ∀ d ∈ (c.filterAllowed (parse content)).breakingChanges, d.message ≠ e.message) ∧
      (¬Text.IsTrimmed e.message.toList → ∀ content,
        ∃ d ∈ (c.filterAllowed (parse content)).breakingChanges, d.message = e.message) := by
  have hbreaking := diagnostic_mem_breaking he category
  refine ⟨_, (Comparison.Reads.report prints).eq, ?_, fun trimmed content line d hd heq => ?_,
    fun untrimmed content => ⟨e.diagnostic, ?_, rfl⟩⟩
  · exact List.mem_cons_of_mem _ (List.mem_map_of_mem (List.mem_map_of_mem hbreaking))
  · rw [Comparison.mem_filterAllowed, heq, contains_line notBlank line trimmed] at hd
    exact Bool.noConfusion hd.2
  · rw [Comparison.mem_filterAllowed]
    exact ⟨hbreaking, Bool.eq_false_iff.2 fun h => untrimmed (isTrimmed_of_contains h)⟩

/-- A message without blanks at its ends. -/
theorem copied_allowed_plain :
    let output := "\x7b\"diagnostics\":[\x7b\"severity\":\"error\",\"message\":\"func gone\"," ++
      "\"category\":\"api-breakage\"\x7d]\x7d"
    let e : Entry := ⟨.error, "func gone", some "api-breakage", none⟩
    Prints output [e] ∧ ∃ c, Comparison.read ⟨"Foo"⟩ output = .ok c ∧
      Report.changeMark ++ e.message ∈ Report.resultLines c ∧
      ∀ d ∈ (c.filterAllowed (parse "func gone\n")).breakingChanges, d.message ≠ e.message := by
  intro output e
  have houtput : (Comparison.changesTree ["func gone"]).compact = output := by rfl
  have prints : Prints output [e] := houtput ▸ Comparison.prints_changesTree ["func gone"]
  have trimmed : Text.IsTrimmed e.message.toList := Text.trimChars_eq_self_iff.1 (by decide)
  have notBlank : ¬Text.IsBlankText e.message.toList :=
    fun h => absurd (h 'f' (by decide)) (by decide)
  have line : IsLine "func gone\n".toList e.message.toList := Text.mem_splitOn_iff.1 (by decide)
  obtain ⟨c, hread, hmark, hgone, -⟩ :=
    copied_allowed ⟨"Foo"⟩ prints List.mem_cons_self rfl notBlank
  exact ⟨prints, c, hread, hmark, hgone trimmed _ line⟩

/-- With a blank before it the message stays, though it is copied as it is. -/
theorem copied_message_kept :
    let output := "\x7b\"diagnostics\":[\x7b\"severity\":\"error\",\"message\":\" func gone\"," ++
      "\"category\":\"api-breakage\"\x7d]\x7d"
    let content := " func gone\n"
    Prints output [⟨.error, " func gone", some "api-breakage", none⟩] ∧
    IsLine content.toList " func gone".toList ∧
    ∃ c, Comparison.read ⟨"Foo"⟩ output = .ok c ∧
      Report.resultLines c = ["1 breaking change detected in Foo:", "  💔  func gone"] ∧
      (c.filterAllowed (parse content)).breakingChanges = [⟨.error, " func gone", none⟩] := by
  intro output content
  have houtput : (Comparison.changesTree [" func gone"]).compact = output := by rfl
  have prints := houtput ▸ Comparison.prints_changesTree [" func gone"]
  refine ⟨prints, Text.mem_splitOn_iff.1 (by decide), _, (Comparison.Reads.report prints).eq, ?_, ?_⟩
  · rfl
  · simp only [Comparison.filterAllowed, parse, contains_ofEntries]
    decide +revert

end Allowlist

end Breakage
