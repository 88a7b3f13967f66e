import Breakage.Outcome.Report
import Breakage.Outcome.Summary
import Breakage.Proofs.Module.Tables

/-!
Outcomes that differ in nothing but the order of their results. As long as no module has two results,
the result of each module is the same (`Agrees.result?_eq`), and so are the results in name order
(`Agrees.sortedResults_eq`); reports, verdicts and summaries have no other way to the results. Main
statement: `Outcome.order_unseen`.
-/

namespace Breakage

theorem Verdict.passed_ofOutcome_iff (o : Outcome) :
    (ofOutcome o).passed = true ↔ o.failed.entries = [] ∧ ∀ c ∈ o.results, c.isClean = true := by
  have hclean : o.sortedResults.filter (fun c => !c.isClean) = [] ↔
      ∀ c ∈ o.results, c.isClean = true := by
    rw [List.filter_eq_nil_iff]
    simp [o.sortedResults_perm.mem_iff]
  rw [passed_ofOutcome]
  change violationsOf o = [] ↔ _
  rw [violationsOf, List.append_eq_nil_iff, List.map_eq_nil_iff, List.map_eq_nil_iff, hclean]

/-- The same outcome, whatever the order in which the comparisons ended. -/
structure Outcome.Agrees (o o' : Outcome) : Prop where
  requested : o.requested = o'.requested
  skipped : o.skipped = o'.skipped
  failed : o.failed = o'.failed
  results : o.results.Perm o'.results

namespace Outcome

theorem mem_of_result? {o : Outcome} {m : ModuleName} {c : Comparison} (h : o.result? m = some c) :
    c ∈ o.results ∧ c.module = m := by
  have hm := List.find?_some h
  exact ⟨List.mem_of_find?_eq_some h, of_decide_eq_true hm⟩

theorem result?_eq_some_iff {o : Outcome} (nodup : (o.results.map Comparison.module).Nodup)
    {m : ModuleName} {c : Comparison} :
    o.result? m = some c ↔ c ∈ o.results ∧ c.module = m := by
  refine ⟨mem_of_result?, ?_⟩
  rintro ⟨hc, rfl⟩
  have hsome : (o.result? c.module).isSome = true := by
    rw [result?, List.find?_isSome]
    exact ⟨c, hc, decide_eq_true rfl⟩
  obtain ⟨c', hc'⟩ := Option.isSome_iff_exists.1 hsome
  obtain ⟨hmem, hmodule⟩ := mem_of_result? hc'
  rw [hc', List.inj_on_of_nodup_map nodup hmem hc hmodule]

theorem precedes_trans (a b c : Comparison) (hab : decide (¬b.module < a.module) = true)
    (hbc : decide (¬c.module < b.module) = true) : decide (¬c.module < a.module) = true := by
  rw [decide_eq_true_iff, ModuleName.lt_iff, String.not_lt] at *
  exact String.le_trans hab hbc

theorem precedes_total (a b : Comparison) :
    (decide (¬b.module < a.module) || decide (¬a.module < b.module)) = true := by
  rw [Bool.or_eq_true, decide_eq_true_iff, decide_eq_true_iff, ModuleName.lt_iff, ModuleName.lt_iff,
    String.not_lt, String.not_lt]
  exact String.le_total _ _

theorem sortedResults_pairwise (o : Outcome) :
    o.sortedResults.Pairwise fun a b => ¬b.module < a.module :=
  (List.pairwise_mergeSort precedes_trans precedes_total o.results).imp fun h => of_decide_eq_true h

theorem sortedResults_ascending {o : Outcome} (nodup : (o.results.map Comparison.module).Nodup) :
    o.sortedResults.Pairwise fun a b => a.module < b.module := by
  have hnodup : (o.sortedResults.map Comparison.module).Nodup :=
    ((o.sortedResults_perm.map Comparison.module).nodup_iff).2 nodup
  refine o.sortedResults_pairwise.imp₂ (fun a b hle hne => ?_) (List.pairwise_map.1 hnodup)
  by_contra hlt
  exact hne (ModuleName.eq_of_not_lt hlt hle)

theorem filter_sortedResults (o : Outcome) (m : ModuleName) :
    o.sortedResults.filter (fun c => c.module = m) = o.results.filter fun c => c.module = m := by
  have hsorted : (o.results.filter fun c => c.module = m).Pairwise
      fun a b => decide (¬b.module < a.module) = true := by
    refine List.pairwise_of_forall_mem_list fun a ha b hb => ?_
    have ha : a.module = m := of_decide_eq_true (List.mem_filter.1 ha).2
    have hb : b.module = m := of_decide_eq_true (List.mem_filter.1 hb).2
    rw [ha, hb]
    exact decide_eq_true (ModuleName.lt_irrefl m)
  have hsub : (o.results.filter fun c => c.module = m).Sublist o.sortedResults :=
    List.sublist_mergeSort precedes_trans precedes_total hsorted List.filter_sublist
  have hfilter := hsub.filter fun c => c.module = m
  simp only [List.filter_filter, Bool.and_self] at hfilter
  exact (hfilter.eq_of_length ((o.sortedResults_perm.filter _).length_eq.symm)).symm

namespace Agrees

variable {o o' : Outcome} (h : o.Agrees o') (nodup : (o.results.map Comparison.module).Nodup)
include h nodup

theorem result?_eq (m : ModuleName) : o.result? m = o'.result? m := by
  have nodup' := ((h.results.map Comparison.module).nodup_iff).1 nodup
  ext c
  rw [result?_eq_some_iff nodup, result?_eq_some_iff nodup', h.results.mem_iff]

theorem sortedResults_eq : o.sortedResults = o'.sortedResults := by
  have hperm := (o.sortedResults_perm.trans h.results).trans o'.sortedResults_perm.symm
  refine hperm.eq_of_pairwise (fun a b ha hb hab hba => ?_) o.sortedResults_pairwise
    o'.sortedResults_pairwise
  have ha := o.sortedResults_perm.mem_iff.1 ha
  have hb := h.results.mem_iff.2 (o'.sortedResults_perm.mem_iff.1 hb)
  exact List.inj_on_of_nodup_map nodup ha hb (ModuleName.eq_of_not_lt hba hab)

theorem report_eq : Report.ofOutcome o = Report.ofOutcome o' := by
  have hblock : Report.block o = Report.block o' := by
    funext m
    rw [Report.block, Report.block, h.skipped, h.result?_eq nodup]
  rw [Report.ofOutcome, Report.ofOutcome, hblock, h.requested]

theorem events_eq : Report.events o = Report.events o' := by
  have hmodule : Report.moduleEvents o = Report.moduleEvents o' := by
    funext m
    rw [Report.moduleEvents, Report.moduleEvents, h.skipped, h.result?_eq nodup]
  rw [Report.events, Report.events, hmodule, h.requested]

theorem verdict_eq : Verdict.ofOutcome o = Verdict.ofOutcome o' := by
  rw [Verdict.ofOutcome, Verdict.ofOutcome, Verdict.violationsOf, Verdict.violationsOf, h.failed,
    h.sortedResults_eq nodup]

theorem modules_summary_eq (now : Instant) (treeish : String) (revision : Revision)
    (verdict : Verdict) :
    (Summary.ofOutcome now treeish revision o verdict).modules =
      (Summary.ofOutcome now treeish revision o' verdict).modules := by
  have hentry : ModuleEntry.ofOutcome o = ModuleEntry.ofOutcome o' := by
    funext m
    rw [ModuleEntry.ofOutcome, ModuleEntry.ofOutcome, h.skipped, h.failed, h.result?_eq nodup]
  change o.requested.toList.map (ModuleEntry.ofOutcome o) = o'.requested.toList.map _
  rw [hentry, h.requested]

end Agrees

structure ReadsAs (o o' : Outcome) : Prop where
  result : ∀ m, o.result? m = o'.result? m
  sorted : o.sortedResults = o'.sortedResults
  lines : (Report.ofOutcome o).lines = (Report.ofOutcome o').lines
  events : Report.events o = Report.events o'
  verdict : Verdict.ofOutcome o = Verdict.ofOutcome o'
  modules : ∀ now treeish revision verdict,
    (Summary.ofOutcome now treeish revision o verdict).modules =
      (Summary.ofOutcome now treeish revision o' verdict).modules

theorem Agrees.readsAs {o o' : Outcome} (h : o.Agrees o')
    (nodup : (o.results.map Comparison.module).Nodup) : o.ReadsAs o' where
  result := h.result?_eq nodup
  sorted := h.sortedResults_eq nodup
  lines := congrArg Report.lines (h.report_eq nodup)
  events := h.events_eq nodup
  verdict := h.verdict_eq nodup
  modules := h.modules_summary_eq nodup

/-- Nobody who reads an outcome can tell in which order its results came, as long as no module has two:
nothing is read off it that is not read off every rearrangement, and the results in name order ascend.
Be that as it may, the results in name order are all results, and those of one module keep the order in
which they came. -/
theorem order_unseen (o : Outcome) :
    ((o.results.Pairwise fun c d => c.module ≠ d.module) →
      (∀ results, results.Perm o.results → o.ReadsAs { o with results := results }) ∧
      o.sortedResults.Pairwise fun a b => a.module < b.module) ∧
    o.sortedResults.Perm o.results ∧
    (o.sortedResults.Pairwise fun a b => a.module.text ≤ b.module.text) ∧
    ∀ m, o.sortedResults.filter (fun c => c.module = m) = o.results.filter fun c => c.module = m := by
  refine ⟨fun distinct => ?_, o.sortedResults_perm, ?_, o.filter_sortedResults⟩
  · have nodup : (o.results.map Comparison.module).Nodup := List.pairwise_map.2 distinct
    refine ⟨fun results perm => ?_, sortedResults_ascending nodup⟩
    have hagrees : o.Agrees { o with results := results } := ⟨rfl, rfl, rfl, perm.symm⟩
    exact hagrees.readsAs nodup
  · exact o.sortedResults_pairwise.imp String.not_lt.1

/-- Two results that came in the wrong order, and a module that was skipped. -/
theorem order_unseen_reversed :
    let gone : Diagnostic := ⟨.error, "func gone() has been removed", none⟩
    let broken : Comparison := ⟨⟨"Broken"⟩, [gone], []⟩
    let o : Outcome := ⟨.ofList [⟨"Broken"⟩, ⟨"Clean"⟩, ⟨"New"⟩], .ofList [(⟨"New"⟩, .notInBaseline)],
      .empty, [.clean ⟨"Clean"⟩, broken]⟩
    let o' : Outcome := { o with results := [broken, .clean ⟨"Clean"⟩] }
    (o.results.Pairwise fun c d => c.module ≠ d.module) ∧ o'.results.Perm o.results ∧
      o'.results ≠ o.results ∧ o.sortedResults = o'.results ∧ o.ReadsAs o' := by
  intro gone broken o o'
  have distinct : o.results.Pairwise fun c d => c.module ≠ d.module := by decide
  have perm : o'.results.Perm o.results := .swap _ _ _
  have halike : o.ReadsAs o' := ((order_unseen o).1 distinct).1 _ perm
  have hsorted : o'.sortedResults = o'.results := List.mergeSort_of_pairwise (by decide +kernel)
  exact ⟨distinct, perm, by decide, halike.sorted.trans hsorted, halike⟩

end Outcome

end Breakage
