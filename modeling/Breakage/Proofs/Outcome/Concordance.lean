import Mathlib.Algebra.GroupWithZero.Nat
import Breakage.Proofs.Outcome
import Breakage.Proofs.Outcome.Partition
import Breakage.Proofs.Run.Accounting

/-!
The report, the summary and the verdict of one outcome. They find the modules in three ways: the
report looks for skipped modules and then for results, the summary for skipped, failed and compared
ones in this order, and the verdict goes through the failures and the results without a look at what
was requested. In a partition every module is in one place, so that they cannot contradict each other.
Main statement: `Outcome.told_alike`.
-/

namespace Breakage

theorem flatMap_filter_of_nil {α β : Type} {f : α → List β} {p : α → Bool} {as : List α}
    (h : ∀ a ∈ as, p a = false → f a = []) : as.flatMap f = (as.filter p).flatMap f := by
  induction as with
  | nil => rfl
  | cons a rest ih =>
    obtain ⟨ha, hrest⟩ := List.forall_mem_cons.1 h
    cases hp : p a with
    | true => rw [List.filter_cons_of_pos hp, List.flatMap_cons, List.flatMap_cons, ih hrest]
    | false =>
      rw [List.filter_cons_of_neg (Bool.not_eq_true _ ▸ hp), List.flatMap_cons, ha hp, ih hrest,
        List.nil_append]

theorem Report.skipLine_ne_headline (m : ModuleName) (reason : SkipReason) :
    skipLine m reason ≠ headline m 0 := by
  intro h
  have hfirst := congrArg (fun line => line.toList.head?) h
  cases reason <;> simp [skipLine, headline] at hfirst

theorem Report.skipLine_injective (m : ModuleName) : Function.Injective (skipLine m) := by
  intro reason reason' h
  have hlist := congrArg String.toList h
  cases reason <;> cases reason' <;> first | rfl | simp [skipLine] at hlist

theorem Report.changeMark_injective : Function.Injective (changeMark ++ ·) := by
  intro message message' h
  have hlist := congrArg String.toList h
  rw [String.toList_append, String.toList_append] at hlist
  exact String.toList_inj.1 (List.append_cancel_left hlist)

theorem Report.singleton_ne_changed {line header : String} {changes : List String}
    (h : changes ≠ []) : [line] ≠ header :: changes.map (changeMark ++ ·) := by
  intro hblock
  exact h (List.map_eq_nil_iff.1 (List.cons.inj hblock).2.symm)

def Report.isChange (line : String) : Bool := changeMark.toList.isPrefixOf line.toList

theorem Report.isChange_changeMark (message : String) : isChange (changeMark ++ message) = true := by
  rw [isChange, String.toList_append, List.isPrefixOf_iff_prefix]
  exact List.prefix_append _ _

theorem Report.isChange_eq_false {line : String} (h : line.toList.head? ≠ some ' ') :
    isChange line = false := by
  rw [Bool.eq_false_iff, Ne, isChange, List.isPrefixOf_iff_prefix]
  rintro ⟨rest, hline⟩
  rw [← hline] at h
  exact h rfl

theorem Report.isChange_skipLine (m : ModuleName) (reason : SkipReason) :
    isChange (skipLine m reason) = false := by
  apply isChange_eq_false
  cases reason <;> simp [skipLine]

theorem Report.isChange_headline (m : ModuleName) (changes : Nat) :
    isChange (headline m changes) = false := by
  apply isChange_eq_false
  rw [headline]
  split
  · simp
  · -- the line begins with a digit
    have hdigits : (toString changes).toList = Nat.toDigits 10 changes := by
      simp [toString, Nat.repr]
    intro h
    simp only [String.toList_append, List.append_assoc, hdigits,
      List.head?_append_of_ne_nil _ Nat.toDigits_ne_nil] at h
    have hblank := Nat.isDigit_of_mem_toDigits (by decide) (by decide) (List.mem_of_head? h)
    exact absurd hblank (by decide)

/-- The block of the report and the entry of the summary tell the same of a module. -/
structure Outcome.Told (o : Outcome) (m : ModuleName) (e : ModuleEntry) : Prop where
  module : e.module = m.text
  skipped : ∀ reason, Report.block o m = [Report.skipLine m reason] ↔
    e.status = .skipped ∧ e.skipReason = some reason
  clean : Report.block o m = [Report.headline m 0] ↔ e.status = .clean ∧ e.breakingChanges = []
  breaking : ∀ changes, changes ≠ [] ∧ Report.block o m =
      Report.headline m changes.length :: changes.map (Report.changeMark ++ ·) ↔
    e.status = .breaking ∧ e.breakingChanges = changes
  failed : Report.block o m = [] ↔ e.status = .failed
  error : e.status = .failed ↔ ∃ error, o.failed.get? m = some error ∧ e.error = some error

namespace Outcome

variable {o : Outcome} {m : ModuleName}

theorem told_skipped {reason : SkipReason} (hskipped : o.skipped.get? m = some reason)
    (hfailed : o.failed.get? m = none) : o.Told m (ModuleEntry.ofOutcome o m) := by
  have hblock : Report.block o m = [Report.skipLine m reason] := by
    rw [Report.block, hskipped]
  have hentry : ModuleEntry.ofOutcome o m = ⟨m.text, .skipped, some reason, none, []⟩ := by
    rw [ModuleEntry.ofOutcome, hskipped]
  rw [hentry]
  exact {
    module := rfl
    skipped := fun reason' => by simp [hblock, (Report.skipLine_injective m).eq_iff]
    clean := by simp [hblock, Report.skipLine_ne_headline]
    breaking := fun changes => by
      rw [hblock]
      exact ⟨fun h => absurd h.2 (Report.singleton_ne_changed h.1), fun h => absurd h.1 (by simp)⟩
    failed := by simp [hblock]
    error := by simp [hfailed] }

theorem told_failed {error : String} (hskipped : o.skipped.get? m = none)
    (hfailed : o.failed.get? m = some error) (hresult : o.result? m = none) :
    o.Told m (ModuleEntry.ofOutcome o m) := by
  have hblock : Report.block o m = [] := by
    rw [Report.block, hskipped, hresult]
    rfl
  have hentry : ModuleEntry.ofOutcome o m = ⟨m.text, .failed, none, some error, []⟩ := by
    rw [ModuleEntry.ofOutcome, hskipped, hfailed]
  rw [hentry]
  exact {
    module := rfl
    skipped := by simp [hblock]
    clean := by simp [hblock]
    breaking := by simp [hblock]
    failed := by simp [hblock]
    error := by simp [hfailed] }

theorem told_compared {c : Comparison} (hskipped : o.skipped.get? m = none)
    (hfailed : o.failed.get? m = none) (hresult : o.result? m = some c) :
    o.Told m (ModuleEntry.ofOutcome o m) := by
  have hblock : Report.block o m =
      Report.headline m c.changes.length :: c.changes.map (Report.changeMark ++ ·) := by
    rw [Report.block, hskipped, hresult, ← (mem_of_result? hresult).2]
    exact congrArg (· :: c.changes.map (Report.changeMark ++ ·)) (Report.header_eq c)
  have hentry : ModuleEntry.ofOutcome o m =
      ⟨m.text, if c.changes.isEmpty then .clean else .breaking, none, none, c.changes⟩ := by
    rw [ModuleEntry.ofOutcome, hskipped, hfailed, hresult, Comparison.changes, List.isEmpty_map]
    rfl
  rw [hentry]
  cases hchanges : c.changes with
  | nil =>
    rw [hchanges] at hblock
    exact {
      module := rfl
      skipped := fun reason => by simp [hblock, (Report.skipLine_ne_headline m reason).symm]
      clean := by simp [hblock]
      breaking := fun changes => by
        rw [hblock]
        exact ⟨fun h => absurd h.2 (Report.singleton_ne_changed h.1), fun h => absurd h.1 (by simp)⟩
      failed := by simp [hblock]
      error := by simp [hfailed] }
  | cons message rest =>
    rw [hchanges] at hblock
    exact {
      module := rfl
      skipped := by simp [hblock]
      clean := by simp [hblock]
      breaking := fun changes => by
        rw [hblock]
        constructor
        · rintro ⟨-, h⟩
          exact ⟨rfl, Report.changeMark_injective.list_map (List.cons.inj h).2⟩
        · rintro ⟨-, rfl⟩
          exact ⟨List.cons_ne_nil _ _, rfl⟩
      failed := by simp [hblock]
      error := by simp [hfailed] }

theorem Found.told (found : o.Found m) : o.Told m (ModuleEntry.ofOutcome o m) := by
  cases found with
  | skipped reason hskipped hfailed _ => exact told_skipped hskipped hfailed
  | failed error hskipped hfailed hresult => exact told_failed hskipped hfailed hresult
  | compared c hskipped hfailed hresult => exact told_compared hskipped hfailed hresult

end Outcome

namespace ModuleEntry

def failure (e : ModuleEntry) : String := Verdict.failure ⟨e.module⟩ (e.error.getD "")

def breakage (e : ModuleEntry) : String :=
  "Module '" ++ e.module ++ "' has " ++ toString e.breakingChanges.length ++
    (if e.breakingChanges.length = 1 then " breaking change" else " breaking changes")

end ModuleEntry

theorem ModuleEntry.length_bad (entries : List ModuleEntry) :
    (entries.filter fun e => e.status = .failed).length +
      (entries.filter fun e => e.status = .breaking).length =
        entries.countP fun e => e.status = .failed || e.status = .breaking := by
  induction entries with
  | nil => rfl
  | cons e rest ih =>
    rw [List.countP_cons, ← ih]
    cases hstatus : e.status <;> simp [hstatus] <;> omega

theorem Verdict.failure_eq {o : Outcome} {m : ModuleName} {error : String}
    (hskipped : o.skipped.get? m = none) (hfailed : o.failed.get? m = some error) :
    failure m error = (ModuleEntry.ofOutcome o m).failure := by
  simp only [ModuleEntry.ofOutcome, hskipped, hfailed, ModuleEntry.failure, Option.getD_some]

theorem Verdict.breakage_eq {o : Outcome} {c : Comparison} (hskipped : o.skipped.get? c.module = none)
    (hfailed : o.failed.get? c.module = none) (hresult : o.result? c.module = some c) :
    breakage c = (ModuleEntry.ofOutcome o c.module).breakage := by
  simp only [breakage, ModuleEntry.ofOutcome, hskipped, hfailed, hresult, ModuleEntry.breakage,
    Comparison.changes, List.length_map]

namespace Outcome

variable {o : Outcome}

section

variable (partition : o.isPartition = true)
include partition

theorem told {m : ModuleName} (hm : m ∈ o.requested) : o.Told m (ModuleEntry.ofOutcome o m) :=
  (found partition hm).told

theorem found_of_failed {m : ModuleName} {error : String} (h : o.failed.get? m = some error) :
    m ∈ o.requested ∧ o.skipped.get? m = none := by
  have hkey := ModuleMap.mem_keys_iff.2 ⟨error, h⟩
  have hm : m ∈ o.requested :=
    (names_perm partition).mem_iff.1 (List.mem_append_left _ (List.mem_append_right _ hkey))
  cases found partition hm with
  | skipped _ _ hnone _ => exact absurd (h.symm.trans hnone) (Option.some_ne_none _)
  | compared _ _ hnone _ => exact absurd (h.symm.trans hnone) (Option.some_ne_none _)
  | failed _ hskipped _ _ => exact ⟨hm, hskipped⟩

theorem found_of_result {c : Comparison} (hc : c ∈ o.results) : c.module ∈ o.requested ∧
    o.skipped.get? c.module = none ∧ o.failed.get? c.module = none ∧ o.result? c.module = some c := by
  have hm : c.module ∈ o.requested :=
    (names_perm partition).mem_iff.1 (List.mem_append_right _ (List.mem_map.2 ⟨c, hc, rfl⟩))
  have hresult := (result?_eq_some_iff (nodup_results partition)).2 ⟨hc, rfl⟩
  cases found partition hm with
  | skipped _ _ _ hnone => exact absurd (hresult.symm.trans hnone) (Option.some_ne_none _)
  | failed _ _ _ hnone => exact absurd (hresult.symm.trans hnone) (Option.some_ne_none _)
  | compared _ hskipped hfailed _ => exact ⟨hm, hskipped, hfailed, hresult⟩

theorem filter_failed :
    (o.requested.filter fun m => (ModuleEntry.ofOutcome o m).status = .failed).toList =
      o.failed.entries.map Prod.fst := by
  let keys : ModuleSet := ⟨o.failed.entries.map Prod.fst, List.pairwise_map.2 o.failed.ascending⟩
  have hkeys : ∀ m, m ∈ keys ↔ ∃ error, o.failed.get? m = some error := by
    exact fun m => ModuleMap.mem_keys_iff
  suffices h : o.requested.filter (fun m => (ModuleEntry.ofOutcome o m).status = .failed) = keys from
    congrArg ModuleSet.toList h
  refine ModuleSet.ext_mem fun m => ?_
  rw [ModuleSet.mem_filter, decide_eq_true_iff, hkeys]
  constructor
  · rintro ⟨hm, hstatus⟩
    obtain ⟨error, hfailed, -⟩ := (told partition hm).error.1 hstatus
    exact ⟨error, hfailed⟩
  · rintro ⟨error, hfailed⟩
    obtain ⟨hm, hskipped⟩ := found_of_failed partition hfailed
    refine ⟨hm, ?_⟩
    rw [ModuleEntry.ofOutcome, hskipped, hfailed]

theorem ascending_sortedResults :
    (o.sortedResults.map Comparison.module).Pairwise (· < ·) :=
  List.pairwise_map.2 (sortedResults_ascending (nodup_results partition))

theorem filter_breaking :
    (o.requested.filter fun m => (ModuleEntry.ofOutcome o m).status = .breaking).toList =
      (o.sortedResults.filter fun c => !c.isClean).map Comparison.module := by
  have hsub : (o.sortedResults.filter fun c => !c.isClean).Sublist o.sortedResults :=
    List.filter_sublist
  let dirty : ModuleSet := ⟨_, (ascending_sortedResults partition).sublist (hsub.map _)⟩
  suffices h : o.requested.filter (fun m => (ModuleEntry.ofOutcome o m).status = .breaking) = dirty
    from congrArg ModuleSet.toList h
  refine ModuleSet.ext_mem fun m => ?_
  have hdirty : m ∈ dirty ↔ ∃ c ∈ o.results, c.isClean = false ∧ c.module = m := by
    change m ∈ List.map Comparison.module _ ↔ _
    simp only [List.mem_map, List.mem_filter, o.sortedResults_perm.mem_iff, Bool.not_eq_true',
      and_assoc]
  rw [ModuleSet.mem_filter, decide_eq_true_iff, hdirty]
  constructor
  · rintro ⟨hm, hstatus⟩
    cases found partition hm with
    | skipped _ hskipped _ _ => simp [ModuleEntry.ofOutcome, hskipped] at hstatus
    | failed _ hskipped hfailed _ => simp [ModuleEntry.ofOutcome, hskipped, hfailed] at hstatus
    | compared c hskipped hfailed hresult =>
      obtain ⟨hc, hmodule⟩ := mem_of_result? hresult
      refine ⟨c, hc, ?_, hmodule⟩
      cases hclean : c.isClean with
      | false => rfl
      | true => simp [ModuleEntry.ofOutcome, hskipped, hfailed, hresult, hclean] at hstatus
  · rintro ⟨c, hc, hclean, rfl⟩
    obtain ⟨hm, hskipped, hfailed, hresult⟩ := found_of_result partition hc
    refine ⟨hm, ?_⟩
    simp [ModuleEntry.ofOutcome, hskipped, hfailed, hresult, hclean]

theorem violations_eq : Verdict.violationsOf o =
    ((o.requested.toList.map (ModuleEntry.ofOutcome o)).filter fun e => e.status = .failed).map
        ModuleEntry.failure ++
      ((o.requested.toList.map (ModuleEntry.ofOutcome o)).filter fun e => e.status = .breaking).map
        ModuleEntry.breakage := by
  have hfailures : o.failed.entries.map (fun e => Verdict.failure e.1 e.2) =
      (o.failed.entries.map Prod.fst).map (ModuleEntry.failure ∘ ModuleEntry.ofOutcome o) := by
    rw [List.map_map]
    refine List.map_congr_left fun e he => ?_
    have hfailed := ModuleMap.mem_entries.1 he
    exact Verdict.failure_eq (found_of_failed partition hfailed).2 hfailed
  have hbreakages : (o.sortedResults.filter fun c => !c.isClean).map Verdict.breakage =
      ((o.sortedResults.filter fun c => !c.isClean).map Comparison.module).map
        (ModuleEntry.breakage ∘ ModuleEntry.ofOutcome o) := by
    rw [List.map_map]
    refine List.map_congr_left fun c hc => ?_
    obtain ⟨-, hskipped, hfailed, hresult⟩ :=
      found_of_result partition (o.sortedResults_perm.mem_iff.1 (List.mem_of_mem_filter hc))
    exact Verdict.breakage_eq hskipped hfailed hresult
  rw [Verdict.violationsOf, hfailures, hbreakages, ← filter_failed partition,
    ← filter_breaking partition, List.filter_map, List.filter_map, List.map_map, List.map_map]
  rfl

theorem block_of_failed {m : ModuleName} {error : String} (h : o.failed.get? m = some error) :
    Report.block o m = [] := by
  cases found partition (found_of_failed partition h).1 with
  | failed _ hskipped _ hresult =>
    rw [Report.block, hskipped, hresult]
    rfl
  | skipped _ _ hnone _ => exact absurd (h.symm.trans hnone) (Option.some_ne_none _)
  | compared _ _ hnone _ => exact absurd (h.symm.trans hnone) (Option.some_ne_none _)

theorem flatMap_block : o.requested.toList.flatMap (Report.block o) =
    (o.requested.toList.filter fun m => !o.failed.contains m).flatMap (Report.block o) := by
  refine flatMap_filter_of_nil fun m _ hfails => ?_
  rw [Bool.not_eq_false', ModuleMap.contains_iff] at hfails
  obtain ⟨error, herror⟩ := hfails
  exact block_of_failed partition herror

theorem countP_block {c : Comparison} (hc : c ∈ o.results) :
    (Report.block o c.module).countP Report.isChange = c.breakingChanges.length := by
  obtain ⟨-, hskipped, -, hresult⟩ := found_of_result partition hc
  have hblock : Report.block o c.module = Report.headline c.module c.changes.length ::
      c.changes.map (Report.changeMark ++ ·) := by
    rw [Report.block, hskipped, hresult]
    exact congrArg (· :: c.changes.map (Report.changeMark ++ ·)) (Report.header_eq c)
  have hchanges : (c.changes.map (Report.changeMark ++ ·)).countP Report.isChange =
      c.changes.length := by
    rw [List.countP_eq_length.2, List.length_map]
    intro line hline
    obtain ⟨message, -, rfl⟩ := List.mem_map.1 hline
    exact Report.isChange_changeMark message
  rw [hblock, List.countP_cons, hchanges, Report.isChange_headline, Comparison.changes,
    List.length_map]
  rfl

theorem countP_isChange : (Report.ofOutcome o).lines.countP Report.isChange =
    (o.results.map fun c => c.breakingChanges.length).sum := by
  let count (m : ModuleName) : Nat := (Report.block o m).countP Report.isChange
  have hskipped : ((o.skipped.entries.map Prod.fst).map count).sum = 0 := by
    refine List.sum_eq_zero_iff_forall_eq_nat.2 fun n hn => ?_
    obtain ⟨m, hm, rfl⟩ := List.mem_map.1 hn
    obtain ⟨reason, hreason⟩ := ModuleMap.mem_keys_iff.1 hm
    simp [count, Report.block, hreason, Report.isChange_skipLine]
  have hfailed : ((o.failed.entries.map Prod.fst).map count).sum = 0 := by
    refine List.sum_eq_zero_iff_forall_eq_nat.2 fun n hn => ?_
    obtain ⟨m, hm, rfl⟩ := List.mem_map.1 hn
    obtain ⟨error, herror⟩ := ModuleMap.mem_keys_iff.1 hm
    simp [count, block_of_failed partition herror]
  have hresults : (o.results.map Comparison.module).map count =
      o.results.map fun c => c.breakingChanges.length := by
    rw [List.map_map]
    exact List.map_congr_left fun c hc => countP_block partition hc
  calc (Report.ofOutcome o).lines.countP Report.isChange
      = (o.requested.toList.map count).sum := List.countP_flatMap
    _ = (o.names.map count).sum := ((names_perm partition).map count).sum_nat.symm
    _ = (o.results.map fun c => c.breakingChanges.length).sum := by
        rw [names, List.map_append, List.map_append, List.sum_append, List.sum_append, hskipped,
          hfailed, hresults, Nat.zero_add]

end

/-- The report, the summary and the verdict of a partition tell the same. The summary has one entry
for each requested module, in name order, and the report one block of lines for each of them that did
not fail; what they say about a module is the same (`Told`). The violations are those of the entries. -/
theorem told_alike (partition : o.isPartition = true) (now : Instant) (treeish : String)
    (revision : Revision) :
    let verdict := Verdict.ofOutcome o
    let entries := (Summary.ofOutcome now treeish revision o verdict).modules
    o.requested.toList.Pairwise (· < ·) ∧
    List.Forall₂ o.Told o.requested.toList entries ∧
    (Report.ofOutcome o).lines =
      (o.requested.toList.filter fun m => !o.failed.contains m).flatMap (Report.block o) ∧
    (verdict.passed = true ↔ ∀ e ∈ entries, e.status ≠ .failed ∧ e.status ≠ .breaking) ∧
    verdict.violations = (entries.filter fun e => e.status = .failed).map ModuleEntry.failure ++
      (entries.filter fun e => e.status = .breaking).map ModuleEntry.breakage ∧
    verdict.violations.length =
      entries.countP fun e => e.status = .failed || e.status = .breaking := by
  intro verdict entries
  have hviolations : verdict.violations = _ := violations_eq partition
  refine ⟨o.requested.ascending, ?_, flatMap_block partition, ?_, hviolations, ?_⟩
  · refine List.forall₂_map_right_iff.2 (List.forall₂_same.2 fun m hm => ?_)
    exact told partition hm
  · rw [Verdict.passed_ofOutcome]
    change verdict.violations = [] ↔ _
    rw [hviolations]
    simp only [List.append_eq_nil_iff, List.map_eq_nil_iff, List.filter_eq_nil_iff,
      decide_eq_true_iff]
    exact forall₂_and.symm
  · rw [hviolations, List.length_append, List.length_map, List.length_map]
    exact ModuleEntry.length_bad entries

/-- One module of each kind: two of the four are against the verdict. -/
theorem told_alike_mixed :
    let gone : Diagnostic := ⟨.error, "func gone() has been removed", none⟩
    let o : Outcome := ⟨.ofList [⟨"Broken"⟩, ⟨"Clean"⟩, ⟨"Failed"⟩, ⟨"New"⟩],
      .ofList [(⟨"New"⟩, .notInBaseline)], .ofList [(⟨"Failed"⟩, "killed")],
      [.clean ⟨"Clean"⟩, ⟨⟨"Broken"⟩, [gone], []⟩]⟩
    o.isPartition = true ∧ (Verdict.ofOutcome o).passed = false ∧
      (Verdict.ofOutcome o).violations.length = 2 ∧
      (Report.ofOutcome o).lines = ["1 breaking change detected in Broken:",
        "  💔 func gone() has been removed", "No breaking changes detected in Clean",
        "Skipping New because it does not exist in the baseline"] := by
  intro gone o
  have partition : o.isPartition = true := by decide +kernel
  obtain ⟨-, -, hlines, hpassed, -, hlength⟩ :=
    told_alike partition ⟨2024, 1, 1, 0, 0, 0, 0⟩ "main" ⟨"0123"⟩
  refine ⟨partition, ?_, hlength.trans (by decide +kernel), hlines.trans (by decide +kernel)⟩
  rw [Bool.eq_false_iff, Ne, hpassed]
  decide +kernel

end Outcome

end Breakage
