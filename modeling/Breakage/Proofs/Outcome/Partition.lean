import Breakage.Proofs.Outcome
import Mathlib.Data.List.Perm.Subperm
import Mathlib.Data.Set.Insert

/-!
What the test of an outcome by counting tells. If it succeeds, the requested modules, once each, are
what is in the three places (`names_perm`), and the other way round. So it is the same as to ask that the
places part the requested modules between them. Main statement: `Outcome.isPartition_iff`.
-/

namespace Breakage

namespace Outcome

inductive Found (o : Outcome) (m : ModuleName) : Prop where
  | skipped (reason : SkipReason) (hskipped : o.skipped.get? m = some reason)
      (hfailed : o.failed.get? m = none) (hresult : o.result? m = none)
  | failed (error : String) (hskipped : o.skipped.get? m = none)
      (hfailed : o.failed.get? m = some error) (hresult : o.result? m = none)
  | compared (c : Comparison) (hskipped : o.skipped.get? m = none)
      (hfailed : o.failed.get? m = none) (hresult : o.result? m = some c)

def names (o : Outcome) : List ModuleName :=
  o.skipped.entries.map Prod.fst ++ o.failed.entries.map Prod.fst ++ o.results.map Comparison.module

theorem length_names (o : Outcome) :
    o.names.length = o.skipped.size + o.failed.size + o.results.length := by
  rw [names, List.length_append, List.length_append, List.length_map, List.length_map,
    List.length_map]
  rfl

theorem mem_succeeded_eq (o : Outcome) (m : ModuleName) :
    decide (m ∈ o.succeeded) = (o.result? m).isSome := by
  rw [Bool.eq_iff_iff, decide_eq_true_iff, succeeded, ModuleSet.mem_ofList, List.mem_map, result?,
    List.find?_isSome]
  exact exists_congr fun c => and_congr_right fun _ => decide_eq_true_iff.symm

theorem count_names {o : Outcome} (nodup : (o.results.map Comparison.module).Nodup)
    (m : ModuleName) : o.names.count m = o.hits m := by
  have hresults : (o.results.map Comparison.module).count m = (decide (m ∈ o.succeeded)).toNat := by
    rw [nodup.count, succeeded]
    by_cases hm : m ∈ o.results.map Comparison.module
    · rw [if_pos hm, decide_eq_true (ModuleSet.mem_ofList.2 hm)]
      rfl
    · rw [if_neg hm, decide_eq_false fun h => hm (ModuleSet.mem_ofList.1 h)]
      rfl
  rw [names, List.count_append, List.count_append, ModuleMap.count_keys, ModuleMap.count_keys, hresults]
  rfl

variable {o : Outcome} (partition : o.isPartition = true)
include partition

theorem found {m : ModuleName} (hm : m ∈ o.requested) : o.Found m := by
  have hhit : o.hits m = 1 := by
    rw [isPartition, Bool.and_eq_true, List.all_eq_true] at partition
    exact beq_iff_eq.1 (partition.2 m hm)
  rw [hits, mem_succeeded_eq, ModuleMap.contains, ModuleMap.contains] at hhit
  cases hskipped : o.skipped.get? m with
  | some reason =>
    cases hfailed : o.failed.get? m with
    | some error =>
      simp [hskipped, hfailed] at hhit
      omega
    | none =>
      cases hresult : o.result? m with
      | some c => simp [hskipped, hfailed, hresult] at hhit
      | none => exact .skipped reason hskipped hfailed hresult
  | none =>
    cases hfailed : o.failed.get? m with
    | some error =>
      cases hresult : o.result? m with
      | some c => simp [hskipped, hfailed, hresult] at hhit
      | none => exact .failed error hskipped hfailed hresult
    | none =>
      cases hresult : o.result? m with
      | some c => exact .compared c hskipped hfailed hresult
      | none => simp [hskipped, hfailed, hresult] at hhit

theorem names_perm : o.names.Perm o.requested.toList := by
  have hfound : o.requested.toList ⊆ o.names := by
    intro m hm
    rw [names, List.mem_append, List.mem_append]
    cases found partition hm with
    | skipped reason hskipped _ _ =>
      exact .inl (.inl (ModuleMap.mem_keys_iff.2 ⟨reason, hskipped⟩))
    | failed error _ hfailed _ => exact .inl (.inr (ModuleMap.mem_keys_iff.2 ⟨error, hfailed⟩))
    | compared c _ _ hresult => exact .inr (List.mem_map.2 ⟨c, mem_of_result? hresult⟩)
  have hlength : o.names.length = o.requested.toList.length := by
    rw [isPartition, Bool.and_eq_true, Bool.and_eq_true, beq_iff_eq] at partition
    exact (length_names o).trans partition.1.1
  have hsubperm := List.subperm_of_subset o.requested.nodup hfound
  exact (hsubperm.perm_of_length_le (Nat.le_of_eq hlength)).symm

omit partition in
theorem isPartition_of_names_perm (h : o.names.Perm o.requested.toList) : o.isPartition = true := by
  have hnodup : o.names.Nodup := h.nodup_iff.2 o.requested.nodup
  have hresults : (o.results.map Comparison.module).Nodup := (List.nodup_append.1 hnodup).2.1
  have hsucceeded : o.succeeded.toList.Perm (o.results.map Comparison.module) :=
    (List.perm_ext_iff_of_nodup o.succeeded.nodup hresults).2 fun _ => ModuleSet.mem_ofList
  rw [isPartition, Bool.and_eq_true, Bool.and_eq_true, beq_iff_eq, beq_iff_eq, List.all_eq_true]
  refine ⟨⟨(length_names o).symm.trans h.length_eq, ?_⟩, fun m hm => ?_⟩
  · exact hsucceeded.length_eq.trans (List.length_map _)
  · rw [beq_iff_eq, ← count_names hresults, h.count_eq, List.count_eq_one_of_mem o.requested.nodup hm]

theorem nodup_results : (o.results.map Comparison.module).Nodup :=
  (List.nodup_append.1 ((names_perm partition).nodup_iff.2 o.requested.nodup)).2.1

omit partition

def skippedModules (o : Outcome) : Set ModuleName := {m | ∃ reason, (m, reason) ∈ o.skipped.entries}

def failedModules (o : Outcome) : Set ModuleName := {m | ∃ error, (m, error) ∈ o.failed.entries}

def comparedModules (o : Outcome) : Set ModuleName := {m | ∃ c ∈ o.results, c.module = m}

/-- No module has two results, no module is in two of the three places, and all places together have
the requested modules and no others. -/
structure IsParted (o : Outcome) : Prop where
  distinct : o.results.Pairwise fun c d => c.module ≠ d.module
  skipped_failed : o.skippedModules ∩ o.failedModules = ∅
  skipped_compared : o.skippedModules ∩ o.comparedModules = ∅
  failed_compared : o.failedModules ∩ o.comparedModules = ∅
  exactly : o.skippedModules ∪ o.failedModules ∪ o.comparedModules = {m | m ∈ o.requested}

theorem mem_skippedModules {m : ModuleName} :
    m ∈ o.skippedModules ↔ m ∈ o.skipped.entries.map Prod.fst := by
  simp [skippedModules]

theorem mem_failedModules {m : ModuleName} :
    m ∈ o.failedModules ↔ m ∈ o.failed.entries.map Prod.fst := by
  simp [failedModules]

theorem mem_comparedModules {m : ModuleName} :
    m ∈ o.comparedModules ↔ m ∈ o.results.map Comparison.module := by
  simp [comparedModules]

theorem mem_names {m : ModuleName} :
    m ∈ o.names ↔ m ∈ o.skippedModules ∪ o.failedModules ∪ o.comparedModules := by
  rw [names, List.mem_append, List.mem_append, Set.mem_union, Set.mem_union, mem_skippedModules,
    mem_failedModules, mem_comparedModules]

theorem nodup_names_iff : o.names.Nodup ↔
    (o.results.Pairwise fun c d => c.module ≠ d.module) ∧ o.skippedModules ∩ o.failedModules = ∅ ∧
      o.skippedModules ∩ o.comparedModules = ∅ ∧ o.failedModules ∩ o.comparedModules = ∅ := by
  have hdisjoint {s t : Set ModuleName} {ms ns : List ModuleName} (hs : ∀ {m}, m ∈ s ↔ m ∈ ms)
      (ht : ∀ {m}, m ∈ t ↔ m ∈ ns) : s ∩ t = ∅ ↔ ms.Disjoint ns := by
    simp only [Set.eq_empty_iff_forall_notMem, Set.mem_inter_iff, hs, ht, not_and, List.Disjoint]
  have hresults : (o.results.map Comparison.module).Nodup ↔
      o.results.Pairwise fun c d => c.module ≠ d.module := List.pairwise_map
  rw [hdisjoint mem_skippedModules mem_failedModules, hdisjoint mem_skippedModules mem_comparedModules,
    hdisjoint mem_failedModules mem_comparedModules, ← hresults, names, List.nodup_append',
    List.nodup_append', List.disjoint_append_left]
  constructor
  · rintro ⟨⟨-, -, hsf⟩, hdistinct, hsc, hfc⟩
    exact ⟨hdistinct, hsf, hsc, hfc⟩
  · rintro ⟨hdistinct, hsf, hsc, hfc⟩
    exact ⟨⟨o.skipped.nodup_keys, o.failed.nodup_keys, hsf⟩, hdistinct, hsc, hfc⟩

/-- Counting is enough: the test succeeds just when the requested modules are parted between the three
places. Names that nobody asked for and names that come twice cannot make up for those that lack. -/
theorem isPartition_iff (o : Outcome) : o.isPartition = true ↔ o.IsParted := by
  constructor
  · intro partition
    have hperm := names_perm partition
    obtain ⟨hdistinct, hsf, hsc, hfc⟩ := nodup_names_iff.1 (hperm.nodup_iff.2 o.requested.nodup)
    refine ⟨hdistinct, hsf, hsc, hfc, Set.ext fun m => ?_⟩
    exact mem_names.symm.trans hperm.mem_iff
  · intro parted
    have hnodup : o.names.Nodup := nodup_names_iff.2
      ⟨parted.distinct, parted.skipped_failed, parted.skipped_compared, parted.failed_compared⟩
    refine isPartition_of_names_perm ((List.perm_ext_iff_of_nodup hnodup o.requested.nodup).2 fun m => ?_)
    rw [mem_names, parted.exactly]
    rfl

end Outcome

end Breakage
