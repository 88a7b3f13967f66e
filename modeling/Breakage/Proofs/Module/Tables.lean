import Breakage.Module.Set
import Mathlib.Data.List.Nodup

/-!
What is read from a table of modules that many entries were written to. Main statements: the entries
of a table are what is read from it (`mem_entries`), and a table made from entries with different
names holds these entries (`get?_ofList`).
-/

namespace Breakage

theorem ModuleName.ne_of_lt {a b : ModuleName} (h : a < b) : a ≠ b := by
  rintro rfl
  exact ModuleName.lt_irrefl a h

namespace ModuleSet

theorem nodup (s : ModuleSet) : s.toList.Nodup := s.ascending.imp ModuleName.ne_of_lt

theorem isEmpty_iff {s : ModuleSet} : s.isEmpty = true ↔ ∀ m, m ∉ s := by
  rw [isEmpty, List.isEmpty_iff, List.eq_nil_iff_forall_not_mem]
  rfl

theorem not_mem_empty (m : ModuleName) : m ∉ empty := List.not_mem_nil

@[simp] theorem ofList_concat (ms : List ModuleName) (m : ModuleName) :
    ofList (ms ++ [m]) = (ofList ms).insert m := by
  rw [ofList, insertAll, List.foldl_append]
  rfl

theorem ext_mem {s t : ModuleSet} (h : ∀ m, m ∈ s ↔ m ∈ t) : s = t := by
  have hperm := (List.perm_ext_iff_of_nodup s.nodup t.nodup).2 h
  have hlist : s.toList = t.toList := by
    refine hperm.eq_of_pairwise (fun a b _ _ hab hba => ?_) s.ascending t.ascending
    exact absurd (ModuleName.lt_trans hab hba) (ModuleName.lt_irrefl a)
  cases s
  cases t
  cases hlist
  rfl

end ModuleSet

namespace ModuleMap

variable {α : Type}

@[simp] theorem get?_empty (m : ModuleName) : (empty : ModuleMap α).get? m = none := rfl

theorem nodup_keys (t : ModuleMap α) : (t.entries.map Prod.fst).Nodup := by
  apply List.pairwise_map.2
  exact t.ascending.imp ModuleName.ne_of_lt

theorem nodup_entries (t : ModuleMap α) : t.entries.Nodup := t.nodup_keys.of_map

theorem not_mem_of_key {es : List (ModuleName × α)} {m : ModuleName} (h : m ∉ es.map Prod.fst)
    (a : α) : (m, a) ∉ es :=
  fun ha => h (List.mem_map.2 ⟨(m, a), ha, rfl⟩)

theorem find?_eq_some_iff_mem {es : List (ModuleName × α)} (nodup : (es.map Prod.fst).Nodup)
    {m : ModuleName} {a : α} :
    (es.find? fun e => decide (e.1 = m)).map Prod.snd = some a ↔ (m, a) ∈ es := by
  induction es with
  | nil => simp
  | cons e rest ih =>
    obtain ⟨k, b⟩ := e
    rw [List.map_cons, List.nodup_cons] at nodup
    by_cases hk : k = m
    · subst hk
      have hn := not_mem_of_key nodup.1 a
      simp [hn, eq_comm]
    · have hm : (m, a) ≠ (k, b) := fun h => hk (congrArg Prod.fst h).symm
      simpa [hk, hm] using ih nodup.2

theorem mem_entries {t : ModuleMap α} {m : ModuleName} {a : α} :
    (m, a) ∈ t.entries ↔ t.get? m = some a :=
  (find?_eq_some_iff_mem t.nodup_keys).symm

theorem contains_iff {t : ModuleMap α} {m : ModuleName} :
    t.contains m = true ↔ ∃ a, t.get? m = some a :=
  Option.isSome_iff_exists

theorem mem_keys_iff {t : ModuleMap α} {m : ModuleName} :
    m ∈ t.entries.map Prod.fst ↔ ∃ a, t.get? m = some a := by
  rw [List.mem_map]
  constructor
  · rintro ⟨⟨k, a⟩, ha, rfl⟩
    exact ⟨a, mem_entries.1 ha⟩
  · rintro ⟨a, ha⟩
    exact ⟨(m, a), mem_entries.2 ha, rfl⟩

theorem count_keys (t : ModuleMap α) (m : ModuleName) :
    (t.entries.map Prod.fst).count m = (t.contains m).toNat := by
  have hkey : m ∈ t.entries.map Prod.fst ↔ t.contains m = true := mem_keys_iff.trans contains_iff.symm
  rw [t.nodup_keys.count]
  cases h : t.contains m with
  | true => exact if_pos (hkey.2 h)
  | false => exact if_neg fun hm => Bool.false_ne_true (h.symm.trans (hkey.1 hm))

theorem get?_foldl_insert {es : List (ModuleName × α)} (nodup : (es.map Prod.fst).Nodup)
    (t : ModuleMap α) {m : ModuleName} {a : α} :
    (es.foldl (fun t e => t.insert e.1 e.2) t).get? m = some a ↔
      (m, a) ∈ es ∨ m ∉ es.map Prod.fst ∧ t.get? m = some a := by
  induction es generalizing t with
  | nil => simp
  | cons e rest ih =>
    obtain ⟨k, b⟩ := e
    rw [List.map_cons, List.nodup_cons] at nodup
    rw [List.foldl_cons, ih nodup.2, get?_insert]
    by_cases hk : m = k
    · subst hk
      have hn := not_mem_of_key nodup.1 a
      have hb : some b = some a ↔ a = b := by rw [Option.some.injEq, eq_comm]
      simp [hn, nodup.1, hb]
    · have hm : (m, a) ≠ (k, b) := fun h => hk (congrArg Prod.fst h)
      simp [hk, hm]

@[simp] theorem ofList_concat (es : List (ModuleName × α)) (m : ModuleName) (a : α) :
    ofList (es ++ [(m, a)]) = (ofList es).insert m a := by
  rw [ofList, List.foldl_append]
  rfl

theorem get?_ofList {es : List (ModuleName × α)} (nodup : (es.map Prod.fst).Nodup)
    {m : ModuleName} {a : α} : (ofList es).get? m = some a ↔ (m, a) ∈ es := by
  rw [ofList, get?_foldl_insert nodup]
  simp

theorem get?_merge (t s : ModuleMap α) {m : ModuleName} {a : α} :
    (t.merge s).get? m = some a ↔ s.get? m = some a ∨ s.get? m = none ∧ t.get? m = some a := by
  have hkey : m ∉ s.entries.map Prod.fst ↔ s.get? m = none := by
    rw [Option.eq_none_iff_forall_ne_some, List.mem_map]
    constructor
    · intro h b hb
      exact h ⟨(m, b), mem_entries.2 hb, rfl⟩
    · rintro h ⟨⟨k, b⟩, hb, rfl⟩
      exact h b (mem_entries.1 hb)
  rw [merge, get?_foldl_insert s.nodup_keys, mem_entries, hkey]

theorem entries_perm {t : ModuleMap α} {es : List (ModuleName × α)} (nodup : es.Nodup)
    (h : ∀ m a, t.get? m = some a ↔ (m, a) ∈ es) : t.entries.Perm es := by
  rw [List.perm_ext_iff_of_nodup t.nodup_entries nodup]
  rintro ⟨m, a⟩
  rw [mem_entries, h]

theorem ext_get? {t s : ModuleMap α} (h : ∀ m a, t.get? m = some a ↔ s.get? m = some a) : t = s := by
  have hperm := entries_perm s.nodup_entries fun m a => (h m a).trans mem_entries.symm
  have hentries : t.entries = s.entries := by
    refine hperm.eq_of_pairwise (fun a b _ _ hab hba => ?_) t.ascending s.ascending
    exact absurd (ModuleName.lt_trans hab hba) (ModuleName.lt_irrefl a.1)
  cases t
  cases s
  cases hentries
  rfl

end ModuleMap

end Breakage
