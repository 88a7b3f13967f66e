import Breakage.Package.Description
import Breakage.Proofs.Json.Fields
import Breakage.Proofs.Package.Selection

/-!
The names of the modules of a described package. A name that is made from that of its target has only
letters, digits and underscores; one that the description gives is taken as it is. So a slash in the
name of a selected module comes from the description (`identifier_of_select`).
-/

namespace Breakage

theorem Except.mapM_eq_ok_iff {ε α β : Type} {f : α → Except ε β} {as : List α} {bs : List β} :
    as.mapM f = .ok bs ↔ List.Forall₂ (fun a b => f a = .ok b) as bs := by
  induction as generalizing bs with
  | nil =>
    rw [List.mapM_nil, List.forall₂_nil_left_iff]
    exact ⟨fun h => (Except.ok.inj h).symm, fun h => h ▸ rfl⟩
  | cons a rest ih =>
    rw [List.mapM_cons, List.forall₂_cons_left_iff]
    cases ha : f a with
    | error e => exact ⟨nofun, nofun⟩
    | ok b =>
      cases hrest : rest.mapM f with
      | error e =>
        refine ⟨nofun, ?_⟩
        rintro ⟨c, cs, -, hcs, -⟩
        cases hrest.symm.trans (ih.2 hcs)
      | ok cs =>
        constructor
        · rintro ⟨⟩
          exact ⟨b, cs, rfl, ih.1 hrest, rfl⟩
        · rintro ⟨_, cs', ⟨⟩, hcs', rfl⟩
          cases hrest.symm.trans (ih.2 hcs')
          rfl

theorem Except.mem_of_mapM {ε α β : Type} {f : α → Except ε β} {as : List α} {bs : List β}
    (h : as.mapM f = .ok bs) {b : β} (hb : b ∈ bs) : ∃ a ∈ as, f a = .ok b :=
  Json.exists_mem_of_forall₂ (mapM_eq_ok_iff.1 h) hb

theorem ModuleName.isWordChar_of_mem_ofTarget {target : String} {ch : Char}
    (h : ch ∈ (ofTarget target).text.toList) : isWordChar ch = true := by
  have hmap : ∀ cs : List Char, ch ∈ cs.map wordChar → isWordChar ch = true := by
    intro cs hcs
    obtain ⟨c, -, rfl⟩ := List.mem_map.1 hcs
    exact isWordChar_wordChar c
  rw [ofTarget, String.toList_ofList] at h
  unfold canonicalChars at h
  split at h
  · exact absurd h List.not_mem_nil
  · split at h
    · rcases List.mem_cons.1 h with rfl | h
      · rfl
      · exact hmap _ h
    · exact hmap _ h

theorem DescribedTarget.identifier_of_slash {d : DescribedTarget}
    (h : '/' ∈ d.module.text.toList) : d.identifier = some d.module.text := by
  unfold module at h ⊢
  cases hidentifier : d.identifier with
  | some identifier => rfl
  | none =>
    rw [hidentifier] at h
    exact absurd (ModuleName.isWordChar_of_mem_ofTarget h) (by decide)

theorem DescribedTarget.module_of_toTarget {d : DescribedTarget} {t : Target}
    (h : d.toTarget = .ok t) : t.module = d.module := by
  unfold toTarget at h
  split at h
  · cases h
    rfl
  · cases h

namespace Description

theorem mem_targets_of_toPackage {d : Description} {p : Package} (h : d.toPackage = .ok p)
    {t : Target} (ht : t ∈ p.targets) : ∃ described ∈ d.targets, described.module = t.module := by
  unfold toPackage at h
  cases hproducts : d.products.mapM DescribedProduct.toProduct with
  | error e =>
    rw [hproducts] at h
    cases h
  | ok products =>
    rw [hproducts] at h
    cases htargets : d.targets.mapM DescribedTarget.toTarget with
    | error e =>
      rw [htargets] at h
      cases h
    | ok targets =>
      rw [htargets] at h
      cases h
      obtain ⟨described, hmem, hmade⟩ := Except.mem_of_mapM htargets ht
      exact ⟨described, hmem, (DescribedTarget.module_of_toTarget hmade).symm⟩

theorem identifier_of_select {d : Description} {p : Package} {language : Language}
    {products targets : List String} {modules : ModuleSet} {events : List Event}
    (described : d.toPackage = .ok p)
    (selected : PackageGraph.select ⟨[p]⟩ language products targets = (.ok modules, events))
    {m : ModuleName} (hm : m ∈ modules) (slash : '/' ∈ m.text.toList) :
    ∃ t ∈ d.targets, t.identifier = some m.text := by
  obtain ⟨t, ht, hmodule⟩ : ∃ t ∈ p.targets, t.module = m := by
    rcases PackageGraph.defines_or_strays_of_select selected hm with
      ⟨q, hq, t, ht, -, -, hmodule⟩ | ⟨q, hq, product, -, -, t, ht, -, -, hmodule⟩
    · exact ⟨t, List.mem_singleton.1 hq ▸ ht, hmodule⟩
    · exact ⟨t, List.mem_singleton.1 hq ▸ Package.mem_targets_of_productTargets ht, hmodule⟩
  obtain ⟨given, hgiven, hname⟩ := mem_targets_of_toPackage described ht
  rw [← hmodule, ← hname] at slash ⊢
  exact ⟨given, hgiven, DescribedTarget.identifier_of_slash slash⟩

end Description

end Breakage
