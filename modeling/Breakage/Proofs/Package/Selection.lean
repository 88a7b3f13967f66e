import Breakage.Package.Selection

/-!
What a selection comes to, and what the graph defines. A target has to be a library if it is named
itself, but the targets of a library product only have to be in the language. So a module that is
selected is defined by the graph or strays in by such a product (`defines_or_strays_of_select`).
-/

namespace Breakage

theorem Package.mem_targets_of_productTargets {p : Package} {product : Product} {t : Target}
    (h : t ∈ p.productTargets product) : t ∈ p.targets := by
  obtain ⟨name, -, hfind⟩ := List.mem_filterMap.1 h
  exact List.mem_of_find?_eq_some hfind

theorem Package.mem_productModules {p : Package} {language : Language} {product : Product}
    {m : ModuleName} : m ∈ p.productModules language product ↔
      ∃ t ∈ p.productTargets product, t.language = language ∧ t.module = m := by
  simp [productModules, and_assoc]

namespace Selection

theorem mem_modules_add {s : Selection} {name : String} {r : Except String (List ModuleName)}
    {m : ModuleName} :
    m ∈ (s.add name r).modules ↔ m ∈ s.modules ∨ ∃ ms, r = .ok ms ∧ m ∈ ms := by
  cases r with
  | ok ms => simp [add, ModuleSet.mem_insertAll, or_comm]
  | error complaint => simp [add]

theorem mem_modules_foldl_add {f : String → Except String (List ModuleName)} {names : List String}
    {s : Selection} {m : ModuleName} :
    m ∈ (names.foldl (fun s name => s.add name (f name)) s).modules ↔
      m ∈ s.modules ∨ ∃ name ∈ names, ∃ ms, f name = .ok ms ∧ m ∈ ms := by
  induction names generalizing s with
  | nil => simp
  | cons name rest ih =>
    simp only [List.foldl_cons, ih, mem_modules_add, or_assoc, List.mem_cons, exists_eq_or_imp]

theorem mem_modules_ofNames {g : PackageGraph} {language : Language} {products targets : List String}
    {m : ModuleName} :
    m ∈ (ofNames g language products targets).modules ↔
      (∃ name ∈ products, ∃ ms, g.selectProduct language name = .ok ms ∧ m ∈ ms) ∨
        ∃ name ∈ targets, ∃ ms, g.selectTarget language name = .ok ms ∧ m ∈ ms := by
  have hempty : m ∉ empty.modules := by simp [ModuleSet.mem_def, empty, ModuleSet.empty]
  rw [ofNames, mem_modules_foldl_add, mem_modules_foldl_add, or_iff_right hempty]

end Selection

namespace PackageGraph

variable {g : PackageGraph} {language : Language} {name : String} {m : ModuleName}

/-- A library target in the language makes the module. -/
def Defines (g : PackageGraph) (language : Language) (m : ModuleName) : Prop :=
  ∃ p ∈ g.packages, ∃ t ∈ p.targets, t.kind = .library ∧ t.language = language ∧ t.module = m

/-- A library product has the module, in the language, by a target that is no library. -/
def Strays (g : PackageGraph) (language : Language) (m : ModuleName) : Prop :=
  ∃ p ∈ g.packages, ∃ product ∈ p.products, product.kind.isLibrary = true ∧
    ∃ t ∈ p.productTargets product, t.kind ≠ .library ∧ t.language = language ∧ t.module = m

instance : Decidable (g.Defines language m) := inferInstanceAs (Decidable (∃ p ∈ g.packages, _))

theorem mem_of_product? {p : Package} {product : Product} (h : g.product? name = some (p, product)) :
    p ∈ g.packages ∧ product ∈ p.products := by
  obtain ⟨q, hq, hfind⟩ := List.exists_of_findSome?_eq_some h
  obtain ⟨found, hfound, he⟩ := Option.map_eq_some_iff.1 hfind
  cases he
  exact ⟨hq, List.mem_of_find?_eq_some hfound⟩

theorem mem_of_target? {t : Target} (h : g.target? name = some t) :
    ∃ p ∈ g.packages, t ∈ p.targets := by
  obtain ⟨p, hp, hfind⟩ := List.exists_of_findSome?_eq_some h
  exact ⟨p, hp, List.mem_of_find?_eq_some hfind⟩

theorem selectProduct_eq_ok {ms : List ModuleName} :
    g.selectProduct language name = .ok ms ↔ ∃ p product, g.product? name = some (p, product) ∧
      product.kind.isLibrary = true ∧ p.productModules language product = ms := by
  unfold selectProduct
  split
  · rename_i hnone
    simp [hnone]
  · rename_i p product hsome
    constructor
    · intro h
      split at h
      · rename_i library
        exact ⟨p, product, hsome, library, Except.ok.inj h⟩
      · cases h
    · rintro ⟨p', product', hsome', library, rfl⟩
      rw [hsome] at hsome'
      cases hsome'
      rw [if_pos library]

theorem selectTarget_eq_ok {ms : List ModuleName} :
    g.selectTarget language name = .ok ms ↔ ∃ t, g.target? name = some t ∧
      t.kind = .library ∧ t.language = language ∧ [t.module] = ms := by
  unfold selectTarget
  split
  · rename_i hnone
    simp [hnone]
  · rename_i t hsome
    by_cases hkind : t.kind = .library <;> by_cases hlanguage : t.language = language <;>
      simp [hsome, hkind, hlanguage]

theorem defines_or_strays {p : Package} (hp : p ∈ g.packages) {product : Product}
    (hproduct : product ∈ p.products) (library : product.kind.isLibrary = true)
    (h : m ∈ p.productModules language product) : g.Defines language m ∨ g.Strays language m := by
  obtain ⟨t, ht, hlanguage, hmodule⟩ := Package.mem_productModules.1 h
  by_cases hkind : t.kind = .library
  · exact .inl ⟨p, hp, t, Package.mem_targets_of_productTargets ht, hkind, hlanguage, hmodule⟩
  · exact .inr ⟨p, hp, product, hproduct, library, t, ht, hkind, hlanguage, hmodule⟩

/-- Whatever is selected is defined by the graph, or strays in by a library product. -/
theorem defines_or_strays_of_select {products targets : List String} {modules : ModuleSet}
    {events : List Event} (h : g.select language products targets = (.ok modules, events))
    (hm : m ∈ modules) : g.Defines language m ∨ g.Strays language m := by
  unfold select at h
  split at h
  · cases h
    rw [libraryModules, ModuleSet.mem_ofList, List.mem_flatMap] at hm
    obtain ⟨p, hp, hm⟩ := hm
    obtain ⟨product, hproduct, hm⟩ := List.mem_flatMap.1 hm
    obtain ⟨hproduct, library⟩ := List.mem_filter.1 hproduct
    exact defines_or_strays hp hproduct library hm
  · obtain ⟨hmodules, -⟩ := Prod.mk.inj h
    have hselected : m ∈ (Selection.ofNames g language products targets).modules := by
      unfold Selection.modules? at hmodules
      split at hmodules
      · cases hmodules
      · split at hmodules
        · cases hmodules
        · cases hmodules
          exact hm
    rcases Selection.mem_modules_ofNames.1 hselected with ⟨name, -, ms, hms, hm⟩ | ⟨name, -, ms, hms, hm⟩
    · obtain ⟨p, product, hfind, library, rfl⟩ := selectProduct_eq_ok.1 hms
      obtain ⟨hp, hproduct⟩ := mem_of_product? hfind
      exact defines_or_strays hp hproduct library hm
    · obtain ⟨t, hfind, hkind, hlanguage, rfl⟩ := selectTarget_eq_ok.1 hms
      obtain ⟨p, hp, ht⟩ := mem_of_target? hfind
      exact .inl ⟨p, hp, t, ht, hkind, hlanguage, (List.mem_singleton.1 hm).symm⟩

theorem mem_libraryModules_of_strays (h : g.Strays language m) : m ∈ g.libraryModules language := by
  obtain ⟨p, hp, product, hproduct, library, t, ht, -, hlanguage, hmodule⟩ := h
  rw [libraryModules, ModuleSet.mem_ofList, List.mem_flatMap]
  refine ⟨p, hp, List.mem_flatMap.2 ⟨product, List.mem_filter.2 ⟨hproduct, library⟩, ?_⟩⟩
  exact Package.mem_productModules.2 ⟨t, ht, hlanguage, hmodule⟩

end PackageGraph

end Breakage
