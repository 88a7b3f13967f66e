import Breakage.Proofs.Module.Tables
import Breakage.Proofs.Package.Selection

/-!
What the names of a selection stand for. Over all root packages a name is that of the first product or
of the first target that bears it, but the targets that a product lists are looked for in its own
package. Main statement: the modules, the rejected names and the events of a selection are those that
`PackageGraph.Selects` describes, on every graph (`PackageGraph.select_iff`).
-/

namespace Breakage

def IsFirst {α : Type} (p : α → Prop) (as : List α) (a : α) : Prop :=
  ∃ before after, as = before ++ a :: after ∧ p a ∧ ∀ b ∈ before, ¬p b

theorem find?_eq_some_iff_isFirst {α : Type} {p : α → Prop} {f : α → Bool} (h : ∀ a, f a = true ↔ p a)
    {as : List α} {a : α} : as.find? f = some a ↔ IsFirst p as a := by
  have hfalse (b : α) : (!f b) = true ↔ ¬p b := by rw [Bool.not_eq_true', ← h, Bool.not_eq_true]
  simp only [List.find?_eq_some_iff_append, h, hfalse, IsFirst]
  constructor
  · rintro ⟨ha, before, after, has, hbefore⟩
    exact ⟨before, after, has, ha, hbefore⟩
  · rintro ⟨before, after, has, ha, hbefore⟩
    exact ⟨ha, before, after, has, hbefore⟩

theorem isFirst_cons_iff {α : Type} {p : α → Prop} {a b : α} {as : List α} :
    IsFirst p (a :: as) b ↔ p a ∧ b = a ∨ ¬p a ∧ IsFirst p as b := by
  constructor
  · rintro ⟨before, after, heq, hb, hbefore⟩
    cases before with
    | nil =>
      cases heq
      exact .inl ⟨hb, rfl⟩
    | cons c before =>
      cases heq
      obtain ⟨ha, hbefore⟩ := List.forall_mem_cons.1 hbefore
      exact .inr ⟨ha, before, after, rfl, hb, hbefore⟩
  · rintro (⟨ha, rfl⟩ | ⟨ha, before, after, rfl, hb, hbefore⟩)
    · exact ⟨[], as, rfl, ha, fun c hc => absurd hc List.not_mem_nil⟩
    · exact ⟨a :: before, after, rfl, hb, List.forall_mem_cons.2 ⟨ha, hbefore⟩⟩

theorem ProductKind.isLibrary_eq_false_iff {kind : ProductKind} :
    kind.isLibrary = false ↔ ∀ linkage, kind ≠ .library linkage := by
  cases kind <;> simp [isLibrary]

namespace Package

def Means (p : Package) (name : String) (t : Target) : Prop :=
  IsFirst (fun t => t.name = name) p.targets t

def Lists (p : Package) (language : Language) (product : Product) (m : ModuleName) : Prop :=
  ∃ name ∈ product.targets, ∃ t, p.Means name t ∧ t.language = language ∧ t.module = m

theorem target?_eq_some_iff {p : Package} {name : String} {t : Target} :
    p.target? name = some t ↔ p.Means name t :=
  find?_eq_some_iff_isFirst fun _ => beq_iff_eq

theorem mem_productModules_iff {p : Package} {language : Language} {product : Product}
    {m : ModuleName} : m ∈ p.productModules language product ↔ p.Lists language product m := by
  simp only [mem_productModules, productTargets, List.mem_filterMap, target?_eq_some_iff, Lists]
  constructor
  · rintro ⟨t, ⟨name, hname, hmeans⟩, hlanguage, hmodule⟩
    exact ⟨name, hname, t, hmeans, hlanguage, hmodule⟩
  · rintro ⟨name, hname, t, hmeans, hlanguage, hmodule⟩
    exact ⟨t, ⟨name, hname, hmeans⟩, hlanguage, hmodule⟩

end Package

namespace PackageGraph

variable (g : PackageGraph) (language : Language)

def products : List (Package × Product) :=
  g.packages.flatMap fun p => p.products.map fun product => (p, product)

def targets : List Target := g.packages.flatMap Package.targets

def MeansProduct (name : String) (p : Package) (product : Product) : Prop :=
  IsFirst (fun e => e.2.name = name) g.products (p, product)

def MeansTarget (name : String) (t : Target) : Prop := IsFirst (fun t => t.name = name) g.targets t

inductive ProductFault (name : String) : String → Prop where
  | unknown (none : ∀ e ∈ g.products, e.2.name ≠ name) :
    ProductFault name ("no such product '" ++ name ++ "'")
  | notLibrary {p : Package} {product : Product} (first : g.MeansProduct name p product)
    (kind : ∀ linkage, product.kind ≠ .library linkage) :
    ProductFault name ("'" ++ name ++ "' is not a library product")

inductive TargetFault (name : String) : String → Prop where
  | unknown (none : ∀ t ∈ g.targets, t.name ≠ name) :
    TargetFault name ("no such target '" ++ name ++ "'")
  | notLibrary {t : Target} (first : g.MeansTarget name t) (kind : t.kind ≠ .library) :
    TargetFault name ("'" ++ name ++ "' is not a library target")
  | otherLanguage {t : Target} (first : g.MeansTarget name t) (kind : t.kind = .library)
    (other : t.language ≠ language) :
    TargetFault name ("'" ++ name ++ "' is not a " ++ language.display ++ " language target")

/-- A library product of some package lists the module. -/
def Vends (m : ModuleName) : Prop :=
  ∃ p ∈ g.packages, ∃ product ∈ p.products, product.kind.isLibrary = true ∧ p.Lists language product m

/-- One of the named products lists the module, or one of the named targets makes it. -/
def Names (products targets : List String) (m : ModuleName) : Prop :=
  (∃ name ∈ products, ∃ p product, g.MeansProduct name p product ∧ p.Lists language product m) ∨
    ∃ name ∈ targets, ∃ t, g.MeansTarget name t ∧ t.module = m

end PackageGraph

inductive Faults (faulty : String → String → Prop) : List String → List (String × String) → Prop where
  | nil : Faults faulty [] []
  | right {name : String} {names : List String} {faults : List (String × String)}
    (sound : ∀ complaint, ¬faulty name complaint) (rest : Faults faulty names faults) :
    Faults faulty (name :: names) faults
  | wrong {name complaint : String} {names : List String} {faults : List (String × String)}
    (fault : faulty name complaint) (rest : Faults faulty names faults) :
    Faults faulty (name :: names) ((name, complaint) :: faults)

/-- The result of a selection, with its events. Without any name it is what the library products have.
Otherwise each wrong name is rejected, the products before the targets, with one error for it; if there
is none, the result is what the names stand for, and that has to be something. -/
inductive PackageGraph.Selects (g : PackageGraph) (language : Language)
    (products targets : List String) : Except Fault ModuleSet × List Event → Prop where
  | all {modules : ModuleSet} (unnamed : products = [] ∧ targets = [])
    (exactly : ∀ m, m ∈ modules ↔ g.Vends language m) :
    Selects g language products targets (.ok modules, [])
  | invalid {ofProducts ofTargets : List (String × String)} (named : ¬(products = [] ∧ targets = []))
    (hproducts : Faults g.ProductFault products ofProducts)
    (htargets : Faults (g.TargetFault language) targets ofTargets)
    (some : ofProducts ++ ofTargets ≠ []) :
    Selects g language products targets
      (.error (.invalidSelection ((ofProducts ++ ofTargets).map Prod.fst)),
        (ofProducts ++ ofTargets).map fun fault => ⟨.error, fault.2, none⟩)
  | nothing (named : ¬(products = [] ∧ targets = [])) (hproducts : Faults g.ProductFault products [])
    (htargets : Faults (g.TargetFault language) targets [])
    (none : ∀ m, ¬g.Names language products targets m) :
    Selects g language products targets (.error .noModulesSelected, [])
  | chosen {modules : ModuleSet} (named : ¬(products = [] ∧ targets = []))
    (hproducts : Faults g.ProductFault products []) (htargets : Faults (g.TargetFault language) targets [])
    (exactly : ∀ m, m ∈ modules ↔ g.Names language products targets m) (some : ∃ m, m ∈ modules) :
    Selects g language products targets (.ok modules, [])

namespace PackageGraph

variable {g : PackageGraph} {language : Language} {name : String}

theorem product?_eq (g : PackageGraph) (name : String) :
    g.product? name = g.products.find? fun e => e.2.name == name := by
  rw [products, List.find?_flatMap]
  simp only [List.find?_map]
  rfl

theorem target?_eq (g : PackageGraph) (name : String) :
    g.target? name = g.targets.find? fun t => t.name == name := by
  rw [targets, List.find?_flatMap]
  rfl

theorem product?_eq_some_iff {p : Package} {product : Product} :
    g.product? name = some (p, product) ↔ g.MeansProduct name p product := by
  rw [product?_eq]
  exact find?_eq_some_iff_isFirst fun _ => beq_iff_eq

theorem product?_eq_none_iff : g.product? name = none ↔ ∀ e ∈ g.products, e.2.name ≠ name := by
  simp only [product?_eq, List.find?_eq_none, beq_iff_eq, ne_eq]

theorem target?_eq_some_iff {t : Target} : g.target? name = some t ↔ g.MeansTarget name t := by
  rw [target?_eq]
  exact find?_eq_some_iff_isFirst fun _ => beq_iff_eq

theorem target?_eq_none_iff : g.target? name = none ↔ ∀ t ∈ g.targets, t.name ≠ name := by
  simp only [target?_eq, List.find?_eq_none, beq_iff_eq, ne_eq]

theorem selectProduct_eq_error {complaint : String} :
    g.selectProduct language name = .error complaint ↔ g.ProductFault name complaint := by
  constructor
  · intro h
    unfold selectProduct at h
    split at h
    · cases h
      exact .unknown (product?_eq_none_iff.1 ‹_›)
    · split at h
      · cases h
      · cases h
        rename_i hfind kind
        exact .notLibrary (product?_eq_some_iff.1 hfind)
          (ProductKind.isLibrary_eq_false_iff.1 (Bool.not_eq_true _ ▸ kind))
  · rintro (none | ⟨first, kind⟩)
    · simp only [selectProduct, product?_eq_none_iff.2 none]
    · simp only [selectProduct, product?_eq_some_iff.2 first,
        ProductKind.isLibrary_eq_false_iff.2 kind, Bool.false_eq_true, if_false]

theorem selectTarget_eq_error {complaint : String} :
    g.selectTarget language name = .error complaint ↔ g.TargetFault language name complaint := by
  constructor
  · intro h
    unfold selectTarget at h
    split at h
    · cases h
      exact .unknown (target?_eq_none_iff.1 ‹_›)
    · rename_i t hfind
      have first := target?_eq_some_iff.1 hfind
      split at h
      · cases h
        exact .notLibrary first ‹_›
      · rename_i kind
        split at h
        · cases h
          exact .otherLanguage first (not_not.1 kind) ‹_›
        · cases h
  · rintro (none | ⟨first, kind⟩ | ⟨first, kind, other⟩)
    · simp only [selectTarget, target?_eq_none_iff.2 none]
    · simp only [selectTarget, target?_eq_some_iff.2 first, ne_eq, kind, not_false_eq_true, if_true]
    · simp only [selectTarget, target?_eq_some_iff.2 first, ne_eq, kind, not_true_eq_false, if_false,
        other, not_false_eq_true, if_true]

theorem exists_selectProduct_iff (sound : ∀ complaint, ¬g.ProductFault name complaint) {m : ModuleName} :
    (∃ ms, g.selectProduct language name = .ok ms ∧ m ∈ ms) ↔
      ∃ p product, g.MeansProduct name p product ∧ p.Lists language product m := by
  simp only [selectProduct_eq_ok, product?_eq_some_iff]
  constructor
  · rintro ⟨ms, ⟨p, product, first, -, rfl⟩, hm⟩
    exact ⟨p, product, first, Package.mem_productModules_iff.1 hm⟩
  · rintro ⟨p, product, first, hm⟩
    have library : product.kind.isLibrary = true := by
      rw [← Bool.not_eq_false, ProductKind.isLibrary_eq_false_iff]
      exact fun kind => sound _ (.notLibrary first kind)
    exact ⟨_, ⟨p, product, first, library, rfl⟩, Package.mem_productModules_iff.2 hm⟩

theorem exists_selectTarget_iff (sound : ∀ complaint, ¬g.TargetFault language name complaint)
    {m : ModuleName} : (∃ ms, g.selectTarget language name = .ok ms ∧ m ∈ ms) ↔
      ∃ t, g.MeansTarget name t ∧ t.module = m := by
  simp only [selectTarget_eq_ok, target?_eq_some_iff]
  constructor
  · rintro ⟨ms, ⟨t, first, -, -, rfl⟩, hm⟩
    exact ⟨t, first, (List.mem_singleton.1 hm).symm⟩
  · rintro ⟨t, first, rfl⟩
    have kind : t.kind = .library := by
      by_contra kind
      exact sound _ (.notLibrary first kind)
    have same : t.language = language := by
      by_contra other
      exact sound _ (.otherLanguage first kind other)
    exact ⟨_, ⟨t, first, kind, same, rfl⟩, List.mem_singleton_self _⟩

end PackageGraph

/-! ### Faults -/

section

variable {f : String → Except String (List ModuleName)} {faulty : String → String → Prop}

def Selection.fault? (f : String → Except String (List ModuleName)) (name : String) :
    Option (String × String) :=
  match f name with
  | .ok _ => none
  | .error complaint => some (name, complaint)

theorem faults_iff (h : ∀ name complaint, f name = .error complaint ↔ faulty name complaint)
    {names : List String} {faults : List (String × String)} :
    Faults faulty names faults ↔ names.filterMap (Selection.fault? f) = faults := by
  constructor
  · intro hfaults
    induction hfaults with
    | nil => rfl
    | @right name names faults sound _ ih =>
      have hname : Selection.fault? f name = none := by
        cases hf : f name with
        | ok ms => rw [Selection.fault?, hf]
        | error complaint => exact absurd ((h name complaint).1 hf) (sound complaint)
      rw [List.filterMap_cons_none hname, ih]
    | @wrong name complaint names faults fault _ ih =>
      have hname : Selection.fault? f name = some (name, complaint) := by
        rw [Selection.fault?, (h name complaint).2 fault]
      rw [List.filterMap_cons_some hname, ih]
  · rintro rfl
    induction names with
    | nil => exact .nil
    | cons name rest ih =>
      cases hf : f name with
      | ok ms =>
        have hname : Selection.fault? f name = none := by rw [Selection.fault?, hf]
        rw [List.filterMap_cons_none hname]
        refine .right (fun complaint fault => ?_) ih
        rw [← h, hf] at fault
        cases fault
      | error complaint =>
        have hname : Selection.fault? f name = some (name, complaint) := by rw [Selection.fault?, hf]
        rw [List.filterMap_cons_some hname]
        exact .wrong ((h name complaint).1 hf) ih

/-- There is no fault just when every name is right. -/
theorem faults_nil_iff {names : List String} :
    Faults faulty names [] ↔ ∀ name ∈ names, ∀ complaint, ¬faulty name complaint := by
  constructor
  · intro h
    generalize hnone : ([] : List (String × String)) = faults at h
    induction h with
    | nil => exact fun _ hname => absurd hname List.not_mem_nil
    | right sound _ ih => exact List.forall_mem_cons.2 ⟨sound, ih hnone⟩
    | wrong => cases hnone
  · intro h
    induction names with
    | nil => exact .nil
    | cons name rest ih =>
      obtain ⟨sound, hrest⟩ := List.forall_mem_cons.1 h
      exact .right sound (ih hrest)

namespace Selection

theorem faults_foldl_add (f : String → Except String (List ModuleName)) (names : List String)
    (s : Selection) :
    (names.foldl (fun s name => s.add name (f name)) s).rejected =
        s.rejected ++ (names.filterMap (fault? f)).map Prod.fst ∧
      (names.foldl (fun s name => s.add name (f name)) s).complaints =
        s.complaints ++ (names.filterMap (fault? f)).map Prod.snd := by
  induction names generalizing s with
  | nil => simp
  | cons name rest ih =>
    rw [List.foldl_cons]
    obtain ⟨hrejected, hcomplaints⟩ := ih (s.add name (f name))
    rw [hrejected, hcomplaints]
    cases hf : f name with
    | ok ms =>
      have hname : fault? f name = none := by rw [fault?, hf]
      rw [List.filterMap_cons_none hname]
      exact ⟨rfl, rfl⟩
    | error complaint =>
      have hname : fault? f name = some (name, complaint) := by rw [fault?, hf]
      rw [List.filterMap_cons_some hname]
      simp only [add, List.map_cons, List.append_assoc, List.singleton_append, and_self]

variable {g : PackageGraph} {language : Language} {products targets : List String}
  {ofProducts ofTargets : List (String × String)}

theorem ofNames_of_faults (hproducts : Faults g.ProductFault products ofProducts)
    (htargets : Faults (g.TargetFault language) targets ofTargets) :
    (ofNames g language products targets).rejected = (ofProducts ++ ofTargets).map Prod.fst ∧
      (ofNames g language products targets).complaints = (ofProducts ++ ofTargets).map Prod.snd := by
  have hp := (faults_iff fun _ _ => @PackageGraph.selectProduct_eq_error g language _ _).1 hproducts
  have ht := (faults_iff fun _ _ => PackageGraph.selectTarget_eq_error).1 htargets
  subst hp ht
  obtain ⟨hrejected, hcomplaints⟩ := faults_foldl_add (g.selectTarget language) targets
    (products.foldl (fun s name => s.add name (g.selectProduct language name)) empty)
  obtain ⟨hrejected', hcomplaints'⟩ := faults_foldl_add (g.selectProduct language) products empty
  rw [ofNames, hrejected, hcomplaints, hrejected', hcomplaints']
  simp only [empty, List.nil_append, List.map_append, and_self]

theorem mem_modules_ofNames_iff (hproducts : Faults g.ProductFault products [])
    (htargets : Faults (g.TargetFault language) targets []) {m : ModuleName} :
    m ∈ (ofNames g language products targets).modules ↔ g.Names language products targets m := by
  have hp (name : String) (hname : name ∈ products) :=
    @PackageGraph.exists_selectProduct_iff g language name (faults_nil_iff.1 hproducts name hname) m
  have ht (name : String) (hname : name ∈ targets) :=
    @PackageGraph.exists_selectTarget_iff g language name (faults_nil_iff.1 htargets name hname) m
  rw [mem_modules_ofNames, PackageGraph.Names]
  exact or_congr (exists_congr fun name => and_congr_right (hp name))
    (exists_congr fun name => and_congr_right (ht name))

end Selection

end

namespace PackageGraph

variable {g : PackageGraph} {language : Language} {products targets : List String}

theorem mem_libraryModules_iff {m : ModuleName} :
    m ∈ g.libraryModules language ↔ g.Vends language m := by
  simp only [libraryModules, ModuleSet.mem_ofList, List.mem_flatMap, List.mem_filter,
    Package.mem_productModules_iff, Vends, and_assoc]

theorem select_of_unnamed (unnamed : products = [] ∧ targets = []) :
    g.select language products targets = (.ok (g.libraryModules language), []) := by
  obtain ⟨rfl, rfl⟩ := unnamed
  rfl

theorem select_of_named (named : ¬(products = [] ∧ targets = [])) :
    g.select language products targets =
      ((Selection.ofNames g language products targets).modules?,
        (Selection.ofNames g language products targets).complaints.map Event.error) := by
  rw [select, if_neg]
  rwa [Bool.and_eq_true, List.isEmpty_iff, List.isEmpty_iff]

theorem select_of_faults {ofProducts ofTargets : List (String × String)}
    (named : ¬(products = [] ∧ targets = [])) (hproducts : Faults g.ProductFault products ofProducts)
    (htargets : Faults (g.TargetFault language) targets ofTargets)
    (some : ofProducts ++ ofTargets ≠ []) :
    g.select language products targets =
      (.error (.invalidSelection ((ofProducts ++ ofTargets).map Prod.fst)),
        (ofProducts ++ ofTargets).map fun fault => ⟨.error, fault.2, none⟩) := by
  obtain ⟨hrejected, hcomplaints⟩ := Selection.ofNames_of_faults hproducts htargets
  have hsome : (!((ofProducts ++ ofTargets).map Prod.fst).isEmpty) = true := by
    simpa [-List.map_append] using some
  rw [select_of_named named, Selection.modules?, hrejected, hcomplaints, if_pos hsome, List.map_map]
  rfl

theorem select_of_sound (named : ¬(products = [] ∧ targets = []))
    (hproducts : Faults g.ProductFault products [])
    (htargets : Faults (g.TargetFault language) targets []) :
    g.select language products targets =
      (if (Selection.ofNames g language products targets).modules.isEmpty then .error .noModulesSelected
        else .ok (Selection.ofNames g language products targets).modules, []) := by
  obtain ⟨hrejected, hcomplaints⟩ := Selection.ofNames_of_faults hproducts htargets
  rw [select_of_named named, Selection.modules?, hrejected, hcomplaints]
  rfl

theorem selects_select : g.Selects language products targets (g.select language products targets) := by
  by_cases named : products = [] ∧ targets = []
  · rw [select_of_unnamed named]
    exact .all named fun _ => mem_libraryModules_iff
  let ofProducts := products.filterMap (Selection.fault? (g.selectProduct language))
  let ofTargets := targets.filterMap (Selection.fault? (g.selectTarget language))
  have hproducts : Faults g.ProductFault products ofProducts :=
    (faults_iff fun _ _ => selectProduct_eq_error).2 rfl
  have htargets : Faults (g.TargetFault language) targets ofTargets :=
    (faults_iff fun _ _ => selectTarget_eq_error).2 rfl
  by_cases sound : ofProducts ++ ofTargets = []
  · obtain ⟨hp, ht⟩ := List.append_eq_nil_iff.1 sound
    rw [hp] at hproducts
    rw [ht] at htargets
    have exactly (m : ModuleName) := @Selection.mem_modules_ofNames_iff _ _ _ _ hproducts htargets m
    rw [select_of_sound named hproducts htargets]
    split
    · rename_i hempty
      exact .nothing named hproducts htargets fun m hm =>
        ModuleSet.isEmpty_iff.1 hempty m ((exactly m).2 hm)
    · rename_i hsome
      rw [ModuleSet.isEmpty_iff, not_forall_not] at hsome
      exact .chosen named hproducts htargets exactly hsome
  · rw [select_of_faults named hproducts htargets sound]
    exact .invalid named hproducts htargets sound

/-- The relation allows one result only. -/
theorem Selects.eq {result : Except Fault ModuleSet × List Event}
    (h : g.Selects language products targets result) :
    g.select language products targets = result := by
  cases h with
  | all unnamed exactly =>
    have hmodules := ModuleSet.ext_mem fun m => mem_libraryModules_iff.trans (exactly m).symm
    rw [select_of_unnamed unnamed, hmodules]
  | invalid named hproducts htargets some => exact select_of_faults named hproducts htargets some
  | nothing named hproducts htargets none =>
    have hempty : (Selection.ofNames g language products targets).modules.isEmpty = true :=
      ModuleSet.isEmpty_iff.2 fun m hm =>
        none m ((Selection.mem_modules_ofNames_iff hproducts htargets).1 hm)
    rw [select_of_sound named hproducts htargets, if_pos hempty]
  | chosen named hproducts htargets exactly some =>
    have hmodules := ModuleSet.ext_mem fun m =>
      (Selection.mem_modules_ofNames_iff hproducts htargets).trans (exactly m).symm
    have hsome : ¬(Selection.ofNames g language products targets).modules.isEmpty = true := by
      rwa [ModuleSet.isEmpty_iff, not_forall_not, hmodules]
    rw [select_of_sound named hproducts htargets, if_neg hsome, hmodules]

/-- What a selection comes to is what the relation allows, and nothing else is. -/
theorem select_iff {result : Except Fault ModuleSet × List Event} :
    g.select language products targets = result ↔ g.Selects language products targets result :=
  ⟨fun h => h ▸ selects_select, Selects.eq⟩

end PackageGraph

end Breakage
