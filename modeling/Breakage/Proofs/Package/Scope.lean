import Breakage.Proofs.Package.Naming

/-!
What is selected by different names. To name all library products is to name nothing, as long as no two
products share a name: a name then stands for each product that bears it (`meansProduct_iff`), so that none
is passed over. And the names of two selections together select what each of them does. Main statement:
`PackageGraph.scopes_agree`.
-/

namespace Breakage

theorem isFirst_iff_of_distinct {α β : Type} {key : α → β} {as : List α}
    (distinct : as.Pairwise fun a b => key a ≠ key b) {k : β} {a : α} :
    IsFirst (fun a => key a = k) as a ↔ a ∈ as ∧ key a = k := by
  constructor
  · rintro ⟨before, after, rfl, ha, -⟩
    exact ⟨by simp, ha⟩
  · rintro ⟨hmem, rfl⟩
    obtain ⟨before, after, rfl⟩ := List.append_of_mem hmem
    obtain ⟨-, -, hbefore⟩ := List.pairwise_append.1 distinct
    exact ⟨before, after, rfl, rfl, fun b hb => hbefore b hb a List.mem_cons_self⟩

namespace PackageGraph

variable {g : PackageGraph} {language : Language} {name : String} {p : Package} {product : Product}
  {m : ModuleName}

def libraryNames (g : PackageGraph) : List String :=
  (g.products.filter fun e => e.2.kind.isLibrary).map fun e => e.2.name

def HasDistinctProducts (g : PackageGraph) : Prop := g.products.Pairwise fun e f => e.2.name ≠ f.2.name

theorem mem_products : (p, product) ∈ g.products ↔ p ∈ g.packages ∧ product ∈ p.products := by
  simp only [products, List.mem_flatMap, List.mem_map, Prod.mk.injEq]
  constructor
  · rintro ⟨q, hq, other, hother, rfl, rfl⟩
    exact ⟨hq, hother⟩
  · rintro ⟨hp, hproduct⟩
    exact ⟨p, hp, product, hproduct, rfl, rfl⟩

theorem mem_libraryNames : name ∈ g.libraryNames ↔
    ∃ p product, (p, product) ∈ g.products ∧ product.kind.isLibrary = true ∧ product.name = name := by
  simp only [libraryNames, List.mem_map, List.mem_filter, Prod.exists, and_assoc]

theorem vends_iff : g.Vends language m ↔ ∃ p product, (p, product) ∈ g.products ∧
    product.kind.isLibrary = true ∧ p.Lists language product m := by
  simp only [Vends, mem_products]
  constructor
  · rintro ⟨p, hp, product, hproduct, library, lists⟩
    exact ⟨p, product, ⟨hp, hproduct⟩, library, lists⟩
  · rintro ⟨p, product, ⟨hp, hproduct⟩, library, lists⟩
    exact ⟨p, hp, product, hproduct, library, lists⟩

theorem MeansProduct.unique {q : Package} {other : Product} (h : g.MeansProduct name p product)
    (h' : g.MeansProduct name q other) : (p, product) = (q, other) :=
  Option.some.inj ((product?_eq_some_iff.2 h).symm.trans (product?_eq_some_iff.2 h'))

section

variable (distinct : g.HasDistinctProducts)
include distinct

theorem meansProduct_iff :
    g.MeansProduct name p product ↔ (p, product) ∈ g.products ∧ product.name = name :=
  isFirst_iff_of_distinct distinct

theorem not_productFault_of_mem (h : name ∈ g.libraryNames) (complaint : String) :
    ¬g.ProductFault name complaint := by
  obtain ⟨p, product, hmem, library, hname⟩ := mem_libraryNames.1 h
  rintro (none | ⟨first, kind⟩)
  · exact none _ hmem hname
  · cases first.unique ((meansProduct_iff distinct).2 ⟨hmem, hname⟩)
    rw [ProductKind.isLibrary_eq_false_iff.2 kind] at library
    cases library

variable {names : List String} (all : ∀ name, name ∈ names ↔ name ∈ g.libraryNames)
include all

theorem names_libraryNames_iff : g.Names language names [] m ↔ g.Vends language m := by
  rw [vends_iff, Names]
  constructor
  · rintro (⟨name, hname, p, product, means, lists⟩ | ⟨_, hnone, -⟩)
    · obtain ⟨q, other, hmem, library, hother⟩ := mem_libraryNames.1 ((all name).1 hname)
      cases means.unique ((meansProduct_iff distinct).2 ⟨hmem, hother⟩)
      exact ⟨p, product, hmem, library, lists⟩
    · exact absurd hnone List.not_mem_nil
  · rintro ⟨p, product, hmem, library, lists⟩
    have hname : product.name ∈ names :=
      (all _).2 (mem_libraryNames.2 ⟨p, product, hmem, library, rfl⟩)
    exact .inl ⟨product.name, hname, p, product, (meansProduct_iff distinct).2 ⟨hmem, rfl⟩, lists⟩

theorem select_libraryNames : g.select language names [] =
    (if (g.libraryModules language).toList = [] ∧ g.libraryNames ≠ [] then .error .noModulesSelected
      else .ok (g.libraryModules language), []) := by
  have hnil : names = [] ↔ g.libraryNames = [] := by
    simp only [List.eq_nil_iff_forall_not_mem, all]
  by_cases unnamed : names = []
  · rw [if_neg fun h => h.2 (hnil.1 unnamed)]
    exact select_of_unnamed ⟨unnamed, rfl⟩
  have named : ¬(names = [] ∧ ([] : List String) = []) := fun h => unnamed h.1
  have sound : Faults g.ProductFault names [] := faults_nil_iff.2 fun name hname =>
    not_productFault_of_mem distinct ((all name).1 hname)
  have exactly (m : ModuleName) : m ∈ g.libraryModules language ↔ g.Names language names [] m :=
    mem_libraryModules_iff.trans (names_libraryNames_iff distinct all).symm
  split_ifs with hempty
  · refine (Selects.nothing named sound .nil fun m hm => ?_).eq
    have hmem := (exactly m).2 hm
    rw [ModuleSet.mem_def, hempty.1] at hmem
    exact absurd hmem List.not_mem_nil
  · refine (Selects.chosen named sound .nil exactly ?_).eq
    have hsome : (g.libraryModules language).toList ≠ [] :=
      fun h => hempty ⟨h, fun hnone => unnamed (hnil.2 hnone)⟩
    exact List.exists_mem_of_ne_nil _ hsome

end

variable {products targets products' targets' : List String} {modules modules' : ModuleSet}
  {events events' : List Event}

theorem chosen_of_select (named : ¬(products = [] ∧ targets = []))
    (h : g.select language products targets = (.ok modules, events)) :
    Faults g.ProductFault products [] ∧ Faults (g.TargetFault language) targets [] ∧
      (∀ m, m ∈ modules ↔ g.Names language products targets m) ∧ ∃ m, m ∈ modules := by
  have hselects : g.Selects language products targets (.ok modules, events) := h ▸ selects_select
  cases hselects with
  | all unnamed => exact absurd unnamed named
  | chosen _ hproducts htargets exactly some => exact ⟨hproducts, htargets, exactly, some⟩

theorem names_append : g.Names language (products ++ products') (targets ++ targets') m ↔
    g.Names language products targets m ∨ g.Names language products' targets' m := by
  simp only [Names, List.mem_append, or_and_right, exists_or]
  exact or_or_or_comm

theorem faults_append {faulty : String → String → Prop} {names names' : List String}
    (h : Faults faulty names []) (h' : Faults faulty names' []) : Faults faulty (names ++ names') [] := by
  rw [faults_nil_iff] at *
  intro name hname
  exact (List.mem_append.1 hname).elim (h name) (h' name)

theorem select_append (named : ¬(products = [] ∧ targets = []))
    (named' : ¬(products' = [] ∧ targets' = []))
    (h : g.select language products targets = (.ok modules, events))
    (h' : g.select language products' targets' = (.ok modules', events')) :
    g.select language (products ++ products') (targets ++ targets') =
      (.ok (modules.insertAll modules'.toList), []) := by
  obtain ⟨hproducts, htargets, exactly, m, hm⟩ := chosen_of_select named h
  obtain ⟨hproducts', htargets', exactly', -⟩ := chosen_of_select named' h'
  have both : ¬(products ++ products' = [] ∧ targets ++ targets' = []) := fun hnil =>
    named ⟨(List.append_eq_nil_iff.1 hnil.1).1, (List.append_eq_nil_iff.1 hnil.2).1⟩
  refine (Selects.chosen both (faults_append hproducts hproducts') (faults_append htargets htargets')
    (fun k => ?_) ⟨m, ModuleSet.mem_insertAll.2 (.inr hm)⟩).eq
  rw [ModuleSet.mem_insertAll, names_append, ← exactly, ← exactly', or_comm]
  rfl

/-- The scope of a selection does not hang on the way it is asked for. If no two products share a name,
the names of all library products, in any order and as often as one likes, select what no name at all
selects, without an error; only that to select nothing is then a fault. And what the names of two successful
selections select together is what they select one by one. -/
theorem scopes_agree (g : PackageGraph) (language : Language) :
    (g.HasDistinctProducts → ∀ names, (∀ name, name ∈ names ↔ name ∈ g.libraryNames) →
      ∃ modules, g.select language [] [] = (.ok modules, []) ∧
        g.select language names [] =
          (if modules.toList = [] ∧ g.libraryNames ≠ [] then .error .noModulesSelected
            else .ok modules, [])) ∧
    ∀ products targets products' targets' modules modules' events events',
      ¬(products = [] ∧ targets = []) → ¬(products' = [] ∧ targets' = []) →
      g.select language products targets = (.ok modules, events) →
      g.select language products' targets' = (.ok modules', events') →
      ∃ union, g.select language (products ++ products') (targets ++ targets') = (.ok union, []) ∧
        ∀ m, m ∈ union ↔ m ∈ modules ∨ m ∈ modules' := by
  constructor
  · intro distinct names all
    exact ⟨_, select_of_unnamed ⟨rfl, rfl⟩, select_libraryNames distinct all⟩
  · intro products targets products' targets' modules modules' events events' named named' h h'
    refine ⟨_, select_append named named' h h', fun m => ?_⟩
    rw [ModuleSet.mem_insertAll, or_comm]
    rfl

/-- Both library products of two packages, one of them named twice; and a product beside a target. -/
theorem scopes_agree_two :
    let g : PackageGraph :=
      ⟨[⟨"One", [⟨"A", .library .automatic, ["A"]⟩, ⟨"tool", .executable, ["Tool"]⟩],
          [⟨"A", ⟨"A"⟩, .library, .swift⟩, ⟨"Tool", ⟨"Tool"⟩, .executable, .swift⟩]⟩,
        ⟨"Two", [⟨"B", .library .static, ["B", "C"]⟩],
          [⟨"B", ⟨"B"⟩, .library, .swift⟩, ⟨"C", ⟨"C"⟩, .library, .clang⟩]⟩]⟩
    g.select .swift ["B", "A", "B"] [] = (.ok (.ofList [⟨"A"⟩, ⟨"B"⟩]), []) ∧
      ∃ union, g.select .swift ["A"] ["B"] = (.ok union, []) ∧
        ∀ m, m ∈ union ↔ m ∈ ModuleSet.ofList [⟨"A"⟩] ∨ m ∈ ModuleSet.ofList [⟨"B"⟩] := by
  intro g
  have distinct : g.HasDistinctProducts := by
    unfold HasDistinctProducts
    decide
  have hnames : g.libraryNames = ["A", "B"] := by decide
  have all (name : String) : name ∈ ["B", "A", "B"] ↔ name ∈ g.libraryNames := by
    rw [hnames]
    simp only [List.mem_cons, List.not_mem_nil, or_false]
    tauto
  obtain ⟨named, joined⟩ := scopes_agree g .swift
  refine ⟨?_, ?_⟩
  · obtain ⟨modules, hall, hnamed⟩ := named distinct _ all
    obtain rfl : modules = .ofList [⟨"A"⟩, ⟨"B"⟩] := (Except.ok.inj (Prod.mk.inj hall).1).symm
    rwa [if_neg fun h => absurd h.1 (by decide)] at hnamed
  · exact joined ["A"] [] [] ["B"] _ _ [] [] (by decide) (by decide) rfl rfl

end PackageGraph

end Breakage
