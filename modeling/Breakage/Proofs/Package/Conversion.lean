import Breakage.Proofs.Package.Described
import Breakage.Proofs.Package.Naming

/-!
What a description is converted to. A product has the kind that the least key of its type names, a target
the kind that its word does, and neither is dropped or moved; with a word that is unknown there is no
package, but a complaint about the first product with one or, where no product has one, about the first
such target. Main statement: `Description.toPackage_eq_iff`.
-/

namespace Breakage

theorem exists_forall₂_iff {α β : Type} {R : α → β → Prop} {as : List α} :
    (∃ bs, List.Forall₂ R as bs) ↔ ∀ a ∈ as, ∃ b, R a b := by
  induction as with
  | nil => exact ⟨fun _ a ha => absurd ha List.not_mem_nil, fun _ => ⟨[], .nil⟩⟩
  | cons a rest ih =>
    rw [List.forall_mem_cons, ← ih]
    constructor
    · rintro ⟨_, h⟩
      cases h with
      | cons ha hrest => exact ⟨⟨_, ha⟩, _, hrest⟩
    · rintro ⟨⟨b, hb⟩, bs, hbs⟩
      exact ⟨b :: bs, .cons hb hbs⟩

theorem Except.mapM_eq_error_iff {ε α β : Type} {f : α → Except ε β} {as : List α} {e : ε} :
    as.mapM f = .error e ↔ ∃ a, IsFirst (fun a => ∃ e, f a = .error e) as a ∧ f a = .error e := by
  induction as with
  | nil =>
    rw [List.mapM_nil]
    refine ⟨nofun, ?_⟩
    rintro ⟨a, ⟨before, after, heq, -⟩, -⟩
    cases before <;> cases heq
  | cons a rest ih =>
    rw [List.mapM_cons]
    simp only [isFirst_cons_iff]
    -- the rest is looked at only if the first element is in order
    cases ha : f a with
    | error e' =>
      constructor
      · rintro ⟨⟩
        exact ⟨a, .inl ⟨⟨e, rfl⟩, rfl⟩, ha⟩
      · rintro ⟨b, ⟨-, rfl⟩ | ⟨sound, -⟩, hb⟩
        · cases ha.symm.trans hb
          rfl
        · exact absurd ⟨e', rfl⟩ sound
    | ok b =>
      cases hrest : rest.mapM f with
      | error e' =>
        constructor
        · rintro ⟨⟩
          obtain ⟨c, first, hc⟩ := ih.1 hrest
          exact ⟨c, .inr ⟨nofun, first⟩, hc⟩
        · rintro ⟨c, ⟨⟨_, h⟩, -⟩ | ⟨-, first⟩, hc⟩
          · cases h
          · exact hrest.symm.trans (ih.2 ⟨c, first, hc⟩)
      | ok bs =>
        refine ⟨nofun, ?_⟩
        rintro ⟨c, ⟨⟨_, h⟩, -⟩ | ⟨-, first⟩, hc⟩
        · cases h
        · cases hrest.symm.trans (ih.2 ⟨c, first, hc⟩)

theorem Except.eq_iff_of_total {ε α : Type} {x : Except ε α} {R : α → Prop} {F : ε → Prop}
    (ok : ∀ a, R a → x = .ok a) (error : ∀ e, F e → x = .error e) (total : (∃ a, R a) ∨ ∃ e, F e) :
    (∀ a, x = .ok a ↔ R a) ∧ ∀ e, x = .error e ↔ F e := by
  rcases total with ⟨b, hb⟩ | ⟨f, hf⟩
  · have hx := ok b hb
    constructor
    · refine fun a => ⟨fun h => ?_, ok a⟩
      cases hx.symm.trans h
      exact hb
    · refine fun e => ⟨fun h => ?_, error e⟩
      cases hx.symm.trans h
  · have hx := error f hf
    constructor
    · refine fun a => ⟨fun h => ?_, ok a⟩
      cases hx.symm.trans h
    · refine fun e => ⟨fun h => ?_, error e⟩
      cases hx.symm.trans h
      exact hf

namespace DescribedProduct

variable {d : DescribedProduct} {kinds : List (String × Json)} {m : String × Json} {word : String}
  {v : Json}

inductive Links : Json → Linkage → Prop where
  | static (rest : List Json) : Links (.array (.text "static" :: rest)) .static
  | dynamic (rest : List Json) : Links (.array (.text "dynamic" :: rest)) .dynamic
  | automatic {v : Json}
    (other : ∀ word ∈ ["static", "dynamic"], ∀ rest, v ≠ .array (.text word :: rest)) : Links v .automatic

/-- The member of a type stands for the kind. -/
inductive IsKind : String → Json → ProductKind → Prop where
  | library {v : Json} {linkage : Linkage} (links : Links v linkage) : IsKind "library" v (.library linkage)
  | executable (v : Json) : IsKind "executable" v .executable
  | plugin (v : Json) : IsKind "plugin" v .plugin
  | snippet (v : Json) : IsKind "snippet" v .snippet
  | test (v : Json) : IsKind "test" v .test
  | macroKind (v : Json) : IsKind "macro" v .macroKind

/-- The member is the last of those with the least key. -/
def IsLeastMember (kinds : List (String × Json)) (m : String × Json) : Prop :=
  ∃ before after, kinds = before ++ m :: after ∧ (∀ k ∈ before, m.1 ≤ k.1) ∧ ∀ k ∈ after, m.1 < k.1

structure Becomes (d : DescribedProduct) (product : Product) : Prop where
  name : product.name = d.name
  targets : product.targets = d.targets
  kind : ∃ word v, IsLeastMember d.kinds (word, v) ∧ IsKind word v product.kind

/-- The fault of a description that is that of no product. -/
inductive Offends (d : DescribedProduct) : Fault → Prop where
  | untyped (none : d.kinds = []) :
    Offends d (.packageDescription ("product '" ++ d.name ++ "' has no type"))
  | unknown {word : String} {v : Json} (least : IsLeastMember d.kinds (word, v))
    (h : ∀ kind, ¬IsKind word v kind) :
    Offends d (.packageDescription ("product '" ++ d.name ++ "' has unknown type '" ++ word ++ "'"))

theorem linkage_eq_iff {l : Linkage} : linkage v = l ↔ Links v l := by
  constructor
  · rintro rfl
    unfold linkage
    split
    · rename_i word rest
      split_ifs with hstatic hdynamic
      · exact hstatic ▸ .static rest
      · exact hdynamic ▸ .dynamic rest
      · refine .automatic fun other hother rest' heq => ?_
        cases heq
        simp only [List.mem_cons, List.not_mem_nil, or_false] at hother
        exact hother.elim hstatic hdynamic
    · rename_i h
      exact .automatic fun word _ rest heq => h word rest heq
  · intro h
    cases h with
    | static | dynamic => rfl
    | automatic other =>
      unfold linkage
      split
      · rename_i word rest
        rw [if_neg fun h : word = "static" => other "static" (by simp) rest (h ▸ rfl),
          if_neg fun h : word = "dynamic" => other "dynamic" (by simp) rest (h ▸ rfl)]
      · rfl

theorem kindOf_eq_some_iff {kind : ProductKind} : kindOf word v = some kind ↔ IsKind word v kind := by
  constructor
  · intro h
    unfold kindOf at h
    split_ifs at h with hlibrary
    · cases h
      exact hlibrary ▸ .library (linkage_eq_iff.1 rfl)
    · obtain ⟨⟨tag, other⟩, hfind, rfl⟩ := Option.map_eq_some_iff.1 h
      obtain rfl : tag = word := by simpa using List.find?_some hfind
      have hmem := List.mem_of_find?_eq_some hfind
      simp only [ProductKind.plainTags, List.mem_cons, Prod.mk.injEq, List.not_mem_nil, or_false] at hmem
      rcases hmem with ⟨rfl, rfl⟩ | ⟨rfl, rfl⟩ | ⟨rfl, rfl⟩ | ⟨rfl, rfl⟩ | ⟨rfl, rfl⟩ <;> constructor
  · intro h
    cases h with
    | library links =>
      rw [← linkage_eq_iff.2 links]
      rfl
    | executable | plugin | snippet | test | macroKind => rfl

theorem kindOf_eq_none_iff : kindOf word v = none ↔ ∀ kind, ¬IsKind word v kind := by
  rw [Option.eq_none_iff_forall_ne_some]
  exact forall_congr' fun kind => not_congr kindOf_eq_some_iff

theorem leastMember_eq_none_iff : leastMember kinds = none ↔ kinds = [] := by
  cases kinds with
  | nil => exact ⟨fun _ => rfl, fun _ => rfl⟩
  | cons k rest =>
    refine ⟨fun h => ?_, nofun⟩
    unfold leastMember at h
    split at h
    · cases h
    · split_ifs at h

theorem IsLeastMember.mem (h : IsLeastMember kinds m) : m ∈ kinds := by
  obtain ⟨before, after, rfl, -, -⟩ := h
  simp

theorem IsLeastMember.le (h : IsLeastMember kinds m) {k : String × Json} (hk : k ∈ kinds) : m.1 ≤ k.1 := by
  obtain ⟨before, after, rfl, hbefore, hafter⟩ := h
  rcases List.mem_append.1 hk with hk | hk
  · exact hbefore k hk
  · rcases List.mem_cons.1 hk with rfl | hk
    · exact String.le_refl _
    · exact Std.le_of_lt (hafter k hk)

theorem isLeastMember_of_leastMember (h : leastMember kinds = some m) : IsLeastMember kinds m := by
  induction kinds generalizing m with
  | nil => cases h
  | cons k rest ih =>
    unfold leastMember at h
    split at h
    · rename_i hnone
      cases h
      rw [leastMember_eq_none_iff.1 hnone]
      exact ⟨[], [], rfl, nofun, nofun⟩
    · rename_i least hleast
      obtain ⟨before, after, rfl, hbefore, hafter⟩ := ih hleast
      split_ifs at h with hlt
      · cases h
        refine ⟨[], _, rfl, nofun, List.forall_mem_append.2 ⟨fun other hother => ?_, ?_⟩⟩
        · exact Std.lt_of_lt_of_le hlt (hbefore other hother)
        · exact List.forall_mem_cons.2 ⟨hlt, fun other hother => String.lt_trans hlt (hafter other hother)⟩
      · cases h
        exact ⟨k :: before, after, rfl, List.forall_mem_cons.2 ⟨String.not_lt.1 hlt, hbefore⟩, hafter⟩

theorem leastMember_eq_some_iff : leastMember kinds = some m ↔ IsLeastMember kinds m := by
  refine ⟨isLeastMember_of_leastMember, ?_⟩
  rintro ⟨before, after, rfl, hbefore, hafter⟩
  -- the search goes from the last member to the first, so that equal keys before it do not win
  induction before with
  | nil =>
    rw [List.nil_append, leastMember]
    split
    · rfl
    · rename_i least hleast
      exact if_pos (hafter least (isLeastMember_of_leastMember hleast).mem)
  | cons k before ih =>
    obtain ⟨hk, hbefore⟩ := List.forall_mem_cons.1 hbefore
    rw [List.cons_append, leastMember, ih hbefore]
    exact if_neg (String.not_lt.2 hk)

theorem exists_isLeastMember (h : kinds ≠ []) : ∃ m, IsLeastMember kinds m := by
  obtain ⟨m, hm⟩ := Option.ne_none_iff_exists'.1 fun hnone => h (leastMember_eq_none_iff.1 hnone)
  exact ⟨m, isLeastMember_of_leastMember hm⟩

/-- The least member of the type is the only one that matters. -/
theorem toProduct_of_isLeastMember (least : IsLeastMember d.kinds (word, v)) : d.toProduct =
    (kindOf word v).elim
      (.error (.packageDescription ("product '" ++ d.name ++ "' has unknown type '" ++ word ++ "'")))
      fun kind => .ok ⟨d.name, kind, d.targets⟩ := by
  rw [toProduct, leastMember_eq_some_iff.2 least]
  dsimp only
  cases kindOf word v <;> rfl

theorem toProduct_of_untyped (none : d.kinds = []) :
    d.toProduct = .error (.packageDescription ("product '" ++ d.name ++ "' has no type")) := by
  rw [toProduct, none, leastMember]

theorem Becomes.toProduct_eq {product : Product} (h : d.Becomes product) : d.toProduct = .ok product := by
  obtain ⟨hname, htargets, word, v, least, kind⟩ := h
  rw [toProduct_of_isLeastMember least, kindOf_eq_some_iff.2 kind, Option.elim_some, ← hname, ← htargets]

theorem Offends.toProduct_eq {e : Fault} (h : d.Offends e) : d.toProduct = .error e := by
  cases h with
  | untyped none => exact toProduct_of_untyped none
  | unknown least h => rw [toProduct_of_isLeastMember least, kindOf_eq_none_iff.2 h, Option.elim_none]

theorem becomes_or_offends (d : DescribedProduct) : (∃ product, d.Becomes product) ∨ ∃ e, d.Offends e := by
  by_cases untyped : d.kinds = []
  · exact .inr ⟨_, .untyped untyped⟩
  · obtain ⟨⟨word, v⟩, least⟩ := exists_isLeastMember untyped
    cases hkind : kindOf word v with
    | none => exact .inr ⟨_, .unknown least (kindOf_eq_none_iff.1 hkind)⟩
    | some kind =>
      exact .inl ⟨⟨d.name, kind, d.targets⟩, rfl, rfl, word, v, least, kindOf_eq_some_iff.1 hkind⟩

theorem toProduct_eq_ok_iff {product : Product} : d.toProduct = .ok product ↔ d.Becomes product :=
  (Except.eq_iff_of_total (fun _ => Becomes.toProduct_eq) (fun _ => Offends.toProduct_eq)
    d.becomes_or_offends).1 product

theorem toProduct_eq_error_iff {e : Fault} : d.toProduct = .error e ↔ d.Offends e :=
  (Except.eq_iff_of_total (fun _ => Becomes.toProduct_eq) (fun _ => Offends.toProduct_eq)
    d.becomes_or_offends).2 e

theorem exists_becomes_iff : (∃ product, d.Becomes product) ↔
    ∃ word v kind, IsLeastMember d.kinds (word, v) ∧ IsKind word v kind := by
  constructor
  · rintro ⟨product, -, -, word, v, least, kind⟩
    exact ⟨word, v, _, least, kind⟩
  · rintro ⟨word, v, kind, least, hkind⟩
    exact ⟨⟨d.name, kind, d.targets⟩, rfl, rfl, word, v, least, hkind⟩

end DescribedProduct

namespace DescribedTarget

inductive IsKind : String → TargetKind → Prop where
  | library : IsKind "library" .library
  | regular : IsKind "regular" .library
  | executable : IsKind "executable" .executable
  | test : IsKind "test" .test
  | plugin : IsKind "plugin" .plugin
  | macroKind : IsKind "macro" .macroKind
  | systemTarget : IsKind "system-target" .system
  | system : IsKind "system" .system
  | binary : IsKind "binary" .binary
  | snippet : IsKind "snippet" .snippet

inductive IsLanguage : Option String → Language → Prop where
  | swift : IsLanguage (some "SwiftTarget") .swift
  | clang : IsLanguage (some "ClangTarget") .clang
  | other {moduleType : Option String}
    (h : ∀ word ∈ ["SwiftTarget", "ClangTarget"], moduleType ≠ some word) : IsLanguage moduleType .other

structure Becomes (d : DescribedTarget) (t : Target) : Prop where
  name : t.name = d.name
  given : ∀ identifier, d.identifier = some identifier → t.module = ⟨identifier⟩
  made : d.identifier = none → t.module = .ofTarget d.name
  kind : IsKind d.kind t.kind
  language : IsLanguage d.moduleType t.language

inductive Offends (d : DescribedTarget) : Fault → Prop where
  | unknown (h : ∀ kind, ¬IsKind d.kind kind) :
    Offends d (.packageDescription ("target '" ++ d.name ++ "' has unknown type '" ++ d.kind ++ "'"))

theorem find?_kindWords_iff {word : String} {kind : TargetKind} :
    (kindWords.find? fun k => k.1 == word).map Prod.snd = some kind ↔ IsKind word kind := by
  constructor
  · intro h
    obtain ⟨⟨tag, other⟩, hfind, rfl⟩ := Option.map_eq_some_iff.1 h
    obtain rfl : tag = word := by simpa using List.find?_some hfind
    have hmem := List.mem_of_find?_eq_some hfind
    simp only [kindWords, List.mem_cons, Prod.mk.injEq, List.not_mem_nil, or_false] at hmem
    rcases hmem with h | h | h | h | h | h | h | h | h | h <;> obtain ⟨rfl, rfl⟩ := h <;> constructor
  · intro h
    cases h <;> rfl

theorem language_eq_iff {d : DescribedTarget} {l : Language} :
    d.language = l ↔ IsLanguage d.moduleType l := by
  unfold language
  constructor
  · rintro rfl
    split_ifs with hswift hclang
    · exact hswift ▸ .swift
    · exact hclang ▸ .clang
    · refine .other fun word hword => ?_
      simp only [List.mem_cons, List.not_mem_nil, or_false] at hword
      rcases hword with rfl | rfl
      · exact hswift
      · exact hclang
  · intro h
    generalize d.moduleType = moduleType at h
    cases h with
    | swift | clang => rfl
    | other h => rw [if_neg (h _ (by simp)), if_neg (h _ (by simp))]

theorem toTarget_eq (d : DescribedTarget) : d.toTarget =
    ((kindWords.find? fun k => k.1 == d.kind).map Prod.snd).elim
      (.error (.packageDescription ("target '" ++ d.name ++ "' has unknown type '" ++ d.kind ++ "'")))
      fun kind => .ok ⟨d.name, d.module, kind, d.language⟩ := by
  unfold toTarget
  cases kindWords.find? fun k => k.1 == d.kind <;> rfl

theorem Becomes.toTarget_eq {d : DescribedTarget} {t : Target} (h : d.Becomes t) : d.toTarget = .ok t := by
  obtain ⟨hname, hgiven, hmade, hkind, hlanguage⟩ := h
  have hmodule : d.module = t.module := by
    unfold module
    split
    · rename_i identifier h
      exact (hgiven identifier h).symm
    · rename_i h
      exact (hmade h).symm
  rw [DescribedTarget.toTarget_eq, find?_kindWords_iff.2 hkind, language_eq_iff.2 hlanguage,
    Option.elim_some, hmodule, ← hname]

theorem Offends.toTarget_eq {d : DescribedTarget} {e : Fault} (h : d.Offends e) : d.toTarget = .error e := by
  obtain ⟨h⟩ := h
  have hnone : (kindWords.find? fun k => k.1 == d.kind).map Prod.snd = none :=
    Option.eq_none_iff_forall_ne_some.2 fun kind hkind => h kind (find?_kindWords_iff.1 hkind)
  rw [DescribedTarget.toTarget_eq, hnone, Option.elim_none]

theorem becomes_of_isKind {d : DescribedTarget} {kind : TargetKind} (h : IsKind d.kind kind) :
    d.Becomes ⟨d.name, d.module, kind, d.language⟩ where
  name := rfl
  given identifier hgiven := by simp only [module, hgiven]
  made hnone := by simp only [module, hnone]
  kind := h
  language := language_eq_iff.1 rfl

theorem becomes_or_offends (d : DescribedTarget) : (∃ t, d.Becomes t) ∨ ∃ e, d.Offends e := by
  by_cases h : ∃ kind, IsKind d.kind kind
  · obtain ⟨kind, hkind⟩ := h
    exact .inl ⟨_, becomes_of_isKind hkind⟩
  · exact .inr ⟨_, .unknown (not_exists.1 h)⟩

theorem toTarget_eq_ok_iff {d : DescribedTarget} {t : Target} : d.toTarget = .ok t ↔ d.Becomes t :=
  (Except.eq_iff_of_total (fun _ => Becomes.toTarget_eq) (fun _ => Offends.toTarget_eq)
    d.becomes_or_offends).1 t

theorem toTarget_eq_error_iff {d : DescribedTarget} {e : Fault} : d.toTarget = .error e ↔ d.Offends e :=
  (Except.eq_iff_of_total (fun _ => Becomes.toTarget_eq) (fun _ => Offends.toTarget_eq)
    d.becomes_or_offends).2 e

theorem exists_becomes_iff {d : DescribedTarget} : (∃ t, d.Becomes t) ↔ ∃ kind, IsKind d.kind kind := by
  constructor
  · rintro ⟨t, h⟩
    exact ⟨_, h.kind⟩
  · rintro ⟨kind, hkind⟩
    exact ⟨_, becomes_of_isKind hkind⟩

end DescribedTarget

namespace Description

/-- What a description comes to: each product and each target in its place, or else the fault of the first
product that has one, or of the first target if all products are in order. -/
inductive Converts (d : Description) : Except Fault Package → Prop where
  | package {products : List Product} {targets : List Target}
    (all : List.Forall₂ DescribedProduct.Becomes d.products products)
    (all' : List.Forall₂ DescribedTarget.Becomes d.targets targets) :
    Converts d (.ok ⟨d.name, products, targets⟩)
  | product {p : DescribedProduct} {e : Fault} (first : IsFirst (fun p => ∃ e, p.Offends e) d.products p)
    (offends : p.Offends e) : Converts d (.error e)
  | target {products : List Product} {t : DescribedTarget} {e : Fault}
    (all : List.Forall₂ DescribedProduct.Becomes d.products products)
    (first : IsFirst (fun t => ∃ e, t.Offends e) d.targets t) (offends : t.Offends e) :
    Converts d (.error e)

theorem mapM_toProduct_eq_ok_iff {described : List DescribedProduct} {products : List Product} :
    described.mapM DescribedProduct.toProduct = .ok products ↔
      List.Forall₂ DescribedProduct.Becomes described products := by
  simp only [Except.mapM_eq_ok_iff, DescribedProduct.toProduct_eq_ok_iff]

theorem mapM_toProduct_eq_error_iff {described : List DescribedProduct} {e : Fault} :
    described.mapM DescribedProduct.toProduct = .error e ↔
      ∃ p, IsFirst (fun p => ∃ e, p.Offends e) described p ∧ p.Offends e := by
  simp only [Except.mapM_eq_error_iff, DescribedProduct.toProduct_eq_error_iff]

theorem mapM_toTarget_eq_ok_iff {described : List DescribedTarget} {targets : List Target} :
    described.mapM DescribedTarget.toTarget = .ok targets ↔
      List.Forall₂ DescribedTarget.Becomes described targets := by
  simp only [Except.mapM_eq_ok_iff, DescribedTarget.toTarget_eq_ok_iff]

theorem mapM_toTarget_eq_error_iff {described : List DescribedTarget} {e : Fault} :
    described.mapM DescribedTarget.toTarget = .error e ↔
      ∃ t, IsFirst (fun t => ∃ e, t.Offends e) described t ∧ t.Offends e := by
  simp only [Except.mapM_eq_error_iff, DescribedTarget.toTarget_eq_error_iff]

theorem converts_toPackage (d : Description) : d.Converts d.toPackage := by
  unfold toPackage
  cases hproducts : d.products.mapM DescribedProduct.toProduct with
  | error e =>
    obtain ⟨p, first, offends⟩ := mapM_toProduct_eq_error_iff.1 hproducts
    exact .product first offends
  | ok products =>
    have all := mapM_toProduct_eq_ok_iff.1 hproducts
    cases htargets : d.targets.mapM DescribedTarget.toTarget with
    | error e =>
      obtain ⟨t, first, offends⟩ := mapM_toTarget_eq_error_iff.1 htargets
      exact .target all first offends
    | ok targets => exact .package all (mapM_toTarget_eq_ok_iff.1 htargets)

theorem toPackage_eq_iff {d : Description} {result : Except Fault Package} :
    d.toPackage = result ↔ d.Converts result := by
  refine ⟨fun h => h ▸ converts_toPackage d, fun h => ?_⟩
  unfold toPackage
  cases h with
  | package all all' =>
    rw [mapM_toProduct_eq_ok_iff.2 all, mapM_toTarget_eq_ok_iff.2 all']
    rfl
  | product first offends =>
    rw [mapM_toProduct_eq_error_iff.2 ⟨_, first, offends⟩]
    rfl
  | target all first offends =>
    rw [mapM_toProduct_eq_ok_iff.2 all, mapM_toTarget_eq_error_iff.2 ⟨_, first, offends⟩]
    rfl

theorem exists_toPackage_iff {d : Description} : (∃ p, d.toPackage = .ok p) ↔
    (∀ product ∈ d.products, ∃ word v kind, DescribedProduct.IsLeastMember product.kinds (word, v) ∧
      DescribedProduct.IsKind word v kind) ∧
    ∀ t ∈ d.targets, ∃ kind, DescribedTarget.IsKind t.kind kind := by
  simp only [toPackage_eq_iff, ← DescribedProduct.exists_becomes_iff, ← DescribedTarget.exists_becomes_iff,
    ← exists_forall₂_iff]
  constructor
  · rintro ⟨_, h⟩
    cases h with
    | package all all' => exact ⟨⟨_, all⟩, _, all'⟩
  · rintro ⟨⟨products, all⟩, targets, all'⟩
    exact ⟨_, .package all all'⟩

end Description

end Breakage
