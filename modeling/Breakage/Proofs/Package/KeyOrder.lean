import Breakage.Proofs.Json.Codec
import Breakage.Proofs.Json.Reordering
import Breakage.Proofs.Package.Conversion

/-!
Descriptions whose objects have their members in another order. What is read of them is the same, but for
the linkage of a product whose type has several members for libraries: there the last one counts, and it
may be another one (`Description.Agree`). Main statement: `Description.conversion_complete`.
-/

namespace Breakage

open Json (SameMember SameMembers Tracks)

def ProductKind.unlinked : ProductKind → ProductKind
  | .library _ => .library .automatic
  | kind => kind

theorem ProductKind.isLibrary_unlinked (kind : ProductKind) : kind.unlinked.isLibrary = kind.isLibrary := by
  cases kind <;> rfl

/-- The same fault, or two values of which the relation holds. -/
inductive EqUpTo {ε α : Type} (R : α → α → Prop) : Except ε α → Except ε α → Prop where
  | fault (e : ε) : EqUpTo R (.error e) (.error e)
  | ok {a b : α} (h : R a b) : EqUpTo R (.ok a) (.ok b)

namespace EqUpTo

variable {ε α β : Type} {R : α → α → Prop} {S : β → β → Prop} {x y : Except ε α}

theorem refl (x : Except ε α) : EqUpTo Eq x x := by
  cases x with
  | error e => exact .fault e
  | ok a => exact .ok rfl

theorem bind (h : EqUpTo R x y) {f g : α → Except ε β} (next : ∀ a b, R a b → EqUpTo S (f a) (g b)) :
    EqUpTo S (x >>= f) (y >>= g) := by
  cases h with
  | fault e => exact .fault e
  | ok h => exact next _ _ h

theorem map_eq (h : EqUpTo R x y) {f : α → β} (same : ∀ a b, R a b → f a = f b) : x.map f = y.map f := by
  cases h with
  | fault e => rfl
  | ok h => exact congrArg Except.ok (same _ _ h)

theorem eq (h : EqUpTo R x y) (same : ∀ a b, R a b → a = b) : x = y := by
  cases h with
  | fault e => rfl
  | ok h => rw [same _ _ h]

end EqUpTo

namespace DescribedProduct

structure Reorders (d d' : DescribedProduct) : Prop where
  name : d'.name = d.name
  targets : d'.targets = d.targets
  kinds : SameMembers d.kinds d'.kinds

/-- All members for libraries, if there are several, give the same linkage. -/
def HasOneLinkage (d : DescribedProduct) : Prop :=
  ∀ v w, ("library", v) ∈ d.kinds → ("library", w) ∈ d.kinds → linkage v = linkage w

/-- The products are the same but for the linkage, and that too if the description has one only. -/
structure Agree (d : DescribedProduct) (product product' : Product) : Prop where
  name : product.name = product'.name
  targets : product.targets = product'.targets
  unlinked : product.kind.unlinked = product'.kind.unlinked
  kind : d.HasOneLinkage → product.kind = product'.kind

def kept? (outer : Nat) (m : Json.Text × Json) : Option (String × Json) :=
  match m.1 with
  | .plain k => if m.2.isKeepable outer then some (k, m.2) else none
  | .unpaired => none

theorem decodeKinds_object (outer : Nat) (members : List (Json.Text × Json)) :
    decodeKinds outer (.object members) = members.mapM (kept? outer) := rfl

theorem kept?_of_sameMember {outer : Nat} {m m' : Json.Text × Json} (same : SameMember m m')
    {k : String × Json} (h : kept? outer m = some k) :
    ∃ k', kept? outer m' = some k' ∧ SameMember k k' := by
  obtain ⟨_, value⟩ := m
  obtain ⟨key, value'⟩ := m'
  obtain ⟨rfl, reorders⟩ := same
  cases key with
  | plain key =>
    unfold kept? at h ⊢
    dsimp only at h ⊢
    rw [← reorders.isKeepable_eq outer]
    split_ifs at h ⊢
    cases h
    exact ⟨_, rfl, rfl, reorders⟩
  | unpaired => cases h

theorem tracks_decodeKinds (outer : Nat) : Tracks SameMembers (decodeKinds outer) := by
  intro v w h kinds hkinds
  cases v with
  | object members =>
    obtain ⟨members', rfl, between, each, order⟩ := Json.reorders_object_iff.1 h
    rw [decodeKinds_object] at hkinds ⊢
    -- the values are followed in their places first, and then what is kept of them is put in order
    obtain ⟨kept, hkept, same⟩ :=
      Json.exists_mapM_of_forall₂ each (fun _ _ same _ => kept?_of_sameMember same) hkinds
    obtain ⟨kinds', hkinds', order'⟩ :=
      List.perm_comp_forall₂ order.symm (Json.mapM_eq_some_iff.1 hkept)
    exact ⟨kinds', Json.mapM_eq_some_iff.2 hkinds', kept, same, order'.symm⟩
  | null | bool | number | string | array => cases hkinds

theorem tracks_decode : Tracks Reorders decode := by
  refine Json.tracks_of_slots fun slots slots' reorders d hd => ?_
  split at hd
  · rcases reorders with _ | ⟨hname, _ | ⟨htargets, _ | ⟨hkinds, ⟨⟩⟩⟩⟩
    simp only [Option.bind_eq_bind, Option.bind_eq_some_iff, Option.pure_def, Option.some.injEq] at hd
    obtain ⟨name, name_read, targets, targets_read, kinds, kinds_read, rfl⟩ := hd
    obtain ⟨_, name_read', rfl⟩ := hname.required Json.tracks_asText? name_read
    obtain ⟨_, targets_read', rfl⟩ := htargets.withDefault Json.tracks_texts rfl targets_read
    obtain ⟨kinds', kinds_read', same⟩ := hkinds.required (tracks_decodeKinds 4) kinds_read
    refine ⟨⟨name, targets, kinds'⟩, ?_, rfl, rfl, same⟩
    simp only [name_read', targets_read', kinds_read']
    rfl
  · cases hd

/-! ### Conversion -/

theorem linkage_eq_of_reorders {v w : Json} (h : v.Reorders w) : linkage v = linkage w := by
  cases h with
  | array each =>
    cases each with
    | nil => rfl
    | cons value rest =>
      cases value with
      | string t => cases t <;> rfl
      | null | bool | number | array | object => rfl
  | null | bool | number | string | object => rfl

theorem kindOf_of_ne {word : String} (h : word ≠ ProductKind.libraryTag) (v w : Json) :
    kindOf word v = kindOf word w := by
  rw [kindOf, if_neg h, kindOf, if_neg h]

theorem IsLeastMember.exists_same {kinds kinds' : List (String × Json)} (same : SameMembers kinds kinds')
    {word : String} {v : Json} (h : IsLeastMember kinds (word, v)) :
    ∃ w, IsLeastMember kinds' (word, w) := by
  have hkeys (k : String) : k ∈ kinds.map Prod.fst ↔ k ∈ kinds'.map Prod.fst := same.keys_perm.mem_iff
  obtain ⟨m, hm, hword⟩ := List.mem_map.1 ((hkeys word).1 (List.mem_map_of_mem h.mem))
  obtain ⟨⟨word', w⟩, h'⟩ := exists_isLeastMember (List.ne_nil_of_mem hm)
  obtain ⟨k, hk, hword'⟩ := List.mem_map.1 ((hkeys word').2 (List.mem_map_of_mem h'.mem))
  -- each of the two least keys is also a key on the other side
  have hle : word ≤ word' := hword' ▸ h.le hk
  have hle' : word' ≤ word := hword ▸ h'.le hm
  exact ⟨w, String.le_antisymm hle hle' ▸ h'⟩

theorem HasOneLinkage.linkage_eq {d d' : DescribedProduct} (one : d.HasOneLinkage)
    (same : SameMembers d.kinds d'.kinds) {v w : Json} (hv : ("library", v) ∈ d.kinds)
    (hw : ("library", w) ∈ d'.kinds) : linkage v = linkage w := by
  obtain ⟨⟨_, u⟩, hu, rfl, reorders⟩ := same.exists_mem hw
  exact (one v u hv hu).trans (linkage_eq_of_reorders reorders)

theorem toProduct_of_reorders {d d' : DescribedProduct} (h : d.Reorders d') :
    EqUpTo d.Agree d.toProduct d'.toProduct := by
  obtain ⟨hname, htargets, same⟩ := h
  by_cases hnil : d.kinds = []
  · have hnil' : d'.kinds = [] := by
      have hkeys := same.keys_perm
      rwa [hnil, List.map_nil, List.nil_perm, List.map_eq_nil_iff] at hkeys
    rw [toProduct_of_untyped hnil, toProduct_of_untyped hnil', hname]
    exact .fault _
  · obtain ⟨⟨word, v⟩, least⟩ := exists_isLeastMember hnil
    obtain ⟨w, least'⟩ := least.exists_same same
    rw [toProduct_of_isLeastMember least, toProduct_of_isLeastMember least', hname, htargets]
    -- the value counts for libraries only
    by_cases hword : word = "library"
    · subst hword
      have hlinkage (one : d.HasOneLinkage) : linkage v = linkage w :=
        one.linkage_eq same least.mem least'.mem
      exact .ok ⟨rfl, rfl, rfl, fun one => congrArg ProductKind.library (hlinkage one)⟩
    · rw [kindOf_of_ne hword v w]
      cases kindOf word w with
      | none => exact .fault _
      | some kind => exact .ok ⟨rfl, rfl, rfl, fun _ => rfl⟩

inductive AllAgree : List DescribedProduct → List Product → List Product → Prop where
  | nil : AllAgree [] [] []
  | cons {d : DescribedProduct} {product product' : Product} {described : List DescribedProduct}
    {products products' : List Product} (first : d.Agree product product')
    (rest : AllAgree described products products') :
    AllAgree (d :: described) (product :: products) (product' :: products')

theorem mapM_toProduct_of_reorders {described described' : List DescribedProduct}
    (h : List.Forall₂ Reorders described described') :
    EqUpTo (AllAgree described) (described.mapM toProduct) (described'.mapM toProduct) := by
  induction h with
  | nil => exact .ok .nil
  | @cons d d' rest rest' first _ ih =>
    rw [List.mapM_cons, List.mapM_cons]
    exact (toProduct_of_reorders first).bind fun _ _ agree =>
      ih.bind fun _ _ agree' => .ok (.cons agree agree')

theorem AllAgree.eq {described : List DescribedProduct} {products products' : List Product}
    (h : AllAgree described products products') (one : ∀ d ∈ described, d.HasOneLinkage) :
    products = products' := by
  induction h with
  | nil => rfl
  | @cons d product product' _ _ _ first _ ih =>
    obtain ⟨hd, hrest⟩ := List.forall_mem_cons.1 one
    have hproduct : product = product' := by
      cases product
      cases product'
      simp only [Product.mk.injEq]
      exact ⟨first.name, first.kind hd, first.targets⟩
    rw [hproduct, ih hrest]

theorem Agree.isLibrary_eq {d : DescribedProduct} {product product' : Product}
    (h : d.Agree product product') : product.kind.isLibrary = product'.kind.isLibrary := by
  rw [← ProductKind.isLibrary_unlinked, h.unlinked, ProductKind.isLibrary_unlinked]

theorem AllAgree.flatMap_eq {described : List DescribedProduct} {products products' : List Product}
    (h : AllAgree described products products') {α : Type} {f f' : Product → List α}
    (hf : ∀ product product', product.targets = product'.targets → f product = f' product') :
    (products.filter fun product => product.kind.isLibrary).flatMap f =
      (products'.filter fun product => product.kind.isLibrary).flatMap f' := by
  induction h with
  | nil => rfl
  | @cons d product product' _ _ _ first _ ih =>
    simp only [List.filter_cons, first.isLibrary_eq]
    split_ifs
    · rw [List.flatMap_cons, List.flatMap_cons, hf _ _ first.targets, ih]
    · exact ih

end DescribedProduct

namespace DescribedTarget

theorem tracks_decode : Tracks Eq decode := by
  refine Json.tracks_of_slots fun slots slots' reorders d hd => ?_
  split at hd
  · rcases reorders with _ | ⟨hname, _ | ⟨hidentifier, _ | ⟨hkind, _ | ⟨hmodule, ⟨⟩⟩⟩⟩⟩
    simp only [Option.bind_eq_bind, Option.bind_eq_some_iff, Option.pure_def, Option.some.injEq] at hd
    obtain ⟨name, name_read, identifier, identifier_read, kind, kind_read, moduleType, module_read,
      rfl⟩ := hd
    obtain ⟨_, name_read', rfl⟩ := hname.required Json.tracks_asText? name_read
    obtain ⟨_, kind_read', rfl⟩ := hkind.required Json.tracks_asText? kind_read
    refine ⟨_, ?_, rfl⟩
    simp only [name_read', hidentifier.nullable Json.tracks_asText? identifier_read, kind_read',
      hmodule.nullable Json.tracks_asText? module_read]
    rfl
  · cases hd

end DescribedTarget

namespace Description

structure Reorders (d d' : Description) : Prop where
  name : d'.name = d.name
  products : List.Forall₂ DescribedProduct.Reorders d.products d'.products
  targets : d'.targets = d.targets

/-- The packages are the same but for the linkages that the description leaves open. -/
structure Agree (d : Description) (p p' : Package) : Prop where
  name : p.name = p'.name
  products : DescribedProduct.AllAgree d.products p.products p'.products
  targets : p.targets = p'.targets

theorem tracks_decode : Tracks Reorders decode := by
  refine Json.tracks_of_slots fun slots slots' reorders d hd => ?_
  split at hd
  · rcases reorders with _ | ⟨hname, _ | ⟨hproducts, _ | ⟨htargets, ⟨⟩⟩⟩⟩
    simp only [Option.bind_eq_bind, Option.bind_eq_some_iff, Option.pure_def, Option.some.injEq] at hd
    obtain ⟨name, name_read, products, products_read, targets, targets_read, rfl⟩ := hd
    obtain ⟨_, name_read', rfl⟩ := hname.required Json.tracks_asText? name_read
    obtain ⟨products', products_read', each⟩ :=
      hproducts.withDefault DescribedProduct.tracks_decode.list .nil products_read
    obtain ⟨targets', targets_read', same⟩ :=
      htargets.withDefault DescribedTarget.tracks_decode.list .nil targets_read
    rw [List.forall₂_eq_eq_eq] at same
    refine ⟨⟨name, products', targets'⟩, ?_, rfl, each, same.symm⟩
    simp only [name_read', products_read', targets_read']
    rfl
  · cases hd

theorem toPackage_of_reorders {d d' : Description} (h : d.Reorders d') :
    EqUpTo d.Agree d.toPackage d'.toPackage := by
  rw [toPackage, toPackage, h.targets, h.name]
  refine (DescribedProduct.mapM_toProduct_of_reorders h.products).bind fun _ _ agree => ?_
  refine (EqUpTo.refl _).bind fun targets _ heq => ?_
  exact .ok ⟨rfl, agree, heq⟩

/-- What two trees of a description come to. -/
theorem read_of_reorders {text text' : String} {v w : Json} (hv : Json.parse? text = some v)
    (hw : Json.parse? text' = some w) (h : v.Reorders w) :
    EqUpTo (fun g g' => ∃ d p p', decode v = some d ∧ g = ⟨[p]⟩ ∧ g' = ⟨[p']⟩ ∧ d.Agree p p')
      (read text) (read text') := by
  rw [read, read, hv, hw, Option.bind_some, Option.bind_some]
  cases hd : decode v with
  | none =>
    cases hd' : decode w with
    | none => exact .fault _
    | some d' =>
      obtain ⟨d, hsome, -⟩ := tracks_decode h.symm hd'
      cases hd.symm.trans hsome
  | some d =>
    obtain ⟨d', hd', reorders⟩ := tracks_decode h hd
    rw [hd']
    exact (toPackage_of_reorders reorders).bind fun p p' agree => .ok ⟨d, p, p', rfl, rfl, rfl, agree⟩

theorem Agree.libraryModules_eq {d : Description} {p p' : Package} (h : d.Agree p p')
    (language : Language) :
    PackageGraph.libraryModules ⟨[p]⟩ language = PackageGraph.libraryModules ⟨[p']⟩ language := by
  have htarget : p.target? = p'.target? := by
    funext name
    rw [Package.target?, h.targets, Package.target?]
  have hmodules (product product' : Product) (heq : product.targets = product'.targets) :
      p.productModules language product = p'.productModules language product' := by
    rw [Package.productModules, Package.productModules, Package.productTargets, Package.productTargets,
      htarget, heq]
  rw [PackageGraph.libraryModules, PackageGraph.libraryModules, List.flatMap_singleton,
    List.flatMap_singleton, h.products.flatMap_eq hmodules]

theorem Agree.eq {d : Description} {p p' : Package} (h : d.Agree p p')
    (one : ∀ product ∈ d.products, product.HasOneLinkage) : p = p' := by
  cases p
  cases p'
  simp only [Package.mk.injEq]
  exact ⟨h.name, h.products.eq one, h.targets⟩

/-- A package is made of a description if all words for the kinds of its products and targets are known,
and only then; else the fault is that of the first product with an unknown kind or, if there is none, of
the first such target. Nothing hangs on the order of members in objects, the modules of the libraries in
particular; only where the type of a product has several members for libraries, which do not give the same
linkage, the linkage of the product may be another one. -/
theorem conversion_complete :
    (∀ (d : Description) (result : Except Fault Package), d.toPackage = result ↔ d.Converts result) ∧
    (∀ d : Description, (∃ p, d.toPackage = .ok p) ↔
      (∀ product ∈ d.products, ∃ word v kind, DescribedProduct.IsLeastMember product.kinds (word, v) ∧
        DescribedProduct.IsKind word v kind) ∧
      ∀ t ∈ d.targets, ∃ kind, DescribedTarget.IsKind t.kind kind) ∧
    ∀ text text' v w, Json.parse? text = some v → Json.parse? text' = some w → v.Reorders w →
      EqUpTo (fun g g' => ∃ d p p', decode v = some d ∧ g = ⟨[p]⟩ ∧ g' = ⟨[p']⟩ ∧ d.Agree p p')
        (read text) (read text') ∧
      (∀ language, (read text).map (PackageGraph.libraryModules · language) =
        (read text').map (PackageGraph.libraryModules · language)) ∧
      ((∀ d, decode v = some d → ∀ product ∈ d.products, product.HasOneLinkage) →
        read text = read text') := by
  refine ⟨fun d result => toPackage_eq_iff, fun d => exists_toPackage_iff, ?_⟩
  intro text text' v w hv hw reorders
  have agree := read_of_reorders hv hw reorders
  refine ⟨agree, fun language => agree.map_eq ?_, fun one => agree.eq ?_⟩
  · rintro _ _ ⟨d, p, p', -, rfl, rfl, h⟩
    exact h.libraryModules_eq language
  · rintro _ _ ⟨d, p, p', hd, rfl, rfl, h⟩
    rw [h.eq (one d hd)]

/-- A description with all its objects the other way round. -/
theorem conversion_complete_reversed :
    let kinds := [("library", Json.array [.text "static"]), ("plugin", .null)]
    let product := [("name", Json.text "L"), ("targets", .array [.text "T"]), ("type", .record kinds)]
    let product' := [("type", Json.record kinds.reverse), ("targets", .array [.text "T"]),
      ("name", .text "L")]
    let target := [("name", Json.text "T"), ("type", .text "library")]
    let v : Json := .record [("name", .text "P"), ("products", .array [.record product]),
      ("targets", .array [.record target])]
    let w : Json := .record [("targets", .array [.record target.reverse]),
      ("products", .array [.record product']), ("name", .text "P")]
    Json.parse? v.compact = some v ∧ Json.parse? w.compact = some w ∧ v.Reorders w ∧
      (∀ d, decode v = some d → ∀ product ∈ d.products, product.HasOneLinkage) ∧
      read v.compact = .ok ⟨[⟨"P", [⟨"L", .library .static, ["T"]⟩], [⟨"T", ⟨"T"⟩, .library, .other⟩]⟩]⟩ ∧
      read v.compact = read w.compact := by
  intro kinds product product' target v w
  have hv : Json.parse? v.compact = some v := Json.parse?_compact <| by
    simp [v, target, product, kinds, Json.ItemsHaveTokens, Json.HasTokens]
  have hw : Json.parse? w.compact = some w := Json.parse?_compact <| by
    simp [w, target, product', kinds, Json.ItemsHaveTokens, Json.HasTokens]
  have types : (Json.record kinds).Reorders (.record kinds.reverse) :=
    .object (.refl _) (List.reverse_perm _).symm
  have products : (Json.record product).Reorders (.record product') :=
    .object (.cons _ (.refl _) (.cons _ (.refl _) (.cons _ types .nil))) (List.reverse_perm _).symm
  have targets : (Json.record target).Reorders (.record target.reverse) :=
    .object (.refl _) (List.reverse_perm _).symm
  have reorders : v.Reorders w :=
    .object (.cons _ (.refl _) (.cons _ (.array (.cons products .nil))
      (.cons _ (.array (.cons targets .nil)) .nil))) (List.reverse_perm _).symm
  have one : ∀ d, decode v = some d → ∀ product ∈ d.products, product.HasOneLinkage := by
    intro d hd p hp u u' hu hu'
    cases hd
    obtain rfl := List.mem_singleton.1 hp
    have hone (x : Json) (hx : ("library", x) ∈ kinds) : x = .array [.text "static"] := by
      simpa [kinds] using hx
    rw [hone u hu, hone u' hu']
  have hread : read v.compact =
      .ok ⟨[⟨"P", [⟨"L", .library .static, ["T"]⟩], [⟨"T", ⟨"T"⟩, .library, .other⟩]⟩]⟩ := by
    rw [read, hv]
    rfl
  exact ⟨hv, hw, reorders, one, hread, (conversion_complete.2.2 _ _ v w hv hw reorders).2.2 one⟩

/-- Where a type has two members for libraries, the linkage is that of the last. -/
theorem linkage_of_repeated_library :
    let kinds := [("library", Json.array [.text "static"]), ("library", .array [.text "dynamic"])]
    let v : Json := .record [("name", .text "P"),
      ("products", .array [.record [("name", .text "L"), ("type", .record kinds)]])]
    let w : Json := .record [("name", .text "P"),
      ("products", .array [.record [("name", .text "L"), ("type", .record kinds.reverse)]])]
    Json.parse? v.compact = some v ∧ Json.parse? w.compact = some w ∧ v.Reorders w ∧
      read v.compact = .ok ⟨[⟨"P", [⟨"L", .library .dynamic, []⟩], []⟩]⟩ ∧
      read w.compact = .ok ⟨[⟨"P", [⟨"L", .library .static, []⟩], []⟩]⟩ := by
  intro kinds v w
  have hv : Json.parse? v.compact = some v := Json.parse?_compact <| by
    simp [v, kinds, Json.ItemsHaveTokens, Json.HasTokens]
  have hw : Json.parse? w.compact = some w := Json.parse?_compact <| by
    simp [w, kinds, Json.ItemsHaveTokens, Json.HasTokens]
  have types : (Json.record kinds).Reorders (.record kinds.reverse) :=
    .object (.refl _) (List.reverse_perm _).symm
  have reorders : v.Reorders w :=
    .object (.cons _ (.refl _) (.cons _ (.array (.cons
      (.object (.cons _ (.refl _) (.cons _ types .nil)) (.refl _)) .nil)) .nil)) (.refl _)
  refine ⟨hv, hw, reorders, ?_, ?_⟩
  · rw [read, hv]
    rfl
  · rw [read, hw]
    rfl

end Description

end Breakage
