import Breakage.Fault
import Breakage.Package.Codec

/-!
Package descriptions as a build tool prints them, and the packages they describe. A description
names the kinds of products and targets by words; a word that is not known makes it invalid, the
products being looked at before the targets.
-/

namespace Breakage

/-- A product as described. The kind is the least key of the given members. -/
structure DescribedProduct where
  name : String
  targets : List String
  kinds : List (String × Json)

structure DescribedTarget where
  name : String
  /-- the module name, where the tool knows it -/
  identifier : Option String
  kind : String
  moduleType : Option String

structure Description where
  name : String
  products : List DescribedProduct
  targets : List DescribedTarget

namespace DescribedProduct

/-- The member with the least key; of members with one key the last. -/
def leastMember : List (String × Json) → Option (String × Json)
  | [] => none
  | m :: rest =>
    match leastMember rest with
    | none => some m
    | some least => if m.1 < least.1 then some m else some least

/-- The linkage is the first text in the list; anything else is automatic. -/
def linkage (v : Json) : Linkage :=
  match v with
  | .array (.string (.plain word) :: _) =>
    if word = "static" then .static else if word = "dynamic" then .dynamic else .automatic
  | _ => .automatic

def kindOf (word : String) (v : Json) : Option ProductKind :=
  if word = ProductKind.libraryTag then some (.library (linkage v))
  else (ProductKind.plainTags.find? fun k => k.1 == word).map Prod.snd

def toProduct (d : DescribedProduct) : Except Fault Product :=
  match leastMember d.kinds with
  | none => .error (.packageDescription ("product '" ++ d.name ++ "' has no type"))
  | some (word, v) =>
    match kindOf word v with
    | some kind => .ok ⟨d.name, kind, d.targets⟩
    | none =>
      .error (.packageDescription ("product '" ++ d.name ++ "' has unknown type '" ++ word ++ "'"))

def decodeKinds (outer : Nat) : Json → Option (List (String × Json))
  | .object members => members.mapM fun m =>
    match m.1 with
    | .plain k => if m.2.isKeepable outer then some (k, m.2) else none
    | .unpaired => none
  | _ => none

def decode (v : Json) : Option DescribedProduct := do
  let [name, targets, kinds] ← v.slots ["name", "targets", "type"] | none
  return ⟨← name.required Json.asText?, ← targets.withDefault [] (Json.decodeList Json.asText?),
    ← kinds.required (decodeKinds 4)⟩

end DescribedProduct

namespace DescribedTarget

def kindWords : List (String × TargetKind) :=
  [("library", .library), ("regular", .library), ("executable", .executable), ("test", .test),
   ("plugin", .plugin), ("macro", .macroKind), ("system-target", .system), ("system", .system),
   ("binary", .binary), ("snippet", .snippet)]

def language (d : DescribedTarget) : Language :=
  if d.moduleType = some "SwiftTarget" then .swift
  else if d.moduleType = some "ClangTarget" then .clang
  else .other

def module (d : DescribedTarget) : ModuleName :=
  match d.identifier with
  | some identifier => ⟨identifier⟩
  | none => .ofTarget d.name

def toTarget (d : DescribedTarget) : Except Fault Target :=
  match kindWords.find? fun k => k.1 == d.kind with
  | some (_, kind) => .ok ⟨d.name, d.module, kind, d.language⟩
  | none =>
    .error (.packageDescription ("target '" ++ d.name ++ "' has unknown type '" ++ d.kind ++ "'"))

def decode (v : Json) : Option DescribedTarget := do
  let [name, identifier, kind, moduleType] ← v.slots ["name", "c99name", "type", "module_type"]
    | none
  return ⟨← name.required Json.asText?, ← identifier.nullable Json.asText?,
    ← kind.required Json.asText?, ← moduleType.nullable Json.asText?⟩

end DescribedTarget

namespace Description

def toPackage (d : Description) : Except Fault Package := do
  let products ← d.products.mapM DescribedProduct.toProduct
  let targets ← d.targets.mapM DescribedTarget.toTarget
  return ⟨d.name, products, targets⟩

def decode (v : Json) : Option Description := do
  let [name, products, targets] ← v.slots ["name", "products", "targets"] | none
  return ⟨← name.required Json.asText?,
    ← products.withDefault [] (Json.decodeList DescribedProduct.decode),
    ← targets.withDefault [] (Json.decodeList DescribedTarget.decode)⟩

/-- The graph of the one package that the text describes. -/
def read (text : String) : Except Fault PackageGraph :=
  match (Json.parse? text).bind decode with
  | none => .error (.serialization Json.refusal)
  | some d => do return ⟨[← d.toPackage]⟩

end Description

end Breakage
