import Breakage.Package

/-!
Packages as JSON. The kind of a product is an object with a tag and, for a library, its linkage;
or a list of the two.
-/

namespace Breakage

open Json (Codec)

def Linkage.codec : Codec Linkage := .choice
  [("automatic", .automatic), ("static", .static), ("dynamic", .dynamic)]

def TargetKind.codec : Codec TargetKind := .choice
  [("library", .library), ("executable", .executable), ("test", .test), ("plugin", .plugin),
   ("macro", .macroKind), ("system", .system), ("binary", .binary), ("snippet", .snippet)]

def Language.codec : Codec Language := .choice
  [("swift", .swift), ("clang", .clang), ("other", .other)]

namespace ProductKind

def plainTags : List (String × ProductKind) :=
  [("executable", .executable), ("plugin", .plugin), ("snippet", .snippet), ("test", .test),
   ("macro", .macroKind)]

def libraryTag : String := "library"

/-- A linkage that stood before the tag and was kept until the tag was known. -/
def decodeKeptLinkage (v : Json) : Option Linkage :=
  match v with
  | .object [(k, .object [])] => Linkage.codec.decode (.object [(k, .null)])
  | v => Linkage.codec.decode v

def ofTag (tag : String) (linkage : Option Json) (read : Json → Option Linkage) : Option ProductKind :=
  if tag = libraryTag then do
    let v ← linkage
    return .library (← read v)
  else do
    let kind ← plainTags.find? fun k => k.1 == tag
    match linkage with
    | none => return kind.2
    | some v => if v.isNull then return kind.2 else none

def linkageFirst : List (Json.Text × Json) → Bool
  | [] => false
  | (k, _) :: rest =>
    if k == .plain "linkage" then true else if k == .plain "kind" then false else linkageFirst rest

/-- The kind inside `outer` open arrays and objects, which matters for a linkage before its tag. -/
def decode (outer : Nat) : Json → Option ProductKind
  | .object members => do
    if members.any fun m => m.1 == .unpaired then none
    let tag ← (← Json.single members "kind").required Json.choiceName?
    let linkage ← match ← Json.single members "linkage" with
      | .given v => pure (some v)
      | _ => pure none
    if linkageFirst members then
      if linkage.all (Json.isKeepable (outer + 1)) then ofTag tag linkage decodeKeptLinkage else none
    else ofTag tag linkage Linkage.codec.decode
  | .array [tag, linkage] => do ofTag (← tag.asText?) (some linkage) Linkage.codec.decode
  | _ => none

def tag (k : ProductKind) : String :=
  match k with
  | .library _ => libraryTag
  | k => ((plainTags.find? fun t => decide (t.2 = k)).map Prod.fst).getD ""

def encode (k : ProductKind) : Json :=
  match k with
  | .library linkage =>
    .record [("kind", .text k.tag), ("linkage", Linkage.codec.encode linkage)]
  | _ => .record [("kind", .text k.tag)]

def codec (outer : Nat) : Codec ProductKind := ⟨encode, decode outer⟩

end ProductKind

def Target.codec : Codec Target where
  encode t := .record
    [("name", .text t.name), ("module", ModuleName.codec.encode t.module),
     ("kind", TargetKind.codec.encode t.kind), ("language", Language.codec.encode t.language)]
  decode v := do
    let [name, module, kind, language] ← v.slots ["name", "module", "kind", "language"] | none
    return ⟨← name.required Json.asText?, ← module.required ModuleName.codec.decode,
      ← kind.required TargetKind.codec.decode, ← language.required Language.codec.decode⟩

def Product.codec (outer : Nat) : Codec Product where
  encode p := .record
    [("name", .text p.name), ("kind", p.kind.encode), ("targets", .ofList .text p.targets)]
  decode v := do
    let [name, kind, targets] ← v.slots ["name", "kind", "targets"] | none
    return ⟨← name.required Json.asText?, ← kind.required (ProductKind.decode (outer + 1)),
      ← targets.required (Json.decodeList Json.asText?)⟩

def Package.codec (outer : Nat) : Codec Package where
  encode p := .record
    [("name", .text p.name), ("products", .ofList (Product.codec 0).encode p.products),
     ("targets", .ofList Target.codec.encode p.targets)]
  decode v := do
    let [name, products, targets] ← v.slots ["name", "products", "targets"] | none
    return ⟨← name.required Json.asText?,
      ← products.required (Json.decodeList (Product.codec (outer + 2)).decode),
      ← targets.required (Json.decodeList Target.codec.decode)⟩

def PackageGraph.codec : Codec PackageGraph where
  encode g := .record [("root_packages", .ofList (Package.codec 0).encode g.packages)]
  decode v := do
    let [packages] ← v.slots ["root_packages"] | none
    return ⟨← packages.required (Json.decodeList (Package.codec 2).decode)⟩

end Breakage
