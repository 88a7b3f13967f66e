import Breakage.Journal
import Breakage.Outcome.Summary
import Breakage.Package.Codec
import Breakage.Proofs.Instant
import Breakage.Proofs.Json.Codec
import Breakage.Run.Options

/-!
The values of the library in JSON. Each of them is read back as it was written, where its line numbers
are words and its instants have a year of four digits. Main statement: `serialized_roundTrips`.
-/

namespace Breakage

open Json
open Json.Codec (choice_restored decode_of_slots hasTokens_choice)

/-! ### Choices -/

theorem Severity.restored : Severity.codec.IsFaithful :=
  choice_restored (by decide) fun a => by cases a <;> decide

theorem Level.restored : Level.codec.IsFaithful :=
  choice_restored (by decide) fun a => by cases a <;> decide

theorem Linkage.restored : Linkage.codec.IsFaithful :=
  choice_restored (by decide) fun a => by cases a <;> decide

theorem TargetKind.restored : TargetKind.codec.IsFaithful :=
  choice_restored (by decide) fun a => by cases a <;> decide

theorem Language.restored : Language.codec.IsFaithful :=
  choice_restored (by decide) fun a => by cases a <;> decide

theorem SkipReason.restored : SkipReason.codec.IsFaithful :=
  choice_restored (by decide) fun a => by cases a <;> decide

theorem ModuleStatus.restored : ModuleStatus.codec.IsFaithful :=
  choice_restored (by decide) fun a => by cases a <;> decide

/-! ### Diagnostics -/

namespace Location

def Fits (l : Location) : Prop := ∀ n, l.line = some n → n < 4294967296

theorem restores : codec.Restores Fits where
  restored l fits := by
    have hslots : (codec.encode l).slots ["file", "line"] =
      some [.given (Path.codec.encode l.file), .given (.ofOption .ofNat l.line)] := rfl
    have hline : (Slot.given (.ofOption .ofNat l.line)).nullable Codec.word.decode = some l.line :=
      Slot.nullable_ofOption (fun n hn => Codec.word_restored (fits n hn)) fun _ => rfl
    refine decode_of_slots hslots ?_
    simp only [Option.bind_eq_bind, Option.bind_some, hline]
    rfl
  tokens l _ := by simp [codec, Path.codec]

theorem fits_of_decode {v : Json} {l : Location} (h : codec.decode v = some l) : l.Fits := by
  simp only [codec, Option.bind_eq_bind] at h
  obtain ⟨slots, -, h⟩ := Option.bind_eq_some_iff.1 h
  split at h
  · obtain ⟨file, -, h⟩ := Option.bind_eq_some_iff.1 h
    obtain ⟨line, hline, h⟩ := Option.bind_eq_some_iff.1 h
    cases h
    rintro n rfl
    obtain ⟨v, hv⟩ := Slot.exists_of_nullable hline
    exact Codec.lt_of_word hv
  · cases h

theorem nullable_restored {place : Option Location} (fits : ∀ l, place = some l → l.Fits) :
    (Slot.given (.ofOption codec.encode place)).nullable codec.decode = some place :=
  Slot.nullable_ofOption (fun l hl => restores.restored l (fits l hl)) fun _ => rfl

theorem fits_of_nullable {slot : Slot} {place : Option Location}
    (h : slot.nullable codec.decode = some place) : ∀ l, place = some l → l.Fits := by
  rintro l rfl
  obtain ⟨v, hv⟩ := Slot.exists_of_nullable h
  exact fits_of_decode hv

end Location

namespace Diagnostic

def Fits (d : Diagnostic) : Prop := ∀ l, d.location = some l → l.Fits

theorem restores : codec.Restores Fits where
  restored d fits := by
    have hslots : (codec.encode d).slots ["severity", "message", "location"] =
      some [.given (Severity.codec.encode d.severity), .given (.text d.message),
        .given (.ofOption Location.codec.encode d.location)] := rfl
    have hseverity : (Slot.given (Severity.codec.encode d.severity)).required Severity.codec.decode =
      some d.severity := Severity.restored d.severity
    have hlocation : (Slot.given (.ofOption Location.codec.encode d.location)).nullable
        Location.codec.decode = some d.location := Location.nullable_restored fits
    refine decode_of_slots hslots ?_
    simp only [Option.bind_eq_bind, Option.bind_some, hseverity, hlocation]
    rfl
  tokens d fits := by
    have hlocation := fun l hl => Location.restores.tokens l (fits l hl)
    simpa [codec, Severity.codec] using hlocation

theorem fits_of_decode {v : Json} {d : Diagnostic} (h : codec.decode v = some d) : d.Fits := by
  simp only [codec, Option.bind_eq_bind] at h
  obtain ⟨slots, -, h⟩ := Option.bind_eq_some_iff.1 h
  split at h
  · obtain ⟨severity, -, h⟩ := Option.bind_eq_some_iff.1 h
    obtain ⟨message, -, h⟩ := Option.bind_eq_some_iff.1 h
    obtain ⟨location, hlocation, h⟩ := Option.bind_eq_some_iff.1 h
    cases h
    exact Location.fits_of_nullable hlocation
  · cases h

end Diagnostic

namespace Comparison

def Fits (c : Comparison) : Prop := ∀ d ∈ c.breakingChanges ++ c.otherDiagnostics, d.Fits

theorem restores : codec.Restores Fits where
  restored c fits := by
    have hslots : (codec.encode c).slots ["module", "breaking_changes", "other_diagnostics"] =
      some [.given (ModuleName.codec.encode c.module),
        .given (.ofList Diagnostic.codec.encode c.breakingChanges),
        .given (.ofList Diagnostic.codec.encode c.otherDiagnostics)] := rfl
    have hlist (ds : List Diagnostic) (sub : ∀ d ∈ ds, d ∈ c.breakingChanges ++ c.otherDiagnostics) :
        (Slot.given (.ofList Diagnostic.codec.encode ds)).required
          (decodeList Diagnostic.codec.decode) = some ds :=
      decodeList_ofList fun d hd => Diagnostic.restores.restored d (fits d (sub d hd))
    refine decode_of_slots hslots ?_
    simp only [Option.bind_eq_bind, Option.bind_some,
      hlist c.breakingChanges fun _ => List.mem_append_left _,
      hlist c.otherDiagnostics fun _ => List.mem_append_right _]
    rfl
  tokens c fits := by
    have hdiagnostic := fun d hd => Diagnostic.restores.tokens d (fits d hd)
    simpa [codec, ModuleName.codec, or_imp, forall_and] using hdiagnostic

theorem fits_of_decode {v : Json} {c : Comparison} (h : codec.decode v = some c) : c.Fits := by
  simp only [codec, Option.bind_eq_bind] at h
  obtain ⟨slots, -, h⟩ := Option.bind_eq_some_iff.1 h
  split at h
  · obtain ⟨module, -, h⟩ := Option.bind_eq_some_iff.1 h
    obtain ⟨breaking, hbreaking, h⟩ := Option.bind_eq_some_iff.1 h
    obtain ⟨other, hother, h⟩ := Option.bind_eq_some_iff.1 h
    cases h
    intro d hd
    obtain ⟨v, hv⟩ : ∃ v, Diagnostic.codec.decode v = some d := by
      rcases List.mem_append.1 hd with hd | hd
      · obtain ⟨list, hlist⟩ := Slot.exists_of_required hbreaking
        exact exists_of_mem_decodeList hlist hd
      · obtain ⟨list, hlist⟩ := Slot.exists_of_required hother
        exact exists_of_mem_decodeList hlist hd
    exact Diagnostic.fits_of_decode hv
  · cases h

end Comparison

namespace Event

def Fits (e : Event) : Prop := ∀ l, e.location = some l → l.Fits

theorem restores : codec.Restores Fits where
  restored e fits := by
    have hslots : (codec.encode e).slots ["level", "message", "location"] =
      some [.given (Level.codec.encode e.level), .given (.text e.message),
        .given (.ofOption Location.codec.encode e.location)] := rfl
    have hlevel : (Slot.given (Level.codec.encode e.level)).required Level.codec.decode =
      some e.level := Level.restored e.level
    have hlocation : (Slot.given (.ofOption Location.codec.encode e.location)).nullable
        Location.codec.decode = some e.location := Location.nullable_restored fits
    refine decode_of_slots hslots ?_
    simp only [Option.bind_eq_bind, Option.bind_some, hlevel, hlocation]
    rfl
  tokens e fits := by
    have hlocation := fun l hl => Location.restores.tokens l (fits l hl)
    simpa [codec, Level.codec] using hlocation

theorem fits_of_decode {v : Json} {e : Event} (h : codec.decode v = some e) : e.Fits := by
  simp only [codec, Option.bind_eq_bind] at h
  obtain ⟨slots, -, h⟩ := Option.bind_eq_some_iff.1 h
  split at h
  · obtain ⟨level, -, h⟩ := Option.bind_eq_some_iff.1 h
    obtain ⟨message, -, h⟩ := Option.bind_eq_some_iff.1 h
    obtain ⟨location, hlocation, h⟩ := Option.bind_eq_some_iff.1 h
    cases h
    exact Location.fits_of_nullable hlocation
  · cases h

end Event

/-! ### Packages -/

theorem Target.restores : Target.codec.Restores fun _ => True where
  restored t _ := by
    have hslots : (codec.encode t).slots ["name", "module", "kind", "language"] =
      some [.given (.text t.name), .given (ModuleName.codec.encode t.module),
        .given (TargetKind.codec.encode t.kind), .given (Language.codec.encode t.language)] := rfl
    have hkind : (Slot.given (TargetKind.codec.encode t.kind)).required TargetKind.codec.decode =
      some t.kind := TargetKind.restored t.kind
    have hlanguage : (Slot.given (Language.codec.encode t.language)).required Language.codec.decode =
      some t.language := Language.restored t.language
    refine decode_of_slots hslots ?_
    simp only [Option.bind_eq_bind, Option.bind_some, hkind, hlanguage]
    rfl
  tokens t _ := by simp [codec, ModuleName.codec, TargetKind.codec, Language.codec]

theorem ProductKind.restores (outer : Nat) : (ProductKind.codec outer).Restores fun _ => True where
  restored k _ := by
    -- the tag is written before the linkage, so that the linkage is read at once
    cases k with
    | library linkage => cases linkage <;> rfl
    | executable | plugin | snippet | test | macroKind => rfl
  tokens k _ := by
    cases k <;> simp [codec, encode, Linkage.codec]

theorem Product.restores (outer : Nat) : (Product.codec outer).Restores fun _ => True where
  restored p _ := by
    have hslots : ((codec outer).encode p).slots ["name", "kind", "targets"] =
      some [.given (.text p.name), .given p.kind.encode, .given (.ofList .text p.targets)] := rfl
    have hkind : (Slot.given p.kind.encode).required (ProductKind.decode (outer + 1)) = some p.kind :=
      (ProductKind.restores (outer + 1)).restored p.kind trivial
    have htargets : (Slot.given (.ofList .text p.targets)).required (decodeList asText?) =
      some p.targets := decodeList_text p.targets
    refine decode_of_slots hslots ?_
    simp only [Option.bind_eq_bind, Option.bind_some, hkind, htargets]
    rfl
  tokens p _ := by
    have hkind := (ProductKind.restores outer).tokens p.kind trivial
    simpa [codec, ProductKind.codec] using hkind

theorem Package.restores (outer : Nat) : (Package.codec outer).Restores fun _ => True where
  restored p _ := by
    have hslots : ((codec outer).encode p).slots ["name", "products", "targets"] =
      some [.given (.text p.name), .given (.ofList (Product.codec 0).encode p.products),
        .given (.ofList Target.codec.encode p.targets)] := rfl
    have hproducts : (Slot.given (.ofList (Product.codec 0).encode p.products)).required
        (decodeList (Product.codec (outer + 2)).decode) = some p.products :=
      decodeList_ofList fun product _ => (Product.restores (outer + 2)).restored product trivial
    have htargets : (Slot.given (.ofList Target.codec.encode p.targets)).required
        (decodeList Target.codec.decode) = some p.targets :=
      decodeList_ofList fun t _ => Target.restores.restored t trivial
    refine decode_of_slots hslots ?_
    simp only [Option.bind_eq_bind, Option.bind_some, hproducts, htargets]
    rfl
  tokens p _ := by
    have hproduct := fun product (_ : product ∈ p.products) => (Product.restores 0).tokens product trivial
    have htarget := fun t (_ : t ∈ p.targets) => Target.restores.tokens t trivial
    simpa [codec] using ⟨hproduct, htarget⟩

theorem PackageGraph.restores : PackageGraph.codec.Restores fun _ => True where
  restored g _ := by
    have hslots : (codec.encode g).slots ["root_packages"] =
      some [.given (.ofList (Package.codec 0).encode g.packages)] := rfl
    have hpackages : (Slot.given (.ofList (Package.codec 0).encode g.packages)).required
        (decodeList (Package.codec 2).decode) = some g.packages :=
      decodeList_ofList fun p _ => (Package.restores 2).restored p trivial
    refine decode_of_slots hslots ?_
    simp only [Option.bind_eq_bind, Option.bind_some, hpackages]
    rfl
  tokens g _ := by
    have hpackage := fun p (_ : p ∈ g.packages) => (Package.restores 0).tokens p trivial
    simpa [codec] using hpackage

/-! ### Runs -/

theorem RunOptions.restores : RunOptions.codec.Restores fun _ => True where
  restored o _ := by
    have hslots : (codec.encode o).slots
        ["treeish", "products", "targets", "baseline_dir", "allowlist_path", "regenerate_baseline"] =
      some [.given (.text o.treeish), .given (.ofList .text o.products),
        .given (.ofList .text o.targets), .given (.ofOption Path.codec.encode o.baselineDirectory),
        .given (.ofOption Path.codec.encode o.allowlist), .given (.bool o.regenerate)] := rfl
    have hnames (names : List String) :
        (Slot.given (.ofList .text names)).required (decodeList asText?) = some names :=
      decodeList_text names
    have hpath (path : Option Path) : (Slot.given (.ofOption Path.codec.encode path)).nullable
        Path.codec.decode = some path :=
      Slot.nullable_ofOption (fun _ _ => rfl) fun _ => rfl
    refine decode_of_slots hslots ?_
    simp only [Option.bind_eq_bind, Option.bind_some, hnames, hpath]
    rfl
  tokens o _ := by simp [codec, Path.codec]

theorem Verdict.restores : Verdict.codec.Restores fun _ => True where
  restored v _ := by
    have hslots : (codec.encode v).slots ["passed", "violations", "message"] =
      some [.given (.bool v.passed), .given (.ofList .text v.violations), .given (.text v.message)] :=
      rfl
    have hviolations : (Slot.given (.ofList .text v.violations)).required (decodeList asText?) =
      some v.violations := decodeList_text v.violations
    refine decode_of_slots hslots ?_
    simp only [Option.bind_eq_bind, Option.bind_some, hviolations]
    rfl
  tokens v _ := by simp [codec]

theorem ModuleEntry.restores : ModuleEntry.codec.Restores fun _ => True where
  restored e _ := by
    have hslots : (codec.encode e).slots
        ["module", "status", "skip_reason", "error", "breaking_changes"] =
      some [.given (.text e.module), .given (ModuleStatus.codec.encode e.status),
        e.skipReason.elim .missing fun r => .given (SkipReason.codec.encode r),
        e.error.elim .missing fun t => .given (.text t),
        .given (.ofList .text e.breakingChanges)] := by
      obtain ⟨module, status, skipReason, error, breakingChanges⟩ := e
      cases skipReason <;> cases error <;> rfl
    have hstatus : (Slot.given (ModuleStatus.codec.encode e.status)).required
        ModuleStatus.codec.decode = some e.status := ModuleStatus.restored e.status
    have hreason : (e.skipReason.elim Slot.missing fun r =>
        .given (SkipReason.codec.encode r)).optional SkipReason.codec.decode = some e.skipReason :=
      Slot.optional_elim (fun r _ => SkipReason.restored r) fun r => by cases r <;> rfl
    have herror : (e.error.elim Slot.missing fun t => .given (.text t)).optional asText? =
      some e.error := Slot.optional_elim (fun _ _ => rfl) fun _ => rfl
    have hchanges : (Slot.given (.ofList .text e.breakingChanges)).withDefault []
        (decodeList asText?) = some e.breakingChanges := decodeList_text e.breakingChanges
    refine decode_of_slots hslots ?_
    simp only [Option.bind_eq_bind, Option.bind_some, hstatus, hreason, herror, hchanges]
    rfl
  tokens e _ := by
    obtain ⟨module, status, skipReason, error, breakingChanges⟩ := e
    cases skipReason <;> cases error <;> simp [codec, ModuleStatus.codec, SkipReason.codec]

theorem Instant.restored {t : Instant} (plain : t.IsPlain) :
    Instant.codec.decode (Instant.codec.encode t) = some t := by
  have htext : (Instant.codec.encode t).asText? = some t.render := rfl
  rw [← parse?_render plain]
  simp only [codec] at htext ⊢
  rw [htext, Option.bind_some]

theorem Summary.restores : Summary.codec.Restores fun s => s.generatedAt.IsPlain where
  restored s plain := by
    have hslots : (codec.encode s).slots ["schema_version", "generated_at", "baseline_treeish",
        "baseline_revision", "modules", "verdict"] =
      some [.given (.text s.schemaVersion), .given (Instant.codec.encode s.generatedAt),
        .given (.text s.treeish), .given (.text s.revision),
        .given (.ofList ModuleEntry.codec.encode s.modules),
        .given (Verdict.codec.encode s.verdict)] := rfl
    have hinstant : (Slot.given (Instant.codec.encode s.generatedAt)).required Instant.codec.decode =
      some s.generatedAt := Instant.restored plain
    have hmodules : (Slot.given (.ofList ModuleEntry.codec.encode s.modules)).required
        (decodeList ModuleEntry.codec.decode) = some s.modules :=
      decodeList_ofList fun e _ => ModuleEntry.restores.restored e trivial
    have hverdict : (Slot.given (Verdict.codec.encode s.verdict)).required Verdict.codec.decode =
      some s.verdict := Verdict.restores.restored s.verdict trivial
    refine decode_of_slots hslots ?_
    simp only [Option.bind_eq_bind, Option.bind_some, hinstant, hmodules, hverdict]
    rfl
  tokens s _ := by
    have hmodule := fun e (_ : e ∈ s.modules) => ModuleEntry.restores.tokens e trivial
    have hverdict := Verdict.restores.tokens s.verdict trivial
    simpa [codec, Instant.codec] using ⟨hmodule, hverdict⟩

/-- What the library writes of a value is read as the value, whether on one line or indented, and a
text that is read as a value may be replaced by what is written of it. The condition on line numbers
holds of all that is read; instants have to have a year of four digits and not to be leap seconds. -/
theorem serialized_roundTrips :
    (Location.codec.RoundTrips Location.Fits ∧ Diagnostic.codec.RoundTrips Diagnostic.Fits ∧
      Comparison.codec.RoundTrips Comparison.Fits ∧ Event.codec.RoundTrips Event.Fits) ∧
    ((∀ text l, Location.codec.read? text = some l → l.Fits) ∧
      (∀ text d, Diagnostic.codec.read? text = some d → d.Fits) ∧
      (∀ text c, Comparison.codec.read? text = some c → c.Fits) ∧
      ∀ text e, Event.codec.read? text = some e → e.Fits) ∧
    (Target.codec.RoundTrips (fun _ => True) ∧
      (∀ outer, (ProductKind.codec outer).RoundTrips fun _ => True) ∧
      (∀ outer, (Product.codec outer).RoundTrips fun _ => True) ∧
      (∀ outer, (Package.codec outer).RoundTrips fun _ => True) ∧
      PackageGraph.codec.RoundTrips fun _ => True) ∧
    (RunOptions.codec.RoundTrips (fun _ => True) ∧ Verdict.codec.RoundTrips (fun _ => True) ∧
      ModuleEntry.codec.RoundTrips fun _ => True) ∧
    Summary.codec.RoundTrips (fun s => s.generatedAt.IsPlain) ∧
    ∀ s : Summary, s.generatedAt.IsPlain → Summary.codec.read? s.text = some s := by
  have hread {α : Type} {c : Codec α} {text : String} {a : α} (h : c.read? text = some a) :
      ∃ v, c.decode v = some a := by
    obtain ⟨v, -, hv⟩ := Option.bind_eq_some_iff.1 h
    exact ⟨v, hv⟩
  refine ⟨⟨Location.restores.roundTrips, Diagnostic.restores.roundTrips,
    Comparison.restores.roundTrips, Event.restores.roundTrips⟩, ⟨?_, ?_, ?_, ?_⟩,
    ⟨Target.restores.roundTrips, fun outer => (ProductKind.restores outer).roundTrips,
      fun outer => (Product.restores outer).roundTrips,
      fun outer => (Package.restores outer).roundTrips, PackageGraph.restores.roundTrips⟩,
    ⟨RunOptions.restores.roundTrips, Verdict.restores.roundTrips, ModuleEntry.restores.roundTrips⟩,
    Summary.restores.roundTrips, Summary.restores.roundTrips.indented⟩
  · intro text l h
    obtain ⟨v, hv⟩ := hread h
    exact Location.fits_of_decode hv
  · intro text d h
    obtain ⟨v, hv⟩ := hread h
    exact Diagnostic.fits_of_decode hv
  · intro text c h
    obtain ⟨v, hv⟩ := hread h
    exact Comparison.fits_of_decode hv
  · intro text e h
    obtain ⟨v, hv⟩ := hread h
    exact Event.fits_of_decode hv

end Breakage
