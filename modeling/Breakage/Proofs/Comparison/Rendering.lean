import Breakage.Proofs.Comparison.Printed
import Breakage.Proofs.Json.Codec
import Breakage.Proofs.Json.Fields
import Breakage.Proofs.Json.Reading

/-!
The reports that a digester may print, as texts: a record may stand there in any of its forms, with
gaps, blanks around it and members that nobody knows. Such a report is read entry by entry, and one
entry that is none spoils it as a whole (`Comparison.read_eq_iff`).
-/

namespace Breakage

open Json (HasFields IsChoice IsLong IsText Slot)

namespace Severity

def name : Severity → String
  | error => "error"
  | fatal => "fatal"
  | warning => "warning"
  | note => "note"
  | remark => "remark"
  | ignored => "ignored"

def Printed (s : Severity) (v : Json) : Prop := IsChoice s.name v

theorem decode_eq_some_iff (s : Severity) (v : Json) : codec.decode v = some s ↔ Printed s v := by
  have hfind (name : String) : (([("error", error), ("fatal", fatal), ("warning", warning),
      ("note", note), ("remark", remark), ("ignored", ignored)].find? fun n => n.1 == name).map
        Prod.snd) = some s ↔ name = s.name := by
    constructor
    · intro h
      obtain ⟨n, hn, rfl⟩ := Option.map_eq_some_iff.1 h
      have hname : n.1 = name := by simpa using List.find?_some hn
      have hmem := List.mem_of_find?_eq_some hn
      simp only [List.mem_cons, List.not_mem_nil, or_false] at hmem
      rcases hmem with rfl | rfl | rfl | rfl | rfl | rfl <;> exact hname.symm
    · rintro rfl
      cases s <;> decide
  unfold codec Json.Codec.choice Printed
  simp only [Option.bind_eq_bind, Option.pure_def, Option.bind_eq_some_iff]
  constructor
  · rintro ⟨name, hname, n, hn, hs⟩
    rw [← (hfind name).1 (by rw [hn]; exact hs)]
    exact (Json.choiceName?_eq_some_iff _ v).1 hname
  · intro h
    obtain ⟨n, hn, hs⟩ := Option.map_eq_some_iff.1 ((hfind s.name).2 rfl)
    exact ⟨s.name, (Json.choiceName?_eq_some_iff _ v).2 h, n, hn, congrArg some hs⟩

end Severity

namespace Comparison

def NoText (v : Json) : Prop := ∀ s, v ≠ .text s

def NoSeverity (v : Json) : Prop := ∀ s : Severity, ¬s.Printed v

inductive NoLine : Json → Prop where
  | noNumber {v : Json} (h : ∀ t, v ≠ .number t) : NoLine v
  | noInteger {t : Json.Number} (h : t.toInt? = none) : NoLine (.number t)
  | outOfRange {t : Json.Number} {n : Int} (h : t.toInt? = some n)
    (out : n < -9223372036854775808 ∨ 9223372036854775807 < n) : NoLine (.number t)

theorem isText_or_noText (v : Json) : (∃ s, IsText s v) ∨ NoText v := exists_or_forall_not _

theorem severity_or_noSeverity (v : Json) : (∃ s : Severity, s.Printed v) ∨ NoSeverity v :=
  exists_or_forall_not _

theorem isLong_or_noLine (v : Json) : (∃ n, IsLong n v) ∨ NoLine v := by
  cases v with
  | number t =>
    cases ht : t.toInt? with
    | none => exact .inr (.noInteger ht)
    | some n =>
      by_cases hrange : -9223372036854775808 ≤ n ∧ n ≤ 9223372036854775807
      · exact .inl ⟨n, hrange, t, rfl, ht⟩
      · exact .inr (.outOfRange ht (by omega))
  | null | bool | string | array | object => exact .inr (.noNumber nofun)

theorem NoLine.not_isLong (v : Json) (n : Int) (h : NoLine v) : ¬IsLong n v := by
  rintro ⟨hrange, t, rfl, ht⟩
  cases h with
  | noNumber h => exact h t rfl
  | noInteger h => cases h.symm.trans ht
  | outOfRange h out =>
    cases h.symm.trans ht
    omega

theorem optional_text_iff {s : Slot} {o : Option String} :
    s.optional Json.asText? = some o ↔ s.MayHold IsText o :=
  Slot.optional_eq_some_iff Json.asText?_eq_some_iff nofun

theorem optional_long_iff {s : Slot} {o : Option Int} :
    s.optional Json.decodeLong = some o ↔ s.MayHold IsLong o :=
  Slot.optional_eq_some_iff Json.decodeLong_eq_some_iff fun _ ⟨_, _, h, _⟩ => nomatch h

/-! ### Places -/

namespace Origin

inductive Printed (o : Origin) (v : Json) : Prop where
  | intro {file line : Slot} (fields : HasFields ["file", "line"] [file, line] v)
    (ofFile : file.Holds IsText o.file) (ofLine : line.MayHold IsLong o.line)

inductive Faulty : Json → Prop where
  | shape {v : Json} (h : ∀ slots, ¬HasFields ["file", "line"] slots v) : Faulty v
  | file {v : Json} {file line : Slot} (fields : HasFields ["file", "line"] [file, line] v)
    (h : file.Lacks NoText) : Faulty v
  | line {v : Json} {file line : Slot} (fields : HasFields ["file", "line"] [file, line] v)
    (h : line.Spoils NoLine) : Faulty v

theorem nodup_fields : ["file", "line"].Nodup := by decide

theorem decode_eq_some_iff (o : Origin) (v : Json) : decode v = some o ↔ Printed o v := by
  unfold decode
  constructor
  · intro h
    obtain ⟨slots, hslots, h⟩ := Option.bind_eq_some_iff.1 h
    split at h
    · simp only [Option.bind_eq_bind, Option.bind_eq_some_iff, Option.pure_def, Option.some.injEq] at h
      obtain ⟨file, hfile, line, hline, rfl⟩ := h
      exact ⟨(Json.slots_eq_some_iff nodup_fields).1 hslots,
        (Slot.required_eq_some_iff Json.asText?_eq_some_iff).1 hfile, optional_long_iff.1 hline⟩
    · cases h
  · rintro ⟨fields, ofFile, ofLine⟩
    rw [(Json.slots_eq_some_iff nodup_fields).2 fields]
    simp only [Option.bind_eq_bind, Option.bind_some, optional_long_iff.2 ofLine,
      (Slot.required_eq_some_iff Json.asText?_eq_some_iff).2 ofFile, Option.pure_def]

theorem printed_or_faulty (v : Json) : (∃ o : Origin, o.Printed v) ∨ Faulty v := by
  by_cases h : ∃ slots, HasFields ["file", "line"] slots v
  · obtain ⟨slots, fields⟩ := h
    obtain ⟨file, line, rfl⟩ := List.length_eq_two.1 fields.length_eq
    rcases Slot.holds_or_lacks isText_or_noText file with ⟨name, hname⟩ | hfile
    · rcases Slot.mayHold_or_spoils isLong_or_noLine line with ⟨n, hn⟩ | hline
      · exact .inl ⟨⟨name, n⟩, fields, hname, hn⟩
      · exact .inr (.line fields hline)
    · exact .inr (.file fields hfile)
  · exact .inr (.shape fun slots fields => h ⟨slots, fields⟩)

theorem Faulty.not_printed (v : Json) (o : Origin) (h : Faulty v) : ¬o.Printed v := by
  rintro ⟨fields', ofFile, ofLine⟩
  cases h with
  | shape h => exact h _ fields'
  | file fields h =>
    cases fields.unique nodup_fields fields'
    exact h.not_holds (fun _ s hno => hno s) ofFile
  | line fields h =>
    cases fields.unique nodup_fields fields'
    exact h.not_mayHold NoLine.not_isLong ofLine

end Origin

/-! ### Entries -/

namespace Entry

def fieldNames : List String := ["severity", "message", "category", "location"]

inductive Printed (e : Entry) (v : Json) : Prop where
  | intro {severity message category location : Slot}
    (fields : HasFields fieldNames [severity, message, category, location] v)
    (ofSeverity : severity.Holds Severity.Printed e.severity)
    (ofMessage : message.Holds IsText e.message)
    (ofCategory : category.MayHold IsText e.category)
    (ofLocation : location.MayHold Origin.Printed e.origin)

inductive Faulty : Json → Prop where
  | shape {v : Json} (h : ∀ slots, ¬HasFields fieldNames slots v) : Faulty v
  | severity {v : Json} {severity message category location : Slot}
    (fields : HasFields fieldNames [severity, message, category, location] v)
    (h : severity.Lacks NoSeverity) : Faulty v
  | message {v : Json} {severity message category location : Slot}
    (fields : HasFields fieldNames [severity, message, category, location] v)
    (h : message.Lacks NoText) : Faulty v
  | category {v : Json} {severity message category location : Slot}
    (fields : HasFields fieldNames [severity, message, category, location] v)
    (h : category.Spoils NoText) : Faulty v
  | location {v : Json} {severity message category location : Slot}
    (fields : HasFields fieldNames [severity, message, category, location] v)
    (h : location.Spoils Origin.Faulty) : Faulty v

theorem nodup_fields : fieldNames.Nodup := by decide

theorem optional_location_iff {s : Slot} {o : Option Origin} :
    s.optional Origin.decode = some o ↔ s.MayHold Origin.Printed o :=
  Slot.optional_eq_some_iff Origin.decode_eq_some_iff fun _ ⟨fields, _, _⟩ => nomatch fields

theorem decode_eq_some_iff (e : Entry) (v : Json) : decode v = some e ↔ Printed e v := by
  unfold decode
  constructor
  · intro h
    obtain ⟨slots, hslots, h⟩ := Option.bind_eq_some_iff.1 h
    split at h
    · simp only [Option.bind_eq_bind, Option.bind_eq_some_iff, Option.pure_def, Option.some.injEq] at h
      obtain ⟨severity, hseverity, message, hmessage, category, hcategory, location, hlocation, rfl⟩ := h
      exact ⟨(Json.slots_eq_some_iff nodup_fields).1 hslots,
        (Slot.required_eq_some_iff Severity.decode_eq_some_iff).1 hseverity,
        (Slot.required_eq_some_iff Json.asText?_eq_some_iff).1 hmessage,
        optional_text_iff.1 hcategory, optional_location_iff.1 hlocation⟩
    · cases h
  · rintro ⟨fields, ofSeverity, ofMessage, ofCategory, ofLocation⟩
    have hslots := (Json.slots_eq_some_iff nodup_fields).2 fields
    unfold fieldNames at hslots
    rw [hslots]
    simp only [Option.bind_eq_bind, Option.bind_some,
      (Slot.required_eq_some_iff Severity.decode_eq_some_iff).2 ofSeverity,
      (Slot.required_eq_some_iff Json.asText?_eq_some_iff).2 ofMessage,
      optional_text_iff.2 ofCategory, optional_location_iff.2 ofLocation, Option.pure_def]

theorem printed_or_faulty (v : Json) : (∃ e : Entry, e.Printed v) ∨ Faulty v := by
  by_cases h : ∃ slots, HasFields fieldNames slots v
  · obtain ⟨slots, fields⟩ := h
    obtain ⟨severity, message, category, location, rfl⟩ := List.length_eq_four.1 fields.length_eq
    rcases Slot.holds_or_lacks severity_or_noSeverity severity with ⟨s, hs⟩ | hseverity
    · rcases Slot.holds_or_lacks isText_or_noText message with ⟨text, htext⟩ | hmessage
      · rcases Slot.mayHold_or_spoils isText_or_noText category with ⟨kind, hkind⟩ | hcategory
        · rcases Slot.mayHold_or_spoils Origin.printed_or_faulty location with ⟨o, ho⟩ | hlocation
          · exact .inl ⟨⟨s, text, kind, o⟩, fields, hs, htext, hkind, ho⟩
          · exact .inr (.location fields hlocation)
        · exact .inr (.category fields hcategory)
      · exact .inr (.message fields hmessage)
    · exact .inr (.severity fields hseverity)
  · exact .inr (.shape fun slots fields => h ⟨slots, fields⟩)

theorem Faulty.not_printed {v : Json} {e : Entry} (h : Faulty v) : ¬e.Printed v := by
  rintro ⟨fields', ofSeverity, ofMessage, ofCategory, ofLocation⟩
  cases h with
  | shape h => exact h _ fields'
  | severity fields h =>
    cases fields.unique nodup_fields fields'
    exact h.not_holds (fun _ s hno => hno s) ofSeverity
  | message fields h =>
    cases fields.unique nodup_fields fields'
    exact h.not_holds (fun _ s hno => hno s) ofMessage
  | category fields h =>
    cases fields.unique nodup_fields fields'
    exact h.not_mayHold (fun _ s hno => hno s) ofCategory
  | location fields h =>
    cases fields.unique nodup_fields fields'
    exact h.not_mayHold Origin.Faulty.not_printed ofLocation

end Entry

/-! ### Reports -/

/-- The tree stands for a report with these entries in order; the list of them may be left out. -/
inductive Lists : List Entry → Json → Prop where
  | missing {v : Json} (fields : HasFields ["diagnostics"] [.missing] v) : Lists [] v
  | cut {v : Json} (fields : HasFields ["diagnostics"] [.cut] v) : Lists [] v
  | given {v : Json} {entries : List Entry} {items : List Json}
    (fields : HasFields ["diagnostics"] [.given (.array items)] v)
    (printed : List.Forall₂ Entry.Printed entries items) : Lists entries v

def Prints (output : String) (entries : List Entry) : Prop :=
  ∃ text v, Text.Strips output.toList text ∧ Json.Denotes text v ∧ Lists entries v

def NoReport (v : Json) : Prop :=
  ∀ slot, HasFields ["diagnostics"] [slot] v → ∃ w, slot = .given w ∧ ∀ items, w ≠ .array items

/-- The diagnostic of an entry, whose place is without a line that cannot be one. -/
def Entry.diagnostic (e : Entry) : Diagnostic := ⟨e.severity, e.message, e.origin.map Origin.location⟩

def breaking (entries : List Entry) : List Diagnostic :=
  (entries.filter fun e => e.category = some "api-breakage").map Entry.diagnostic

def others (entries : List Entry) : List Diagnostic :=
  (entries.filter fun e => e.category ≠ some "api-breakage").map Entry.diagnostic

/-- What is made of the text that a digester has printed about a module. -/
inductive Reads (m : ModuleName) (output : String) : Except String Comparison → Prop where
  | report {entries : List Entry} (prints : Prints output entries) :
    Reads m output (.ok ⟨m, breaking entries, others entries⟩)
  | faulty {text : List Char} {v item : Json} {items : List Json}
    (strips : Text.Strips output.toList text) (denotes : Json.Denotes text v)
    (fields : HasFields ["diagnostics"] [.given (.array items)] v) (mem : item ∈ items)
    (faulty : Entry.Faulty item) : Reads m output (.error unreadable)
  | noReport (h : ∀ text v, Text.Strips output.toList text → Json.Denotes text v → NoReport v) :
    Reads m output (.error unreadable)

theorem nodup_fields : ["diagnostics"].Nodup := by decide

theorem decodeEntries_eq_some_iff {v : Json} {entries : List Entry} :
    decodeEntries v = some entries ↔ Lists entries v := by
  unfold decodeEntries
  constructor
  · intro h
    obtain ⟨slots, hslots, h⟩ := Option.bind_eq_some_iff.1 h
    rw [Json.slots_eq_some_iff nodup_fields] at hslots
    split at h
    · rename_i slot
      cases slot with
      | given w =>
        obtain ⟨items, rfl, printed⟩ :=
          (Json.decodeList_eq_some_iff Entry.decode_eq_some_iff).1 h
        exact .given hslots printed
      | missing =>
        cases h
        exact .missing hslots
      | cut =>
        cases h
        exact .cut hslots
    · cases h
  · intro h
    cases h with
    | missing fields | cut fields =>
      rw [(Json.slots_eq_some_iff nodup_fields).2 fields]
      rfl
    | given fields printed =>
      rw [(Json.slots_eq_some_iff nodup_fields).2 fields]
      exact (Json.decodeList_eq_some_iff Entry.decode_eq_some_iff).2 ⟨_, rfl, printed⟩

theorem entries?_eq_some_iff {output : String} {entries : List Entry} :
    entries? output = some entries ↔ Prints output entries := by
  unfold entries? Prints
  simp only [Option.bind_eq_some_iff, Json.parse?_trim_eq_some_iff, decodeEntries_eq_some_iff]
  constructor
  · rintro ⟨v, ⟨text, strips, denotes⟩, lists⟩
    exact ⟨text, v, strips, denotes, lists⟩
  · rintro ⟨text, v, strips, denotes, lists⟩
    exact ⟨v, ⟨text, strips, denotes⟩, lists⟩

theorem entries?_compact {v : Json} (tokens : v.HasTokens) :
    entries? v.compact = decodeEntries v := by
  have denotes := (Json.spells_render tokens).denotes
  have hparse : Json.parse? (Text.trim v.compact) = some v := by
    rw [Json.parse?_trim_eq_some_iff, Json.compact, String.toList_ofList]
    exact ⟨_, Text.trimChars_eq_iff.1 (Text.trimChars_eq_self_iff.2 denotes.isTrimmed), denotes⟩
  rw [entries?, hparse, Option.bind_some]

def Entry.ofChange (message : String) : Entry := ⟨.error, message, some "api-breakage", none⟩

def changeTree (message : String) : Json :=
  .record [("severity", .text "error"), ("message", .text message), ("category", .text "api-breakage")]

def changesTree (messages : List String) : Json :=
  .record [("diagnostics", .ofList changeTree messages)]

theorem prints_changesTree (messages : List String) :
    Prints (changesTree messages).compact (messages.map Entry.ofChange) := by
  have tokens : (changesTree messages).HasTokens := by simp [changesTree, changeTree]
  have hentries : Json.ofList changeTree messages =
      .ofList (fun e => changeTree e.message) (messages.map Entry.ofChange) := by
    rw [Json.ofList, Json.ofList, List.map_map]
    rfl
  rw [← entries?_eq_some_iff, entries?_compact tokens]
  change Json.decodeList Entry.decode (.ofList changeTree messages) = _
  rw [hentries]
  exact Json.decodeList_ofList (List.forall_mem_map.2 fun _ _ => rfl)

theorem ofReported_reported (m : ModuleName) (entries : List Entry) :
    ofReported m (entries.map Entry.reported) = ⟨m, breaking entries, others entries⟩ := by
  have hcategory (e : Entry) : e.reported.isBreaking = decide (e.category = some "api-breakage") :=
    beq_eq_decide _ _
  have hdiagnostic : Reported.diagnostic ∘ Entry.reported = Entry.diagnostic := rfl
  simp only [ofReported, breaking, others, List.filter_map, List.map_map, hdiagnostic,
    Function.comp_def, hcategory, ne_eq, decide_not]

theorem printed_or_faulty (items : List Json) :
    (∃ entries, List.Forall₂ Entry.Printed entries items) ∨ ∃ item ∈ items, Entry.Faulty item := by
  induction items with
  | nil => exact .inl ⟨[], .nil⟩
  | cons item rest ih =>
    rcases Entry.printed_or_faulty item with ⟨e, he⟩ | hfaulty
    · rcases ih with ⟨entries, hentries⟩ | ⟨other, hother, hfaulty⟩
      · exact .inl ⟨e :: entries, .cons he hentries⟩
      · exact .inr ⟨other, List.mem_cons_of_mem _ hother, hfaulty⟩
    · exact .inr ⟨item, List.mem_cons_self, hfaulty⟩

theorem not_lists_of_faulty {v item : Json} {items : List Json}
    (fields : HasFields ["diagnostics"] [.given (.array items)] v) (mem : item ∈ items)
    (faulty : Entry.Faulty item) (entries : List Entry) : ¬Lists entries v := by
  intro lists
  cases lists with
  | missing fields' | cut fields' => cases fields.unique nodup_fields fields'
  | given fields' printed =>
    cases fields.unique nodup_fields fields'
    obtain ⟨e, -, he⟩ := Json.exists_mem_of_forall₂ printed mem
    exact faulty.not_printed he

theorem NoReport.not_lists {v : Json} (h : NoReport v) (entries : List Entry) : ¬Lists entries v := by
  intro lists
  cases lists with
  | missing fields | cut fields =>
    obtain ⟨w, hw, -⟩ := h _ fields
    cases hw
  | given fields printed =>
    obtain ⟨w, hw, hno⟩ := h _ fields
    cases hw
    exact hno _ rfl

theorem read_eq_error {m : ModuleName} {output : String}
    (h : ∀ text v entries, Text.Strips output.toList text → Json.Denotes text v → ¬Lists entries v) :
    read m output = .error unreadable := by
  have hnone : entries? output = none := by
    refine Option.eq_none_iff_forall_ne_some.2 fun entries hentries => ?_
    obtain ⟨text, v, strips, denotes, lists⟩ := entries?_eq_some_iff.1 hentries
    exact h text v entries strips denotes lists
  rw [read_eq, hnone]
  rfl

theorem Reads.eq {m : ModuleName} {output : String} {result : Except String Comparison}
    (h : Reads m output result) : read m output = result := by
  cases h with
  | report prints =>
    rw [read_eq, entries?_eq_some_iff.2 prints, Option.elim_some, ofReported_reported]
  | faulty strips denotes fields mem faulty =>
    refine read_eq_error fun text' v' entries strips' denotes' => ?_
    obtain rfl := (Text.trimChars_of_strips strips).symm.trans (Text.trimChars_of_strips strips')
    obtain rfl := denotes.unique denotes'
    exact not_lists_of_faulty fields mem faulty entries
  | noReport h =>
    exact read_eq_error fun text v entries strips denotes => (h text v strips denotes).not_lists entries

theorem exists_reads (m : ModuleName) (output : String) : ∃ result, Reads m output result := by
  by_cases h : ∀ text v, Text.Strips output.toList text → Json.Denotes text v → NoReport v
  · exact ⟨_, .noReport h⟩
  · simp only [not_forall] at h
    obtain ⟨text, v, strips, denotes, h⟩ := h
    unfold NoReport at h
    simp only [not_forall] at h
    obtain ⟨slot, fields, h⟩ := h
    cases slot with
    | missing => exact ⟨_, .report ⟨text, v, strips, denotes, .missing fields⟩⟩
    | cut => exact ⟨_, .report ⟨text, v, strips, denotes, .cut fields⟩⟩
    | given w =>
      by_cases hitems : ∃ items, w = .array items
      · obtain ⟨items, rfl⟩ := hitems
        rcases printed_or_faulty items with ⟨entries, printed⟩ | ⟨item, hitem, faulty⟩
        · exact ⟨_, .report ⟨text, _, strips, denotes, .given fields printed⟩⟩
        · exact ⟨_, .faulty strips denotes fields hitem faulty⟩
      · exact absurd ⟨w, rfl, fun items hw => hitems ⟨items, hw⟩⟩ h

/-- The text is read as it is told: a report as the comparison of its entries, and everything else as
nothing at all. -/
theorem read_eq_iff {m : ModuleName} {output : String} {result : Except String Comparison} :
    read m output = result ↔ Reads m output result := by
  refine ⟨fun h => ?_, Reads.eq⟩
  obtain ⟨result', h'⟩ := exists_reads m output
  rwa [← h, h'.eq]

/-- A severity may stand there as an object and a place as an array, but no name may be half of a
surrogate pair. -/
theorem read_other_forms :
    let short := "\x7b\"diagnostics\":[\x7b\"severity\":\x7b\"error\":null\x7d,\"message\":\"m\"," ++
      "\"location\":[\"a.swift\",7]\x7d]\x7d"
    let named := "\x7b\"diagnostics\":[],\"\\ud800\":1\x7d"
    let report : Json := .record [("diagnostics", .array [.record
      [("severity", .record [("error", .null)]), ("message", .text "m"),
       ("location", .array [.text "a.swift", .ofNat 7])]])]
    let other : Json := .object [(.plain "diagnostics", .array []), (.unpaired, .ofNat 1)]
    Json.parse? short = some report ∧
    read ⟨"Foo"⟩ short = .ok ⟨⟨"Foo"⟩, [], [⟨.error, "m", some ⟨⟨"a.swift"⟩, some 7⟩⟩]⟩ ∧
    Json.parse? named = some other ∧ read ⟨"Foo"⟩ named = .error unreadable := by
  intro short named report other
  have hreport : report.HasTokens := by simp [report, Json.HasTokens, Json.ItemsHaveTokens]
  have hother : other.HasTokens := by
    simp [other, Json.HasTokens, Json.ItemsHaveTokens, Json.MembersHaveTokens]
  have hshort : report.compact = short := by rfl
  have hnamed : other.compact = named := by rfl
  rw [← hshort, ← hnamed]
  refine ⟨Json.parse?_compact hreport, ?_, Json.parse?_compact hother, ?_⟩
  · rw [read_eq, entries?_compact hreport]
    rfl
  · rw [read_eq, entries?_compact hother]
    rfl

end Comparison

end Breakage
