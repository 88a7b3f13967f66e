import Breakage.Outcome.Report
import Breakage.Tool.DigestCommand

/-!
The list that a digester prints, entry by entry as it stands there. What is read of it is told entry
by entry as well (`read_eq`): none is left out, and nothing of an entry is changed but that a line
which cannot be one is dropped (`Origin.location_eq`). Main statement: `compare_digester`.
-/

namespace Breakage

namespace Json

theorem mapM_map {α β γ : Type} (f : α → Option β) (k : β → γ) (as : List α) :
    as.mapM (fun a => (f a).map k) = (as.mapM f).map (List.map k) := by
  induction as with
  | nil => rfl
  | cons a rest ih =>
    rw [List.mapM_cons, List.mapM_cons, ih]
    cases f a with
    | none => rfl
    | some b => cases rest.mapM f <;> rfl

theorem decodeList_map {α β : Type} (decode : Json → Option α) (k : α → β) (v : Json) :
    decodeList (fun v => (decode v).map k) v = (decodeList decode v).map (List.map k) := by
  unfold decodeList
  cases v.asList? with
  | none => rfl
  | some items => exact mapM_map decode k items

theorem Slot.optional_map {α β : Type} (decode : Json → Option α) (k : α → β) (s : Slot) :
    s.optional (fun v => (decode v).map k) = (s.optional decode).map (Option.map k) := by
  cases s with
  | given v =>
    change (if v.isNull then some none else ((decode v).map k).map some) =
      (if v.isNull then some none else (decode v).map some).map (Option.map k)
    split
    · rfl
    · cases decode v <;> rfl
  | missing => rfl
  | cut => rfl

end Json

namespace Comparison

structure Origin where
  file : String
  line : Option Int

/-- An entry of the list that is printed about a module. -/
structure Entry where
  severity : Severity
  message : String
  category : Option String
  origin : Option Origin

namespace Origin

def decode (v : Json) : Option Origin := do
  let [file, line] ← v.slots ["file", "line"] | none
  return ⟨← file.required Json.asText?, ← line.optional Json.decodeLong⟩

def location (o : Origin) : Location :=
  ⟨⟨o.file⟩, o.line.bind fun n => if 1 ≤ n ∧ n ≤ 4294967294 then some n.toNat else none⟩

theorem location_eq (o : Origin) : o.location = .ofReported ⟨o.file⟩ o.line := by
  obtain ⟨file, _ | n⟩ := o
  · rfl
  · have hline : (0 < n ∧ n ≤ (Location.lastLine : Int)) ↔ 1 ≤ n ∧ n ≤ 4294967294 := Iff.rfl
    simp only [location, Location.ofReported, Option.bind_some, Option.filter_some,
      ← Bool.decide_and, hline]
    by_cases h : 1 ≤ n ∧ n ≤ 4294967294
    · simp [h]
    · simp [h]

theorem decodeLocation_eq (v : Json) :
    Reported.decodeLocation v = (Origin.decode v).map Origin.location := by
  unfold Reported.decodeLocation Origin.decode
  cases v.slots ["file", "line"] with
  | none => rfl
  | some slots =>
    match slots with
    | [file, line] =>
      cases hfile : file.required Json.asText? with
      | none => simp [hfile]
      | some name =>
        cases hline : line.optional Json.decodeLong with
        | none => simp [hfile, hline]
        | some n => simp [hfile, hline, location_eq]
    | [] | [_] | _ :: _ :: _ :: _ => rfl

end Origin

namespace Entry

def decode (v : Json) : Option Entry := do
  let [severity, message, category, location] ← v.slots
    ["severity", "message", "category", "location"] | none
  return ⟨← severity.required Severity.codec.decode, ← message.required Json.asText?,
    ← category.optional Json.asText?, ← location.optional Origin.decode⟩

def isBreaking (e : Entry) : Bool := e.category == some "api-breakage"

def reported (e : Entry) : Reported :=
  ⟨e.severity, e.message, e.category, e.origin.map Origin.location⟩

theorem decode_eq (v : Json) : Reported.decode v = (Entry.decode v).map Entry.reported := by
  have hlocation : Reported.decodeLocation = fun v => (Origin.decode v).map Origin.location :=
    funext Origin.decodeLocation_eq
  unfold Reported.decode Entry.decode
  cases v.slots ["severity", "message", "category", "location"] with
  | none => rfl
  | some slots =>
    match slots with
    | [severity, message, category, location] =>
      cases hs : severity.required Severity.codec.decode with
      | none => simp [hs]
      | some level =>
        cases hm : message.required Json.asText? with
        | none => simp [hs, hm]
        | some text =>
          cases hc : category.optional Json.asText? with
          | none => simp [hs, hm, hc]
          | some kind =>
            cases hl : location.optional Origin.decode with
            | none => simp [hs, hm, hc, hl, hlocation, Json.Slot.optional_map]
            | some place =>
              simp [hs, hm, hc, hl, hlocation, Json.Slot.optional_map, reported]
    | [] | [_] | [_, _] | [_, _, _] | _ :: _ :: _ :: _ :: _ :: _ => rfl

end Entry

/-- The entries of a report; none at all when the list is left out. -/
def decodeEntries (v : Json) : Option (List Entry) := do
  let [diagnostics] ← v.slots ["diagnostics"] | none
  diagnostics.withDefault [] (Json.decodeList Entry.decode)

def entries? (output : String) : Option (List Entry) :=
  (Json.parse? (Text.trim output)).bind decodeEntries

theorem decodeReport_eq (v : Json) :
    decodeReport v = (decodeEntries v).map (List.map Entry.reported) := by
  have hdecode : Reported.decode = fun v => (Entry.decode v).map Entry.reported :=
    funext Entry.decode_eq
  unfold decodeReport decodeEntries
  cases v.slots ["diagnostics"] with
  | none => rfl
  | some slots =>
    match slots with
    | [diagnostics] =>
      cases diagnostics with
      | given v =>
        rw [hdecode]
        exact Json.decodeList_map Entry.decode Entry.reported v
      | missing => rfl
      | cut => rfl
    | [] | _ :: _ :: _ => rfl

theorem read_eq (m : ModuleName) (output : String) :
    read m output = (entries? output).elim (.error unreadable)
      fun entries => .ok (ofReported m (entries.map Entry.reported)) := by
  unfold read entries?
  cases Json.parse? (Text.trim output) with
  | none => rfl
  | some v =>
    rw [Option.bind_some, Option.bind_some, decodeReport_eq]
    cases decodeEntries v <;> rfl

end Comparison

namespace DigestCommand

/-- The entries that the command prints about a module, if it comes to its end and they can be
read. -/
def printed? (d : DigestCommand) (baseline : Path) (m : ModuleName) (plan : BuildPlan)
    (allowlist : Option Path) (h : Host) : Option (List Comparison.Entry) :=
  match (d.call m plan (compareArguments baseline m plan allowlist) h).1 with
  | .ok output => Comparison.entries? output.text
  | .error _ => none

theorem compare_digester (d : DigestCommand) (baseline : Path) (m : ModuleName) (plan : BuildPlan)
    (allowlist : Option Path) (h : Host) :
    match d.printed? baseline m plan allowlist h with
    | some entries => (d.digester.compare baseline m plan allowlist h).1 =
        .returned (.ok (.ofReported m (entries.map Comparison.Entry.reported)))
    | none => ∃ e, (d.digester.compare baseline m plan allowlist h).1 = .returned (.error e) := by
  change match d.printed? baseline m plan allowlist h with
    | some entries => Ending.returned (d.compare baseline m plan allowlist h).1 = _
    | none => ∃ e, Ending.returned (d.compare baseline m plan allowlist h).1 = _
  unfold printed? compare
  rcases d.call m plan (compareArguments baseline m plan allowlist) h with ⟨e | o, h'⟩
  · exact ⟨e, rfl⟩
  · simp only [Comparison.read_eq]
    cases Comparison.entries? o.text with
    | none => exact ⟨_, rfl⟩
    | some entries => rfl

end DigestCommand

end Breakage
