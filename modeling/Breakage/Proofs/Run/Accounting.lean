import Breakage.Outcome.Summary
import Breakage.Proofs.Comparison.Printed
import Breakage.Proofs.Run.Engine
import Breakage.Rehearsal.Collaborators

/-!
What becomes of the entries that a digester prints. All of them are shown under the module that they
were printed about, once and in their order: breaking changes that are not allowed as lines of the
report and in the summary, all others but the ignored ones as events (`Outcome.Shows`). Main statement:
`Engine.printed_shown`.
-/

namespace Breakage

def Severity.level? : Severity → Option Level
  | .error | .fatal => some .error
  | .warning => some .warning
  | .note | .remark => some .info
  | .ignored => none

namespace Comparison.Entry

def event? (e : Entry) : Option Event :=
  e.severity.level?.map fun level => ⟨level, e.message, e.origin.map Origin.location⟩

theorem event?_reported (e : Entry) : Report.event? e.reported.diagnostic = e.event? := by
  obtain ⟨severity, message, category, origin⟩ := e
  cases severity <;> rfl

def changes (allowlist : Allowlist) (entries : List Entry) : List String :=
  (entries.filter fun e => e.isBreaking && !allowlist.contains e.message).map Entry.message

def events (entries : List Entry) : List Event :=
  (entries.filter fun e => !e.isBreaking).filterMap Entry.event?

end Comparison.Entry

namespace Comparing

open Comparison (Entry)

variable {m : ModuleName} {allowlist : Allowlist} {entries : List Entry}

theorem changes_resultFor : (resultFor m allowlist
    (.ofReported m (entries.map Entry.reported))).changes = Entry.changes allowlist entries := by
  simp only [Comparison.changes, resultFor, Comparison.filterAllowed, Comparison.ofReported,
    Entry.changes, List.filter_map, List.map_map, List.filter_filter]
  rw [List.filter_congr fun e _ => Bool.and_comm _ _]
  rfl

theorem events_resultFor : (resultFor m allowlist
    (.ofReported m (entries.map Entry.reported))).otherDiagnostics.filterMap Report.event? =
      Entry.events entries := by
  simp only [resultFor, Comparison.filterAllowed, Comparison.ofReported, Entry.events,
    List.filter_map, List.map_map, List.filterMap_map]
  exact List.filterMap_congr fun e _ => e.event?_reported

end Comparing

def Report.headline (m : ModuleName) (changes : Nat) : String :=
  if changes = 0 then "No breaking changes detected in " ++ m.text
  else
    toString changes ++ (if changes = 1 then " breaking change" else " breaking changes") ++
      " detected in " ++ m.text ++ ":"

theorem Report.header_eq (c : Comparison) : header c = headline c.module c.changes.length := by
  rw [header, headline, Comparison.changes, List.length_map]

namespace Outcome

open Comparison (Entry)

/-- The entries printed about the module are shown for it, and nothing else is. -/
structure Shows (o : Outcome) (allowlist : Allowlist) (m : ModuleName) (entries : List Entry) :
    Prop where
  block : Report.block o m = Report.headline m (Entry.changes allowlist entries).length ::
    (Entry.changes allowlist entries).map (Report.changeMark ++ ·)
  entry : ModuleEntry.ofOutcome o m =
    ⟨m.text, if Entry.changes allowlist entries = [] then .clean else .breaking, none, none,
      Entry.changes allowlist entries⟩
  events : Report.moduleEvents o m = Entry.events entries

structure Silent (o : Outcome) (m : ModuleName) (status : ModuleStatus) : Prop where
  block : Report.block o m = (o.skipped.get? m).toList.map (Report.skipLine m)
  status : (ModuleEntry.ofOutcome o m).status = status
  changes : (ModuleEntry.ofOutcome o m).breakingChanges = []
  events : Report.moduleEvents o m = []

end Outcome

namespace Comparing

open Comparison (Entry)

variable {directory : Path} {allowlist : Allowlist} {generationFailures modules : ModuleSet}
  {s : Session} {ds : History} {w : Comparing}
  (kept : Kept directory allowlist generationFailures s ds w) (covers : ds.Covers modules.toList)
include kept covers

theorem silent_refused {m : ModuleName} (hm : m ∈ ds.refused) :
    (w.outcome modules).Silent m .skipped := by
  have hskipped := (skipped_outcome kept covers).2 ⟨hm, rfl⟩
  constructor
  · rw [Report.block, hskipped]
    rfl
  · rw [ModuleEntry.ofOutcome, hskipped]
  · rw [ModuleEntry.ofOutcome, hskipped]
  · rw [Report.moduleEvents, hskipped]

theorem silent_failed {r : Answered} (hr : r ∈ ds.answers) {e : Fault}
    (ha : r.2 = .returned (.error e)) : (w.outcome modules).Silent r.1.job .failed := by
  have hskipped := get?_skipped_of_mem kept covers hr
  have hfailed : (w.outcome modules).failed.get? r.1.job = some e.message := by
    rw [get?_failed_of_mem kept covers hr, ha]
    rfl
  have hresult : (w.outcome modules).result? r.1.job = none := by
    rw [Option.eq_none_iff_forall_ne_some]
    intro c hc
    obtain ⟨found, hfound, -⟩ := result?_eq_some_iff.1 ((result?_outcome kept covers hr).1 hc)
    rw [ha] at hfound
    cases hfound
  constructor
  · rw [Report.block, hskipped, hresult]
    rfl
  · rw [ModuleEntry.ofOutcome, hskipped, hfailed]
  · rw [ModuleEntry.ofOutcome, hskipped, hfailed]
  · rw [Report.moduleEvents, hskipped, hresult]
    rfl

theorem shows_read {r : Answered} (hr : r ∈ ds.answers) {entries : List Entry}
    (ha : r.2 = .returned (.ok (.ofReported r.1.job (entries.map Entry.reported)))) :
    (w.outcome modules).Shows allowlist r.1.job entries := by
  let c := resultFor r.1.job allowlist (.ofReported r.1.job (entries.map Entry.reported))
  have hchanges : c.changes = Entry.changes allowlist entries := changes_resultFor
  have hskipped := get?_skipped_of_mem kept covers hr
  have hfailed : (w.outcome modules).failed.get? r.1.job = none := by
    rw [get?_failed_of_mem kept covers hr, ha]
    rfl
  have hresult : (w.outcome modules).result? r.1.job = some c :=
    (result?_outcome kept covers hr).2 (result?_eq_some_iff.2 ⟨_, ha, rfl⟩)
  have hclean : c.isClean = true ↔ Entry.changes allowlist entries = [] := by
    rw [← hchanges, Comparison.changes, List.map_eq_nil_iff, Comparison.isClean, List.isEmpty_iff]
  constructor
  · rw [Report.block, hskipped, hresult, ← hchanges]
    exact congrArg (· :: c.changes.map (Report.changeMark ++ ·)) (Report.header_eq c)
  · rw [ModuleEntry.ofOutcome, hskipped, hfailed, hresult]
    simp only [hclean, hchanges]
  · rw [Report.moduleEvents, hskipped, hresult]
    exact events_resultFor

end Comparing

namespace Engine

variable {engine : Engine} {timing : Timing} {options : RunOptions} {s t : Session} {p : Prepared}
  {b : Baseline}

/-- What a digester prints is shown. Each module is skipped or called once. What its call prints is
shown for this module, if it can be read; for the other modules there is nothing to show. The report
and the summary go through the modules in name order. So do the last events of the journal, which are
those of the entries; the ones before are warnings about digests that could not be made and the
errors of the modules that failed. -/
theorem printed_shown {command : DigestCommand}
    (digests : engine.collaborators.digester = command.digester)
    (reached : engine.ready timing options s = (.ok (p, b), t)) :
    ∃ r s', engine.run timing options s = (.ok r, s') ∧
      let ds := engine.history timing p b t
      (ds.refused ++ ds.answers.map fun answered => answered.1.job).Perm p.modules.toList ∧
      (∀ m ∈ ds.refused, r.outcome.Silent m .skipped) ∧
      (∀ es task a es', ds = es ++ .answered task a :: es' →
        match command.printed? (task.job.digestPath b.directory.path) task.job p.plan
          p.allowlist.source (engine.hostAfter p b t es) with
        | some entries => r.outcome.Shows p.allowlist task.job entries
        | none => r.outcome.Silent task.job .failed) ∧
      p.modules.toList.Pairwise (· < ·) ∧
      r.report.lines = p.modules.toList.flatMap (Report.block r.outcome) ∧
      (∀ now, (r.summary now).modules = p.modules.toList.map (ModuleEntry.ofOutcome r.outcome)) ∧
      ∃ warnings errors,
        s'.journal.events = s.journal.events ++ warnings ++ errors ++
          p.modules.toList.flatMap (Report.moduleEvents r.outcome) ∧
        (∀ e ∈ warnings, e.isError = false) ∧
        errors.Perm (r.outcome.failed.entries.map fun e => Comparing.failureError e.1 e.2) := by
  have leads := engine.leads_history timing p b t
  have kept := engine.kept_history timing p b t
  have covers := engine.covers_history timing p b t
  obtain ⟨-, warnings, -, -, hbefore, hnone⟩ := record_ready reached
  refine ⟨_, _, run_eq_ok.2 ⟨p, b, t, reached, rfl⟩, ?_⟩
  intro ds
  refine ⟨?_, fun m hm => Comparing.silent_refused kept covers hm, fun es task a es' split => ?_,
    p.modules.ascending, rfl, fun _ => rfl, warnings, _, ?_, hnone, Comparing.events_perm kept covers⟩
  · exact (covers.map_job_answers.append_left ds.refused).trans covers.jobs_perm.symm
  · have hr : (task, a) ∈ ds.answers := by
      rw [split, Pool.History.answers]
      simp
    have ha : a = (engine.collaborators.digester.compare (task.job.digestPath b.directory.path)
      task.job p.plan p.allowlist.source (engine.hostAfter p b t es)).1 := leads.suits split
    have hread := command.compare_digester (task.job.digestPath b.directory.path) task.job p.plan
      p.allowlist.source (engine.hostAfter p b t es)
    rw [digests] at ha
    rw [← ha] at hread
    cases hprinted : command.printed? (task.job.digestPath b.directory.path) task.job p.plan
      p.allowlist.source (engine.hostAfter p b t es) with
    | some entries =>
      rw [hprinted] at hread
      exact Comparing.shows_read kept covers hr hread
    | none =>
      rw [hprinted] at hread
      obtain ⟨e, he⟩ := hread
      exact Comparing.silent_failed kept covers hr he
  · have hjournal : (engine.comparisons timing p b t).2.journal =
        t.journal.emitAll (ds.filterMap Comparing.event?) := kept.journal
    change (((engine.comparisons timing p b t).2.emitAll (Report.events _)).mark _).journal.events = _
    rw [Session.mark_journal, Session.emitAll_journal, hjournal, hbefore, Journal.events_emitAll,
      Journal.events_emitAll, Journal.events_emitAll]
    rfl

/-- A breaking change and a note. -/
theorem printed_shown_note :
    let printed := "\x7b\"diagnostics\":[\x7b\"severity\":\"error\",\"message\":\"gone\"," ++
      "\"category\":\"api-breakage\"\x7d,\x7b\"severity\":\"note\",\"message\":\"here\"\x7d]\x7d"
    let reply : Reply := ⟨some 0, printed.toList.map fun c => .ofNat c.toNat, [], false⟩
    let host := { Rehearsal.machine [(["tmp"], .directory), (["Foo.json"], .file (.text ""))] with
      programs := ⟨fun _ _ _ => none, fun _ files => (.ok reply, files)⟩ }
    let command : DigestCommand := ⟨"api-digester", none⟩
    let engine : Engine := ⟨⟨"/"⟩, { Rehearsal.collaborators .plain ["Foo"] ["Foo"] with
      digester := command.digester }⟩
    let options : RunOptions := ⟨"main", [], [], some ⟨"/"⟩, none, false⟩
    ∃ r s', engine.run .plain options (.ofHost host) = (.ok r, s') ∧
      Report.block r.outcome ⟨"Foo"⟩ = ["1 breaking change detected in Foo:", "  💔 gone"] ∧
      Report.moduleEvents r.outcome ⟨"Foo"⟩ = [.info "here"] := by
  intro printed reply host command engine options
  let shown (p : Prepared) (b : Baseline) (t : Session) : Bool :=
    let ds := engine.history .plain p b t
    ((ds.drop 3).head?.bind Pool.Deed.answer?).any fun r =>
      (command.printed? (r.1.job.digestPath b.directory.path) r.1.job p.plan
        p.allowlist.source (engine.hostAfter p b t (ds.take 3))).any fun entries =>
          decide (r.1.job = ⟨"Foo"⟩) &&
          decide (Comparison.Entry.changes p.allowlist entries = ["gone"]) &&
          decide (Comparison.Entry.events entries = [.info "here"])
  obtain ⟨⟨p, b⟩, t, reached, hcheck⟩ := Run.exists_of_check (x := engine.ready .plain options)
    (s := .ofHost host) (P := fun r t => shown r.1 r.2 t) (by decide +kernel)
  obtain ⟨r, s', hrun, -, -, hcalled, -⟩ := printed_shown rfl reached
  refine ⟨r, s', hrun, ?_⟩
  simp only [shown, Option.any_eq_true, Option.bind_eq_some_iff, Bool.and_eq_true,
    decide_eq_true_eq] at hcheck
  obtain ⟨⟨task, a⟩, ⟨deed, hhead, hanswer⟩, entries, hprinted, ⟨hjob, hchanges⟩, hevents⟩ := hcheck
  obtain ⟨es', hdrop⟩ := List.head?_eq_some_iff.1 hhead
  cases deed with
  | answered task' a' =>
    cases hanswer
    have hshown := hcalled ((engine.history .plain p b t).take 3) task a es'
      (by rw [← hdrop, List.take_append_drop])
    rw [hprinted] at hshown
    rw [← hjob, hshown.block, hshown.events, hchanges, hevents, hjob]
    exact ⟨rfl, rfl⟩
  | _ => cases hanswer

end Engine

end Breakage
