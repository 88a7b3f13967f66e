import Breakage.CommandLine.Program
import Breakage.Proofs.Outcome
import Breakage.Proofs.Run.Engine

/-!
What the exit code of the program tells. The verdict and the flag of the journal are two signs, and
between them they miss nothing: the exit code is zero just when every module that was asked for was
skipped or compared without a finding, and the summary is in its file (`exitCode_eq_zero_iff`).
-/

namespace Breakage

/-! ### The two signs -/

def Diagnostic.isError (d : Diagnostic) : Bool :=
  decide (d.severity = .error) || decide (d.severity = .fatal)

theorem Report.isError_event? {d : Diagnostic} {e : Event} (h : event? d = some e) :
    e.isError = d.isError := by
  obtain ⟨severity, message, location⟩ := d
  cases severity <;> cases h <;> rfl

theorem Report.event?_eq_none {d : Diagnostic} (h : event? d = none) : d.isError = false := by
  obtain ⟨severity, message, location⟩ := d
  cases severity <;> cases h
  rfl

theorem Report.any_filterMap_event? (ds : List Diagnostic) :
    (ds.filterMap event?).any Event.isError = ds.any Diagnostic.isError := by
  induction ds with
  | nil => rfl
  | cons d rest ih =>
    cases h : event? d with
    | none => rw [List.filterMap_cons_none h, List.any_cons, event?_eq_none h, Bool.false_or, ih]
    | some e => rw [List.filterMap_cons_some h, List.any_cons, List.any_cons, isError_event? h, ih]

theorem Report.any_isError_events (o : Outcome) :
    (events o).any Event.isError = false ↔ ∀ m ∈ o.requested, o.skipped.get? m = none →
      ∀ c, o.result? m = some c → c.otherDiagnostics.any Diagnostic.isError = false := by
  have hmodule : ∀ m, (moduleEvents o m).any Event.isError = false ↔ (o.skipped.get? m = none →
      ∀ c, o.result? m = some c → c.otherDiagnostics.any Diagnostic.isError = false) := by
    intro m
    unfold moduleEvents
    cases o.skipped.get? m with
    | some reason => simp
    | none =>
      cases o.result? m with
      | none => simp
      | some c =>
        change (c.otherDiagnostics.filterMap event?).any Event.isError = false ↔ _
        rw [any_filterMap_event?]
        simp
  rw [events, List.any_flatMap, List.any_eq_false]
  refine forall_congr' fun m => forall_congr' fun _ => ?_
  rw [Bool.not_eq_true, hmodule]

theorem Diagnostic.isError_eq_false_iff {d : Diagnostic} :
    d.isError = false ↔ d.severity ≠ .error ∧ d.severity ≠ .fatal := by
  simp [isError]

namespace Comparing

/-- A comparison has found nothing but changes that are allowed, and no error. -/
def Passes (allowlist : Allowlist) (a : Answer) : Prop :=
  ∃ found, a = .returned (.ok found) ∧
    (∀ d ∈ found.breakingChanges, allowlist.contains d.message = true) ∧
    ∀ d ∈ found.otherDiagnostics, d.severity ≠ .error ∧ d.severity ≠ .fatal

theorem passes_iff {allowlist : Allowlist} {r : Answered} :
    Passes allowlist r.2 ↔ ∃ c, result? allowlist r = some c ∧ c.isClean = true ∧
      c.otherDiagnostics.any Diagnostic.isError = false := by
  constructor
  · rintro ⟨found, hr, hchanges, hothers⟩
    refine ⟨_, result?_eq_some_iff.2 ⟨found, hr, rfl⟩, ?_, ?_⟩
    · simpa [Comparison.isClean] using hchanges
    · simpa [Diagnostic.isError_eq_false_iff] using hothers
  · rintro ⟨c, hc, hclean, hothers⟩
    obtain ⟨found, hr, rfl⟩ := result?_eq_some_iff.1 hc
    refine ⟨found, hr, ?_, ?_⟩
    · simpa [Comparison.isClean] using hclean
    · simpa [Diagnostic.isError_eq_false_iff] using hothers

section

variable {directory : Path} {allowlist : Allowlist} {generationFailures modules : ModuleSet}
  {s : Session} {ds : History} {w : Comparing}
  (kept : Kept directory allowlist generationFailures s ds w) (covers : ds.Covers modules.toList)
include kept covers

theorem failed_eq_nil_iff :
    (w.outcome modules).failed.entries = [] ↔ ∀ r ∈ ds.answers, cause? r.1.number r.2 = none := by
  rw [List.eq_nil_iff_forall_not_mem]
  constructor
  · intro h r hr
    rw [Option.eq_none_iff_forall_ne_some]
    intro text hc
    exact h (r.1.job, text) (ModuleMap.mem_entries.2
      ((failed_outcome kept covers).2 ⟨r, hr, rfl, hc⟩))
  · rintro h ⟨m, text⟩ he
    obtain ⟨r, hr, -, hc⟩ := (failed_outcome kept covers).1 (ModuleMap.mem_entries.1 he)
    rw [h r hr] at hc
    cases hc

theorem passed_iff :
    ((Verdict.ofOutcome (w.outcome modules)).passed = true ∧
      (Report.events (w.outcome modules)).any Event.isError = false) ↔
        ∀ m ∈ modules, (∃ reason, (w.outcome modules).skipped.get? m = some reason) ∨
          ∃ r ∈ ds.answers, r.1.job = m ∧ Passes allowlist r.2 := by
  have orderly := covers.orderly modules.nodup
  rw [Verdict.passed_ofOutcome_iff, Report.any_isError_events, failed_eq_nil_iff kept covers]
  constructor
  · rintro ⟨⟨hcauses, hclean⟩, hothers⟩ m hm
    rcases covers.mem_jobs_iff.1 hm with href | ⟨r, hr, rfl⟩
    · exact .inl ⟨_, (skipped_outcome kept covers).2 ⟨href, rfl⟩⟩
    · refine .inr ⟨r, hr, rfl, passes_iff.2 ?_⟩
      obtain ⟨c, hc⟩ := cause?_eq_none_iff.1 (hcauses r hr)
      exact ⟨c, hc, hclean c ((mem_results_outcome kept covers).2 ⟨r, hr, hc⟩),
        hothers _ hm (get?_skipped_of_mem kept covers hr) c ((result?_outcome kept covers hr).2 hc)⟩
  · intro h
    have hpasses : ∀ r ∈ ds.answers, Passes allowlist r.2 := by
      intro r hr
      rcases h r.1.job (covers.mem_jobs_iff.2 (.inr ⟨r, hr, rfl⟩)) with ⟨reason, hreason⟩ | hp
      · exact absurd ((skipped_outcome kept covers).1 hreason).1 (orderly.not_mem_refused hr)
      · obtain ⟨r', hr', hj, hp⟩ := hp
        rwa [orderly.eq_of_job_eq hr' hr hj] at hp
    refine ⟨⟨fun r hr => ?_, fun c hc => ?_⟩, fun m hm hskipped c hc => ?_⟩
    · obtain ⟨c, hc, -⟩ := passes_iff.1 (hpasses r hr)
      exact cause?_eq_none_iff.2 ⟨c, hc⟩
    · obtain ⟨r, hr, he⟩ := (mem_results_outcome kept covers).1 hc
      obtain ⟨c', hc', hclean, -⟩ := passes_iff.1 (hpasses r hr)
      rw [he] at hc'
      rwa [Option.some.inj hc']
    · rcases covers.mem_jobs_iff.1 hm with href | ⟨r, hr, rfl⟩
      · rw [(skipped_outcome kept covers).2 ⟨href, rfl⟩] at hskipped
        cases hskipped
      · rw [result?_outcome kept covers hr] at hc
        obtain ⟨c', hc', -, hothers⟩ := passes_iff.1 (hpasses r hr)
        rw [hc] at hc'
        rwa [Option.some.inj hc']

theorem any_isError_of_passed (h : (Verdict.ofOutcome (w.outcome modules)).passed = true) :
    (ds.filterMap event?).any Event.isError = false := by
  have hnone := ((Verdict.passed_ofOutcome_iff _).1 h).1
  have hevents := events_perm kept covers
  rw [hnone, List.map_nil] at hevents
  rw [hevents.eq_nil]
  rfl

end

end Comparing

namespace Engine

variable {engine : Engine} {timing : Timing} {options : RunOptions} {h : Host} {t s' : Session}
  {p : Prepared} {b : Baseline} {report : RunReport}

/-- The digester was called for the module, and on the machine as it was then it found nothing that
counts. -/
def Clears (engine : Engine) (timing : Timing) (p : Prepared) (b : Baseline) (t : Session)
    (m : ModuleName) : Prop :=
  ∃ es task a es', engine.history timing p b t = es ++ .answered task a :: es' ∧ task.job = m ∧
    a = (engine.collaborators.digester.compare (m.digestPath b.directory.path) m p.plan
      p.allowlist.source (engine.hostAfter p b t es)).1 ∧
    Comparing.Passes p.allowlist a

theorem clears_iff {m : ModuleName} : engine.Clears timing p b t m ↔
    ∃ r ∈ (engine.history timing p b t).answers, r.1.job = m ∧ Comparing.Passes p.allowlist r.2 := by
  constructor
  · rintro ⟨es, task, a, es', split, hjob, -, passes⟩
    refine ⟨(task, a), ?_, hjob, passes⟩
    rw [split, Pool.History.answers]
    simp
  · rintro ⟨⟨task, a⟩, hr, rfl, passes⟩
    obtain ⟨deed, hdeed, hanswer⟩ := List.mem_filterMap.1 hr
    obtain ⟨es, es', split⟩ := List.append_of_mem hdeed
    cases deed with
    | answered task' a' =>
      cases hanswer
      exact ⟨es, task, a, es', split, rfl, (engine.leads_history timing p b t).suits split, passes⟩
    | _ => cases hanswer

theorem succeeds_iff (reached : engine.ready timing options (.ofHost h) = (.ok (p, b), t))
    (concluded : conclude options p.revision b (engine.comparisons timing p b t).1
      (engine.comparisons timing p b t).2 = (report, s')) :
    CommandLine.succeeds report.verdict.passed s'.journal.errorsReported = true ↔
      ∀ m ∈ p.modules, (∃ reason, report.outcome.skipped.get? m = some reason) ∨
        engine.Clears timing p b t m := by
  simp only [clears_iff]
  have kept := engine.kept_history timing p b t
  have covers := engine.covers_history timing p b t
  obtain ⟨-, before, -, -, hbefore, hnone⟩ := record_ready reached
  -- nothing was wrong up to here, so the flag depends on the comparisons and on the report
  have hfirst : t.journal.errorsReported = false := by
    rw [hbefore, Journal.errorsReported_emitAll, Bool.or_eq_false_iff, List.any_eq_false]
    exact ⟨rfl, fun e he => by simp [hnone e he]⟩
  have hpassed := Comparing.passed_iff kept covers
  have hshown := Comparing.any_isError_of_passed kept covers
  cases concluded
  let o := (engine.comparisons timing p b t).1
  have hflag : (((engine.comparisons timing p b t).2.emitAll (Report.events o)).mark
      (.judged (Verdict.ofOutcome o).passed (Verdict.ofOutcome o).violations.length)).journal.errorsReported =
        (((engine.history timing p b t).filterMap Comparing.event?).any Event.isError ||
          (Report.events o).any Event.isError) := by
    rw [Session.mark_journal, Session.emitAll_journal, Journal.errorsReported_emitAll]
    have hcomparisons := congrArg Journal.errorsReported kept.journal
    rw [Journal.errorsReported_emitAll, hfirst, Bool.false_or] at hcomparisons
    exact congrArg (· || (Report.events o).any Event.isError) hcomparisons
  refine Iff.trans ?_ hpassed
  change ((Verdict.ofOutcome o).passed && !_) = true ↔ _
  rw [hflag, Bool.and_eq_true, Bool.not_eq_true', Bool.or_eq_false_iff]
  exact ⟨fun ⟨hp, _, he⟩ => ⟨hp, he⟩, fun ⟨hp, he⟩ => ⟨hp, hshown hp, he⟩⟩

end Engine

namespace CommandLine

/-- The summary of a run is in its file, and nothing else has changed. It stays there when the report
is given up, unless the file is in the temporary directory of the baseline. -/
def Delivered (report : RunReport) (path : Path) (s final : Session) : Prop :=
  let text := (report.summary s.host.now).text
  ∃ host place, s.host.write path text = .ok host ∧ s.host.place? path = some place ∧
    host.readText path = .ok text ∧
    (∀ q, host.files.lookup q =
      if q = place then some (.file (.text text)) else s.host.files.lookup q) ∧
    final = report.close { s with host := host } ∧
    ((∀ directory, report.baseline.directory = .temporary directory → ∀ root,
      s.host.place? directory = some root → ¬root <+: place) →
        final.host.files.lookup place = some (.file (.text text)))

theorem delivered_of_write {report : RunReport} {path : Path} {s : Session} {host : Host}
    (written : s.host.write path (report.summary s.host.now).text = .ok host) :
    Delivered report path s (report.close { s with host := host }) := by
  obtain ⟨place, hplace, -⟩ := Host.write_eq_ok.1 written
  have hlookup := Host.lookup_write written hplace
  refine ⟨host, place, written, hplace, Host.readText_write written, hlookup, rfl, fun apart => ?_⟩
  have hfile : host.files.lookup place = some (.file (.text (report.summary s.host.now).text)) := by
    rw [hlookup, if_pos rfl]
  rw [RunReport.close]
  cases hd : report.baseline.directory with
  | kept directory => exact hfile
  | temporary directory =>
    refine (Host.lookup_removeTree fun root hroot => ?_).trans hfile
    rw [(Host.writes_write written).place?_eq] at hroot
    exact apart directory hd root hroot

theorem exitCode_deliver {report : RunReport} {reportPath : Option Path} {s : Session} :
    (deliver report reportPath s).1.exitCode = 0 ↔
      succeeds report.verdict.passed s.journal.errorsReported = true ∧
      ∀ path, reportPath = some path → Delivered report path s (deliver report reportPath s).2 := by
  unfold deliver
  cases reportPath with
  | none => simp
  | some path =>
    cases hw : writeSummary path (report.summary s.host.now) s.host with
    | ok host =>
      have delivered := delivered_of_write hw
      simp [hw, delivered]
    | error e =>
      have undelivered : ∀ final, ¬Delivered report path s final := by
        rintro final ⟨host, place, written, -⟩
        cases hw.symm.trans written
      simp [hw, undelivered]

/-- All is well with a run that leaves this behind: it comes to an end, every module that was asked for
was skipped or was compared without a finding, and the summary is in its file if one was asked for. -/
def EndsWell (engine : Engine) (timing : Timing) (options : RunOptions) (reportPath : Option Path)
    (h : Host) (final : Session) : Prop :=
  ∃ p b t report s',
    engine.ready timing options (.ofHost h) = (.ok (p, b), t) ∧
    engine.run timing options (.ofHost h) = (.ok report, s') ∧
    (∀ m ∈ report.outcome.requested, (∃ reason, report.outcome.skipped.get? m = some reason) ∨
      engine.Clears timing p b t m) ∧
    ∀ path, reportPath = some path → Delivered report path s' final

theorem exitCode_diagnose (engine : Engine) (timing : Timing) (options : RunOptions)
    (reportPath : Option Path) (h : Host) :
    let ended := diagnose engine timing options reportPath (.ofHost h)
    ended.1.exitCode = 0 ↔ EndsWell engine timing options reportPath h ended.2 := by
  dsimp only
  unfold diagnose EndsWell
  rcases hrun : engine.run timing options (.ofHost h) with ⟨(e | _) | report, s'⟩
  · constructor
    · intro hzero
      exact absurd hzero Nat.one_ne_zero
    · rintro ⟨p, b, t, report, s', -, hr, -⟩
      cases hr
  · constructor
    · intro hzero
      exact absurd hzero (Nat.succ_ne_zero 100)
    · rintro ⟨p, b, t, report, s', -, hr, -⟩
      cases hr
  · obtain ⟨p, b, t, reached, concluded⟩ := Engine.run_eq_ok.1 hrun
    have hrequested : report.outcome.requested = p.modules := by
      cases concluded
      rfl
    have hsucceeds := Engine.succeeds_iff reached concluded
    rw [← hrequested] at hsucceeds
    refine exitCode_deliver.trans ?_
    rw [hsucceeds]
    constructor
    · rintro ⟨hmodules, delivered⟩
      exact ⟨p, b, t, report, s', reached, rfl, hmodules, delivered⟩
    · rintro ⟨p', b', t', report', s'', reached', hr, hmodules, delivered⟩
      cases hr
      rw [reached] at reached'
      cases reached'
      exact ⟨hmodules, delivered⟩

end CommandLine

end Breakage
