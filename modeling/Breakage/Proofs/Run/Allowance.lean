import Breakage.Proofs.CommandLine.ExitCode
import Breakage.Proofs.Pool.Lockstep
import Breakage.Proofs.Run.Timings

/-!
A run with an allowlist, next to one without it whose digester never reports the messages on the list.
The tasks of both runs can make the same moves, and what the allowlist takes away as a task reports is
what the other task never came by (`Comparing.tracks`), so that both runs end with the same. Main
statement: `Engine.allowed_unreported`.
-/

namespace Breakage

namespace Comparing

/-- The answer without the breaking changes that have one of the messages. -/
def unreported (messages : List String) : Answer → Answer
  | .returned (.ok c) =>
    .returned (.ok { c with
      breakingChanges := c.breakingChanges.filter fun d => decide (d.message ∉ messages) })
  | a => a

end Comparing

namespace Digester

variable (g : Digester)

/-- The digester that never reports these messages as breaking changes. -/
def without (messages : List String) : Digester :=
  { g with
    compare := fun baseline m plan allowlist h =>
      let (answer, h) := g.compare baseline m plan allowlist h
      (Comparing.unreported messages answer, h) }

/-- Comparing is the same with an allowlist as without one. -/
def IgnoresAllowlist : Prop :=
  ∀ baseline m plan path h, g.compare baseline m plan (some path) h = g.compare baseline m plan none h

theorem IgnoresAllowlist.compare_eq {g : Digester} (ignores : g.IgnoresAllowlist) (baseline : Path)
    (m : ModuleName) (plan : BuildPlan) (allowlist : Option Path) (h : Host) :
    g.compare baseline m plan none h = g.compare baseline m plan allowlist h := by
  cases allowlist with
  | none => rfl
  | some path => exact (ignores baseline m plan path h).symm

end Digester

def Call.unlisted : Call → Call
  | .compare m baseline _ => .compare m baseline none
  | c => c

/-- The sessions are the same, but for the allowlist that was passed on. -/
structure Session.Resembles (s s' : Session) : Prop where
  host : s'.host = s.host
  journal : s'.journal = s.journal
  milestones : s'.milestones = s.milestones
  calls : s'.calls.map Call.unlisted = s.calls.map Call.unlisted

namespace Session.Resembles

variable {s s' : Session} (h : s.Resembles s')
include h

theorem emit (e : Event) : (s.emit e).Resembles (s'.emit e) :=
  { h with journal := congrArg (Journal.emit · e) h.journal }

theorem emitAll (es : List Event) : (s.emitAll es).Resembles (s'.emitAll es) :=
  { h with journal := congrArg (Journal.emitAll · es) h.journal }

theorem mark (m : Milestone) : (s.mark m).Resembles (s'.mark m) :=
  { h with milestones := congrArg (· ++ [m]) h.milestones }

end Session.Resembles

theorem Session.Resembles.refl (s : Session) : s.Resembles s := ⟨rfl, rfl, rfl, rfl⟩

theorem Session.Resembles.close {s s' : Session} (h : s.Resembles s') (b : BaselineDirectory) :
    (b.close s).Resembles (b.close s') := by
  cases b with
  | kept path => exact h
  | temporary path => exact { h with host := congrArg (Host.removeTree · path) h.host }

namespace Run

/-- Two parts of runs end in the same way, and leave the same but for the allowlist. -/
def EndAlike {α : Type} (x y : Run α) (s t : Session) : Prop :=
  (y t).1 = (x s).1 ∧ (x s).2.Resembles (y t).2

namespace EndAlike

variable {α β : Type} {x y : Run α} {s t : Session} (alike : EndAlike x y s t)
include alike

theorem bind {f g : α → Run β}
    (next : ∀ a u v, u.Resembles v → EndAlike (f a) (g a) u v) : EndAlike (x >>= f) (y >>= g) s t := by
  obtain ⟨hresult, resembles⟩ := alike
  rcases hx : x s with ⟨r, u⟩
  rcases hy : y t with ⟨r', v⟩
  rw [hx, hy] at hresult resembles
  obtain rfl : r' = r := hresult
  rw [EndAlike]
  cases r' with
  | error e =>
    rw [bind_of_error hx, bind_of_error hy]
    exact ⟨rfl, resembles⟩
  | ok a =>
    rw [bind_of_ok hx, bind_of_ok hy]
    exact next a u v resembles

theorem onHalt {tidy : Session → Session}
    (tidied : ∀ u v, u.Resembles v → (tidy u).Resembles (tidy v)) :
    EndAlike (x.onHalt tidy) (y.onHalt tidy) s t := by
  obtain ⟨hresult, resembles⟩ := alike
  rcases hx : x s with ⟨r, u⟩
  rcases hy : y t with ⟨r', v⟩
  rw [hx, hy] at hresult resembles
  obtain rfl : r' = r := hresult
  rw [EndAlike]
  cases r' with
  | error e =>
    rw [onHalt_of_error hx, onHalt_of_error hy]
    exact ⟨rfl, tidied u v resembles⟩
  | ok a =>
    rw [onHalt_of_ok hx, onHalt_of_ok hy]
    exact ⟨rfl, resembles⟩

end EndAlike

end Run

namespace Comparing

structure Resembles (w w' : Comparing) : Prop where
  session : w.session.Resembles w'.session
  skipped : w'.skipped = w.skipped
  results : w'.results = w.results
  failures : w'.failures = w.failures
  aborted : w'.aborted = w.aborted

theorem resultFor_unreported (m : ModuleName) (allowlist : Allowlist) (c : Comparison) :
    resultFor m .empty { c with
      breakingChanges := c.breakingChanges.filter fun d => decide (d.message ∉ allowlist.entries) } =
        resultFor m allowlist c := by
  simp [resultFor, Comparison.filterAllowed, Allowlist.contains, Allowlist.empty]

variable {g : Digester} (ignores : g.IgnoresAllowlist) (plan : BuildPlan) (directory : Path)
  (allowlist : Allowlist) (generationFailures : ModuleSet)
include ignores

theorem tracks : Pool.Duty.Tracks (duty g plan directory allowlist generationFailures)
    (duty (g.without allowlist.entries) plan directory .empty generationFailures)
    (unreported allowlist.entries) Resembles where
  admits m w w' same := by
    change w'.session.host.exists? _ = w.session.host.exists? _
    rw [same.session.host]
  refuse m w w' same := { same with
    skipped := congrArg (ModuleMap.insert · m (skipReason generationFailures m)) same.skipped }
  answer m w w' same := by
    change unreported allowlist.entries (g.compare _ m plan none w'.session.host).1 =
      unreported allowlist.entries (g.compare _ m plan allowlist.source w.session.host).1
    rw [same.session.host, ignores.compare_eq]
  call m w w' same := by
    refine { same with
      session := ⟨?_, same.session.journal, same.session.milestones, ?_⟩ }
    · change (g.compare _ m plan none w'.session.host).2 =
        (g.compare _ m plan allowlist.source w.session.host).2
      rw [same.session.host, ignores.compare_eq]
    · let baseline := m.digestPath directory
      change (w'.session.calls ++ [Call.compare m baseline none]).map Call.unlisted =
        (w.session.calls ++ [Call.compare m baseline allowlist.source]).map Call.unlisted
      rw [List.map_append, List.map_append, same.session.calls]
      rfl
  report m a w w' same := by
    rcases a with (e | c) | words
    · exact { same with
        session := same.session.emit _
        failures := congrArg (SharedStore.append · 0 (m, e.message)) same.failures }
    · have hresult := resultFor_unreported m allowlist c
      simp only [unreported, duty_report_ok, hresult]
      exact { same with
        session := same.session.mark _
        results := congrArg (SharedStore.append · 0 (resultFor m allowlist c)) same.results }
    · exact same
  settle task m a w w' same := by
    rcases a with (e | c) | words
    · exact same
    · exact same
    · exact { same with
        session := same.session.emit _
        aborted := congrArg (ModuleMap.insert · m (crashText task words)) same.aborted }

/-- The comparisons end with one outcome, whether messages are allowed or were never reported. -/
theorem compareAll_unreported (modules : ModuleSet) (width : Nat) (schedule : Pool.Schedule)
    (s : Session) :
    Run.EndAlike
      (compareAll g plan directory allowlist generationFailures modules width schedule)
      (compareAll (g.without allowlist.entries) plan directory .empty generationFailures modules width
        schedule) s s := by
  unfold compareAll Run.pooled
  split
  · exact ⟨rfl, .refl s⟩
  · have first : Resembles (ofSession s) (ofSession s) := ⟨.refl s, rfl, rfl, rfl, rfl⟩
    have same := (Pool.abreast_run (tracks ignores plan directory allowlist generationFailures)
      schedule (Pool.abreast_init first width modules.toList)).world
    refine ⟨congrArg Except.ok ?_, same.session⟩
    simp only [outcome, same.skipped, same.results, same.failures, same.aborted]

end Comparing

namespace Engine

variable (engine : Engine) (options : RunOptions)

def chosen : Run (Revision × ModuleSet) := do
  let c := engine.collaborators
  let revision ← Run.ask (.resolve options.treeish) (c.versionControl.resolve options.treeish)
  let graph ← Run.ask (.graph engine.packageRoot) (c.buildSystem.graph engine.packageRoot)
  let modules ← engine.chooseModules options revision graph
  return (revision, modules)

def withoutReports (messages : List String) : Engine :=
  engine.withDigester (engine.collaborators.digester.without messages)

def finish (timing : Timing) (p : Prepared) : Run RunReport := do
  let c := engine.collaborators
  let baseline ← Baseline.prepare c p.modules p.revision options.baselineDirectory
    options.regenerate timing.dumps
  let dumps := baseline.dumps
  let ready := .baselineReady baseline.directory.path dumps.dumped.size dumps.generationFailures.size
  Run.update (Session.mark · ready)
  let outcome ← (compareAll c.digester p.plan baseline.directory.path p.allowlist
    dumps.generationFailures p.modules c.buildSystem.workers timing.comparisons).onHalt
      baseline.directory.close
  conclude options p.revision baseline outcome

theorem prepare_eq : engine.prepare options = do
    let choice ← engine.chosen options
    let allowlist ← loadAllowlist options
    let plan ← Run.ask (.build engine.packageRoot)
      (engine.collaborators.buildSystem.build engine.packageRoot)
    return ⟨choice.1, choice.2, allowlist, plan⟩ := by
  simp only [prepare, chosen, chooseModules, loadAllowlist, bind_assoc, pure_bind]

variable {engine options} {timing : Timing} {s : Session} {path : Path} {content : String}

/-- The allowlist can be read when its turn comes. -/
def CanRead (engine : Engine) (options : RunOptions) (s : Session) (path : Path) (content : String) :
    Prop :=
  options.allowlist = some path ∧
    ∀ choice u, engine.chosen options s = (.ok choice, u) → u.host.readText path = .ok content

theorem loadAllowlist_of_readText (listed : options.allowlist = some path) {u : Session}
    (h : u.host.readText path = .ok content) :
    loadAllowlist options u = (.ok { Allowlist.parse content with source := some path }, u) := by
  have hload : Allowlist.load u.host options.allowlist =
      .ok { Allowlist.parse content with source := some path } := by
    rw [listed, Allowlist.load, h]
  change Run.ofExcept (Allowlist.load u.host options.allowlist) u = _
  rw [hload]
  rfl

theorem prepare_withoutReports (canRead : engine.CanRead options s path content) :
    (∃ e t, engine.prepare options s = (.error e, t) ∧
      (engine.withoutReports (Allowlist.parse content).entries).prepare
        { options with allowlist := none } s = (.error e, t)) ∨
    ∃ p t, p.allowlist = { Allowlist.parse content with source := some path } ∧
      engine.prepare options s = (.ok p, t) ∧
      (engine.withoutReports (Allowlist.parse content).entries).prepare
        { options with allowlist := none } s = (.ok { p with allowlist := .empty }, t) := by
  obtain ⟨listed, readable⟩ := canRead
  rw [prepare_eq, prepare_eq]
  rcases hchosen : engine.chosen options s with ⟨e | choice, u⟩
  · have hchosen' : (engine.withoutReports (Allowlist.parse content).entries).chosen
        { options with allowlist := none } s = (.error e, u) := hchosen
    exact .inl ⟨e, u, Run.bind_of_error hchosen, Run.bind_of_error hchosen'⟩
  · have hchosen' : (engine.withoutReports (Allowlist.parse content).entries).chosen
        { options with allowlist := none } s = (.ok choice, u) := hchosen
    rw [Run.bind_of_ok hchosen, Run.bind_of_ok hchosen',
      Run.bind_of_ok (loadAllowlist_of_readText listed (readable _ u hchosen)),
      Run.bind_of_ok (rfl : loadAllowlist { options with allowlist := none } u = (.ok .empty, u))]
    let build : Run BuildPlan := Run.ask (.build engine.packageRoot)
      (engine.collaborators.buildSystem.build engine.packageRoot)
    rcases hbuild : build u with ⟨e | plan, t⟩
    · exact .inl ⟨e, t, Run.bind_of_error hbuild, Run.bind_of_error hbuild⟩
    · exact .inr ⟨⟨choice.1, choice.2, _, plan⟩, t, rfl, Run.bind_of_ok hbuild,
        Run.bind_of_ok hbuild⟩

variable (options) in
theorem finish_withoutReports (ignores : engine.collaborators.digester.IgnoresAllowlist)
    (p : Prepared) (timing : Timing) (t : Session) :
    Run.EndAlike (engine.finish options timing p)
      ((engine.withoutReports p.allowlist.entries).finish { options with allowlist := none } timing
        { p with allowlist := .empty }) t t := by
  rcases hb : Baseline.prepare engine.collaborators p.modules p.revision options.baselineDirectory
    options.regenerate timing.dumps t with ⟨e | b, u⟩
  · have hlisted : engine.finish options timing p t = (.error e, u) := Run.bind_of_error hb
    have hunlisted : (engine.withoutReports p.allowlist.entries).finish
        { options with allowlist := none } timing { p with allowlist := .empty } t = (.error e, u) :=
      Run.bind_of_error hb
    rw [Run.EndAlike, hlisted, hunlisted]
    exact ⟨rfl, .refl u⟩
  · let ready : Milestone :=
      .baselineReady b.directory.path b.dumps.dumped.size b.dumps.generationFailures.size
    have hcompared := (Comparing.compareAll_unreported ignores p.plan b.directory.path p.allowlist
      b.dumps.generationFailures p.modules engine.collaborators.buildSystem.workers
      timing.comparisons (u.mark ready)).onHalt fun _ _ same => same.close b.directory
    have hrest := hcompared.bind fun o v w same =>
      show Run.EndAlike (liftM (conclude options p.revision b o))
        (liftM (conclude { options with allowlist := none } p.revision b o)) v w from
          ⟨rfl, (same.emitAll _).mark _⟩
    have hlisted : engine.finish options timing p t = _ := Run.bind_of_ok hb
    have hunlisted : (engine.withoutReports p.allowlist.entries).finish
        { options with allowlist := none } timing { p with allowlist := .empty } t = _ :=
      Run.bind_of_ok hb
    rw [Run.EndAlike, hlisted, hunlisted]
    exact hrest

/-- In the same order of events, both runs end with the same. -/
theorem run_withoutReports (canRead : engine.CanRead options s path content)
    (ignores : engine.collaborators.digester.IgnoresAllowlist) (timing : Timing) :
    Run.EndAlike (engine.run timing options)
      ((engine.withoutReports (Allowlist.parse content).entries).run timing
        { options with allowlist := none }) s s := by
  rw [Run.EndAlike, run, run]
  rcases prepare_withoutReports canRead with ⟨e, t, hp, hp'⟩ | ⟨p, t, hallowlist, hp, hp'⟩
  · rw [Run.bind_of_error hp, Run.bind_of_error hp']
    exact ⟨rfl, .refl t⟩
  · have hfinished := finish_withoutReports options ignores p timing t
    rw [hallowlist] at hfinished
    rw [Run.bind_of_ok hp, Run.bind_of_ok hp']
    exact hfinished

end Engine

theorem Session.Reorders.resembles {s t u u' : Session} (h : s.Reorders t u)
    (resembles : u.Resembles u') : s.Reorders t u' := by
  obtain ⟨events, milestones⟩ := h
  rw [← resembles.journal] at events
  rw [← resembles.milestones] at milestones
  exact ⟨events, milestones⟩

/-- None of the messages is shown as a breaking change, in a result, in a line or in the summary. -/
structure RunReport.PassesOver (messages : List String) (r : RunReport) : Prop where
  results : ∀ c ∈ r.outcome.results, ∀ d ∈ c.breakingChanges, d.message ∉ messages
  lines : r.report.lines = r.outcome.requested.toList.flatMap (Report.block r.outcome)
  blocks : ∀ m, Report.block r.outcome m = [] ∨ ∃ (line : String) (changes : List String),
    Report.block r.outcome m = line :: changes.map (Report.changeMark ++ ·) ∧
      ∀ message ∈ changes, message ∉ messages
  modules : ∀ now, ∀ entry ∈ (r.summary now).modules, ∀ message ∈ entry.breakingChanges,
    message ∉ messages

namespace Comparing

variable {directory : Path} {allowlist : Allowlist} {generationFailures modules : ModuleSet}
  {s : Session} {ds : History} {w : Comparing}
  (kept : Kept directory allowlist generationFailures s ds w) (covers : ds.Covers modules.toList)
include kept covers

theorem message_not_mem {c : Comparison} (hc : c ∈ (w.outcome modules).results) {d : Diagnostic}
    (hd : d ∈ c.breakingChanges) : d.message ∉ allowlist.entries := by
  obtain ⟨r, -, hresult⟩ := (mem_results_outcome kept covers).1 hc
  obtain ⟨found, -, rfl⟩ := result?_eq_some_iff.1 hresult
  simpa [Allowlist.contains] using (List.mem_filter.1 hd).2

theorem verdict_passed_iff : (Verdict.ofOutcome (w.outcome modules)).passed = true ↔
    ∀ r ∈ ds.answers, ∃ found, r.2 = .returned (.ok found) ∧
      ∀ d ∈ found.breakingChanges, d.message ∈ allowlist.entries := by
  rw [Verdict.passed_ofOutcome_iff, failed_eq_nil_iff kept covers]
  constructor
  · rintro ⟨hcauses, hclean⟩ r hr
    obtain ⟨c, hc⟩ := cause?_eq_none_iff.1 (hcauses r hr)
    have hresult := hclean c ((mem_results_outcome kept covers).2 ⟨r, hr, hc⟩)
    obtain ⟨found, ha, rfl⟩ := result?_eq_some_iff.1 hc
    refine ⟨found, ha, ?_⟩
    simpa [Comparison.isClean, Allowlist.contains] using hresult
  · intro h
    constructor
    · intro r hr
      obtain ⟨found, ha, -⟩ := h r hr
      rw [ha]
      rfl
    · intro c hc
      obtain ⟨r, hr, hresult⟩ := (mem_results_outcome kept covers).1 hc
      obtain ⟨found, ha, rfl⟩ := result?_eq_some_iff.1 hresult
      obtain ⟨found', ha', hallowed⟩ := h r hr
      cases ha.symm.trans ha'
      simpa [Comparison.isClean, Allowlist.contains] using hallowed

end Comparing

namespace Outcome

variable {o : Outcome} {messages : List String}
  (h : ∀ c ∈ o.results, ∀ d ∈ c.breakingChanges, d.message ∉ messages)
include h

theorem changes_not_mem {m : ModuleName} {c : Comparison} (hc : o.result? m = some c) :
    ∀ message ∈ c.changes, message ∉ messages := by
  intro message hmessage
  obtain ⟨d, hd, rfl⟩ := List.mem_map.1 hmessage
  exact h c (List.mem_of_find?_eq_some hc) d hd

theorem block_not_mem (m : ModuleName) :
    Report.block o m = [] ∨ ∃ (line : String) (changes : List String),
      Report.block o m = line :: changes.map (Report.changeMark ++ ·) ∧
        ∀ message ∈ changes, message ∉ messages := by
  rw [Report.block]
  cases o.skipped.get? m with
  | some reason => exact .inr ⟨Report.skipLine m reason, [], rfl, by simp⟩
  | none =>
    cases hc : o.result? m with
    | none => exact .inl rfl
    | some c => exact .inr ⟨Report.header c, c.changes, rfl, changes_not_mem h hc⟩

theorem entry_not_mem (m : ModuleName) :
    ∀ message ∈ (ModuleEntry.ofOutcome o m).breakingChanges, message ∉ messages := by
  rw [ModuleEntry.ofOutcome]
  cases o.skipped.get? m with
  | some reason => simp
  | none =>
    cases o.failed.get? m with
    | some error => simp
    | none =>
      cases hc : o.result? m with
      | none => simp
      | some c => exact changes_not_mem h hc

end Outcome

namespace Engine

section

variable {engine : Engine} {options : RunOptions} {timing : Timing} {s t : Session} {p : Prepared}
  {b : Baseline} {r : RunReport}

theorem passesOver_conclude
    (concluded : conclude options p.revision b (engine.comparisons timing p b s).1
      (engine.comparisons timing p b s).2 = (r, t)) :
    r.PassesOver p.allowlist.entries ∧
      (r.verdict.passed = true ↔ ∀ answered ∈ (engine.history timing p b s).answers,
        ∃ found, answered.2 = .returned (.ok found) ∧
          ∀ d ∈ found.breakingChanges, d.message ∈ p.allowlist.entries) := by
  have kept := engine.kept_history timing p b s
  have covers := engine.covers_history timing p b s
  have hresults : ∀ c ∈ (engine.comparisons timing p b s).1.results, ∀ d ∈ c.breakingChanges,
      d.message ∉ p.allowlist.entries := fun _ hc _ hd => Comparing.message_not_mem kept covers hc hd
  cases concluded
  refine ⟨⟨hresults, rfl, Outcome.block_not_mem hresults, fun now entry hentry => ?_⟩,
    Comparing.verdict_passed_iff kept covers⟩
  obtain ⟨m, -, rfl⟩ := List.mem_map.1 hentry
  exact Outcome.entry_not_mem hresults m

end

variable (engine : Engine) (options : RunOptions) (s : Session) (path : Path) (content : String)

end Engine

end Breakage
