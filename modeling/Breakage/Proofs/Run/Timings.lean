import Breakage.Proofs.Run.Schedules
import Breakage.Proofs.Run.Siblings

/-!
A run in two orders of events. Where a digester does for each module what it would do for this module
alone, the calls have the same answers in both orders (`Pool.answers_perm_of_concur`), so that the same
digests are made and the same is found. Only the order changes in which the tasks are heard of. Main
statement: `Engine.run_timings`.
-/

namespace Breakage

/-- What is done for a module is the same, whatever is done for the others before. -/
structure Digester.IsSteady (g : Digester) : Prop where
  own : g.WritesOwn
  agrees : ∀ k : ModuleName, k.isIdentifier = true → g.AgreesOn g k

namespace Baseline

namespace Dumping

@[simp] def warning? : Answered → Option Event
  | (task, .returned (.error e)) => some (failureWarning task.job e)
  | (task, .crashed words) => some (crashWarning task.number words)
  | _ => none

theorem filterMap_event? (ds : History) : ds.filterMap event? = ds.joins.filterMap warning? := by
  rw [Pool.History.joins, List.filterMap_filterMap]
  refine List.filterMap_congr fun deed _ => ?_
  cases deed with
  | joined task a => rcases a with (e | ⟨⟨⟩⟩) | words <;> rfl
  | _ => rfl

end Dumping

section

variable {g : Digester} {plan : BuildPlan} {directory : Path} {defined needed : ModuleSet}
  {width : Nat} {s : Session}

theorem milestones_dumpAll {schedule : Pool.Schedule} :
    (dumpAll g plan directory defined needed width schedule).Relates fun s t =>
      t.milestones = s.milestones := by
  refine Run.Relates.pooled (R := fun s t => t.milestones = s.milestones) (fun _ => rfl) fun s => ?_
  have hjoined := (Pool.leads_run (duty g plan directory defined) schedule
    (Dumping.start s width needed)).induct (fun _ w => w.session.milestones = s.milestones) rfl
      fun _ w deed same _ => by
        cases deed with
        | reported task a => rcases a with (e | ⟨⟨⟩⟩) | words <;> exact same
        | joined task a => rcases a with (e | ⟨⟨⟩⟩) | words <;> exact same
        | _ => exact same
  have hswept : ∀ (ms : List ModuleName) (w : Dumping),
      (ms.foldl (sweep directory) w).session.milestones = w.session.milestones := by
    intro ms w
    induction ms generalizing w with
    | nil => rfl
    | cons m rest ih => exact ih (sweep directory w m)
  exact (hswept _ _).trans hjoined

variable (steady : g.IsSteady)
include steady

theorem dumpAll_timings (identifiers : ∀ j ∈ needed, j.isIdentifier = true)
    {schedule₁ schedule₂ : Pool.Schedule} {t₁ t₂ : Session} {d₁ d₂ : Dumps}
    (run₁ : dumpAll g plan directory defined needed width schedule₁ s = (.ok d₁, t₁))
    (run₂ : dumpAll g plan directory defined needed width schedule₂ s = (.ok d₂, t₂)) :
    d₁ = d₂ ∧ (∃ warnings₁ warnings₂, t₁.journal = s.journal.emitAll warnings₁ ∧
      t₂.journal = s.journal.emitAll warnings₂ ∧ warnings₁.Perm warnings₂ ∧
      ∀ e ∈ warnings₁, e.isError = false) ∧
    ∀ k : ModuleName, k.isIdentifier = true → t₁.host.Akin directory k t₂.host := by
  have hakin : ∀ k : ModuleName, k.isIdentifier = true → t₁.host.Akin directory k t₂.host :=
    fun k hk => (akin_dumpAll (steady.agrees k hk) steady.own steady.own hk identifiers run₁ run₂).1
  obtain ⟨ds₁, p₁, leads₁, covers₁, started₁, hend₁⟩ := leads_dumpAll run₁
  obtain ⟨ds₂, p₂, leads₂, covers₂, started₂, hend₂⟩ := leads_dumpAll run₂
  have kept₁ := Dumping.kept_of_leads g plan defined leads₁
  have kept₂ := Dumping.kept_of_leads g plan defined leads₂
  have concur : ∀ m ∈ needed.toList, Pool.Concur m ds₁ ds₂ := by
    intro m hm
    have hid := identifiers m (ModuleSet.mem_def.2 hm)
    have hmirrors : (duty g plan directory defined).Mirrors (ownDuty g plan directory defined)
        needed.toList m fun h w => h.Akin directory m w.session.host :=
      mirrors (steady.agrees m hid) steady.own hid identifiers
    exact (Pool.concur_of_leads hmirrors hmirrors needed.nodup (Host.Akin.refl directory m s.host)
      (Host.Akin.refl directory m s.host) leads₁ leads₂ covers₁ covers₂).1
  have answers := Pool.answers_perm_of_concur needed.nodup covers₁ covers₂ concur
  have hdumps : d₁ = d₂ := by
    have counted₁ := counted_afterTasks kept₁ covers₁ started₁
    have counted₂ := counted_afterTasks kept₂ covers₂ started₂
    rw [hend₁] at counted₁
    rw [hend₂] at counted₂
    obtain ⟨dumped₁, failures₁, absent₁⟩ := d₁
    obtain ⟨dumped₂, failures₂, absent₂⟩ := d₂
    have hdumped : dumped₁ = dumped₂ := ModuleSet.ext_mem fun m => by
      simp only [counted₁.dumped m, counted₂.dumped m, answers.mem_iff]
    have hfailures : failures₁ = failures₂ := ModuleSet.ext_mem fun m => by
      simp only [counted₁.generationFailures m, counted₂.generationFailures m, answers.mem_iff]
    have habsent : absent₁ = absent₂ := ModuleSet.ext_mem fun m => by
      rw [counted₁.notInBaseline m, counted₂.notInBaseline m]
      by_cases hm : m ∈ needed.toList
      · exact (concur m hm).refused
      · exact (Pool.Concur.of_not_mem hm covers₁ covers₂).refused
    rw [hdumped, hfailures, habsent]
  have hjournal₁ := (journal_afterTasks directory p₁).trans kept₁.journal
  have hjournal₂ := (journal_afterTasks directory p₂).trans kept₂.journal
  rw [hend₁] at hjournal₁
  rw [hend₂] at hjournal₂
  refine ⟨hdumps, ⟨_, _, hjournal₁, hjournal₂, ?_, fun e he => ?_⟩, hakin⟩
  · rw [Dumping.filterMap_event?, Dumping.filterMap_event?]
    exact (covers₁.joins.trans (answers.trans covers₂.joins.symm)).filterMap _
  · obtain ⟨deed, -, hdeed⟩ := List.mem_filterMap.1 he
    exact isError_of_event? hdeed

end

theorem prepare_timings {c : Collaborators} (steady : c.digester.IsSteady) {modules : ModuleSet}
    (identifiers : ∀ j ∈ modules, j.isIdentifier = true) {revision : Revision} {named : Option Path}
    {regenerate : Bool} {schedule schedule' : Pool.Schedule} {s t t' : Session} {b b' : Baseline}
    (run : prepare c modules revision named regenerate schedule s = (.ok b, t))
    (run' : prepare c modules revision named regenerate schedule' s = (.ok b', t')) :
    b = b' ∧ t.milestones = t'.milestones ∧ (∃ warnings warnings',
      t.journal = s.journal.emitAll warnings ∧ t'.journal = s.journal.emitAll warnings' ∧
        warnings.Perm warnings' ∧ ∀ e ∈ warnings, e.isError = false) ∧
    ∀ k : ModuleName, k.isIdentifier = true → t.host.Alike b.directory.path k t'.host := by
  have hdirectory : b'.directory = b.directory := directory_prepare run run'
  have halike : ∀ k : ModuleName, k.isIdentifier = true →
      t.host.Alike b.directory.path k t'.host := fun k hk =>
    (alike_prepare run run' rfl (steady.agrees k hk) steady.own steady.own hk identifiers).1
  obtain ⟨directory, dumps⟩ := b
  obtain ⟨directory', dumps'⟩ := b'
  obtain rfl : directory' = directory := hdirectory
  obtain ⟨u, hopened, hrest⟩ := prepare_eq_ok.1 run
  obtain ⟨u', hopened', hrest'⟩ := prepare_eq_ok.1 run'
  obtain rfl := (Prod.mk.inj (hopened'.symm.trans hopened)).2
  have hjournal : u'.journal = s.journal := by rw [opened_eq hopened]
  simp only at hrest hrest'
  split at hrest
  · rename_i hempty
    rw [if_pos hempty] at hrest'
    obtain ⟨rfl, rfl⟩ := hrest
    obtain ⟨rfl, rfl⟩ := hrest'
    exact ⟨rfl, rfl, ⟨[], [], hjournal, hjournal, .nil, nofun⟩, halike⟩
  · rename_i hempty
    rw [if_neg hempty] at hrest'
    obtain ⟨arrival, v, w, harrive, hdumps, rfl⟩ := hrest
    obtain ⟨arrival', v', w', harrive', hdumps', rfl⟩ := hrest'
    obtain ⟨harrival, rfl⟩ := Prod.mk.inj (harrive'.symm.trans harrive)
    obtain rfl := Except.ok.inj harrival
    obtain ⟨rfl, ⟨warnings, warnings', hw, hw', hshown⟩, -⟩ := dumpAll_timings steady
      (fun j hj => identifiers j (mem_needed.1 hj).1) hdumps hdumps'
    rw [(arrive_record harrive).1, hjournal] at hw hw'
    exact ⟨rfl, (milestones_dumpAll.of_eq hdumps).trans (milestones_dumpAll.of_eq hdumps').symm,
      ⟨warnings, warnings', hw, hw', hshown⟩, halike⟩

end Baseline

namespace Comparing

def milestone? (allowlist : Allowlist) (r : Answered) : Option Milestone :=
  (result? allowlist r).map fun c => .compared c.module c.breakingChanges.length

variable {g : Digester} {plan : BuildPlan} {directory : Path} {allowlist : Allowlist}
  {generationFailures modules : ModuleSet}

theorem milestones_of_leads {s : Session} {width : Nat} {jobs : List ModuleName} {ds : History}
    {p : Pool Comparing ModuleName Answer}
    (h : Pool.Leads (duty g plan directory allowlist generationFailures)
      (Pool.init (.ofSession s) width jobs) ds p) :
    p.world.session.milestones = s.milestones ++ ds.reports.filterMap (milestone? allowlist) := by
  refine h.induct (fun es w =>
    w.session.milestones = s.milestones ++ es.reports.filterMap (milestone? allowlist))
    (List.append_nil _).symm fun es w deed same _ => ?_
  cases deed with
  | reported task a =>
    rw [Pool.History.reports_snoc, List.filterMap_append, ← List.append_assoc, ← same]
    rcases a with (e | c) | words
    · exact (List.append_nil _).symm
    · rfl
    · exact (List.append_nil _).symm
  | joined task a => rcases a with r | words <;> simpa using same
  | _ => simpa using same

theorem agrees_of_concur {directory' : Path} {s₁ s₂ : Session} {ds₁ ds₂ : History}
    {w₁ w₂ : Comparing} (kept₁ : Kept directory allowlist generationFailures s₁ ds₁ w₁)
    (kept₂ : Kept directory' allowlist generationFailures s₂ ds₂ w₂)
    (covers₁ : ds₁.Covers modules.toList) (covers₂ : ds₂.Covers modules.toList)
    (concur : ∀ m ∈ modules.toList, Pool.Concur m ds₁ ds₂) :
    (w₁.outcome modules).Agrees (w₂.outcome modules) := by
  refine agrees_of_answers kept₁ kept₂ covers₁ covers₂
    (Pool.answers_perm_of_concur modules.nodup covers₁ covers₂ concur) fun m => ?_
  by_cases hm : m ∈ modules.toList
  · exact (concur m hm).refused
  · exact (Pool.Concur.of_not_mem hm covers₁ covers₂).refused

theorem compareAll_timings (steady : g.IsSteady)
    (identifiers : ∀ j ∈ modules, j.isIdentifier = true) {width : Nat}
    {schedule₁ schedule₂ : Pool.Schedule} {s₁ s₂ t₁ t₂ : Session} {o₁ o₂ : Outcome}
    (alike : ∀ k : ModuleName, k.isIdentifier = true → s₁.host.Alike directory k s₂.host)
    (run₁ : compareAll g plan directory allowlist generationFailures modules width schedule₁ s₁ =
      (.ok o₁, t₁))
    (run₂ : compareAll g plan directory allowlist generationFailures modules width schedule₂ s₂ =
      (.ok o₂, t₂)) :
    o₁.Agrees o₂ ∧ (o₁.results.map Comparison.module).Nodup ∧
      (∃ errors₁ errors₂, t₁.journal = s₁.journal.emitAll errors₁ ∧
        t₂.journal = s₂.journal.emitAll errors₂ ∧ errors₁.Perm errors₂ ∧
        ∀ e ∈ errors₁, e.isError = true) ∧
      ∃ counts₁ counts₂, t₁.milestones = s₁.milestones ++ counts₁ ∧
        t₂.milestones = s₂.milestones ++ counts₂ ∧ counts₁.Perm counts₂ ∧
        ∀ c ∈ counts₁, ∃ m changes, c = .compared m changes := by
  obtain ⟨ds₁, p₁, leads₁, covers₁, rfl, rfl⟩ := leads_compareAll run₁
  obtain ⟨ds₂, p₂, leads₂, covers₂, rfl, rfl⟩ := leads_compareAll run₂
  have kept₁ := kept_of_leads g plan leads₁
  have kept₂ := kept_of_leads g plan leads₂
  have concur : ∀ m ∈ modules.toList, Pool.Concur m ds₁ ds₂ := by
    intro m hm
    have hid := identifiers m (ModuleSet.mem_def.2 hm)
    have hmirrors : (duty g plan directory allowlist generationFailures).Mirrors
        (ownDuty g plan directory allowlist) modules.toList m fun h w =>
          h.Alike directory m w.session.host :=
      mirrors (steady.agrees m hid) steady.own hid identifiers
    exact (Pool.concur_of_leads hmirrors hmirrors modules.nodup
      (Host.Alike.refl directory m s₁.host) (alike m hid) leads₁ leads₂ covers₁ covers₂).1
  have answers := Pool.answers_perm_of_concur modules.nodup covers₁ covers₂ concur
  have agrees := agrees_of_concur kept₁ kept₂ covers₁ covers₂ concur
  refine ⟨agrees, nodup_modules_results kept₁ covers₁,
    ⟨_, _, kept₁.journal, kept₂.journal, ?_, fun e he => ?_⟩,
    ⟨_, _, milestones_of_leads leads₁, milestones_of_leads leads₂, ?_, fun c hc => ?_⟩⟩
  · refine (events_perm kept₁ covers₁).trans ?_
    rw [agrees.failed]
    exact (events_perm kept₂ covers₂).symm
  · obtain ⟨entry, -, rfl⟩ := List.mem_map.1 ((events_perm kept₁ covers₁).mem_iff.1 he)
    rfl
  · exact (covers₁.reports.trans (answers.trans covers₂.reports.symm)).filterMap _
  · obtain ⟨r, -, hr⟩ := List.mem_filterMap.1 hc
    obtain ⟨found, -, rfl⟩ := Option.map_eq_some_iff.1 hr
    exact ⟨_, _, rfl⟩

end Comparing

/-- Two reports that differ in nothing but the order in which the results came in. -/
structure RunReport.Agrees (r r' : RunReport) : Prop where
  treeish : r.treeish = r'.treeish
  revision : r.revision = r'.revision
  outcome : r.outcome.Agrees r'.outcome
  report : r.report = r'.report
  verdict : r.verdict = r'.verdict
  modules : ∀ now, (r.summary now).modules = (r'.summary now).modules

/-- From one session on, the same was shown and noted, but for the order in which tasks were heard of
while digests were made and while modules were compared. -/
structure Session.Reorders (s t t' : Session) : Prop where
  events : ∃ warnings warnings' errors errors' shown,
    t.journal.events = s.journal.events ++ warnings ++ errors ++ shown ∧
    t'.journal.events = s.journal.events ++ warnings' ++ errors' ++ shown ∧
    warnings.Perm warnings' ∧ (∀ e ∈ warnings, e.isError = false) ∧
    errors.Perm errors' ∧ ∀ e ∈ errors, e.isError = true
  milestones : ∃ before counts counts' judged,
    t.milestones = before ++ counts ++ [judged] ∧ t'.milestones = before ++ counts' ++ [judged] ∧
    counts.Perm counts' ∧ ∀ c ∈ counts, ∃ m changes, c = .compared m changes

namespace Engine

variable {engine : Engine} {options : RunOptions} {s : Session}

theorem run_timings (steady : engine.collaborators.digester.IsSteady)
    (identifiers : ∀ p u, engine.prepare options s = (.ok p, u) →
      ∀ k ∈ p.modules, k.isIdentifier = true) (timing timing' : Timing) :
    (∀ e t, engine.run timing' options s = (.error e, t) ↔
      engine.run timing options s = (.error e, t)) ∧
    ∀ r t r' t', engine.run timing options s = (.ok r, t) →
      engine.run timing' options s = (.ok r', t') →
        r.Agrees r' ∧ r.baseline = r'.baseline ∧ s.Reorders t t' := by
  have same : engine.collaborators.digester.language = engine.collaborators.digester.language := rfl
  refine ⟨fun _ _ => run_withDigester same, fun r t r' t' run run' => ?_⟩
  obtain ⟨p, b, w, hready, hconclude⟩ := run_eq_ok.1 run
  obtain ⟨p', b', w', hready', hconclude'⟩ := run_eq_ok.1 run'
  obtain ⟨u, v, hp, hb, rfl, -⟩ := ready_eq_ok.1 hready
  obtain ⟨u', v', hp', hb', rfl, -⟩ := ready_eq_ok.1 hready'
  obtain ⟨hprepared, rfl⟩ := Prod.mk.inj (hp'.symm.trans hp)
  obtain rfl := Except.ok.inj hprepared
  have hidentifiers := identifiers _ _ hp
  obtain ⟨rfl, hmilestones, ⟨warnings, warnings', hw, hw', hwarned⟩, halike⟩ :=
    Baseline.prepare_timings steady hidentifiers hb hb'
  let ready : Milestone :=
    .baselineReady b.directory.path b.dumps.dumped.size b.dumps.generationFailures.size
  have hcompared := compareAll_of_ready hready
  have hcompared' := compareAll_of_ready hready'
  have hsame : ∀ k : ModuleName, k.isIdentifier = true →
      (v.mark ready).host.Alike b.directory.path k (v'.mark ready).host := halike
  obtain ⟨agrees, nodup, ⟨errors, errors', he, he', hfailed⟩, counts, counts', hc, hc', hcounts⟩ :=
    Comparing.compareAll_timings steady hidentifiers hsame hcompared hcompared'
  rw [Session.mark_journal, hw, (prepare_record hp).1] at he
  rw [Session.mark_journal, hw', (prepare_record hp).1] at he'
  rw [Session.mark_milestones] at hc
  rw [Session.mark_milestones, ← hmilestones] at hc'
  cases hconclude
  cases hconclude'
  have hverdict := agrees.verdict_eq nodup
  let o := (engine.comparisons timing p' b (v.mark ready)).1
  let judged : Milestone :=
    .judged (Verdict.ofOutcome o).passed (Verdict.ofOutcome o).violations.length
  refine ⟨⟨rfl, rfl, agrees, agrees.report_eq nodup, hverdict, fun now =>
    agrees.modules_summary_eq nodup now _ _ (Verdict.ofOutcome o)⟩, rfl,
    ⟨warnings, warnings', errors, errors', Report.events o, ?_, ?_, hwarned.1, hwarned.2, hfailed⟩,
    ⟨v.milestones ++ [ready], counts, counts', judged, ?_, ?_, hcounts⟩⟩
  · rw [Session.mark_journal, Session.emitAll_journal, he, Journal.events_emitAll,
      Journal.events_emitAll, Journal.events_emitAll]
  · rw [Session.mark_journal, Session.emitAll_journal, he', Journal.events_emitAll,
      Journal.events_emitAll, Journal.events_emitAll, agrees.events_eq nodup]
  · rw [Session.mark_milestones, Session.emitAll_milestones, hc]
  · rw [Session.mark_milestones, Session.emitAll_milestones, hc']
    exact congrArg (fun found : Verdict => v.milestones ++ [ready] ++ counts' ++
      [.judged found.passed found.violations.length]) hverdict.symm

end Engine

end Breakage
