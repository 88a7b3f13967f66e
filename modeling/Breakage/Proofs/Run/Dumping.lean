import Breakage.Proofs.Module.Tables
import Breakage.Proofs.Pool.Completion
import Breakage.Proofs.Run.Digester
import Breakage.Proofs.Run.Session
import Breakage.Run.Baseline

/-!
What comes of making digests side by side, whatever the order of events. The sets of modules and the
calls are read off the history of the pool (`kept_of_leads`). A digest is as its dump left it, or
there is none (`filed_of_leads`).
-/

namespace Breakage

namespace Host

def LacksFile (h : Host) (directory : Path) (m : ModuleName) : Prop :=
  ∀ content, h.digest? directory m ≠ some (.file content)

theorem lacksFile_removeFile (h : Host) (directory : Path) (m : ModuleName) :
    (h.removeFile (m.digestPath directory)).LacksFile directory m := by
  intro content hc
  cases (item?_removeFile.1 hc).2

theorem LacksFile.removeFile {h : Host} {directory : Path} {m : ModuleName}
    (lacks : h.LacksFile directory m) (path : Path) :
    (h.removeFile path).LacksFile directory m := by
  intro content hc
  refine lacks content ?_
  unfold digest? item? at hc ⊢
  rw [(h.writes_removeFile path).place?_eq] at hc
  obtain ⟨p, hp, hl⟩ := Option.bind_eq_some_iff.1 hc
  rw [lookup_removeFile] at hl
  split at hl
  · cases hl
  · exact Option.bind_eq_some_iff.2 ⟨p, hp, hl⟩

end Host

namespace Baseline.Dumping

abbrev History := Pool.History ModuleName Dumped

abbrev Answered := Pool.Task ModuleName × Dumped

@[simp] def dumped? : Answered → Option ModuleName
  | (task, .returned (.ok ())) => some task.job
  | _ => none

@[simp] def failed? : Answered → Option ModuleName
  | (task, .returned (.error _)) => some task.job
  | _ => none

@[simp] def event? : Pool.Deed ModuleName Dumped → Option Event
  | .joined task (.returned (.error e)) => some (failureWarning task.job e)
  | .joined task (.crashed words) => some (crashWarning task.number words)
  | _ => none

def call (directory : Path) (m : ModuleName) : Call := .dump m (m.digestPath directory)

variable (digester : Digester) (plan : BuildPlan) (directory : Path) (defined : ModuleSet)

@[simp] theorem duty_refuse (m : ModuleName) (w : Dumping) :
    (duty digester plan directory defined).refuse m w =
      ⟨removeDigest directory m w.session,
        { w.dumps with notInBaseline := w.dumps.notInBaseline.insert m }⟩ := rfl

@[simp] theorem duty_call (m : ModuleName) (w : Dumping) :
    ((duty digester plan directory defined).call m w).2 =
      { w with session :=
        (w.session.ask (call directory m) (digester.dump m plan (m.digestPath directory))).2 } := rfl

@[simp] theorem duty_report_ok (m : ModuleName) (w : Dumping) :
    (duty digester plan directory defined).report m (.returned (.ok ())) w = w := rfl

@[simp] theorem duty_report_error (m : ModuleName) (e : Fault) (w : Dumping) :
    (duty digester plan directory defined).report m (.returned (.error e)) w =
      { w with session := removeDigest directory m w.session } := rfl

@[simp] theorem duty_report_crashed (m : ModuleName) (words : String) (w : Dumping) :
    (duty digester plan directory defined).report m (.crashed words) w = w := rfl

@[simp] theorem duty_settle_ok (task : Nat) (m : ModuleName) (w : Dumping) :
    (duty digester plan directory defined).settle task m (.returned (.ok ())) w =
      { w with dumps := { w.dumps with dumped := w.dumps.dumped.insert m } } := rfl

@[simp] theorem duty_settle_error (task : Nat) (m : ModuleName) (e : Fault) (w : Dumping) :
    (duty digester plan directory defined).settle task m (.returned (.error e)) w =
      ⟨w.session.emit (failureWarning m e),
        { w.dumps with generationFailures := w.dumps.generationFailures.insert m }⟩ := rfl

@[simp] theorem duty_settle_crashed (task : Nat) (m : ModuleName) (words : String) (w : Dumping) :
    (duty digester plan directory defined).settle task m (.crashed words) w =
      { w with session := w.session.emit (crashWarning task words) } := rfl

@[simp] theorem removeDigest_host (m : ModuleName) (s : Session) :
    (removeDigest directory m s).host = s.host.removeFile (m.digestPath directory) := rfl

@[simp] theorem removeDigest_calls (m : ModuleName) (s : Session) :
    (removeDigest directory m s).calls = s.calls := rfl

@[simp] theorem removeDigest_journal (m : ModuleName) (s : Session) :
    (removeDigest directory m s).journal = s.journal := rfl

structure Kept (s : Session) (ds : History) (w : Dumping) : Prop where
  dumped : w.dumps.dumped = .ofList (ds.joins.filterMap dumped?)
  generationFailures : w.dumps.generationFailures = .ofList (ds.joins.filterMap failed?)
  notInBaseline : w.dumps.notInBaseline = .ofList ds.refused
  calls : w.session.calls = s.calls ++ ds.answers.map fun r => call directory r.1.job
  journal : w.session.journal = s.journal.emitAll (ds.filterMap event?)

theorem kept_first (s : Session) : Kept directory s [] ⟨s, .none⟩ :=
  ⟨rfl, rfl, rfl, (List.append_nil _).symm, rfl⟩

variable {directory}

theorem Kept.step {s : Session} {ds : History} {w : Dumping} (h : Kept directory s ds w)
    (deed : Pool.Deed ModuleName Dumped) :
    Kept directory s (ds ++ [deed]) ((duty digester plan directory defined).effect w deed) := by
  obtain ⟨hdumped, hfailed, habsent, hcalls, hjournal⟩ := h
  cases deed with
  | refused m =>
    exact ⟨by simpa using hdumped, by simpa using hfailed, by simp [habsent],
      by simpa using hcalls, by simpa using hjournal⟩
  | admitted m | granted m | started task =>
    exact ⟨by simpa using hdumped, by simpa using hfailed, by simpa using habsent,
      by simpa using hcalls, by simpa using hjournal⟩
  | answered task a =>
    exact ⟨by simpa using hdumped, by simpa using hfailed, by simpa using habsent,
      by simp [hcalls], by simpa using hjournal⟩
  | reported task a =>
    rcases a with (e | ⟨⟨⟩⟩) | words
    all_goals exact ⟨by simpa using hdumped, by simpa using hfailed, by simpa using habsent,
      by simpa using hcalls, by simpa using hjournal⟩
  | joined task a =>
    rcases a with (e | ⟨⟨⟩⟩) | words
    · exact ⟨by simpa using hdumped, by simp [hfailed], by simpa using habsent,
        by simpa using hcalls, by simp [hjournal]⟩
    · exact ⟨by simp [hdumped], by simpa using hfailed, by simpa using habsent,
        by simpa using hcalls, by simpa using hjournal⟩
    · exact ⟨by simpa using hdumped, by simpa using hfailed, by simpa using habsent,
        by simpa using hcalls, by simp [hjournal]⟩

theorem kept_of_leads {s : Session} {width : Nat} {jobs : List ModuleName} {ds : History}
    {p : Pool Dumping ModuleName Dumped}
    (h : Pool.Leads (duty digester plan directory defined) (Pool.init ⟨s, .none⟩ width jobs) ds p) :
    Kept directory s ds p.world :=
  h.induct (Kept directory s) (kept_first directory s)
    fun _ _ deed hw _ => hw.step digester plan defined deed

/-! ### The files -/

@[simp] def removed? : Pool.Deed ModuleName Dumped → Option ModuleName
  | .refused m => some m
  | .reported task (.returned (.error _)) => some task.job
  | _ => none

@[simp] def touched? : Pool.Deed ModuleName Dumped → Option ModuleName
  | .answered task _ => some task.job
  | deed => removed? deed

section

variable {digester plan defined} (inPlace : digester.DumpsInPlace directory) {w : Dumping}
  {deed : Pool.Deed ModuleName Dumped}

theorem lacksFile_of_removed {m : ModuleName} (h : removed? deed = some m) :
    ((duty digester plan directory defined).effect w deed).session.host.LacksFile directory m := by
  unfold removed? at h
  split at h
  · cases h
    exact w.session.host.lacksFile_removeFile directory m
  · cases h
    exact w.session.host.lacksFile_removeFile directory _
  · cases h

include inPlace

theorem writes_effect (identifier : ∀ m, touched? deed = some m → m.isIdentifier = true) :
    w.session.host.WritesDigests directory (touched? deed).toList
      ((duty digester plan directory defined).effect w deed).session.host := by
  cases deed with
  | refused m => exact (w.session.host.writes_removeFile (m.digestPath directory)).digest
  | admitted m | granted m | started task => exact Host.WritesDigests.refl _ _ _
  | answered task a => exact inPlace task.job plan w.session.host (identifier _ rfl)
  | reported task a =>
    rcases a with (e | ⟨⟨⟩⟩) | words
    · exact (w.session.host.writes_removeFile (task.job.digestPath directory)).digest
    · exact Host.WritesDigests.refl _ _ _
    · exact Host.WritesDigests.refl _ _ _
  | joined task a =>
    rcases a with (e | ⟨⟨⟩⟩) | words
    all_goals exact Host.WritesDigests.refl _ _ _

theorem digest?_effect (identifier : ∀ m, touched? deed = some m → m.isIdentifier = true)
    {k : ModuleName} (hk : k.isIdentifier = true) (other : touched? deed ≠ some k) :
    ((duty digester plan directory defined).effect w deed).session.host.digest? directory k =
      w.session.host.digest? directory k := by
  refine (writes_effect inPlace identifier).digest?_eq hk (fun m hm => ?_) ?_
  · exact identifier m (Option.mem_toList.1 hm)
  · intro hmem
    exact other (Option.mem_toList.1 hmem)

theorem lacksFile_effect (identifier : ∀ m, touched? deed = some m → m.isIdentifier = true)
    {k : ModuleName} (hk : k.isIdentifier = true) (lacks : w.session.host.LacksFile directory k)
    (uncalled : ∀ task a, deed = .answered task a → task.job ≠ k) :
    ((duty digester plan directory defined).effect w deed).session.host.LacksFile directory k := by
  by_cases hr : removed? deed = some k
  · exact lacksFile_of_removed hr
  · intro content
    rw [digest?_effect inPlace identifier hk]
    · exact lacks content
    · intro ht
      unfold touched? at ht
      split at ht
      · exact uncalled _ _ rfl (Option.some.inj ht)
      · exact hr ht

end

variable (directory)

structure Filed (start : Dumping) (ds : History) (w : Dumping) : Prop where
  world : w = (duty digester plan directory defined).replay start ds
  writes : start.session.host.WritesDigests directory
    (ds.refused ++ ds.answers.map fun r => r.1.job) w.session.host
  absent : ∀ m ∈ ds.refused, w.session.host.LacksFile directory m
  failed : ∀ task e, (task, .returned (.error e)) ∈ ds.reports →
    w.session.host.LacksFile directory task.job
  left : ∀ es task es', ds = es ++ .answered task (.returned (.ok ())) :: es' →
    w.session.host.digest? directory task.job =
      ((duty digester plan directory defined).replay start
        (es ++ [.answered task (.returned (.ok ()))])).session.host.digest? directory task.job

variable {digester plan directory defined}

theorem mem_touched {es : History} {deed : Pool.Deed ModuleName Dumped} {jobs : List ModuleName}
    (orderly : Pool.History.Orderly (es ++ [deed]) jobs) {m : ModuleName}
    (h : touched? deed = some m) : m ∈ Pool.History.refused (es ++ [deed]) ++
      (Pool.History.answers (es ++ [deed])).map fun r => r.1.job := by
  rw [List.mem_append]
  cases deed with
  | refused k =>
    left
    simpa using .inr (Option.some.inj h).symm
  | answered task a =>
    right
    refine List.mem_map.2 ⟨(task, a), by simp, Option.some.inj h⟩
  | reported task a =>
    right
    rcases a with (e | ⟨⟨⟩⟩) | words
    · exact List.mem_map.2 ⟨_, orderly.reports (task, .returned (.error e)) (by simp),
        Option.some.inj h⟩
    · cases h
    · cases h
  | admitted k | granted k | started task | joined task a => cases h

/-- What a dump has left stays: the module is not refused, not dumped again and not taken away. -/
theorem untouched_of_ok {es : History} {deed : Pool.Deed ModuleName Dumped} {jobs : List ModuleName}
    (orderly : Pool.History.Orderly (es ++ [deed]) jobs) {task : Pool.Task ModuleName}
    (h : (task, .returned (.ok ())) ∈ es.answers) : touched? deed ≠ some task.job := by
  have hnow : (task, .returned (.ok ())) ∈ Pool.History.answers (es ++ [deed]) := by simp [h]
  intro ht
  cases deed with
  | refused m =>
    refine orderly.not_mem_refused hnow ?_
    rw [← Option.some.inj ht]
    simp
  | answered task' a => exact orderly.ne_job_of_concat rfl h (Option.some.inj ht).symm
  | reported task' a =>
    rcases a with (e | ⟨⟨⟩⟩) | words
    · have hfailed := orderly.reports (task', .returned (.error e)) (by simp)
      cases orderly.eq_of_job_eq hfailed hnow (Option.some.inj ht)
    · cases ht
    · cases ht
  | admitted m | granted m | started task' | joined task' a => cases ht

theorem Filed.step (inPlace : digester.DumpsInPlace directory) {jobs : List ModuleName}
    (identifiers : ∀ m ∈ jobs, m.isIdentifier = true) {start w : Dumping} {es : History}
    {deed : Pool.Deed ModuleName Dumped} (before : es.Orderly jobs)
    (orderly : Pool.History.Orderly (es ++ [deed]) jobs)
    (h : Filed digester plan directory defined start es w) :
    Filed digester plan directory defined start (es ++ [deed])
      ((duty digester plan directory defined).effect w deed) := by
  have hidentifier : ∀ m, touched? deed = some m → m.isIdentifier = true := fun m hm =>
    identifiers m (orderly.within m (mem_touched orderly hm))
  refine ⟨?_, ?_, ?_, ?_, ?_⟩
  · rw [Pool.Duty.replay_append, ← h.world]
    rfl
  · refine (h.writes.mono fun m hm => ?_).trans
      ((writes_effect inPlace hidentifier).mono fun m hm => ?_)
    · rcases List.mem_append.1 hm with hr | ha
      · simp [hr]
      · rw [Pool.History.answers_snoc, List.map_append]
        exact List.mem_append_right _ (List.mem_append_left _ ha)
    · exact mem_touched orderly (Option.mem_toList.1 hm)
  · -- a module that was refused before has no dump that could bring its file back
    intro m hm
    rw [Pool.History.refused_snoc, List.mem_append, Option.mem_toList] at hm
    rcases hm with hm | hm
    · have hin : m ∈ Pool.History.refused (es ++ [deed]) := by simp [hm]
      have hk := identifiers m (orderly.within m (List.mem_append_left _ hin))
      refine lacksFile_effect inPlace hidentifier hk (h.absent m hm) ?_
      rintro task a rfl rfl
      exact orderly.not_mem_refused (r := (task, a)) (by simp) hin
    · cases deed with
      | refused k => exact lacksFile_of_removed hm
      | _ => cases hm
  · -- and one whose dump has failed has had its only dump
    intro task e hr
    rw [Pool.History.reports_snoc, List.mem_append, Option.mem_toList] at hr
    rcases hr with hr | hr
    · have hanswer := before.reports _ hr
      have hk := identifiers _ (before.within _ (List.mem_append_right _ (List.mem_map_of_mem hanswer)))
      refine lacksFile_effect inPlace hidentifier hk (h.failed task e hr) ?_
      rintro task' a rfl hj
      exact orderly.ne_job_of_concat rfl hanswer hj.symm
    · cases deed with
      | reported task' a =>
        cases hr
        exact lacksFile_of_removed rfl
      | _ => cases hr
  · intro es₁ task es₂ hsplit
    rcases List.eq_nil_or_concat es₂ with rfl | ⟨init, last, rfl⟩
    · have hs := List.append_inj' hsplit rfl
      rw [← hs.1, ← List.singleton_inj.1 hs.2, Pool.Duty.replay_append, ← h.world]
      rfl
    · rw [List.concat_eq_append, ← List.cons_append, ← List.append_assoc] at hsplit
      have hs := List.append_inj' hsplit rfl
      obtain rfl := List.singleton_inj.1 hs.2
      rw [← h.left es₁ task init hs.1]
      have hanswer : (task, .returned (.ok ())) ∈ es.answers := by
        rw [hs.1, Pool.History.answers]
        simp
      have hk := identifiers _ (before.within _ (List.mem_append_right _ (List.mem_map_of_mem hanswer)))
      refine digest?_effect inPlace hidentifier hk ?_
      exact untouched_of_ok orderly hanswer

end Baseline.Dumping

end Breakage
