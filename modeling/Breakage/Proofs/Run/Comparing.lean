import Breakage.Proofs.Outcome
import Breakage.Proofs.Pool.Completion
import Breakage.Proofs.Run.Digester
import Breakage.Proofs.Run.Session
import Breakage.Run.Compare

/-!
What comes of comparing modules, whatever the order of events. The stores of the tasks and the
journal are read off the history of the pool (`kept_of_leads`), so that every module is found in one
place only and with its own answer. Main statement: `compareAll_partition`.
-/

namespace Breakage

namespace Comparing

abbrev History := Pool.History ModuleName Answer

abbrev Answered := Pool.Task ModuleName × Answer

def cause? (task : Nat) : Answer → Option String
  | .returned (.ok _) => none
  | .returned (.error e) => some e.message
  | .crashed words => some (crashText task words)

def skipReason (generationFailures : ModuleSet) (m : ModuleName) : SkipReason :=
  if m ∈ generationFailures then .generationFailed else .notInBaseline

@[simp] def result? (allowlist : Allowlist) : Answered → Option Comparison
  | (task, .returned (.ok c)) => some (resultFor task.job allowlist c)
  | _ => none

@[simp] def failure? : Answered → Option (ModuleName × String)
  | (task, .returned (.error e)) => some (task.job, e.message)
  | _ => none

@[simp] def crash? : Answered → Option (ModuleName × String)
  | (task, .crashed words) => some (task.job, crashText task.number words)
  | _ => none

def call (directory : Path) (allowlist : Allowlist) (task : Pool.Task ModuleName) : Call :=
  .compare task.job (task.job.digestPath directory) allowlist.source

@[simp] def event? : Pool.Deed ModuleName Answer → Option Event
  | .reported task a => (failure? (task, a)).map fun e => failureError e.1 e.2
  | .joined task a => (crash? (task, a)).map fun e => failureError e.1 e.2
  | _ => none

variable (digester : Digester) (plan : BuildPlan) (directory : Path) (allowlist : Allowlist)
  (generationFailures : ModuleSet)

@[simp] theorem duty_refuse (m : ModuleName) (w : Comparing) :
    (duty digester plan directory allowlist generationFailures).refuse m w =
      { w with skipped := w.skipped.insert m (skipReason generationFailures m) } := rfl

@[simp] theorem duty_call (task : Pool.Task ModuleName) (w : Comparing) :
    ((duty digester plan directory allowlist generationFailures).call task.job w).2 =
      { w with session :=
        (w.session.ask (call directory allowlist task) (digester.compare
          (task.job.digestPath directory) task.job plan allowlist.source)).2 } := rfl

@[simp] theorem duty_report_ok (m : ModuleName) (c : Comparison) (w : Comparing) :
    (duty digester plan directory allowlist generationFailures).report m (.returned (.ok c)) w =
      { w with
        session := w.session.mark (.compared m (resultFor m allowlist c).breakingChanges.length)
        results := w.results.append 0 (resultFor m allowlist c) } := rfl

@[simp] theorem duty_report_error (m : ModuleName) (e : Fault) (w : Comparing) :
    (duty digester plan directory allowlist generationFailures).report m (.returned (.error e)) w =
      { w with
        session := w.session.emit (failureError m e.message)
        failures := w.failures.append 0 (m, e.message) } := rfl

@[simp] theorem duty_report_crashed (m : ModuleName) (words : String) (w : Comparing) :
    (duty digester plan directory allowlist generationFailures).report m (.crashed words) w = w :=
  rfl

@[simp] theorem duty_settle_returned (task : Nat) (m : ModuleName) (r : Except Fault Comparison)
    (w : Comparing) :
    (duty digester plan directory allowlist generationFailures).settle task m (.returned r) w = w :=
  rfl

@[simp] theorem duty_settle_crashed (task : Nat) (m : ModuleName) (words : String)
    (w : Comparing) :
    (duty digester plan directory allowlist generationFailures).settle task m (.crashed words) w =
      { w with
        session := w.session.emit (failureError m (crashText task words))
        aborted := w.aborted.insert m (crashText task words) } := rfl

@[simp] theorem append_store {α : Type} (xs : List α) (x : α) :
    (⟨[xs], [0]⟩ : SharedStore α).append 0 x = ⟨[xs ++ [x]], [0]⟩ := rfl

structure Kept (s : Session) (ds : History) (w : Comparing) : Prop where
  skipped : w.skipped = .ofList (ds.refused.map fun m => (m, skipReason generationFailures m))
  results : w.results = ⟨[ds.reports.filterMap (result? allowlist)], [0]⟩
  failures : w.failures = ⟨[ds.reports.filterMap failure?], [0]⟩
  aborted : w.aborted = .ofList (ds.joins.filterMap crash?)
  calls : w.session.calls = s.calls ++ ds.answers.map fun r => call directory allowlist r.1
  journal : w.session.journal = s.journal.emitAll (ds.filterMap event?)

theorem kept_ofSession (s : Session) :
    Kept directory allowlist generationFailures s [] (.ofSession s) :=
  ⟨rfl, rfl, rfl, rfl, (List.append_nil _).symm, rfl⟩

variable {directory allowlist generationFailures}

theorem Kept.step {s : Session} {ds : History} {w : Comparing}
    (h : Kept directory allowlist generationFailures s ds w) (deed : Pool.Deed ModuleName Answer) :
    Kept directory allowlist generationFailures s (ds ++ [deed])
      ((duty digester plan directory allowlist generationFailures).effect w deed) := by
  obtain ⟨hskipped, hresults, hfailures, haborted, hcalls, hjournal⟩ := h
  cases deed with
  | refused m =>
    exact ⟨by simp [hskipped], by simpa using hresults, by simpa using hfailures,
      by simpa using haborted, by simpa using hcalls, by simpa using hjournal⟩
  | admitted m | granted m | started task =>
    exact ⟨by simpa using hskipped, by simpa using hresults, by simpa using hfailures,
      by simpa using haborted, by simpa using hcalls, by simpa using hjournal⟩
  | answered task a =>
    exact ⟨by simpa using hskipped, by simpa using hresults, by simpa using hfailures,
      by simpa using haborted, by simp [hcalls], by simpa using hjournal⟩
  | reported task a =>
    rcases a with (e | c) | words
    · exact ⟨by simpa using hskipped, by simpa using hresults, by simp [hfailures],
        by simpa using haborted, by simpa using hcalls, by simp [hjournal]⟩
    · exact ⟨by simpa using hskipped, by simp [hresults], by simpa using hfailures,
        by simpa using haborted, by simpa using hcalls, by simpa using hjournal⟩
    · exact ⟨by simpa using hskipped, by simpa using hresults, by simpa using hfailures,
        by simpa using haborted, by simpa using hcalls, by simpa using hjournal⟩
  | joined task a =>
    rcases a with r | words
    · exact ⟨by simpa using hskipped, by simpa using hresults, by simpa using hfailures,
        by simpa using haborted, by simpa using hcalls, by simpa using hjournal⟩
    · exact ⟨by simpa using hskipped, by simpa using hresults, by simpa using hfailures,
        by simp [haborted], by simpa using hcalls, by simp [hjournal]⟩

theorem kept_of_leads {s : Session} {width : Nat} {jobs : List ModuleName} {ds : History}
    {p : Pool Comparing ModuleName Answer}
    (h : Pool.Leads (duty digester plan directory allowlist generationFailures)
      (Pool.init (.ofSession s) width jobs) ds p) :
    Kept directory allowlist generationFailures s ds p.world :=
  h.induct (Kept directory allowlist generationFailures s)
    (kept_ofSession directory allowlist generationFailures s)
    fun _ _ deed hw _ => hw.step digester plan deed

/-! ### Each module in one place -/

theorem map_filterMap_sublist {α β γ : Type} {f : α → Option β} {g : β → γ} {k : α → γ}
    (h : ∀ a b, f a = some b → g b = k a) (as : List α) :
    ((as.filterMap f).map g).Sublist (as.map k) := by
  induction as with
  | nil => exact .slnil
  | cons a as ih =>
    cases hf : f a with
    | none =>
      rw [List.filterMap_cons_none hf]
      exact ih.cons (k a)
    | some b =>
      rw [List.filterMap_cons_some hf, List.map_cons, List.map_cons, h a b hf]
      exact ih.cons_cons (k a)

theorem result?_eq_some_iff {r : Answered} {c : Comparison} :
    result? allowlist r = some c ↔ ∃ found, r.2 = .returned (.ok found) ∧
      c = ⟨r.1.job, found.breakingChanges.filter fun d => !allowlist.contains d.message,
        found.otherDiagnostics⟩ := by
  obtain ⟨task, (e | found) | words⟩ := r <;>
    simp [resultFor, Comparison.filterAllowed, eq_comm (a := c)]

theorem module_of_result? {r : Answered} {c : Comparison} (h : result? allowlist r = some c) :
    c.module = r.1.job := by
  obtain ⟨task, (e | found) | words⟩ := r <;> simp [resultFor] at h
  rw [← h]

theorem key_of_failure? {r : Answered} {e : ModuleName × String} (h : failure? r = some e) :
    e.1 = r.1.job := by
  obtain ⟨task, (f | found) | words⟩ := r <;> simp at h
  rw [← h]

theorem key_of_crash? {r : Answered} {e : ModuleName × String} (h : crash? r = some e) :
    e.1 = r.1.job := by
  obtain ⟨task, (f | found) | words⟩ := r <;> simp at h
  rw [← h]

theorem cause?_eq_some_iff {r : Answered} {text : String} :
    cause? r.1.number r.2 = some text ↔
      failure? r = some (r.1.job, text) ∨ crash? r = some (r.1.job, text) := by
  obtain ⟨task, (f | found) | words⟩ := r <;> simp [cause?]

theorem cause?_eq_none_iff {r : Answered} :
    cause? r.1.number r.2 = none ↔ ∃ c, result? allowlist r = some c := by
  obtain ⟨task, (f | found) | words⟩ := r <;> simp [cause?]

section Outcome

variable {s : Session} {modules : ModuleSet} {ds : History} {w : Comparing}

theorem nodup_keys_failures (covers : ds.Covers modules.toList) :
    ((ds.reports.filterMap failure?).map Prod.fst).Nodup := by
  have hn := (covers.reports.map fun r => r.1.job).nodup_iff.2 ((covers.orderly modules.nodup).nodup_jobs)
  exact (map_filterMap_sublist (fun _ _ => key_of_failure?) ds.reports).nodup hn

theorem nodup_keys_crashes (covers : ds.Covers modules.toList) :
    ((ds.joins.filterMap crash?).map Prod.fst).Nodup := by
  have hn := (covers.joins.map fun r => r.1.job).nodup_iff.2 ((covers.orderly modules.nodup).nodup_jobs)
  exact (map_filterMap_sublist (fun _ _ => key_of_crash?) ds.joins).nodup hn

variable (kept : Kept directory allowlist generationFailures s ds w)
  (covers : ds.Covers modules.toList)
include kept covers

theorem skipped_outcome {m : ModuleName} {reason : SkipReason} :
    (w.outcome modules).skipped.get? m = some reason ↔
      m ∈ ds.refused ∧ reason = skipReason generationFailures m := by
  have hn : ((ds.refused.map fun m => (m, skipReason generationFailures m)).map Prod.fst).Nodup := by
    simpa [Function.comp_def] using (covers.orderly modules.nodup).nodup_refused
  rw [outcome, kept.skipped, ModuleMap.get?_ofList hn, List.mem_map]
  constructor
  · rintro ⟨k, hk, he⟩
    cases he
    exact ⟨hk, rfl⟩
  · rintro ⟨hm, rfl⟩
    exact ⟨m, hm, rfl⟩

theorem failed_outcome {m : ModuleName} {text : String} :
    (w.outcome modules).failed.get? m = some text ↔
      ∃ r ∈ ds.answers, r.1.job = m ∧ cause? r.1.number r.2 = some text := by
  have hfailure : ∀ e, e ∈ ds.reports.filterMap failure? ↔ ∃ r ∈ ds.answers, failure? r = some e := by
    intro e
    simp [List.mem_filterMap, covers.reports.mem_iff]
  have hcrash : ∀ e, e ∈ ds.joins.filterMap crash? ↔ ∃ r ∈ ds.answers, crash? r = some e := by
    intro e
    simp [List.mem_filterMap, covers.joins.mem_iff]
  have hitems : (w.failures.drain 0).1 = ds.reports.filterMap failure? := by
    rw [kept.failures]
    rfl
  rw [outcome, hitems, kept.aborted, ModuleMap.get?_merge,
    ModuleMap.get?_ofList (nodup_keys_failures covers),
    ModuleMap.get?_ofList (nodup_keys_crashes covers), hfailure, hcrash]
  constructor
  · rintro (⟨r, hr, he⟩ | ⟨-, r, hr, he⟩)
    · obtain rfl := key_of_crash? he
      exact ⟨r, hr, rfl, cause?_eq_some_iff.2 (.inr he)⟩
    · obtain rfl := key_of_failure? he
      exact ⟨r, hr, rfl, cause?_eq_some_iff.2 (.inl he)⟩
  · rintro ⟨r, hr, rfl, hc⟩
    rcases cause?_eq_some_iff.1 hc with he | he
    · refine .inr ⟨?_, r, hr, he⟩
      -- another task for the module would be this one, which did not crash
      rw [Option.eq_none_iff_forall_ne_some]
      intro text' ht
      rw [ModuleMap.get?_ofList (nodup_keys_crashes covers), hcrash] at ht
      obtain ⟨r', hr', he'⟩ := ht
      obtain rfl := (covers.orderly modules.nodup).eq_of_job_eq hr hr' (key_of_crash? he')
      obtain ⟨task, (f | found) | words⟩ := r <;> simp at he he'
    · exact .inl ⟨r, hr, he⟩

theorem results_outcome :
    (w.outcome modules).results.Perm (ds.answers.filterMap (result? allowlist)) := by
  have hitems : (w.outcome modules).results = ds.reports.filterMap (result? allowlist) := by
    rw [outcome, kept.results]
    rfl
  rw [hitems]
  exact covers.reports.filterMap _

theorem nodup_modules_results : ((w.outcome modules).results.map Comparison.module).Nodup := by
  rw [((results_outcome kept covers).map Comparison.module).nodup_iff]
  exact (map_filterMap_sublist (fun _ _ => module_of_result?) ds.answers).nodup
    ((covers.orderly modules.nodup).nodup_jobs)

theorem mem_results_outcome {c : Comparison} :
    c ∈ (w.outcome modules).results ↔ ∃ r ∈ ds.answers, result? allowlist r = some c := by
  rw [(results_outcome kept covers).mem_iff, List.mem_filterMap]

theorem result?_outcome {r : Answered} (hr : r ∈ ds.answers) {c : Comparison} :
    (w.outcome modules).result? r.1.job = some c ↔ result? allowlist r = some c := by
  rw [Outcome.result?_eq_some_iff (nodup_modules_results kept covers),
    mem_results_outcome kept covers]
  constructor
  · rintro ⟨⟨r', hr', he⟩, hj⟩
    rw [module_of_result? he] at hj
    rwa [(covers.orderly modules.nodup).eq_of_job_eq hr' hr hj] at he
  · intro h
    exact ⟨⟨r, hr, h⟩, module_of_result? h⟩

theorem get?_skipped_of_mem {r : Answered} (hr : r ∈ ds.answers) :
    (w.outcome modules).skipped.get? r.1.job = none := by
  rw [Option.eq_none_iff_forall_ne_some]
  intro reason hreason
  exact (covers.orderly modules.nodup).not_mem_refused hr ((skipped_outcome kept covers).1 hreason).1

theorem get?_failed_of_mem {r : Answered} (hr : r ∈ ds.answers) :
    (w.outcome modules).failed.get? r.1.job = cause? r.1.number r.2 := by
  ext text
  rw [failed_outcome kept covers]
  constructor
  · rintro ⟨r', hr', hj, hc⟩
    rwa [(covers.orderly modules.nodup).eq_of_job_eq hr' hr hj] at hc
  · exact fun hc => ⟨r, hr, rfl, hc⟩

theorem contains_skipped {m : ModuleName} :
    (w.outcome modules).skipped.contains m = true ↔ m ∈ ds.refused := by
  simp [ModuleMap.contains_iff, skipped_outcome kept covers]

theorem contains_failed {m : ModuleName} :
    (w.outcome modules).failed.contains m = true ↔
      ∃ r ∈ ds.answers, r.1.job = m ∧ cause? r.1.number r.2 ≠ none := by
  rw [ModuleMap.contains_iff]
  constructor
  · rintro ⟨text, ht⟩
    obtain ⟨r, hr, hj, hc⟩ := (failed_outcome kept covers).1 ht
    exact ⟨r, hr, hj, by simp [hc]⟩
  · rintro ⟨r, hr, hj, hc⟩
    obtain ⟨text, ht⟩ := Option.ne_none_iff_exists'.1 hc
    exact ⟨text, (failed_outcome kept covers).2 ⟨r, hr, hj, ht⟩⟩

theorem mem_modules_results {m : ModuleName} :
    m ∈ (w.outcome modules).results.map Comparison.module ↔
      ∃ r ∈ ds.answers, r.1.job = m ∧ cause? r.1.number r.2 = none := by
  rw [List.mem_map]
  constructor
  · rintro ⟨c, hc, rfl⟩
    obtain ⟨r, hr, he⟩ := (mem_results_outcome kept covers).1 hc
    exact ⟨r, hr, (module_of_result? he).symm, cause?_eq_none_iff.2 ⟨c, he⟩⟩
  · rintro ⟨r, hr, rfl, hc⟩
    obtain ⟨c, he⟩ := cause?_eq_none_iff.1 hc
    exact ⟨c, (mem_results_outcome kept covers).2 ⟨r, hr, he⟩, module_of_result? he⟩

theorem absent_of_no_task {m : ModuleName} (no : ∀ r ∈ ds.answers, r.1.job ≠ m) :
    (w.outcome modules).failed.contains m = false ∧
      m ∉ (w.outcome modules).results.map Comparison.module := by
  constructor
  · rw [Bool.eq_false_iff, Ne, contains_failed kept covers]
    rintro ⟨r, hr, hj, -⟩
    exact no r hr hj
  · rw [mem_modules_results kept covers]
    rintro ⟨r, hr, hj, -⟩
    exact no r hr hj

theorem present_of_task {r : Answered} (hr : r ∈ ds.answers) :
    ((w.outcome modules).failed.contains r.1.job).toNat +
      (if r.1.job ∈ (w.outcome modules).results.map Comparison.module then 1 else 0) = 1 := by
  have honly : ∀ r' ∈ ds.answers, r'.1.job = r.1.job → r' = r := fun r' hr' hj =>
    (covers.orderly modules.nodup).eq_of_job_eq hr' hr hj
  cases hc : cause? r.1.number r.2 with
  | none =>
    have hf : (w.outcome modules).failed.contains r.1.job = false := by
      rw [Bool.eq_false_iff, Ne, contains_failed kept covers]
      rintro ⟨r', hr', hj, hc'⟩
      rw [honly r' hr' hj] at hc'
      exact hc' hc
    rw [hf, if_pos ((mem_modules_results kept covers).2 ⟨r, hr, rfl, hc⟩)]
    rfl
  | some text =>
    have hn : r.1.job ∉ (w.outcome modules).results.map Comparison.module := by
      rw [mem_modules_results kept covers]
      rintro ⟨r', hr', hj, hc'⟩
      rw [honly r' hr' hj, hc] at hc'
      cases hc'
    rw [if_neg hn, (contains_failed kept covers).2 ⟨r, hr, rfl, by simp [hc]⟩]
    rfl

theorem places_outcome (m : ModuleName) :
    ((w.outcome modules).skipped.contains m).toNat + ((w.outcome modules).failed.contains m).toNat +
      ((w.outcome modules).results.map Comparison.module).count m =
        if m ∈ modules then 1 else 0 := by
  have hmodules : m ∈ modules ↔ m ∈ ds.refused ∨ ∃ r ∈ ds.answers, r.1.job = m :=
    covers.mem_jobs_iff
  rw [(nodup_modules_results kept covers).count]
  by_cases href : m ∈ ds.refused
  · obtain ⟨hf, hr⟩ := absent_of_no_task kept covers (m := m) <| by
      rintro r hr rfl
      exact (covers.orderly modules.nodup).not_mem_refused hr href
    rw [(contains_skipped kept covers).2 href, hf, if_neg hr, if_pos (hmodules.2 (.inl href))]
    rfl
  · have hs : (w.outcome modules).skipped.contains m = false := by
      rw [Bool.eq_false_iff, Ne, contains_skipped kept covers]
      exact href
    rw [hs, Bool.toNat_false, Nat.zero_add]
    by_cases hm : m ∈ modules
    · obtain ⟨r, hr, rfl⟩ := (hmodules.1 hm).resolve_left href
      rw [present_of_task kept covers hr, if_pos hm]
    · obtain ⟨hf, hr⟩ := absent_of_no_task kept covers (m := m) fun r hr hj =>
        hm (hmodules.2 (.inr ⟨r, hr, hj⟩))
      rw [hf, if_neg hr, if_neg hm]
      rfl

omit kept covers in
theorem filterMap_perm_append {α β : Type} {f g h : α → Option β}
    (hfg : ∀ a, (h a).toList = (f a).toList ++ (g a).toList) (as : List α) :
    (as.filterMap h).Perm (as.filterMap f ++ as.filterMap g) := by
  induction as with
  | nil => exact .nil
  | cons a as ih =>
    have hcons : ∀ k : α → Option β, (a :: as).filterMap k = (k a).toList ++ as.filterMap k := by
      intro k
      rw [← List.singleton_append, List.filterMap_append, Pool.History.filterMap_singleton]
    rw [hcons, hcons, hcons, hfg, List.append_assoc, List.append_assoc]
    refine List.Perm.append_left _ ((ih.append_left _).trans ?_)
    rw [← List.append_assoc, ← List.append_assoc]
    exact List.perm_append_comm.append_right _

theorem events_perm :
    (ds.filterMap event?).Perm
      ((w.outcome modules).failed.entries.map fun e => failureError e.1 e.2) := by
  let cause (r : Answered) : Option (ModuleName × String) :=
    (cause? r.1.number r.2).map fun text => (r.1.job, text)
  have hentries : (w.outcome modules).failed.entries.Perm (ds.answers.filterMap cause) := by
    have hkey : ∀ r e, cause r = some e → e.1 = r.1.job := by
      intro r e he
      obtain ⟨text, -, rfl⟩ := Option.map_eq_some_iff.1 he
      rfl
    have hn := (map_filterMap_sublist hkey ds.answers).nodup ((covers.orderly modules.nodup).nodup_jobs)
    refine ModuleMap.entries_perm hn.of_map fun m text => ?_
    rw [failed_outcome kept covers, List.mem_filterMap]
    simp only [cause, Option.map_eq_some_iff, Prod.mk.injEq]
    constructor
    · rintro ⟨r, hr, hj, hc⟩
      exact ⟨r, hr, text, hc, hj, rfl⟩
    · rintro ⟨r, hr, text, hc, hj, rfl⟩
      exact ⟨r, hr, hj, hc⟩
  have hanswers : (ds.answers.filterMap cause).Perm
      (ds.reports.filterMap failure? ++ ds.joins.filterMap crash?) := by
    refine (filterMap_perm_append (f := failure?) (g := crash?) ?_ ds.answers).trans
      ((covers.reports.filterMap _).symm.append (covers.joins.filterMap _).symm)
    rintro ⟨task, (f | found) | words⟩ <;> simp [cause, cause?]
  have hevents : (ds.filterMap event?).Perm
      ((ds.reports.filterMap failure? ++ ds.joins.filterMap crash?).map fun e =>
        failureError e.1 e.2) := by
    rw [List.map_append, List.map_filterMap, List.map_filterMap, Pool.History.reports,
      Pool.History.joins, List.filterMap_filterMap, List.filterMap_filterMap]
    apply filterMap_perm_append
    intro deed
    cases deed <;> simp
  exact hevents.trans ((hentries.trans hanswers).map _).symm

end Outcome

/-! ### A whole run -/

variable (directory allowlist generationFailures)

def history (modules : ModuleSet) (width : Nat) (schedule : Pool.Schedule) (s : Session) : History :=
  (duty digester plan directory allowlist generationFailures).history schedule
    (start s width modules)

/-- The machine after some of what is done with the modules. -/
def hostAfter (s : Session) (es : History) : Host :=
  ((duty digester plan directory allowlist generationFailures).replay (.ofSession s) es).session.host

variable {digester plan directory allowlist generationFailures}

theorem genuine_of_leads {s : Session} {width : Nat} {jobs : List ModuleName} {ds : History}
    {p : Pool Comparing ModuleName Answer}
    (h : Pool.Leads (duty digester plan directory allowlist generationFailures)
      (Pool.init (.ofSession s) width jobs) ds p) :
    ∀ r ∈ ds.answers, ∃ host, r.2 =
      (digester.compare (r.1.job.digestPath directory) r.1.job plan allowlist.source host).1 := by
  refine h.induct (fun es _ => ∀ r ∈ es.answers, ∃ host, r.2 =
    (digester.compare (r.1.job.digestPath directory) r.1.job plan allowlist.source host).1)
    (by simp [Pool.History.answers]) fun es w deed ih suits => ?_
  cases deed with
  | answered task a =>
    intro r hr
    rw [Pool.History.answers_snoc, List.mem_append] at hr
    rcases hr with hr | hr
    · exact ih r hr
    · obtain rfl := List.mem_singleton.1 hr
      exact ⟨w.session.host, suits⟩
  | _ => simpa using ih

section

variable (unchanged : digester.KeepsDigests directory)
include unchanged

theorem exists?_effect (w : Comparing) (deed : Pool.Deed ModuleName Answer) (m : ModuleName) :
    ((duty digester plan directory allowlist generationFailures).effect w deed).session.host.exists?
      (m.digestPath directory) = w.session.host.exists? (m.digestPath directory) := by
  cases deed with
  | answered task a => exact unchanged _ _ _ _ _ _
  | reported task a => rcases a with (e | c) | words <;> rfl
  | joined task a => rcases a with r | words <;> rfl
  | _ => rfl

variable {s : Session} {width : Nat} {jobs : List ModuleName} {ds : History}
  {p : Pool Comparing ModuleName Answer}
  (h : Pool.Leads (duty digester plan directory allowlist generationFailures)
    (Pool.init (.ofSession s) width jobs) ds p)
include h

theorem exists?_of_leads (m : ModuleName) :
    p.world.session.host.exists? (m.digestPath directory) =
      s.host.exists? (m.digestPath directory) := by
  refine h.induct (fun _ w => w.session.host.exists? (m.digestPath directory) =
    s.host.exists? (m.digestPath directory)) rfl fun es w deed same _ => ?_
  exact (exists?_effect unchanged w deed m).trans same

theorem sorts_of_leads : ds.Sorts fun m => s.host.exists? (m.digestPath directory) := by
  refine h.sorts (fun w => ∀ m, w.session.host.exists? (ModuleName.digestPath m directory) =
    s.host.exists? (m.digestPath directory)) (fun _ => rfl) (fun w deed same m => ?_)
    fun w m same => same m
  exact (exists?_effect unchanged w deed m).trans (same m)

end

section Runs

variable {modules : ModuleSet} {width : Nat} {schedule : Pool.Schedule} {s t : Session} {o : Outcome}
  (run : compareAll digester plan directory allowlist generationFailures modules width schedule s =
    (.ok o, t))
include run

theorem leads_history : ∃ p : Pool Comparing ModuleName Answer,
    Pool.Leads (duty digester plan directory allowlist generationFailures) (start s width modules)
      (history digester plan directory allowlist generationFailures modules width schedule s) p ∧
      p.isDone = true ∧ p.world.outcome modules = o ∧ p.world.session = t := by
  obtain ⟨-, ended⟩ := Run.pooled_eq_ok.1 run
  obtain ⟨ho, ht⟩ := Prod.mk.inj ended
  exact ⟨_, Pool.leads_run _ schedule _, Pool.isDone_run _ schedule _ width _, ho, ht⟩

/-- A history of the comparisons, with the pool that it leads to. -/
theorem leads_compareAll : ∃ (ds : History) (p : Pool Comparing ModuleName Answer),
    Pool.Leads (duty digester plan directory allowlist generationFailures) (start s width modules) ds
      p ∧ ds.Covers modules.toList ∧ p.world.outcome modules = o ∧ p.world.session = t := by
  obtain ⟨p, leads, done, ho, ht⟩ := leads_history run
  exact ⟨_, p, leads, (Pool.books_of_leads leads).covers done, ho, ht⟩

end Runs

end Comparing

/-- More modules at a time than a pool has permits are not compared at all. Otherwise every requested
module is skipped, failed or compared, and nothing else is in the outcome: skipped just when it has no
digest, failed with what went wrong with itself and one error that says so, and otherwise with the
findings of its own comparison but for those that are allowed. Its answer is the digester's on the
machine as it is at the call. -/
theorem compareAll_partition {digester : Digester} {directory : Path}
    (unchanged : digester.KeepsDigests directory) (plan : BuildPlan) (allowlist : Allowlist)
    (generationFailures modules : ModuleSet) (width : Nat) (schedule : Pool.Schedule) (s : Session) :
    match compareAll digester plan directory allowlist generationFailures modules width schedule s with
    | (.error e, s') => Pool.widthLimit < width ∧ e = .overload ∧ s' = s
    | (.ok o, s') =>
      let ds := Comparing.history digester plan directory allowlist generationFailures modules width
        schedule s
      width ≤ Pool.widthLimit ∧ o.requested = modules ∧
      (∀ m, (o.skipped.contains m).toNat + (o.failed.contains m).toNat +
        (o.results.map Comparison.module).count m = if m ∈ modules then 1 else 0) ∧
      (∀ m reason, o.skipped.get? m = some reason ↔
        m ∈ modules ∧ s.host.exists? (m.digestPath directory) = false ∧
          reason = if m ∈ generationFailures then .generationFailed else .notInBaseline) ∧
      ((ds.answers.map fun r => r.1.job).Perm
        (modules.toList.filter fun m => s.host.exists? (m.digestPath directory))) ∧
      (∀ es task a es', ds = es ++ .answered task a :: es' →
        a = (digester.compare (task.job.digestPath directory) task.job plan allowlist.source
          (Comparing.hostAfter digester plan directory allowlist generationFailures s es)).1) ∧
      (∀ m text, o.failed.get? m = some text ↔
        ∃ r ∈ ds.answers, r.1.job = m ∧ Comparing.cause? r.1.number r.2 = some text) ∧
      (∀ c, c ∈ o.results ↔ ∃ r ∈ ds.answers, ∃ found, r.2 = .returned (.ok found) ∧
        c = ⟨r.1.job, found.breakingChanges.filter fun d => !allowlist.contains d.message,
          found.otherDiagnostics⟩) ∧
      ∃ events, s'.journal.events = s.journal.events ++ events ∧
        events.Perm (o.failed.entries.map fun e => Comparing.failureError e.1 e.2) := by
  rcases run : compareAll digester plan directory allowlist generationFailures modules width schedule
    s with ⟨e | o, s'⟩
  · exact Run.pooled_eq_error.1 run
  · obtain ⟨p, leads, done, rfl, rfl⟩ := Comparing.leads_history run
    have kept := Comparing.kept_of_leads digester plan leads
    have covers := (Pool.books_of_leads leads).covers done
    have sorts := Comparing.sorts_of_leads unchanged leads
    refine ⟨(Run.pooled_eq_ok.1 run).1, rfl, Comparing.places_outcome kept covers, ?_,
      covers.map_job_perm_filter sorts, fun es task a es' split => leads.suits split,
      fun m text => Comparing.failed_outcome kept covers, ?_, ?_⟩
    · intro m reason
      rw [Comparing.skipped_outcome kept covers, covers.mem_refused_iff sorts, and_assoc]
      rfl
    · intro c
      rw [Comparing.mem_results_outcome kept covers]
      refine exists_congr fun r => and_congr_right fun _ => ?_
      exact Comparing.result?_eq_some_iff
    · refine ⟨_, ?_, Comparing.events_perm kept covers⟩
      rw [kept.journal, Journal.events_emitAll]

/-- Three modules, of which one has no digest and the comparison of one crashes. -/
theorem compareAll_partition_crash :
    let digester := (Rehearsal.ScriptedDigester.plain.setPart ⟨"Bar"⟩ .crash).digester
    let files := [(["Bar.json"], .file (.text "")), (["Foo.json"], .file (.text ""))]
    ∃ o s', compareAll digester ⟨⟨"."⟩, ⟨".build"⟩⟩ ⟨"/"⟩ .empty .empty
        (.ofList [⟨"Foo"⟩, ⟨"Bar"⟩, ⟨"Baz"⟩]) 0 (fun _ => 1) (.ofHost (Rehearsal.machine files)) =
          (.ok o, s') ∧
      o.skipped.get? ⟨"Baz"⟩ = some .notInBaseline ∧
      (o.skipped.contains ⟨"Bar"⟩).toNat + (o.failed.contains ⟨"Bar"⟩).toNat +
        (o.results.map Comparison.module).count ⟨"Bar"⟩ = 1 := by
  intro digester files
  have h := compareAll_partition (Rehearsal.ScriptedDigester.keepsDigests
    (Rehearsal.ScriptedDigester.plain.setPart ⟨"Bar"⟩ .crash) ⟨"/"⟩) ⟨⟨"."⟩, ⟨".build"⟩⟩ .empty
    .empty (.ofList [⟨"Foo"⟩, ⟨"Bar"⟩, ⟨"Baz"⟩]) 0 (fun _ => 1) (.ofHost (Rehearsal.machine files))
  split at h
  · rename_i e s' run
    exact absurd h.1 (by decide)
  · rename_i o s' run
    obtain ⟨-, -, hplaces, hskipped, -⟩ := h
    exact ⟨o, s', run, (hskipped ⟨"Baz"⟩ .notInBaseline).2 ⟨by decide +kernel, by decide +kernel, rfl⟩,
      hplaces ⟨"Bar"⟩⟩

/-- One module more at a time than a pool has permits: the one module there is has its digest, and is
neither skipped nor compared. -/
theorem compareAll_overloaded :
    let digester := Rehearsal.ScriptedDigester.plain.digester
    let s := Session.ofHost (Rehearsal.machine [(["Foo.json"], .file (.text ""))])
    digester.KeepsDigests ⟨"/"⟩ ∧ ¬∃ schedule o s',
      compareAll digester ⟨⟨"."⟩, ⟨".build"⟩⟩ ⟨"/"⟩ .empty .empty (.ofList [⟨"Foo"⟩])
        2305843009213693952 schedule s = (.ok o, s') := by
  intro digester s
  refine ⟨Rehearsal.ScriptedDigester.keepsDigests _ ⟨"/"⟩, ?_⟩
  rintro ⟨schedule, o, s', run⟩
  exact absurd (Run.pooled_eq_ok.1 run).1 (by decide)

end Breakage
