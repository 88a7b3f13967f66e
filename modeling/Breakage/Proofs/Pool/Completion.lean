import Breakage.Proofs.Pool.History
import Mathlib.Data.List.Nodup

/-!
What a run of a pool has done when it is over. Main statements: `isDone_run` (whatever the width and
the schedule, nothing is left undone) and `covers_history` (every job was refused or admitted in its
turn, and every task answered, reported and was joined once).
-/

namespace Breakage.Pool

variable {World Job Answer : Type}

/-! ### Progress -/

theorem moves_eq_nil_of_measure {s : Pool World Job Answer} (h : s.measure = 0) : s.moves = [] := by
  simp only [measure] at h
  have hp : s.pending = [] := List.eq_nil_of_length_eq_zero (by omega)
  have hc : s.calling = [] := List.eq_nil_of_length_eq_zero (by omega)
  have hr : s.reporting = [] := List.eq_nil_of_length_eq_zero (by omega)
  have he : s.ended = [] := List.eq_nil_of_length_eq_zero (by omega)
  cases hd : s.driver with
  | idle => simp [moves, canDrive, hd, hp, hc, hr, he]
  | waiting job => simp [hd, driverMeasure] at h
  | holding job => simp [hd, driverMeasure] at h

/-- A pool with a permit is never stuck: while anything is to be done, some move is possible. -/
theorem isDone_of_moves_eq_nil {s : Pool World Job Answer} (h : s.moves = []) (hp : 0 < s.permits) :
    s.isDone = true := by
  simp only [moves, List.append_eq_nil_iff, List.map_eq_nil_iff, List.range_eq_nil,
    List.length_eq_zero_iff] at h
  obtain ⟨⟨⟨hd, hc⟩, hr⟩, he⟩ := h
  cases hs : s.driver with
  | idle =>
    have hn : s.pending = [] := by simpa [canDrive, hs] using hd
    have hdr : s.isDriven = true := by simp [isDriven, hs, hn]
    have hend : s.ended = [] := by simpa [hdr] using he
    simp [isDone, hdr, hc, hr, hend]
  | waiting job =>
    -- nobody holds a permit, so one is free
    have hf : s.free = 0 := by simpa [canDrive, hs] using hd
    simp [permits, held, hs, hf, hc, hr] at hp
  | holding job => simp [canDrive, hs] at hd

variable (d : Duty World Job Answer)

theorem permits_runFrom (schedule : Schedule) (fuel n : Nat) (s : Pool World Job Answer) :
    (runFrom d schedule fuel n s).permits = s.permits := by
  induction fuel generalizing n s with
  | zero => rfl
  | succ fuel ih =>
    unfold runFrom
    cases ht : s.moves[schedule n % s.moves.length]?.bind (apply d s) with
    | none => simp only [ht]
    | some t =>
      obtain ⟨m, -, happ⟩ := Option.bind_eq_some_iff.1 ht
      simp only [ht]
      rw [ih, apply_permits d happ]

theorem moves_runFrom (schedule : Schedule) (fuel n : Nat) (s : Pool World Job Answer)
    (h : s.measure ≤ fuel) : (runFrom d schedule fuel n s).moves = [] := by
  induction fuel generalizing n s with
  | zero => exact moves_eq_nil_of_measure (Nat.le_zero.1 h)
  | succ fuel ih =>
    unfold runFrom
    cases hm : s.moves[schedule n % s.moves.length]? with
    | none =>
      simp only [hm, Option.bind_none]
      -- the index of the move is below their number unless there are none
      rw [List.getElem?_eq_none_iff] at hm
      by_contra hne
      have := Nat.mod_lt (schedule n) (List.length_pos_iff.2 hne)
      omega
    | some m =>
      have hmem := List.mem_of_getElem? hm
      obtain ⟨t, ht⟩ := Option.isSome_iff_exists.1 ((mem_moves d s m).1 hmem)
      have hlt := measure_apply_lt d ht
      simp only [hm, ht, Option.bind_some]
      exact ih (n + 1) t (by omega)

/-- Whatever the width and the schedule, a run leaves nothing undone. -/
theorem isDone_run (schedule : Schedule) (w : World) (width : Nat) (jobs : List Job) :
    (d.run schedule (init w width jobs)).isDone = true := by
  apply isDone_of_moves_eq_nil
  · exact moves_runFrom d schedule _ 0 _ (Nat.le_refl _)
  · rw [Duty.run, permits_runFrom]
    simp only [permits, held, init, List.length_nil]
    omega

/-! ### What histories tell -/

namespace Deed

@[simp] def entered? : Deed Job Answer → Option Job
  | .refused job | .admitted job => some job
  | _ => none

@[simp] def refused? : Deed Job Answer → Option Job
  | .refused job => some job
  | _ => none

@[simp] def admitted? : Deed Job Answer → Option Job
  | .admitted job => some job
  | _ => none

@[simp] def started? : Deed Job Answer → Option (Task Job)
  | .started task => some task
  | _ => none

@[simp] def answer? : Deed Job Answer → Option (Task Job × Answer)
  | .answered task a => some (task, a)
  | _ => none

@[simp] def report? : Deed Job Answer → Option (Task Job × Answer)
  | .reported task a => some (task, a)
  | _ => none

@[simp] def join? : Deed Job Answer → Option (Task Job × Answer)
  | .joined task a => some (task, a)
  | _ => none

end Deed

namespace History

def entered (ds : History Job Answer) : List Job := ds.filterMap Deed.entered?

def refused (ds : History Job Answer) : List Job := ds.filterMap Deed.refused?

def admitted (ds : History Job Answer) : List Job := ds.filterMap Deed.admitted?

def started (ds : History Job Answer) : List (Task Job) := ds.filterMap Deed.started?

def answers (ds : History Job Answer) : List (Task Job × Answer) := ds.filterMap Deed.answer?

def reports (ds : History Job Answer) : List (Task Job × Answer) := ds.filterMap Deed.report?

def joins (ds : History Job Answer) : List (Task Job × Answer) := ds.filterMap Deed.join?

@[simp] theorem filterMap_singleton {α β : Type} (f : α → Option β) (a : α) :
    [a].filterMap f = (f a).toList := by
  cases h : f a with
  | none => rw [List.filterMap_cons_none h]; rfl
  | some b => rw [List.filterMap_cons_some h]; rfl

theorem filterMap_snoc {α β : Type} (f : α → Option β) (as : List α) (a : α) :
    (as ++ [a]).filterMap f = as.filterMap f ++ (f a).toList := by
  rw [List.filterMap_append, filterMap_singleton]

variable (ds : History Job Answer) (deed : Deed Job Answer)

@[simp] theorem entered_snoc : entered (ds ++ [deed]) = ds.entered ++ deed.entered?.toList :=
  filterMap_snoc _ ds deed

@[simp] theorem refused_snoc : refused (ds ++ [deed]) = ds.refused ++ deed.refused?.toList :=
  filterMap_snoc _ ds deed

@[simp] theorem admitted_snoc : admitted (ds ++ [deed]) = ds.admitted ++ deed.admitted?.toList :=
  filterMap_snoc _ ds deed

@[simp] theorem started_snoc : started (ds ++ [deed]) = ds.started ++ deed.started?.toList :=
  filterMap_snoc _ ds deed

@[simp] theorem answers_snoc : answers (ds ++ [deed]) = ds.answers ++ deed.answer?.toList :=
  filterMap_snoc _ ds deed

@[simp] theorem reports_snoc : reports (ds ++ [deed]) = ds.reports ++ deed.report?.toList :=
  filterMap_snoc _ ds deed

@[simp] theorem joins_snoc : joins (ds ++ [deed]) = ds.joins ++ deed.join?.toList :=
  filterMap_snoc _ ds deed

theorem entered_perm (ds : History Job Answer) : ds.entered.Perm (ds.refused ++ ds.admitted) := by
  induction ds with
  | nil => exact .nil
  | cons deed ds ih =>
    cases deed with
    | refused job => exact ih.cons job
    | admitted job => exact (ih.cons job).trans List.perm_middle.symm
    | granted _ | started _ | answered _ _ | reported _ _ | joined _ _ => exact ih

/-- The driver comes to the job after these deeds. -/
def Before (ds : History Job Answer) (job : Job) (es : History Job Answer) : Prop :=
  ∃ deed es', ds = es ++ deed :: es' ∧ deed.entered? = some job

theorem exists_before {ds : History Job Answer} {job : Job} (h : job ∈ ds.entered) :
    ∃ es, ds.Before job es := by
  obtain ⟨deed, hdeed, hjob⟩ := List.mem_filterMap.1 h
  obtain ⟨es, es', hsplit⟩ := List.append_of_mem hdeed
  exact ⟨es, deed, es', hsplit, hjob⟩

end History

def numbered (jobs : List Job) : List (Task Job) := jobs.mapIdx Task.mk

theorem map_job_numbered (jobs : List Job) : (numbered jobs).map Task.job = jobs := by
  apply List.ext_getElem
  · simp [numbered]
  · intro i h₁ h₂
    simp [numbered]

theorem numbered_concat (jobs : List Job) (job : Job) :
    numbered (jobs ++ [job]) = numbered jobs ++ [⟨jobs.length, job⟩] :=
  List.mapIdx_concat

/-! ### Books -/

@[simp] def Driver.jobs : Driver Job → List Job
  | .idle => []
  | .waiting job | .holding job => [job]

structure Books (jobs : List Job) (ds : History Job Answer) (s : Pool World Job Answer) : Prop where
  entered : ds.entered ++ s.pending = jobs
  admitted : ds.admitted = s.started ++ s.driver.jobs
  started : ds.started = numbered s.started
  answers : (ds.answers.map Prod.fst ++ s.calling).Perm ds.started
  reports : (ds.reports ++ s.reporting).Perm ds.answers
  joins : (ds.joins ++ s.ended).Perm ds.reports

theorem books_init (w : World) (width : Nat) (jobs : List Job) :
    Books jobs [] (init w width jobs : Pool World Job Answer) :=
  ⟨rfl, rfl, rfl, .nil, .nil, .nil⟩

theorem perm_append_eraseIdx {α : Type} {xs ys : List α} {i : Nat} {a : α} (h : ys[i]? = some a) :
    (xs ++ [a] ++ ys.eraseIdx i).Perm (xs ++ ys) := by
  obtain ⟨hi, rfl⟩ := List.getElem?_eq_some_iff.1 h
  rw [List.append_assoc]
  exact (List.getElem_cons_eraseIdx_perm hi).append_left xs

theorem Books.step {jobs : List Job} {ds : History Job Answer} {s t : Pool World Job Answer}
    {deed : Deed Job Answer} {d : Duty World Job Answer} (h : Books jobs ds s) (does : Does d s deed t) :
    Books jobs (ds ++ [deed]) t := by
  obtain ⟨hentered, hadmitted, hstarted, hanswers, hreports, hjoins⟩ := h
  cases does with
  | refuse idle pending refused =>
    rw [pending] at hentered
    exact ⟨by simpa using hentered, by simpa using hadmitted, by simpa using hstarted,
      by simpa using hanswers, by simpa using hreports, by simpa using hjoins⟩
  | accept idle pending admitted =>
    rw [pending] at hentered
    rw [idle] at hadmitted
    exact ⟨by simpa using hentered, by simp [hadmitted], by simpa using hstarted,
      by simpa using hanswers, by simpa using hreports, by simpa using hjoins⟩
  | grant waiting permit =>
    rw [waiting] at hadmitted
    exact ⟨by simpa using hentered, by simpa using hadmitted, by simpa using hstarted,
      by simpa using hanswers, by simpa using hreports, by simpa using hjoins⟩
  | start holding =>
    rw [holding] at hadmitted
    refine ⟨by simpa using hentered, by simpa using hadmitted, ?_, ?_, by simpa using hreports,
      by simpa using hjoins⟩
    · simp [hstarted, numbered_concat]
    · simpa using hanswers.append_right _
  | answer calling =>
    refine ⟨by simpa using hentered, by simpa using hadmitted, by simpa using hstarted, ?_, ?_,
      by simpa using hjoins⟩
    · simpa using (perm_append_eraseIdx calling).trans hanswers
    · simpa using hreports.append_right _
  | report reporting =>
    refine ⟨by simpa using hentered, by simpa using hadmitted, by simpa using hstarted,
      by simpa using hanswers, ?_, ?_⟩
    · simpa using (perm_append_eraseIdx reporting).trans hreports
    · simpa using hjoins.append_right _
  | join driven ended =>
    refine ⟨by simpa using hentered, by simpa using hadmitted, by simpa using hstarted,
      by simpa using hanswers, by simpa using hreports, ?_⟩
    simpa using (perm_append_eraseIdx ended).trans hjoins

theorem books_of_leads {d : Duty World Job Answer} {w : World} {width : Nat} {jobs : List Job}
    {ds : History Job Answer} {s : Pool World Job Answer} (h : Leads d (init w width jobs) ds s) :
    Books jobs ds s := by
  induction h with
  | nil => exact books_init w width jobs
  | snoc _ last ih => exact ih.step last

/-- The history of a pool on its way through the jobs: none has come twice, and what was reported
was answered. -/
structure History.Orderly (ds : History Job Answer) (jobs : List Job) : Prop where
  distinct : (ds.refused ++ ds.answers.map fun r => r.1.job).Nodup
  within : ∀ job ∈ ds.refused ++ ds.answers.map (fun r => r.1.job), job ∈ jobs
  reports : ∀ r ∈ ds.reports, r ∈ ds.answers

theorem Books.orderly {jobs : List Job} {ds : History Job Answer} {s : Pool World Job Answer}
    (h : Books jobs ds s) (nodup : jobs.Nodup) : ds.Orderly jobs := by
  obtain ⟨hentered, hadmitted, hstarted, hanswers, hreports, -⟩ := h
  have hjobs : (ds.answers.map (fun r => r.1.job) ++ s.calling.map Task.job).Perm s.started := by
    have hp := hanswers.map Task.job
    rwa [hstarted, map_job_numbered, List.map_append, List.map_map] at hp
  have hcame : (ds.refused ++ (ds.answers.map (fun r => r.1.job) ++ s.calling.map Task.job) ++
      s.driver.jobs).Perm ds.entered := by
    have hp := ds.entered_perm
    rw [hadmitted, ← List.append_assoc] at hp
    exact ((hjobs.append_left ds.refused).append_right _).trans hp.symm
  have hsub : (ds.refused ++ ds.answers.map fun r => r.1.job).Sublist
      (ds.refused ++ (ds.answers.map (fun r => r.1.job) ++ s.calling.map Task.job) ++
        s.driver.jobs) :=
    ((List.sublist_append_left _ _).append_left _).trans (List.sublist_append_left _ _)
  rw [← hentered] at nodup ⊢
  exact
    { distinct := hsub.nodup (hcame.nodup_iff.2 nodup.of_append_left)
      within := fun job hjob => List.mem_append_left _ (hcame.subset (hsub.subset hjob))
      reports := fun r hr => hreports.subset (List.mem_append_left _ hr) }

namespace History.Orderly

variable {ds : History Job Answer} {jobs : List Job} (h : ds.Orderly jobs)
include h

theorem nodup_refused : ds.refused.Nodup := h.distinct.of_append_left

theorem nodup_jobs : (ds.answers.map fun r => r.1.job).Nodup := h.distinct.of_append_right

theorem not_mem_refused {r : Task Job × Answer} (hr : r ∈ ds.answers) : r.1.job ∉ ds.refused := by
  intro href
  exact (List.nodup_append.1 h.distinct).2.2 _ href _ (List.mem_map_of_mem hr) rfl

theorem eq_of_job_eq {r r' : Task Job × Answer} (hr : r ∈ ds.answers) (hr' : r' ∈ ds.answers)
    (hj : r.1.job = r'.1.job) : r = r' :=
  List.inj_on_of_nodup_map h.nodup_jobs hr hr' hj

theorem ne_job_of_concat {es : History Job Answer} {task : Task Job} {a : Answer}
    (hds : ds = es ++ [.answered task a]) {r : Task Job × Answer} (hr : r ∈ es.answers) :
    r.1.job ≠ task.job := by
  have hn := h.nodup_jobs
  rw [hds, answers_snoc, List.map_append] at hn
  intro hj
  exact (List.nodup_append.1 hn).2.2 _ (List.mem_map_of_mem hr) task.job (by simp) hj

end History.Orderly

theorem Leads.induct_orderly {d : Duty World Job Answer} {w : World} {width : Nat} {jobs : List Job}
    {ds : History Job Answer} {s : Pool World Job Answer} (h : Leads d (init w width jobs) ds s)
    (nodup : jobs.Nodup) (P : History Job Answer → World → Prop) (first : P [] w)
    (step : ∀ es w deed, es.Orderly jobs → History.Orderly (es ++ [deed]) jobs → P es w →
      d.Suits w deed → P (es ++ [deed]) (d.effect w deed)) : P ds s.world := by
  induction h with
  | nil => exact first
  | snoc before last ih =>
    rw [last.world]
    exact step _ _ _ ((books_of_leads before).orderly nodup)
      ((books_of_leads (before.snoc last)).orderly nodup) ih last.suits

structure History.Sorts (ds : History Job Answer) (p : Job → Bool) : Prop where
  refused : ∀ job ∈ ds.refused, p job = false
  admitted : ∀ job ∈ ds.admitted, p job = true

theorem Leads.sorts {d : Duty World Job Answer} {s t : Pool World Job Answer}
    {ds : History Job Answer} (h : Leads d s ds t) {p : Job → Bool} (I : World → Prop)
    (first : I s.world) (step : ∀ w deed, I w → I (d.effect w deed))
    (admits : ∀ w job, I w → d.admits job w = p job) : ds.Sorts p := by
  refine (h.induct (fun es w => I w ∧ es.Sorts p) ⟨first, ?_, ?_⟩ ?_).2
  · simp [History.refused]
  · simp [History.admitted]
  · rintro es w deed ⟨hw, hrefused, hadmitted⟩ suits
    refine ⟨step w deed hw, fun job hjob => ?_, fun job hjob => ?_⟩
    · rw [History.refused_snoc, List.mem_append, Option.mem_toList] at hjob
      rcases hjob with hjob | hjob
      · exact hrefused job hjob
      · cases deed with
        | refused k =>
          cases hjob
          rw [← admits w job hw]
          exact suits
        | _ => cases hjob
    · rw [History.admitted_snoc, List.mem_append, Option.mem_toList] at hjob
      rcases hjob with hjob | hjob
      · exact hadmitted job hjob
      · cases deed with
        | admitted k =>
          cases hjob
          rw [← admits w job hw]
          exact suits
        | _ => cases hjob

theorem History.Sorts.filter_entered {ds : History Job Answer} {p : Job → Bool} (h : ds.Sorts p) :
    ds.entered.filter p = ds.admitted := by
  induction ds with
  | nil => rfl
  | cons deed ds ih =>
    cases deed with
    | refused job =>
      have hjob := h.refused job List.mem_cons_self
      have hrest := ih ⟨fun k hk => h.refused k (List.mem_cons_of_mem job hk), h.admitted⟩
      change (job :: History.entered ds).filter p = History.admitted ds
      rw [List.filter_cons_of_neg (by rw [hjob]; decide), hrest]
    | admitted job =>
      have hjob := h.admitted job List.mem_cons_self
      have hrest := ih ⟨h.refused, fun k hk => h.admitted k (List.mem_cons_of_mem job hk)⟩
      change (job :: History.entered ds).filter p = job :: History.admitted ds
      rw [List.filter_cons_of_pos hjob, hrest]
    | granted _ | started _ | answered _ _ | reported _ _ | joined _ _ =>
      exact ih ⟨h.refused, h.admitted⟩

/-- The history of a pool that has gone through all its jobs. -/
structure History.Covers (ds : History Job Answer) (jobs : List Job) : Prop where
  entered : ds.entered = jobs
  answers : (ds.answers.map Prod.fst).Perm (numbered ds.admitted)
  reports : ds.reports.Perm ds.answers
  joins : ds.joins.Perm ds.answers

theorem Books.covers {jobs : List Job} {ds : History Job Answer} {s : Pool World Job Answer}
    (h : Books jobs ds s) (done : s.isDone = true) : ds.Covers jobs := by
  obtain ⟨hentered, hadmitted, hstarted, hanswers, hreports, hjoins⟩ := h
  simp only [isDone, Bool.and_eq_true, List.isEmpty_iff] at done
  obtain ⟨⟨⟨hdriven, hc⟩, hr⟩, he⟩ := done
  unfold isDriven at hdriven
  split at hdriven
  · rename_i hd hp
    rw [hp, List.append_nil] at hentered
    rw [hd, Driver.jobs, List.append_nil] at hadmitted
    rw [hc, List.append_nil, hstarted, ← hadmitted] at hanswers
    rw [hr, List.append_nil] at hreports
    rw [he, List.append_nil] at hjoins
    exact ⟨hentered, hanswers, hreports, hjoins.trans hreports⟩
  · simp at hdriven

theorem Books.started_eq {jobs : List Job} {ds : History Job Answer} {s : Pool World Job Answer}
    (h : Books jobs ds s) (done : s.isDone = true) : s.started = ds.admitted := by
  simp only [isDone, Bool.and_eq_true] at done
  have hdriven := done.1.1.1
  unfold isDriven at hdriven
  split at hdriven
  · rename_i hd _
    rw [h.admitted, hd, Driver.jobs, List.append_nil]
  · simp at hdriven

/-- Whatever the width and the schedule, a run goes through all its jobs. -/
theorem covers_history (d : Duty World Job Answer) (schedule : Schedule) (w : World) (width : Nat)
    (jobs : List Job) : (d.history schedule (init w width jobs)).Covers jobs :=
  (books_of_leads (leads_run d schedule _)).covers (isDone_run d schedule w width jobs)

namespace History.Covers

variable {ds : History Job Answer} {jobs : List Job}

theorem jobs_perm (h : ds.Covers jobs) : jobs.Perm (ds.refused ++ ds.admitted) := by
  have hp := ds.entered_perm
  rwa [h.entered] at hp

theorem map_job_answers (h : ds.Covers jobs) :
    (ds.answers.map fun r => r.1.job).Perm ds.admitted := by
  have hp := h.answers.map Task.job
  rwa [map_job_numbered, List.map_map] at hp

theorem mem_admitted_iff (h : ds.Covers jobs) {job : Job} :
    job ∈ ds.admitted ↔ ∃ r ∈ ds.answers, r.1.job = job := by
  rw [← h.map_job_answers.mem_iff, List.mem_map]

theorem mem_jobs_iff (h : ds.Covers jobs) {job : Job} :
    job ∈ jobs ↔ job ∈ ds.refused ∨ ∃ r ∈ ds.answers, r.1.job = job := by
  rw [h.jobs_perm.mem_iff, List.mem_append, h.mem_admitted_iff]

theorem mem_refused_iff (h : ds.Covers jobs) {p : Job → Bool} (sorts : ds.Sorts p) {job : Job} :
    job ∈ ds.refused ↔ job ∈ jobs ∧ p job = false := by
  constructor
  · intro hr
    exact ⟨h.mem_jobs_iff.2 (.inl hr), sorts.refused job hr⟩
  · rintro ⟨hjob, hp⟩
    rcases List.mem_append.1 (h.jobs_perm.mem_iff.1 hjob) with hr | ha
    · exact hr
    · rw [sorts.admitted job ha] at hp
      cases hp

theorem map_job_perm_filter (h : ds.Covers jobs) {p : Job → Bool} (sorts : ds.Sorts p) :
    (ds.answers.map fun r => r.1.job).Perm (jobs.filter p) := by
  have hp := h.jobs_perm.filter p
  have hrefused : ds.refused.filter p = [] := by
    rw [List.filter_eq_nil_iff]
    intro job hjob
    rw [sorts.refused job hjob]
    decide
  rw [List.filter_append, hrefused, List.nil_append, List.filter_eq_self.2 sorts.admitted] at hp
  exact h.map_job_answers.trans hp.symm

theorem admitted_eq (h : ds.Covers jobs) {p : Job → Bool} (sorts : ds.Sorts p) :
    ds.admitted = jobs.filter p := by
  rw [← h.entered, sorts.filter_entered]

theorem answers_perm (h : ds.Covers jobs) {p : Job → Bool} (sorts : ds.Sorts p)
    {answer : Job → Answer} (fixed : ∀ r ∈ ds.answers, r.2 = answer r.1.job) :
    ds.answers.Perm ((numbered (jobs.filter p)).map fun task => (task, answer task.job)) := by
  have hanswers : (ds.answers.map Prod.fst).map (fun task => (task, answer task.job)) = ds.answers := by
    rw [List.map_map]
    refine (List.map_congr_left fun r hr => ?_).trans (List.map_id _)
    exact Prod.ext rfl (fixed r hr).symm
  have hp := h.answers.map fun task => (task, answer task.job)
  rwa [hanswers, h.admitted_eq sorts] at hp

theorem orderly (h : ds.Covers jobs) (nodup : jobs.Nodup) : ds.Orderly jobs := by
  have hp := (h.map_job_answers.append_left ds.refused).trans h.jobs_perm.symm
  exact ⟨hp.nodup_iff.2 nodup, fun job hjob => hp.subset hjob, fun r hr => h.reports.subset hr⟩

theorem decided_of_before (h : ds.Covers jobs) (nodup : jobs.Nodup) {d : Duty World Job Answer}
    {s t : Pool World Job Answer} (leads : Leads d s ds t) {job : Job} {es : History Job Answer}
    (before : ds.Before job es) :
    (job ∈ ds.refused ↔ d.admits job (d.replay s.world es) = false) ∧
      ((∃ r ∈ ds.answers, r.1.job = job) ↔ d.admits job (d.replay s.world es) = true) := by
  obtain ⟨deed, es', hsplit, hjob⟩ := before
  have hsuits := leads.suits hsplit
  have hone : ∀ r ∈ ds.answers, r.1.job = job → job ∉ ds.refused := by
    rintro r hr rfl
    exact (h.orderly nodup).not_mem_refused hr
  cases deed with
  | refused k =>
    cases hjob
    have hrefused : job ∈ ds.refused := by
      rw [hsplit, refused]
      simp
    have hadmits : d.admits job (d.replay s.world es) = false := hsuits
    rw [hadmits]
    refine ⟨iff_of_true hrefused rfl, iff_of_false ?_ Bool.false_ne_true⟩
    rintro ⟨r, hr, hj⟩
    exact hone r hr hj hrefused
  | admitted k =>
    cases hjob
    have hadmitted : job ∈ ds.admitted := by
      rw [hsplit, admitted]
      simp
    have hadmits : d.admits job (d.replay s.world es) = true := hsuits
    obtain ⟨r, hr, hj⟩ := h.mem_admitted_iff.1 hadmitted
    rw [hadmits]
    exact ⟨iff_of_false (hone r hr hj) (by decide), iff_of_true ⟨r, hr, hj⟩ rfl⟩
  | granted _ | started _ | answered _ _ | reported _ _ | joined _ _ => cases hjob

end History.Covers

end Breakage.Pool
