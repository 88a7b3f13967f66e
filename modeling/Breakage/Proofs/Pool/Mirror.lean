import Breakage.Proofs.Pool.Completion

/-!
One job among others. A view of the world that the other jobs leave alone is changed by this job only,
as if nothing else were done (`Duty.Mirrors`): in whatever order things happen, the view is where the
job's own deeds have brought it, and its answer is what the view calls for (`stands_of_leads`). Main
statement: `concur_of_leads` (of a job for which two pools have the same to do, the same comes in both).
-/

namespace Breakage.Pool

variable {World View Job Answer : Type}

@[simp] def Deed.job : Deed Job Answer → Job
  | .refused job | .admitted job | .granted job => job
  | .started task | .answered task _ | .reported task _ | .joined task _ => task.job

/-! ### Whom a history is about -/

namespace Books

variable {jobs : List Job} {ds : History Job Answer} {s t : Pool World Job Answer} {job : Job}

theorem mem_of_entered (h : Books jobs ds s) (hjob : job ∈ ds.entered) : job ∈ jobs := by
  rw [← h.entered]
  exact List.mem_append_left _ hjob

theorem mem_of_admitted (h : Books jobs ds s) (hjob : job ∈ ds.admitted) : job ∈ jobs :=
  h.mem_of_entered (ds.entered_perm.mem_iff.2 (List.mem_append_right _ hjob))

theorem admitted_of_started (h : Books jobs ds s) {task : Task Job} (htask : task ∈ ds.started) :
    task.job ∈ ds.admitted := by
  rw [h.started] at htask
  have hjob := List.mem_map_of_mem (f := Task.job) htask
  rw [map_job_numbered] at hjob
  rw [h.admitted]
  exact List.mem_append_left _ hjob

theorem admitted_of_answers (h : Books jobs ds s) {r : Task Job × Answer} (hr : r ∈ ds.answers) :
    r.1.job ∈ ds.admitted :=
  h.admitted_of_started (h.answers.subset (List.mem_append_left _ (List.mem_map_of_mem hr)))

theorem admitted_of_calling (h : Books jobs ds s) {task : Task Job} (htask : task ∈ s.calling) :
    task.job ∈ ds.admitted :=
  h.admitted_of_started (h.answers.subset (List.mem_append_right _ htask))

theorem mem_of_does {d : Duty World Job Answer} {deed : Deed Job Answer} (h : Books jobs ds s)
    (does : Does d s deed t) : deed.job ∈ jobs := by
  have h' := h.step does
  cases does with
  | refuse idle pending refused => exact h'.mem_of_entered (by simp)
  | accept idle pending admitted => exact h'.mem_of_entered (by simp)
  | grant waiting permit => exact h.mem_of_admitted (by simp [h.admitted, waiting])
  | start holding => exact h.mem_of_admitted (by simp [h.admitted, holding])
  | answer calling => exact h.mem_of_admitted (h.admitted_of_calling (List.mem_of_getElem? calling))
  | report reporting =>
    have hr := h.reports.subset (List.mem_append_right _ (List.mem_of_getElem? reporting))
    exact h.mem_of_admitted (h.admitted_of_answers hr)
  | join driven ended =>
    have hr := h.joins.subset (List.mem_append_right _ (List.mem_of_getElem? ended))
    exact h.mem_of_admitted (h.admitted_of_answers (h.reports.subset (List.mem_append_left _ hr)))

theorem nodup_reports (h : Books jobs ds s) (nodup : jobs.Nodup) :
    (ds.reports.map fun r => r.1.job).Nodup := by
  have hanswers := (h.orderly nodup).nodup_jobs
  have hperm := h.reports.map fun r => r.1.job
  rw [List.map_append] at hperm
  exact (hperm.nodup_iff.2 hanswers).of_append_left

end Books

/-! ### The view -/

/-- The duty `c` tells what becomes of the view as far as it is up to one job; other jobs do not touch
the view. -/
structure Duty.Mirrors (d : Duty World Job Answer) (c : Duty View Job Answer) (jobs : List Job)
    (job : Job) (sees : View → World → Prop) : Prop where
  admits : ∀ v w, sees v w → d.admits job w = c.admits job v
  answer : ∀ v w, sees v w → c.admits job v = true → (d.call job w).1 = (c.call job v).1
  own : ∀ v w deed, sees v w → deed.job = job →
    (∀ task a, deed = .answered task a → c.admits job v = true) →
      sees (c.effect v deed) (d.effect w deed)
  others : ∀ v w deed, sees v w → deed.job ∈ jobs → deed.job ≠ job → sees v (d.effect w deed)
  /-- nothing is left to be done when the task is joined -/
  settle : ∀ task a v, c.settle task job a v = v

/-- How far a job has come in a history, and where the view is then, from a first one on. -/
inductive Stands (c : Duty View Job Answer) (job : Job) (v : View) (ds : History Job Answer) :
    View → Prop where
  | untouched (decided : job ∈ ds.admitted → c.admits job v = true) (unrefused : job ∉ ds.refused)
      (unanswered : ∀ r ∈ ds.answers, r.1.job ≠ job) : Stands c job v ds v
  | refused (decided : c.admits job v = false) (refused : job ∈ ds.refused) :
      Stands c job v ds (c.refuse job v)
  | answered (task : Task Job) (same : task.job = job) (decided : c.admits job v = true)
      (answered : (task, (c.call job v).1) ∈ ds.answers)
      (unreported : ∀ r ∈ ds.reports, r.1.job ≠ job) : Stands c job v ds (c.call job v).2
  | reported (task : Task Job) (same : task.job = job) (decided : c.admits job v = true)
      (reported : (task, (c.call job v).1) ∈ ds.reports) :
      Stands c job v ds (c.report job (c.call job v).1 (c.call job v).2)

variable {d : Duty World Job Answer} {c : Duty View Job Answer} {jobs : List Job} {job : Job}
  {sees : View → World → Prop} {v v' : View} {es : History Job Answer} {deed : Deed Job Answer}

theorem Stands.mono (h : Stands c job v es v')
    (admitted : v' = v → job ∈ History.admitted (es ++ [deed]) →
      c.admits job v = true ∨ job ∈ es.admitted)
    (refused : job ∈ History.refused (es ++ [deed]) → job ∈ es.refused)
    (answers : ∀ r ∈ History.answers (es ++ [deed]), r.1.job = job → r ∈ es.answers)
    (reports : ∀ r ∈ History.reports (es ++ [deed]), r.1.job = job → r ∈ es.reports) :
    Stands c job v (es ++ [deed]) v' := by
  cases h with
  | untouched decided unrefused unanswered =>
    refine .untouched (fun h => (admitted rfl h).elim id decided) (fun h => unrefused (refused h)) ?_
    intro r hr hj
    exact unanswered r (answers r hr hj) hj
  | refused decided href => exact .refused decided (by simp [href])
  | answered task same decided hanswered unreported =>
    refine .answered task same decided (by simp [hanswered]) fun r hr hj => ?_
    exact unreported r (reports r hr hj) hj
  | reported task same decided hreported => exact .reported task same decided (by simp [hreported])

theorem Stands.eq_of_fresh (h : Stands c job v es v') (orderly : es.Orderly jobs)
    (fresh : job ∉ es.refused) (uncalled : ∀ r ∈ es.answers, r.1.job ≠ job) :
    v' = v ∧ (job ∈ es.admitted → c.admits job v = true) := by
  cases h with
  | untouched decided _ _ => exact ⟨rfl, decided⟩
  | refused _ refused => exact absurd refused fresh
  | answered task same _ answered _ => exact absurd same (uncalled _ answered)
  | reported task same _ reported => exact absurd same (uncalled _ (orderly.reports _ reported))

theorem Stands.other (h : Stands c job v es v') (other : deed.job ≠ job) :
    Stands c job v (es ++ [deed]) v' := by
  refine h.mono (fun _ hmem => .inr ?_) (fun hmem => ?_) (fun r hmem hj => ?_) fun r hmem hj => ?_
  · rw [History.admitted_snoc, List.mem_append, Option.mem_toList] at hmem
    refine hmem.resolve_right fun h => other ?_
    cases deed with
    | admitted k => exact Option.some.inj h
    | _ => cases h
  · rw [History.refused_snoc, List.mem_append, Option.mem_toList] at hmem
    refine hmem.resolve_right fun h => other ?_
    cases deed with
    | refused k => exact Option.some.inj h
    | _ => cases h
  · rw [History.answers_snoc, List.mem_append, Option.mem_toList] at hmem
    refine hmem.resolve_right fun h => other ?_
    cases deed with
    | answered task a =>
      cases h
      exact hj
    | _ => cases h
  · rw [History.reports_snoc, List.mem_append, Option.mem_toList] at hmem
    refine hmem.resolve_right fun h => other ?_
    cases deed with
    | reported task a =>
      cases h
      exact hj
    | _ => cases h

theorem Stands.eq_of_answered {task : Task Job} {a : Answer} (nodup : jobs.Nodup)
    {s t : Pool World Job Answer} (books : Books jobs es s) (does : Does d s (.answered task a) t)
    (h : Stands c task.job v es v') : v' = v ∧ c.admits task.job v = true := by
  have orderly := (books.step does).orderly nodup
  have hadmitted : task.job ∈ es.admitted := by
    simpa using (books.step does).admitted_of_answers (r := (task, a)) (by simp)
  have hfresh : task.job ∉ es.refused := fun hmem =>
    orderly.not_mem_refused (r := (task, a)) (by simp) (by simp [hmem])
  obtain ⟨hv, decided⟩ := h.eq_of_fresh (books.orderly nodup) hfresh fun r hr =>
    orderly.ne_job_of_concat rfl hr
  exact ⟨hv, decided hadmitted⟩

theorem Stands.own (mirrors : d.Mirrors c jobs job sees) (nodup : jobs.Nodup)
    {s t : Pool World Job Answer} (books : Books jobs es s) (does : Does d s deed t)
    (h : Stands c job v es v') (view : sees v' s.world) (own : deed.job = job) :
    Stands c job v (es ++ [deed]) (c.effect v' deed) := by
  have before := books.orderly nodup
  have orderly := (books.step does).orderly nodup
  have suits := does.suits
  cases deed with
  | refused k =>
    obtain rfl : k = job := own
    have hfresh : k ∉ es.refused := by
      have hnodup := orderly.nodup_refused
      rw [History.refused_snoc] at hnodup
      exact fun hmem => (List.nodup_append.1 hnodup).2.2 k hmem k (by simp) rfl
    have huncalled : ∀ r ∈ es.answers, r.1.job ≠ k := by
      intro r hr hj
      have hnot := orderly.not_mem_refused (r := r) (by simp [hr])
      rw [hj] at hnot
      exact hnot (by simp)
    obtain ⟨hv, -⟩ := h.eq_of_fresh before hfresh huncalled
    rw [hv] at view ⊢
    refine .refused ?_ (by simp)
    rw [← mirrors.admits _ _ view]
    exact suits
  | admitted k =>
    obtain rfl : k = job := own
    refine h.mono (fun hv _ => .inl ?_) (by simp) (by simp +contextual) (by simp +contextual)
    rw [← hv, ← mirrors.admits _ _ view]
    exact suits
  | granted k | started task =>
    exact h.mono (fun _ hmem => .inr (by simpa using hmem)) (by simp) (by simp +contextual)
      (by simp +contextual)
  | answered task a =>
    obtain rfl : task.job = job := own
    obtain ⟨hv, decided⟩ := h.eq_of_answered nodup books does
    have huncalled : ∀ r ∈ es.answers, r.1.job ≠ task.job :=
      fun r hr => orderly.ne_job_of_concat rfl hr
    rw [hv] at view ⊢
    have ha : a = (c.call task.job v).1 := suits.trans (mirrors.answer _ _ view decided)
    refine .answered task rfl decided (by simp [ha]) fun r hr => ?_
    exact huncalled r (before.reports r (by simpa using hr))
  | reported task a =>
    obtain rfl : task.job = job := own
    have hanswer : (task, a) ∈ es.answers := by
      simpa using orderly.reports (task, a) (by simp)
    cases h with
    | untouched _ _ unanswered => exact absurd rfl (unanswered _ hanswer)
    | refused _ refused => exact absurd refused (before.not_mem_refused hanswer)
    | answered task' same decided answered unreported =>
      cases before.eq_of_job_eq answered hanswer same
      exact .reported task rfl decided (by simp)
    | reported task' same decided reported =>
      -- it would have reported twice
      have hnodup := (books.step does).nodup_reports nodup
      rw [History.reports_snoc, List.map_append] at hnodup
      have hne := (List.nodup_append.1 hnodup).2.2 _ (List.mem_map_of_mem reported) task.job (by simp)
      exact absurd same hne
  | joined task a =>
    obtain rfl : task.job = job := own
    change Stands c task.job v _ (c.settle task.number task.job a v')
    rw [mirrors.settle]
    exact h.mono (fun _ hmem => .inr (by simpa using hmem)) (by simp) (by simp +contextual)
      (by simp +contextual)

/-- The view of the world at the end of a history is where the job has come to. -/
theorem stands_of_leads (mirrors : d.Mirrors c jobs job sees) (nodup : jobs.Nodup) {w : World}
    {width : Nat} {s : Pool World Job Answer} (first : sees v w)
    (h : Leads d (init w width jobs) es s) : ∃ v', Stands c job v es v' ∧ sees v' s.world := by
  induction h with
  | nil => exact ⟨v, .untouched (by simp [History.admitted]) (by simp [History.refused])
      (by simp [History.answers]), first⟩
  | @snoc _ _ _ deed before last ih =>
    obtain ⟨v', stands, view⟩ := ih
    have books := books_of_leads before
    rw [last.world]
    by_cases own : deed.job = job
    · refine ⟨_, stands.own mirrors nodup books last view own, mirrors.own _ _ _ view own ?_⟩
      rintro task a rfl
      obtain rfl : task.job = job := own
      obtain ⟨hv, decided⟩ := stands.eq_of_answered nodup books last
      rwa [hv]
    · exact ⟨v', stands.other own, mirrors.others _ _ _ view (books.mem_of_does last) own⟩

theorem Leads.induct_jobs {w : World} {width : Nat} {s : Pool World Job Answer}
    (h : Leads d (init w width jobs) es s) (P : World → Prop) (first : P w)
    (step : ∀ w deed, deed.job ∈ jobs → P w → P (d.effect w deed)) : P s.world := by
  induction h with
  | nil => exact first
  | snoc before last ih =>
    rw [last.world]
    exact step _ _ ((books_of_leads before).mem_of_does last) ih

theorem sees_of_not_mem (mirrors : d.Mirrors c jobs job sees) (absent : job ∉ jobs) {w : World}
    {width : Nat} {s : Pool World Job Answer} (first : sees v w)
    (h : Leads d (init w width jobs) es s) : sees v s.world := by
  refine h.induct_jobs (sees v) first fun w deed hmem view => mirrors.others _ _ _ view hmem ?_
  rintro rfl
  exact absent hmem

/-- What becomes of the view while the job is seen to. -/
def Duty.passed (c : Duty View Job Answer) (job : Job) (v : View) : View :=
  if c.admits job v then c.report job (c.call job v).1 (c.call job v).2 else c.refuse job v

/-- When all is done, the job was refused or called as the view called for. -/
theorem passed_of_leads (mirrors : d.Mirrors c jobs job sees) (nodup : jobs.Nodup)
    (mem : job ∈ jobs) {w : World} {width : Nat} {s : Pool World Job Answer} (first : sees v w)
    (h : Leads d (init w width jobs) es s) (covers : es.Covers jobs) :
    sees (c.passed job v) s.world ∧ (job ∈ es.refused ↔ c.admits job v = false) ∧
      ∀ a, (∃ task, task.job = job ∧ (task, a) ∈ es.answers) ↔
        c.admits job v = true ∧ a = (c.call job v).1 := by
  have orderly := covers.orderly nodup
  obtain ⟨v', stands, view⟩ := stands_of_leads mirrors nodup first h
  cases stands with
  | untouched _ unrefused unanswered =>
    rcases covers.mem_jobs_iff.1 mem with hrefused | ⟨r, hr, hj⟩
    · exact absurd hrefused unrefused
    · exact absurd hj (unanswered r hr)
  | refused decided refused =>
    refine ⟨?_, iff_of_true refused decided, fun a => iff_of_false ?_ ?_⟩
    · rwa [Duty.passed, decided, if_neg Bool.false_ne_true]
    · rintro ⟨task, rfl, hanswer⟩
      exact orderly.not_mem_refused hanswer refused
    · rw [decided]
      exact fun h => Bool.false_ne_true h.1
  | answered task same decided answered unreported =>
    exact absurd same (unreported _ (covers.reports.mem_iff.2 answered))
  | reported task same decided reported =>
    have hanswer := orderly.reports _ reported
    refine ⟨?_, iff_of_false ?_ (by simp [decided]), fun a => ?_⟩
    · rwa [Duty.passed, if_pos decided]
    · rw [← same]
      exact orderly.not_mem_refused hanswer
    · constructor
      · rintro ⟨task', hj, hmem⟩
        cases orderly.eq_of_job_eq hmem hanswer (hj.trans same.symm)
        exact ⟨decided, rfl⟩
      · rintro ⟨-, rfl⟩
        exact ⟨task, same, hanswer⟩

structure Concur (job : Job) (es es' : History Job Answer) : Prop where
  refused : job ∈ es.refused ↔ job ∈ es'.refused
  answers : ∀ a, (∃ task, task.job = job ∧ (task, a) ∈ es.answers) ↔
    ∃ task, task.job = job ∧ (task, a) ∈ es'.answers

namespace Concur

variable {es' : History Job Answer}

theorem symm (h : Concur job es es') : Concur job es' es :=
  ⟨h.refused.symm, fun a => (h.answers a).symm⟩

theorem exists_answer (h : Concur job es es') {P : Answer → Prop} :
    (∃ r ∈ es.answers, r.1.job = job ∧ P r.2) → ∃ r ∈ es'.answers, r.1.job = job ∧ P r.2 := by
  rintro ⟨⟨task, a⟩, hr, hj, hP⟩
  obtain ⟨task', hj', hr'⟩ := (h.answers a).1 ⟨task, hj, hr⟩
  exact ⟨_, hr', hj', hP⟩

theorem exists_answer_iff (h : Concur job es es') (P : Answer → Prop) :
    (∃ r ∈ es.answers, r.1.job = job ∧ P r.2) ↔ ∃ r ∈ es'.answers, r.1.job = job ∧ P r.2 :=
  ⟨h.exists_answer, h.symm.exists_answer⟩

theorem of_not_mem (absent : job ∉ jobs) (covers : es.Covers jobs) (covers' : es'.Covers jobs) :
    Concur job es es' := by
  have hnone : ∀ {fs : History Job Answer}, fs.Covers jobs →
      job ∉ fs.refused ∧ ∀ r ∈ fs.answers, r.1.job ≠ job := by
    intro fs hfs
    have hcovers := mt hfs.mem_jobs_iff.2 absent
    exact ⟨fun h => hcovers (.inl h), fun r hr hj => hcovers (.inr ⟨r, hr, hj⟩)⟩
  obtain ⟨hrefused, hanswers⟩ := hnone covers
  obtain ⟨hrefused', hanswers'⟩ := hnone covers'
  refine ⟨iff_of_false hrefused hrefused', fun a => iff_of_false ?_ ?_⟩
  · rintro ⟨task, hj, hr⟩
    exact hanswers _ hr hj
  · rintro ⟨task, hj, hr⟩
    exact hanswers' _ hr hj

end Concur

theorem answers_perm_of_concur (nodup : jobs.Nodup) {es' : History Job Answer}
    (covers : es.Covers jobs) (covers' : es'.Covers jobs)
    (concur : ∀ job ∈ jobs, Concur job es es') : es.answers.Perm es'.answers := by
  classical
  have hsorts : ∀ {fs : History Job Answer}, fs.Covers jobs →
      fs.Sorts fun job => decide (job ∉ fs.refused) := by
    intro fs hfs
    refine ⟨fun job hjob => decide_eq_false (not_not.2 hjob), fun job hjob => decide_eq_true ?_⟩
    obtain ⟨r, hr, rfl⟩ := hfs.mem_admitted_iff.1 hjob
    exact (hfs.orderly nodup).not_mem_refused hr
  have hadmitted : es.admitted = es'.admitted := by
    rw [covers.admitted_eq (hsorts covers), covers'.admitted_eq (hsorts covers')]
    exact List.filter_congr fun job hjob => by simp only [(concur job hjob).refused]
  have hdistinct : ((numbered es.admitted).map Task.job).Nodup := by
    rw [map_job_numbered, ← covers.map_job_answers.nodup_iff]
    exact (covers.orderly nodup).nodup_jobs
  have hnodup := (covers.orderly nodup).nodup_jobs.of_map
  have hnodup' := (covers'.orderly nodup).nodup_jobs.of_map
  rw [List.perm_ext_iff_of_nodup hnodup hnodup']
  have htask : ∀ {task task' : Task Job} {a a' : Answer}, (task, a) ∈ es.answers →
      (task', a') ∈ es'.answers → task'.job = task.job → task' = task := by
    intro task task' a a' hr hr' hj
    have hin := covers.answers.subset (List.mem_map_of_mem hr)
    have hin' := covers'.answers.subset (List.mem_map_of_mem hr')
    rw [← hadmitted] at hin'
    exact List.inj_on_of_nodup_map hdistinct hin' hin hj
  rintro ⟨task, a⟩
  constructor
  · intro hr
    have hjob := covers.mem_jobs_iff.2 (.inr ⟨_, hr, rfl⟩)
    obtain ⟨task', hj, hr'⟩ := ((concur _ hjob).answers a).1 ⟨task, rfl, hr⟩
    rwa [htask hr hr' hj] at hr'
  · intro hr'
    have hjob := covers'.mem_jobs_iff.2 (.inr ⟨_, hr', rfl⟩)
    obtain ⟨task', hj, hr⟩ := ((concur _ hjob).answers a).2 ⟨task, rfl, hr'⟩
    rwa [← htask hr hr' hj.symm] at hr

theorem concur_of_leads {d' : Duty World Job Answer} {sees' : View → World → Prop}
    (mirrors : d.Mirrors c jobs job sees) (mirrors' : d'.Mirrors c jobs job sees') (nodup : jobs.Nodup) {w w' : World} {width : Nat}
    {s s' : Pool World Job Answer} {es' : History Job Answer} (first : sees v w)
    (first' : sees' v w') (h : Leads d (init w width jobs) es s)
    (h' : Leads d' (init w' width jobs) es' s') (covers : es.Covers jobs)
    (covers' : es'.Covers jobs) :
    Concur job es es' ∧ ∃ v', sees v' s.world ∧ sees' v' s'.world := by
  by_cases mem : job ∈ jobs
  · obtain ⟨view, refused, answers⟩ := passed_of_leads mirrors nodup mem first h covers
    obtain ⟨view', refused', answers'⟩ := passed_of_leads mirrors' nodup mem first' h' covers'
    exact ⟨⟨refused.trans refused'.symm, fun a => (answers a).trans (answers' a).symm⟩,
      _, view, view'⟩
  · exact ⟨.of_not_mem mem covers covers', v, sees_of_not_mem mirrors mem first h,
      sees_of_not_mem mirrors' mem first' h'⟩

end Breakage.Pool
