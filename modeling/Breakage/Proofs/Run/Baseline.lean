import Breakage.Proofs.Run.Dumping

/-!
What becomes of the modules whose digests are made, and of the files. Main statements: `made_dumpAll`
(each needed module is dumped, failed or not in the baseline; a digest that could not be made is not
there), `digest?_removeTree_checkout` (no digest goes with the checkout) and `prepare_classifies` (all
of a baseline that is ready).
-/

namespace Breakage.Baseline

/-! ### Tasks that crashed -/

structure Swept (directory : Path) (ms : List ModuleName) (w w' : Dumping) : Prop where
  dumped : w'.dumps.dumped = w.dumps.dumped
  generationFailures : ∀ m, m ∈ w'.dumps.generationFailures ↔
    m ∈ ms ∨ m ∈ w.dumps.generationFailures
  notInBaseline : w'.dumps.notInBaseline = w.dumps.notInBaseline
  calls : w'.session.calls = w.session.calls
  journal : w'.session.journal = w.session.journal
  writes : w.session.host.WritesDigests directory ms w'.session.host
  lacks : ∀ m, m ∈ ms ∨ w.session.host.LacksFile directory m →
    w'.session.host.LacksFile directory m

theorem swept_foldl (directory : Path) (ms : List ModuleName) (w : Dumping) :
    Swept directory ms w (ms.foldl (sweep directory) w) := by
  induction ms generalizing w with
  | nil =>
    exact ⟨rfl, fun m => by simp, rfl, rfl, rfl, Host.WritesDigests.refl _ _ _, fun m h => by simpa using h⟩
  | cons k rest ih =>
    obtain ⟨hdumped, hfailed, habsent, hcalls, hjournal, hwrites, hlacks⟩ := ih (sweep directory w k)
    have hfirst : w.session.host.WritesDigests directory (k :: rest)
        (sweep directory w k).session.host :=
      (w.session.host.writes_removeFile (k.digestPath directory)).digest.mono (by simp)
    refine ⟨hdumped, fun m => ?_, habsent, hcalls, hjournal,
      hfirst.trans (hwrites.mono fun m h => List.mem_cons_of_mem _ h), fun m hm => hlacks m ?_⟩
    · rw [List.foldl_cons, hfailed, sweep, ModuleSet.mem_insert, List.mem_cons, or_left_comm,
        or_assoc]
    · rcases hm with hm | hm
      · rcases List.mem_cons.1 hm with rfl | hm
        · exact .inr (w.session.host.lacksFile_removeFile directory m)
        · exact .inl hm
      · exact .inr (hm.removeFile _)

theorem calls_afterTasks (directory : Path) (p : Pool Dumping ModuleName Dumped) :
    (afterTasks directory p).session.calls = p.world.session.calls :=
  (swept_foldl directory _ p.world).calls

theorem journal_afterTasks (directory : Path) (p : Pool Dumping ModuleName Dumped) :
    (afterTasks directory p).session.journal = p.world.session.journal :=
  (swept_foldl directory _ p.world).journal

/-! ### All tasks -/

/-- What becomes of the needed modules, of which the baseline defines some, while the pool of this
history makes their digests. -/
structure Made (digester : Digester) (plan : BuildPlan) (directory : Path)
    (defined needed : ModuleSet) (ds : Dumping.History) (s s' : Session) (d : Dumps) : Prop where
  places : ∀ m, (decide (m ∈ d.dumped)).toNat + (decide (m ∈ d.generationFailures)).toNat +
    (decide (m ∈ d.notInBaseline)).toNat = if m ∈ needed then 1 else 0
  notInBaseline : ∀ m, m ∈ d.notInBaseline ↔ m ∈ needed ∧ m ∉ defined
  calls : s'.calls = s.calls ++ ds.answers.map fun r => .dump r.1.job (r.1.job.digestPath directory)
  /-- every other needed module is dumped once -/
  called : (ds.answers.map fun r => r.1.job).Perm (needed.toList.filter fun m => decide (m ∈ defined))
  /-- a module counts as dumped when its dump has ended well, and its digest is as it was then -/
  dumped : ∀ es task a es', ds = es ++ .answered task a :: es' →
    let h := ((Baseline.duty digester plan directory defined).replay ⟨s, .none⟩ es).session.host
    let (answer, h') := digester.dump task.job plan (task.job.digestPath directory) h
    a = answer ∧ (task.job ∈ d.dumped ↔ a = .returned (.ok ())) ∧
      (task.job ∈ d.dumped → s'.host.digest? directory task.job = h'.digest? directory task.job)
  /-- nothing but a directory is left where no digest could be made -/
  cleared : ∀ m, m ∈ d.generationFailures ∨ m ∈ d.notInBaseline → s'.host.LacksFile directory m
  elsewhere : s.host.WritesDigests directory needed.toList s'.host

section

variable {directory : Path} {needed : ModuleSet} {ds : Dumping.History} {s : Session}
  {p : Pool Dumping ModuleName Dumped} (kept : Dumping.Kept directory s ds p.world)
  (covers : ds.Covers needed.toList)
include kept covers

theorem mem_dumped {m : ModuleName} :
    m ∈ p.world.dumps.dumped ↔
      ∃ r ∈ ds.answers, r.1.job = m ∧ r.2 = .returned (.ok ()) := by
  rw [kept.dumped, ModuleSet.mem_ofList, List.mem_filterMap]
  refine exists_congr fun r => and_congr covers.joins.mem_iff ?_
  obtain ⟨task, (e | ⟨⟨⟩⟩) | words⟩ := r <;> simp

theorem mem_generationFailures {m : ModuleName} :
    m ∈ p.world.dumps.generationFailures ↔
      ∃ r ∈ ds.answers, r.1.job = m ∧ ∃ e, r.2 = .returned (.error e) := by
  rw [kept.generationFailures, ModuleSet.mem_ofList, List.mem_filterMap]
  refine exists_congr fun r => and_congr covers.joins.mem_iff ?_
  obtain ⟨task, (e | ⟨⟨⟩⟩) | words⟩ := r <;> simp

/-- A task that was not heard of has crashed. -/
theorem isReported_eq_false {r : Dumping.Answered} (hr : r ∈ ds.answers) :
    p.world.dumps.isReported r.1.job = false ↔ ∃ words, r.2 = .crashed words := by
  have honly : ∀ r' ∈ ds.answers, r'.1.job = r.1.job → r' = r := fun r' hr' hj =>
    (covers.orderly needed.nodup).eq_of_job_eq hr' hr hj
  rw [Dumps.isReported, Bool.or_eq_false_iff, decide_eq_false_iff_not, decide_eq_false_iff_not,
    mem_dumped kept covers, mem_generationFailures kept covers]
  constructor
  · rintro ⟨hdumped, hfailed⟩
    obtain ⟨task, (e | ⟨⟨⟩⟩) | words⟩ := r
    · exact absurd ⟨_, hr, rfl, e, rfl⟩ hfailed
    · exact absurd ⟨_, hr, rfl, rfl⟩ hdumped
    · exact ⟨words, rfl⟩
  · rintro ⟨words, hw⟩
    constructor
    · rintro ⟨r', hr', hj, ha⟩
      rw [honly r' hr' hj, hw] at ha
      cases ha
    · rintro ⟨r', hr', hj, e, ha⟩
      rw [honly r' hr' hj, hw] at ha
      cases ha

theorem mem_silent (started : p.started = ds.admitted) {m : ModuleName} :
    m ∈ (ModuleSet.ofList p.started).filter (fun m => !p.world.dumps.isReported m) ↔
      ∃ r ∈ ds.answers, r.1.job = m ∧ ∃ words, r.2 = .crashed words := by
  rw [ModuleSet.mem_filter, ModuleSet.mem_ofList, started, covers.mem_admitted_iff,
    Bool.not_eq_true']
  constructor
  · rintro ⟨⟨r, hr, rfl⟩, hsilent⟩
    exact ⟨r, hr, rfl, (isReported_eq_false kept covers hr).1 hsilent⟩
  · rintro ⟨r, hr, rfl, hw⟩
    exact ⟨⟨r, hr, rfl⟩, (isReported_eq_false kept covers hr).2 hw⟩

structure Counted (ds : Dumping.History) (d : Dumps) : Prop where
  dumped : ∀ m, m ∈ d.dumped ↔ ∃ r ∈ ds.answers, r.1.job = m ∧ r.2 = .returned (.ok ())
  generationFailures : ∀ m, m ∈ d.generationFailures ↔
    ∃ r ∈ ds.answers, r.1.job = m ∧ r.2 ≠ .returned (.ok ())
  notInBaseline : ∀ m, m ∈ d.notInBaseline ↔ m ∈ ds.refused

theorem counted_afterTasks (started : p.started = ds.admitted) :
    Counted ds (afterTasks directory p).dumps := by
  have hswept := swept_foldl directory
    ((ModuleSet.ofList p.started).filter fun m => !p.world.dumps.isReported m).toList p.world
  refine ⟨fun m => ?_, fun m => ?_, fun m => ?_⟩
  · rw [afterTasks, hswept.dumped, mem_dumped kept covers]
  · rw [afterTasks, hswept.generationFailures, ← ModuleSet.mem_def,
      mem_silent kept covers started, mem_generationFailures kept covers]
    constructor
    · rintro (⟨r, hr, hj, words, hw⟩ | ⟨r, hr, hj, e, he⟩)
      · exact ⟨r, hr, hj, by simp [hw]⟩
      · exact ⟨r, hr, hj, by simp [he]⟩
    · rintro ⟨r, hr, hj, hne⟩
      obtain ⟨task, (e | ⟨⟨⟩⟩) | words⟩ := r
      · exact .inr ⟨_, hr, hj, e, rfl⟩
      · exact absurd rfl hne
      · exact .inl ⟨_, hr, hj, words, rfl⟩
  · rw [afterTasks, hswept.notInBaseline, kept.notInBaseline, ModuleSet.mem_ofList]

end

theorem Counted.places {needed : ModuleSet} {ds : Dumping.History} {d : Dumps} (h : Counted ds d)
    (covers : ds.Covers needed.toList) (m : ModuleName) :
    (decide (m ∈ d.dumped)).toNat + (decide (m ∈ d.generationFailures)).toNat +
      (decide (m ∈ d.notInBaseline)).toNat = if m ∈ needed then 1 else 0 := by
  have orderly := covers.orderly needed.nodup
  have hneeded : m ∈ needed ↔ m ∈ ds.refused ∨ ∃ r ∈ ds.answers, r.1.job = m := covers.mem_jobs_iff
  by_cases ht : ∃ r ∈ ds.answers, r.1.job = m
  · obtain ⟨r, hr, rfl⟩ := ht
    have honly : ∀ r' ∈ ds.answers, r'.1.job = r.1.job → r' = r := fun r' hr' hj =>
      orderly.eq_of_job_eq hr' hr hj
    have habsent : r.1.job ∉ d.notInBaseline := by
      rw [h.notInBaseline]
      exact orderly.not_mem_refused hr
    by_cases ha : r.2 = .returned (.ok ())
    · have hdumped := (h.dumped r.1.job).2 ⟨r, hr, rfl, ha⟩
      have hfailed : r.1.job ∉ d.generationFailures := by
        rw [h.generationFailures]
        rintro ⟨r', hr', hj, hne⟩
        rw [honly r' hr' hj] at hne
        exact hne ha
      simp [hdumped, hfailed, habsent, hneeded.2 (.inr ⟨r, hr, rfl⟩)]
    · have hfailed := (h.generationFailures r.1.job).2 ⟨r, hr, rfl, ha⟩
      have hdumped : r.1.job ∉ d.dumped := by
        rw [h.dumped]
        rintro ⟨r', hr', hj, hok⟩
        rw [honly r' hr' hj] at hok
        exact ha hok
      simp [hdumped, hfailed, habsent, hneeded.2 (.inr ⟨r, hr, rfl⟩)]
  · have hdumped : m ∉ d.dumped := by
      rw [h.dumped]
      rintro ⟨r, hr, hj, -⟩
      exact ht ⟨r, hr, hj⟩
    have hfailed : m ∉ d.generationFailures := by
      rw [h.generationFailures]
      rintro ⟨r, hr, hj, -⟩
      exact ht ⟨r, hr, hj⟩
    have habsent : m ∈ d.notInBaseline ↔ m ∈ needed := by
      rw [h.notInBaseline, hneeded, or_iff_left ht]
    by_cases hm : m ∈ needed
    · simp [hdumped, hfailed, habsent.2 hm, hm]
    · have hn := mt habsent.1 hm
      simp [hdumped, hfailed, hn, hm]

section

variable {digester : Digester} {plan : BuildPlan} {directory : Path} {defined needed : ModuleSet}
  {width : Nat} {s : Session} {ds : Dumping.History} {p : Pool Dumping ModuleName Dumped}
  (leads : Pool.Leads (duty digester plan directory defined)
    (Pool.init ⟨s, .none⟩ width needed.toList) ds p)
include leads

theorem sorts_of_leads : ds.Sorts fun m => decide (m ∈ defined) :=
  leads.sorts (fun _ => True) trivial (fun _ _ _ => trivial) fun _ _ _ => rfl

theorem filed_of_leads (inPlace : digester.DumpsInPlace directory)
    (identifiers : ∀ m ∈ needed, m.isIdentifier = true) :
    Dumping.Filed digester plan directory defined ⟨s, .none⟩ ds p.world := by
  refine leads.induct_orderly needed.nodup _ ?_ fun es w deed before orderly h _ =>
    h.step inPlace identifiers before orderly
  exact ⟨rfl, Host.WritesDigests.refl _ _ _, by simp [Pool.History.refused], by simp [Pool.History.reports],
    by simp⟩

theorem made_of_leads (inPlace : digester.DumpsInPlace directory)
    (identifiers : ∀ m ∈ needed, m.isIdentifier = true) (done : p.isDone = true) :
    Made digester plan directory defined needed ds s (afterTasks directory p).session
      (afterTasks directory p).dumps := by
  have books := Pool.books_of_leads leads
  have covers := books.covers done
  have kept := Dumping.kept_of_leads digester plan defined leads
  have sorts := sorts_of_leads leads
  have filed := filed_of_leads leads inPlace identifiers
  have started := books.started_eq done
  have orderly := covers.orderly needed.nodup
  have counted := counted_afterTasks kept covers started
  have hswept := swept_foldl directory
    ((ModuleSet.ofList p.started).filter fun m => !p.world.dumps.isReported m).toList p.world
  have hsilent := fun m => mem_silent (m := m) kept covers started
  refine
    { places := counted.places covers
      notInBaseline := fun m => ?_
      calls := (calls_afterTasks directory p).trans kept.calls
      called := covers.map_job_perm_filter sorts
      dumped := fun es task a es' split => ?_
      cleared := fun m hm => ?_
      elsewhere := ?_ }
  · rw [counted.notInBaseline, covers.mem_refused_iff sorts, decide_eq_false_iff_not]
    rfl
  · have hr : (task, a) ∈ ds.answers := by
      rw [split, Pool.History.answers]
      simp
    have honly : ∀ r ∈ ds.answers, r.1.job = task.job → r = (task, a) := fun r hr' hj =>
      orderly.eq_of_job_eq hr' hr hj
    have hiff : task.job ∈ (afterTasks directory p).dumps.dumped ↔ a = .returned (.ok ()) := by
      rw [counted.dumped]
      constructor
      · rintro ⟨r, hr', hj, hok⟩
        rwa [honly r hr' hj] at hok
      · exact fun hok => ⟨_, hr, rfl, hok⟩
    intro h
    refine ⟨leads.suits split, hiff, fun hdumped => ?_⟩
    obtain rfl := hiff.1 hdumped
    have hleft := filed.left es task es' split
    rw [Pool.Duty.replay_append] at hleft
    -- what is swept in the end are the modules of crashed tasks, and this one is none of them
    refine Eq.trans ?_ hleft
    refine hswept.writes.digest?_eq (identifiers _ (covers.mem_jobs_iff.2 (.inr ⟨_, hr, rfl⟩)))
      (fun m hm => ?_) fun hmem => ?_
    · obtain ⟨r, hr', rfl, -⟩ := (hsilent m).1 hm
      exact identifiers _ (covers.mem_jobs_iff.2 (.inr ⟨r, hr', rfl⟩))
    · obtain ⟨r, hr', hj, words, hw⟩ := (hsilent task.job).1 hmem
      rw [honly r hr' hj] at hw
      cases hw
  · refine hswept.lacks m ?_
    rcases hm with hm | hm
    · obtain ⟨r, hr, rfl, hne⟩ := (counted.generationFailures m).1 hm
      obtain ⟨task, (e | ⟨⟨⟩⟩) | words⟩ := r
      · exact .inr (filed.failed task e (covers.reports.mem_iff.2 hr))
      · exact absurd rfl hne
      · exact .inl ((hsilent task.job).2 ⟨_, hr, rfl, words, rfl⟩)
    · exact .inr (filed.absent m ((counted.notInBaseline m).1 hm))
  · refine (filed.writes.mono fun m hm => orderly.within m hm).trans
      (hswept.writes.mono fun m hm => ?_)
    obtain ⟨r, hr, rfl, -⟩ := (hsilent m).1 hm
    exact covers.mem_jobs_iff.2 (.inr ⟨r, hr, rfl⟩)

end

theorem made_dumpAll {digester : Digester} {plan : BuildPlan} {directory : Path}
    {defined needed : ModuleSet} {width : Nat} {schedule : Pool.Schedule} {s s' : Session}
    {d : Dumps} (inPlace : digester.DumpsInPlace directory)
    (identifiers : ∀ m ∈ needed, m.isIdentifier = true)
    (run : dumpAll digester plan directory defined needed width schedule s = (.ok d, s')) :
    Made digester plan directory defined needed
      ((duty digester plan directory defined).history schedule
        (Pool.init ⟨s, .none⟩ width needed.toList)) s s' d := by
  obtain ⟨-, done⟩ := Run.pooled_eq_ok.1 run
  cases done
  exact made_of_leads (Pool.leads_run _ schedule _) inPlace identifiers
    (Pool.isDone_run _ schedule _ width _)

section

variable {digester : Digester} {plan : BuildPlan} {directory : Path} {defined needed : ModuleSet}
  {width : Nat} {schedule : Pool.Schedule} {s s' : Session} {d : Dumps}
  (run : dumpAll digester plan directory defined needed width schedule s = (.ok d, s'))
include run

/-- A history of the dumps, with the pool that it leads to. -/
theorem leads_dumpAll : ∃ (ds : Dumping.History) (p : Pool Dumping ModuleName Dumped),
    Pool.Leads (duty digester plan directory defined) (Pool.init ⟨s, .none⟩ width needed.toList) ds
      p ∧ ds.Covers needed.toList ∧ p.started = ds.admitted ∧ afterTasks directory p = ⟨s', d⟩ := by
  obtain ⟨-, ended⟩ := Run.pooled_eq_ok.1 run
  cases ended
  have leads := Pool.leads_run (duty digester plan directory defined) schedule
    (Pool.init ⟨s, .none⟩ width needed.toList)
  have books := Pool.books_of_leads leads
  have done := Pool.isDone_run (duty digester plan directory defined) schedule ⟨s, .none⟩ width
    needed.toList
  exact ⟨_, _, leads, books.covers done, books.started_eq done, rfl⟩

theorem counted_dumpAll : ∃ ds : Dumping.History,
    ds.Covers needed.toList ∧ (ds.Sorts fun m => decide (m ∈ defined)) ∧ Counted ds d := by
  obtain ⟨ds, p, leads, covers, started, hend⟩ := leads_dumpAll run
  have kept := Dumping.kept_of_leads digester plan defined leads
  have counted := counted_afterTasks kept covers started
  rw [hend] at counted
  exact ⟨ds, covers, sorts_of_leads leads, counted⟩

theorem places_dumpAll (m : ModuleName) :
    (decide (m ∈ d.dumped)).toNat + (decide (m ∈ d.generationFailures)).toNat +
      (decide (m ∈ d.notInBaseline)).toNat = if m ∈ needed then 1 else 0 := by
  obtain ⟨ds, covers, -, counted⟩ := counted_dumpAll run
  exact counted.places covers m

theorem notInBaseline_dumpAll {m : ModuleName} :
    m ∈ d.notInBaseline ↔ m ∈ needed ∧ m ∉ defined := by
  obtain ⟨ds, covers, sorts, counted⟩ := counted_dumpAll run
  rw [counted.notInBaseline, covers.mem_refused_iff sorts, decide_eq_false_iff_not]
  rfl

end

/-! ### From a checkout -/

/-- What is at hand once the baseline has been checked out and built. -/
structure Arrival where
  checkout : Path
  plan : BuildPlan
  graph : PackageGraph

/-- The part of making digests that comes before the first dump. -/
def arrive (c : Collaborators) (revision : Revision) : Run Arrival := do
  let checkout ← openCheckout
  let destination := checkout.join "baseline"
  let root ← Run.ask (.checkOut revision destination)
    (c.versionControl.checkOut revision destination)
  let plan ← Run.ask (.build root) (c.buildSystem.build root)
  let graph ← Run.ask (.graph root) (c.buildSystem.graph root)
  return ⟨checkout, plan, graph⟩

theorem inCheckout_eq_ok {α : Type} {c : Collaborators} {revision : Revision}
    {body : BuildPlan → ModuleSet → Run α} {s s' : Session} {x : α} :
    inCheckout c revision body s = (.ok x, s') ↔ ∃ arrival t u,
      arrive c revision s = (.ok arrival, t) ∧
      body arrival.plan (arrival.graph.diffableModules c.digester.language) t = (.ok x, u) ∧
      { u with host := u.host.removeTree arrival.checkout } = s' := by
  simp only [inCheckout, arrive, Run.bind_eq_ok, Run.finallyDo_eq_ok, Run.pure_eq_ok]
  constructor
  · rintro ⟨checkout, s₁, hopen, u, ⟨root, s₂, hroot, plan, s₃, hplan, graph, t, hgraph, hbody⟩, rfl⟩
    exact ⟨⟨checkout, plan, graph⟩, t, u, ⟨checkout, s₁, hopen, root, s₂, hroot, plan, s₃, hplan,
      graph, t, hgraph, rfl, rfl⟩, hbody, rfl⟩
  · rintro ⟨arrival, t, u, ⟨checkout, s₁, hopen, root, s₂, hroot, plan, s₃, hplan, graph, s₄, hgraph,
      rfl, rfl⟩, hbody, rfl⟩
    exact ⟨checkout, s₁, hopen, u, ⟨root, s₂, hroot, plan, s₃, hplan, graph, s₄, hgraph, hbody⟩, rfl⟩

theorem prepare_eq_ok {c : Collaborators} {modules : ModuleSet} {revision : Revision}
    {named : Option Path} {regenerate : Bool} {schedule : Pool.Schedule} {s s' : Session}
    {b : Baseline} :
    prepare c modules revision named regenerate schedule s = (.ok b, s') ↔
      ∃ t, BaselineDirectory.opened named revision s = (.ok b.directory, t) ∧
        let directory := b.directory.path
        let missing := needed t.host directory modules regenerate
        if missing.isEmpty then b.dumps = .none ∧ s' = t
        else ∃ arrival u v, arrive c revision t = (.ok arrival, u) ∧
          dumpAll c.digester arrival.plan directory
            (arrival.graph.diffableModules c.digester.language) missing c.buildSystem.workers schedule
            u = (.ok b.dumps, v) ∧
          { v with host := v.host.removeTree arrival.checkout } = s' := by
  simp only [prepare, Run.bind_eq_ok, Run.get_eq_ok]
  constructor
  · rintro ⟨directory, t, hopened, _, _, ⟨rfl, rfl⟩, hrest⟩
    split at hrest
    · rename_i hempty
      obtain ⟨rfl, rfl⟩ := Run.pure_eq_ok.1 hrest
      exact ⟨t, hopened, by simp [hempty]⟩
    · rename_i hempty
      simp only [Run.bind_eq_ok, Run.onHalt_eq_ok, Run.pure_eq_ok, generate, inCheckout_eq_ok] at hrest
      obtain ⟨dumps, _, ⟨arrival, u, v, harrive, hdumps, hv⟩, rfl, rfl⟩ := hrest
      exact ⟨t, hopened, by simpa only [hempty] using ⟨arrival, u, v, harrive, hdumps, hv⟩⟩
  · rintro ⟨t, hopened, hrest⟩
    refine ⟨b.directory, t, hopened, t, t, ⟨rfl, rfl⟩, ?_⟩
    split at hrest
    · rename_i hempty
      obtain ⟨hnone, rfl⟩ := hrest
      rw [if_pos hempty, Run.pure_eq_ok, ← hnone]
      exact ⟨rfl, rfl⟩
    · rename_i hempty
      rw [if_neg hempty]
      simp only [Run.bind_eq_ok, Run.onHalt_eq_ok, Run.pure_eq_ok, generate, inCheckout_eq_ok]
      exact ⟨b.dumps, s', hrest, rfl, rfl⟩

theorem opened_eq {named : Option Path} {revision : Revision} {s t : Session}
    {r : Except Halt BaselineDirectory} (h : BaselineDirectory.opened named revision s = (r, t)) :
    t = { s with host := t.host } := by
  unfold BaselineDirectory.opened ExceptT.mk at h
  cases named with
  | some path => dsimp only at h; split at h <;> (cases h; rfl)
  | none => dsimp only at h; split at h <;> (cases h; rfl)

theorem openCheckout_eq {s t : Session} {r : Except Halt Path} (h : openCheckout s = (r, t)) :
    t = { s with host := t.host } := by
  unfold openCheckout ExceptT.mk at h
  dsimp only at h
  split at h <;> (cases h; rfl)

theorem opened_ordinary {named : Option Path} {revision : Revision} {s t : Session}
    {b : BaselineDirectory} (h : BaselineDirectory.opened named revision s = (.ok b, t))
    (ordinary : s.host.IsOrdinary) :
    t.host.IsOrdinary ∧ t.host.HasDirectory b.path ∧
      t.host.workingDirectory = s.host.workingDirectory := by
  unfold BaselineDirectory.opened ExceptT.mk at h
  cases named with
  | some path =>
    dsimp only at h
    split at h
    · rename_i host hmade
      cases h
      refine ⟨ordinary.makeDirectories hmade, Host.hasDirectory_makeDirectories ordinary hmade, ?_⟩
      rw [← (Prod.mk.inj hmade).2]
    · cases h
  | none =>
    dsimp only at h
    split at h
    · rename_i path host hmade
      cases h
      obtain ⟨ending, -, -, files, -, hhost⟩ := Host.makeFresh_eq_ok hmade
      refine ⟨ordinary.makeTemporary hmade, Host.hasDirectory_makeTemporary hmade, ?_⟩
      rw [hhost]
    · cases h

theorem openCheckout_eq_ok {s t : Session} {checkout : Path}
    (h : openCheckout s = (.ok checkout, t)) :
    s.host.makeTemporary "apidiff-checkout-" = .ok (checkout, t.host) := by
  unfold openCheckout ExceptT.mk at h
  dsimp only at h
  split at h
  · rename_i hmade
    cases h
    exact hmade
  · cases h

theorem digest?_removeTree_checkout {c : Collaborators} {revision : Revision} {t u : Session}
    {arrival : Arrival} (harrive : arrive c revision t = (.ok arrival, u)) {directory : Path}
    (ordinary : t.host.IsOrdinary) (hdirectory : t.host.HasDirectory directory) {v : Host}
    (same : v.workingDirectory = t.host.workingDirectory) {m : ModuleName}
    (hm : m.isIdentifier = true) :
    (v.removeTree arrival.checkout).digest? directory m = v.digest? directory m := by
  simp only [arrive, Run.bind_eq_ok, Run.pure_eq_ok] at harrive
  obtain ⟨checkout, s₁, hopen, root, s₂, -, plan, s₃, -, graph, s₄, -, rfl, -⟩ := harrive
  have hmade := openCheckout_eq_ok hopen
  have hhyphen : '-' ∉ (m.text ++ ".json").toList := by
    simp [ModuleName.not_mem_of_isIdentifier hm (show ModuleName.isWordChar '-' = false by decide)]
  refine Host.item?_removeTree_makeTemporary ordinary hmade (by decide) (by decide) same hdirectory
    (FileTree.plain_digest (ModuleName.plain_of_isIdentifier hm)) (FileTree.ordinary_digest m) ?_
  intro ending hname
  rw [hname] at hhyphen
  simp at hhyphen

theorem arrive_record {c : Collaborators} {revision : Revision} {s t : Session} {arrival : Arrival}
    (h : arrive c revision s = (.ok arrival, t)) :
    t.journal = s.journal ∧ ∃ root, t.calls = s.calls ++
      [.checkOut revision (arrival.checkout.join "baseline"), .build root, .graph root] := by
  simp only [arrive, Run.bind_eq_ok, Run.pure_eq_ok] at h
  obtain ⟨checkout, s₁, hopen, root, s₂, hroot, plan, s₃, hplan, graph, t, hgraph, rfl, rfl⟩ := h
  rw [Run.ask_eq hgraph, Run.ask_eq hplan, Run.ask_eq hroot, openCheckout_eq hopen]
  exact ⟨rfl, root, by simp [Session.note]⟩

theorem arrive_graph {c : Collaborators} {revision : Revision} {s t : Session} {arrival : Arrival}
    (h : arrive c revision s = (.ok arrival, t)) :
    ∃ root host, (c.buildSystem.graph root host).1 = .ok arrival.graph := by
  simp only [arrive, Run.bind_eq_ok, Run.pure_eq_ok] at h
  obtain ⟨checkout, s₁, -, root, s₂, -, plan, s₃, -, graph, s₄, hgraph, rfl, -⟩ := h
  exact ⟨root, s₃.host, congrArg Prod.fst (Run.action_of_ask hgraph)⟩

theorem isError_of_event? {deed : Pool.Deed ModuleName Dumped} {e : Event}
    (h : Dumping.event? deed = some e) : e.isError = false := by
  unfold Dumping.event? at h
  split at h
  · cases h
    rfl
  · cases h
    rfl
  · cases h

theorem record_dumpAll {digester : Digester} {plan : BuildPlan} {directory : Path}
    {defined needed : ModuleSet} {width : Nat} {schedule : Pool.Schedule} {s s' : Session}
    {d : Dumps}
    (run : dumpAll digester plan directory defined needed width schedule s = (.ok d, s')) :
    ∃ (ms : List ModuleName) (events : List Event),
      s'.calls = s.calls ++ ms.map (Dumping.call directory) ∧
      s'.journal = s.journal.emitAll events ∧ ∀ e ∈ events, e.isError = false := by
  obtain ⟨-, done⟩ := Run.pooled_eq_ok.1 run
  cases done
  let start : Pool Dumping ModuleName Dumped := Pool.init ⟨s, .none⟩ width needed.toList
  let d := duty digester plan directory defined
  have kept := Dumping.kept_of_leads digester plan defined (Pool.leads_run d schedule start)
  refine ⟨(d.history schedule start).answers.map fun r => r.1.job, _, ?_,
    (journal_afterTasks directory _).trans kept.journal, fun e he => ?_⟩
  · rw [List.map_map]
    exact (calls_afterTasks directory _).trans kept.calls
  · obtain ⟨deed, -, hdeed⟩ := List.mem_filterMap.1 he
    exact isError_of_event? hdeed

theorem record_prepare {c : Collaborators} {modules : ModuleSet} {revision : Revision}
    {named : Option Path} {regenerate : Bool} {schedule : Pool.Schedule} {s s' : Session}
    {b : Baseline} (run : prepare c modules revision named regenerate schedule s = (.ok b, s')) :
    ∃ (calls : List Call) (events : List Event), s'.calls = s.calls ++ calls ∧
      (∀ call ∈ calls, call.compared? = none) ∧
      s'.journal = s.journal.emitAll events ∧ ∀ e ∈ events, e.isError = false := by
  obtain ⟨t, hopened, hrest⟩ := prepare_eq_ok.1 run
  have ht := opened_eq hopened
  simp only at hrest
  split at hrest
  · obtain ⟨-, rfl⟩ := hrest
    refine ⟨[], [], ?_, by simp, ?_, by simp⟩
    · rw [ht, List.append_nil]
    · rw [ht]
      rfl
  · obtain ⟨arrival, u, v, harrive, hdumps, rfl⟩ := hrest
    obtain ⟨hu, root, hcalls⟩ := arrive_record harrive
    obtain ⟨ms, events, hdumpCalls, hjournal, hevents⟩ := record_dumpAll hdumps
    have hopenedCalls : t.calls = s.calls := by rw [ht]
    have hopenedJournal : t.journal = s.journal := by rw [ht]
    rw [hcalls, hopenedCalls, List.append_assoc] at hdumpCalls
    rw [hu, hopenedJournal] at hjournal
    refine ⟨_, events, hdumpCalls, fun call hcall => ?_, hjournal, hevents⟩
    rcases List.mem_append.1 hcall with h | h
    · simp only [List.mem_cons, List.not_mem_nil, or_false] at h
      rcases h with rfl | rfl | rfl <;> rfl
    · obtain ⟨m, -, rfl⟩ := List.mem_map.1 h
      rfl

theorem mem_diffableModules {g : PackageGraph} {language : Language} {m : ModuleName} :
    m ∈ g.diffableModules language ↔ ∃ p ∈ g.packages, ∃ t ∈ p.targets,
      t.kind = .library ∧ t.language = language ∧ t.module = m := by
  simp [PackageGraph.diffableModules, ModuleSet.mem_ofList, Target.isDiffable, and_assoc]

theorem mem_needed {h : Host} {directory : Path} {modules : ModuleSet} {regenerate : Bool}
    {m : ModuleName} :
    m ∈ needed h directory modules regenerate ↔
      m ∈ modules ∧ (regenerate = true ∨ h.exists? (m.digestPath directory) = false) := by
  simp [needed, ModuleSet.mem_filter]

section

variable {c : Collaborators} {modules : ModuleSet} {revision : Revision} {named : Option Path}
  {regenerate : Bool} {schedule : Pool.Schedule} {s s' : Session} {b : Baseline}
  (run : prepare c modules revision named regenerate schedule s = (.ok b, s'))
include run

theorem excluded_prepare {m : ModuleName}
    (hm : m ∈ b.dumps.generationFailures ∨ m ∈ b.dumps.notInBaseline) :
    m ∈ modules ∧ (m ∈ b.dumps.notInBaseline → m ∉ b.dumps.generationFailures) := by
  obtain ⟨t, -, hrest⟩ := prepare_eq_ok.1 run
  simp only at hrest
  split at hrest
  · rw [hrest.1] at hm
    rcases hm with hm | hm
    · exact absurd hm (ModuleSet.not_mem_empty m)
    · exact absurd hm (ModuleSet.not_mem_empty m)
  · obtain ⟨arrival, u, v, -, hdumps, -⟩ := hrest
    have hplaces := places_dumpAll hdumps m
    constructor
    · by_contra hnot
      rw [if_neg fun h => hnot (mem_needed.1 h).1] at hplaces
      rcases hm with hm | hm <;> simp [hm] at hplaces
    · intro habsent hfailed
      simp only [habsent, hfailed, decide_true, Bool.toNat_true] at hplaces
      split at hplaces <;> omega

theorem lacksFile_prepare (inPlace : c.digester.DumpsInPlace b.directory.path)
    (identifiers : ∀ m ∈ modules, m.isIdentifier = true) {m : ModuleName}
    (hm : m ∈ b.dumps.generationFailures ∨ m ∈ b.dumps.notInBaseline) :
    s'.host.LacksFile b.directory.path m := by
  obtain ⟨t, -, hrest⟩ := prepare_eq_ok.1 run
  simp only at hrest
  split at hrest
  · rw [hrest.1] at hm
    rcases hm with hm | hm
    · exact absurd hm (ModuleSet.not_mem_empty m)
    · exact absurd hm (ModuleSet.not_mem_empty m)
  · obtain ⟨arrival, u, v, -, hdumps, rfl⟩ := hrest
    have hmade := made_dumpAll inPlace (fun m hm => identifiers m (mem_needed.1 hm).1) hdumps
    exact fun content hc => hmade.cleared m hm content (Host.item?_of_removeTree hc)

end

/-- A baseline that is ready: the modules in need of a digest are those that lack one, or all; each
of them is in one place. Nothing is done if there are none. Otherwise the baseline is checked out and
built; those that have no library target there are not in the baseline, and each other one is dumped
once. The checkout is taken away, but no digest with it if the working directory is the same still, and
no file is left where no digest could be made. -/
theorem prepare_classifies {c : Collaborators} {modules : ModuleSet} {revision : Revision}
    {named : Option Path} {regenerate : Bool} {schedule : Pool.Schedule} {s s' : Session}
    {b : Baseline} (inPlace : c.digester.DumpsInPlace b.directory.path)
    (identifiers : ∀ m ∈ modules, m.isIdentifier = true)
    (run : prepare c modules revision named regenerate schedule s = (.ok b, s')) :
    ∃ t, BaselineDirectory.opened named revision s = (.ok b.directory, t) ∧
      let directory := b.directory.path
      let missing := needed t.host directory modules regenerate
      (∀ m, m ∈ missing ↔
        m ∈ modules ∧ (regenerate = true ∨ t.host.exists? (m.digestPath directory) = false)) ∧
      (∀ m, (decide (m ∈ b.dumps.dumped)).toNat + (decide (m ∈ b.dumps.generationFailures)).toNat +
        (decide (m ∈ b.dumps.notInBaseline)).toNat = if m ∈ missing then 1 else 0) ∧
      (missing.isEmpty = true ∧ s' = t ∨
        ∃ arrival u v root, arrive c revision t = (.ok arrival, u) ∧
          let defined := arrival.graph.diffableModules c.digester.language
          let ds := (duty c.digester arrival.plan directory defined).history schedule
            (Pool.init ⟨u, .none⟩ c.buildSystem.workers missing.toList)
          let dumps := ds.answers.map fun r => r.1.job
          Made c.digester arrival.plan directory defined missing ds u v b.dumps ∧
          s' = { v with host := v.host.removeTree arrival.checkout } ∧
          (∀ m, m ∈ b.dumps.notInBaseline ↔ m ∈ missing ∧ ¬∃ p ∈ arrival.graph.packages,
            ∃ t ∈ p.targets, t.kind = .library ∧ t.language = c.digester.language ∧ t.module = m) ∧
          dumps.Perm (missing.toList.filter fun m => decide (m ∈ defined)) ∧
          s'.calls = s.calls ++ [.checkOut revision (arrival.checkout.join "baseline"), .build root,
            .graph root] ++ dumps.map (fun m => .dump m (m.digestPath directory)) ∧
          (∀ m, m ∈ b.dumps.generationFailures ∨ m ∈ b.dumps.notInBaseline →
            s'.host.LacksFile directory m) ∧
          (s.host.IsOrdinary → v.host.workingDirectory = s.host.workingDirectory →
            ∀ m : ModuleName, m.isIdentifier = true →
              s'.host.digest? directory m = v.host.digest? directory m)) := by
  obtain ⟨t, hopened, hrest⟩ := prepare_eq_ok.1 run
  refine ⟨t, hopened, ?_⟩
  intro directory missing
  refine ⟨fun m => mem_needed, ?_⟩
  by_cases hempty : missing.isEmpty = true
  · rw [if_pos hempty] at hrest
    obtain ⟨hnone, rfl⟩ := hrest
    refine ⟨fun m => ?_, .inl ⟨hempty, rfl⟩⟩
    rw [hnone, if_neg (ModuleSet.isEmpty_iff.1 hempty m)]
    rfl
  · rw [if_neg hempty] at hrest
    obtain ⟨arrival, u, v, harrive, hdumps, rfl⟩ := hrest
    have hmade := made_dumpAll inPlace
      (fun m hm => identifiers m (mem_needed.1 hm).1) hdumps
    obtain ⟨-, root, harriveCalls⟩ := arrive_record harrive
    refine ⟨hmade.places, .inr ⟨arrival, u, v, root, harrive, hmade, rfl, fun m => ?_, hmade.called,
      ?_, fun m hm content hc => ?_, fun ordinary same m hm => ?_⟩⟩
    · rw [hmade.notInBaseline, mem_diffableModules]
    · have hopenedCalls : t.calls = s.calls := by rw [opened_eq hopened]
      have hcalls := hmade.calls
      rw [harriveCalls, hopenedCalls] at hcalls
      rw [List.map_map]
      exact hcalls
    · exact hmade.cleared m hm content (Host.item?_of_removeTree hc)
    · obtain ⟨hordinary, hdirectory, hsame⟩ := opened_ordinary hopened ordinary
      exact digest?_removeTree_checkout harrive hordinary hdirectory (same.trans hsame.symm) hm

/-- Three modules, of which the baseline lacks one, and the dump of another one crashes. -/
theorem prepare_classifies_crash :
    let c := Rehearsal.collaborators
      { Rehearsal.ScriptedDigester.plain with crashingDumps := [⟨"Bar"⟩] } ["Foo", "Bar", "Baz"]
      ["Foo", "Bar"]
    let modules : ModuleSet := .ofList [⟨"Foo"⟩, ⟨"Bar"⟩, ⟨"Baz"⟩]
    let host := Rehearsal.machine [(["tmp"], .directory), (["Baz.json"], .file (.text ""))]
    ∃ b s', prepare c modules ⟨"abc123"⟩ (some ⟨"/"⟩) true (fun _ => 1) (.ofHost host) = (.ok b, s') ∧
      (∀ m ∈ modules, m.isIdentifier = true) ∧ c.digester.DumpsInPlace b.directory.path ∧
      host.IsOrdinary ∧ ∀ m ∈ modules, (decide (m ∈ b.dumps.dumped)).toNat +
        (decide (m ∈ b.dumps.generationFailures)).toNat +
          (decide (m ∈ b.dumps.notInBaseline)).toNat = 1 := by
  intro c modules host
  obtain ⟨b, s', run, -⟩ := Run.exists_of_check (s := .ofHost host) (P := fun _ _ => true)
    (x := prepare c modules ⟨"abc123"⟩ (some ⟨"/"⟩) true fun _ => 1) (by decide +kernel)
  have hidentifiers : ∀ m ∈ modules.toList, m.isIdentifier = true := by decide +kernel
  have hinPlace : c.digester.DumpsInPlace b.directory.path :=
    Rehearsal.ScriptedDigester.dumpsInPlace _ b.directory.path
  obtain ⟨t, -, hmissing, hplaces, -⟩ := prepare_classifies hinPlace hidentifiers run
  refine ⟨b, s', run, hidentifiers, hinPlace, Rehearsal.isOrdinary_machine _, fun m hm => ?_⟩
  rw [hplaces, if_pos ((hmissing m).2 ⟨hm, .inl rfl⟩)]

end Breakage.Baseline
