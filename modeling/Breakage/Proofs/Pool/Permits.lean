import Breakage.Proofs.Pool.Completion

/-!
Every state that a pool can come to. The permits are shared out between the pool, its driver and the
tasks, one for each task from its start to its end (`allots_of_leads`). While anything is to be done
some step is possible, every step lowers the measure, and a pool that has come to a stop is one that
some schedule leads to (`proceeds_of_leads`).
-/

namespace Breakage.Pool

variable {World Job Answer : Type} {d : Duty World Job Answer} {s t : Pool World Job Answer}
  {ds : History Job Answer} {deed : Deed Job Answer}

theorem Does.step (h : Does d s deed t) : Step d s t := by
  cases h with
  | refuse idle pending refused => exact ⟨.drive, by simp [apply, drive, idle, pending, refused]⟩
  | accept idle pending admitted => exact ⟨.drive, by simp [apply, drive, idle, pending, admitted]⟩
  | grant waiting permit => exact ⟨.drive, by simp [apply, drive, waiting, permit]⟩
  | start holding => exact ⟨.drive, by simp [apply, drive, holding]⟩
  | @answer position _ calling => exact ⟨.answer position, by simp [apply, Pool.answer, calling]⟩
  | @report position _ _ reporting =>
    exact ⟨.report position, by simp [apply, Pool.report, reporting]⟩
  | @join position _ _ driven ended =>
    exact ⟨.join position, by simp [apply, Pool.join, driven, ended]⟩

/-! ### Permits -/

def holders (s : Pool World Job Answer) : List (Task Job) :=
  s.calling ++ s.reporting.map Prod.fst

/-- The driver takes a permit, hands it on to the task that it starts, and the task gives it back as
it ends, whatever its answer. -/
def Deed.Transfers (s t : Pool World Job Answer) : Deed Job Answer → Prop
  | .granted _ => s.free = t.free + 1 ∧ t.held = s.held + 1 ∧ t.holders.Perm s.holders
  | .started task => t.free = s.free ∧ s.held = t.held + 1 ∧ t.holders.Perm (task :: s.holders)
  | .reported task _ => t.free = s.free + 1 ∧ t.held = s.held ∧ s.holders.Perm (task :: t.holders)
  | .refused _ | .admitted _ | .answered _ _ | .joined _ _ =>
    t.free = s.free ∧ t.held = s.held ∧ t.holders.Perm s.holders

theorem Does.transfers (h : Does d s deed t) : deed.Transfers s t := by
  cases h with
  | refuse idle pending refused => exact ⟨rfl, rfl, .refl _⟩
  | accept idle pending admitted => exact ⟨rfl, by simp [held, idle], .refl _⟩
  | grant waiting permit => exact ⟨permit, by simp [held, waiting], .refl _⟩
  | start holding =>
    refine ⟨rfl, by simp [held, holding], ?_⟩
    rw [holders, List.append_assoc]
    exact List.perm_middle
  | answer calling =>
    refine ⟨rfl, rfl, ?_⟩
    rw [holders, List.map_append, ← List.append_assoc]
    refine List.perm_append_comm.trans ?_
    rw [← List.append_assoc]
    exact (@perm_append_eraseIdx _ [] _ _ _ calling).append_right _
  | report reporting =>
    refine ⟨rfl, rfl, ?_⟩
    have hrest := (@perm_append_eraseIdx _ [] _ _ _ reporting).symm.map Prod.fst
    exact (hrest.append_left _).trans List.perm_middle
  | join driven ended => exact ⟨rfl, rfl, .refl _⟩

theorem Leads.permits (h : Leads d s ds t) : t.permits = s.permits := by
  induction h with
  | nil => rfl
  | snoc _ last ih =>
    obtain ⟨m, happly⟩ := last.step
    rw [apply_permits d happly, ih]

theorem permits_init (w : World) (width : Nat) (jobs : List Job) :
    (init w width jobs : Pool World Job Answer).permits = max width 1 := by
  simp [permits, held, init]

theorem nodup_numbered (jobs : List Job) : (numbered jobs).Nodup := by
  have hnumbers : (numbered jobs).map Task.number = List.range jobs.length := by
    apply List.ext_getElem
    · simp [numbered]
    · intro i h₁ h₂
      simp [numbered]
  apply List.Nodup.of_map Task.number
  rw [hnumbers]
  exact List.nodup_range

/-- How the permits of a pool of this width are shared out after a history. -/
structure Allots (d : Duty World Job Answer) (width : Nat) (ds : History Job Answer)
    (s : Pool World Job Answer) : Prop where
  total : s.free + s.held + s.holders.length = max width 1
  calling : s.calling.length ≤ max width 1
  /-- the tasks that were started: each has one permit, unless it has ended -/
  holders : (s.holders ++ ds.reports.map Prod.fst).Perm ds.started
  distinct : ds.started.Nodup
  transfers : ∀ deed t, Does d s deed t → deed.Transfers s t

theorem allots_of_leads {w : World} {width : Nat} {jobs : List Job}
    (h : Leads d (init w width jobs) ds s) : Allots d width ds s := by
  have books := books_of_leads h
  have htotal : s.free + s.held + s.holders.length = max width 1 := by
    have hpermits := h.permits
    rw [permits_init, permits] at hpermits
    rw [holders, List.length_append, List.length_map]
    omega
  refine ⟨htotal, ?_, ?_, ?_, fun _ _ => Does.transfers⟩
  · rw [holders, List.length_append] at htotal
    omega
  · -- what is reporting or has reported was answered, and all else is calling
    have hanswers : (s.reporting.map Prod.fst ++ ds.reports.map Prod.fst).Perm
        (ds.answers.map Prod.fst) := by
      have hreports := books.reports.map Prod.fst
      rw [List.map_append] at hreports
      exact List.perm_append_comm.trans hreports
    rw [holders, List.append_assoc]
    exact (hanswers.append_left _).trans (List.perm_append_comm.trans books.answers)
  · rw [books.started]
    exact nodup_numbered s.started

/-! ### Progress -/

theorem moves_eq_nil_iff : s.moves = [] ↔ ∀ t, ¬Step d s t := by
  rw [List.eq_nil_iff_forall_not_mem]
  constructor
  · rintro h t ⟨m, happly⟩
    apply h m
    rw [mem_moves d, happly]
    rfl
  · intro h m hm
    obtain ⟨t, happly⟩ := Option.isSome_iff_exists.1 ((mem_moves d s m).1 hm)
    exact h t ⟨m, happly⟩

theorem exists_step (permits : 0 < s.permits) (unfinished : s.isDone = false) :
    ∃ t, Step d s t := by
  by_contra hstuck
  have hmoves := (moves_eq_nil_iff (d := d)).2 fun t ht => hstuck ⟨t, ht⟩
  rw [isDone_of_moves_eq_nil hmoves permits] at unfinished
  cases unfinished

theorem Step.measure_lt (h : Step d s t) : t.measure < s.measure := by
  obtain ⟨m, happly⟩ := h
  exact measure_apply_lt d happly

theorem measure_init (w : World) (width : Nat) (jobs : List Job) :
    (init w width jobs : Pool World Job Answer).measure = 6 * jobs.length := by
  simp [measure, driverMeasure, init]

theorem Leads.length_le (h : Leads d s ds t) : ds.length + t.measure ≤ s.measure := by
  induction h with
  | nil => simp
  | snoc _ last ih =>
    have hlt := last.step.measure_lt
    rw [List.length_append, List.length_singleton]
    omega

theorem runFrom_of_moves_eq_nil (schedule : Schedule) (fuel n : Nat) (h : s.moves = []) :
    runFrom d schedule fuel n s = s := by
  cases fuel with
  | zero => rfl
  | succ fuel => simp [runFrom, h]

theorem runFrom_succ (schedule : Schedule) (fuel n : Nat) (s : Pool World Job Answer) :
    runFrom d schedule fuel (n + 1) s = runFrom d (fun k => schedule (k + 1)) fuel n s := by
  induction fuel generalizing n s with
  | zero => rfl
  | succ fuel ih =>
    unfold runFrom
    cases ht : s.moves[schedule (n + 1) % s.moves.length]?.bind (apply d s) with
    | none => simp only [ht]
    | some t =>
      simp only [ht]
      exact ih (n + 1) t

theorem exists_runFrom_of_step (h : Step d s t) (schedule : Schedule) :
    ∃ schedule', ∀ fuel, runFrom d schedule' (fuel + 1) 0 s = runFrom d schedule fuel 0 t := by
  obtain ⟨m, happly⟩ := h
  have hmem : m ∈ s.moves := by
    rw [mem_moves d, happly]
    rfl
  obtain ⟨i, hi, hget⟩ := List.getElem_of_mem hmem
  obtain ⟨schedule', hzero, hsucc⟩ : ∃ schedule' : Schedule,
      schedule' 0 = i ∧ (fun k => schedule' (k + 1)) = schedule :=
    ⟨fun n => n.casesOn i schedule, rfl, rfl⟩
  have hfirst : s.moves[schedule' 0 % s.moves.length]?.bind (apply d s) = some t := by
    rw [hzero, Nat.mod_eq_of_lt hi, List.getElem?_eq_getElem hi, hget]
    exact happly
  refine ⟨schedule', fun fuel => ?_⟩
  rw [runFrom]
  simp only [hfirst]
  rw [runFrom_succ, hsucc]

/-- Whatever leads to a stop is what some schedule does. -/
theorem Leads.exists_schedule (h : Leads d s ds t) (stop : t.moves = []) :
    ∃ schedule, d.run schedule s = t := by
  have hall : ∃ schedule, ∀ fuel, s.measure ≤ fuel → runFrom d schedule fuel 0 s = t := by
    -- from the stop back to the start
    have hsteps : Relation.ReflTransGen (Step d) s t := by
      clear stop
      induction h with
      | nil => exact .refl
      | snoc _ last ih => exact ih.tail last.step
    clear h
    induction hsteps using Relation.ReflTransGen.head_induction_on with
    | refl => exact ⟨fun _ => 0, fun fuel _ => runFrom_of_moves_eq_nil _ fuel 0 stop⟩
    | head first _ ih =>
      obtain ⟨schedule, hrest⟩ := ih
      obtain ⟨schedule', hfirst⟩ := exists_runFrom_of_step first schedule
      refine ⟨schedule', fun fuel hfuel => ?_⟩
      have hlt := first.measure_lt
      obtain ⟨fuel, rfl⟩ : ∃ k, fuel = k + 1 := ⟨fuel - 1, by omega⟩
      rw [hfirst]
      exact hrest fuel (by omega)
  obtain ⟨schedule, hrun⟩ := hall
  exact ⟨schedule, hrun _ (Nat.le_refl _)⟩

/-- A pool on its way through so many jobs. It is never stuck; at its end all tasks are joined. -/
structure Proceeds (d : Duty World Job Answer) (jobs : Nat) (ds : History Job Answer)
    (s : Pool World Job Answer) : Prop where
  enabled : s.isDone = false → ∃ t, Step d s t
  decreases : ∀ t, Step d s t → t.measure < s.measure
  bounded : ds.length + s.measure ≤ 6 * jobs
  joined : (∀ t, ¬Step d s t) → s.isDone = true ∧ (ds.joins.map Prod.fst).Perm ds.started

theorem isDone_of_stop {w : World} {width : Nat} {jobs : List Job}
    (h : Leads d (init w width jobs) ds s) (stop : ∀ t, ¬Step d s t) : s.isDone = true := by
  apply isDone_of_moves_eq_nil (moves_eq_nil_iff.2 stop)
  rw [h.permits, permits_init]
  omega

theorem proceeds_of_leads {w : World} {width : Nat} {jobs : List Job}
    (h : Leads d (init w width jobs) ds s) : Proceeds d jobs.length ds s where
  enabled := by
    apply exists_step
    rw [h.permits, permits_init]
    omega
  decreases _ := Step.measure_lt
  bounded := by
    have hlength := h.length_le
    rwa [measure_init] at hlength
  joined stop := by
    have done := isDone_of_stop h stop
    have books := books_of_leads h
    have covers := books.covers done
    refine ⟨done, (covers.joins.map Prod.fst).trans ?_⟩
    rw [books.started, books.started_eq done]
    exact covers.answers

end Breakage.Pool
