import Breakage.Pool
import Mathlib.Data.List.InsertIdx
import Mathlib.Data.Option.Defs

/-!
Two pools that make the same moves. If one duty does to its world what another one does to its own, and
comes by its answers from those of the other (`Duty.Tracks`), the same moves are possible in both pools
at any time, and after each of them the pools are abreast again (`Abreast.apply`). Main statement:
`abreast_run`.
-/

namespace Breakage.Pool

variable {World World' Job Answer Answer' : Type}

/-- The second duty does the same, with answers that come from those of the first one. -/
structure Duty.Tracks (d : Duty World Job Answer) (d' : Duty World' Job Answer')
    (translate : Answer → Answer') (same : World → World' → Prop) : Prop where
  admits : ∀ job w w', same w w' → d'.admits job w' = d.admits job w
  refuse : ∀ job w w', same w w' → same (d.refuse job w) (d'.refuse job w')
  answer : ∀ job w w', same w w' → (d'.call job w').1 = translate (d.call job w).1
  call : ∀ job w w', same w w' → same (d.call job w).2 (d'.call job w').2
  report : ∀ job a w w', same w w' → same (d.report job a w) (d'.report job (translate a) w')
  settle : ∀ task job a w w', same w w' →
    same (d.settle task job a w) (d'.settle task job (translate a) w')

structure Abreast (translate : Answer → Answer') (same : World → World' → Prop)
    (s : Pool World Job Answer) (s' : Pool World' Job Answer') : Prop where
  world : same s.world s'.world
  free : s'.free = s.free
  pending : s'.pending = s.pending
  driver : s'.driver = s.driver
  calling : s'.calling = s.calling
  reporting : s'.reporting = s.reporting.map (Prod.map id translate)
  ended : s'.ended = s.ended.map (Prod.map id translate)
  started : s'.started = s.started

variable {d : Duty World Job Answer} {d' : Duty World' Job Answer'} {translate : Answer → Answer'}
  {same : World → World' → Prop} {s : Pool World Job Answer} {s' : Pool World' Job Answer'}

theorem abreast_init {w : World} {w' : World'} (h : same w w') (width : Nat) (jobs : List Job) :
    Abreast translate same (init w width jobs) (init w' width jobs) :=
  ⟨h, rfl, rfl, rfl, rfl, rfl, rfl, rfl⟩

namespace Abreast

theorem isDriven_eq (h : Abreast translate same s s') : s'.isDriven = s.isDriven := by
  rw [isDriven, isDriven, h.driver, h.pending]

theorem moves_eq (h : Abreast translate same s s') : s'.moves = s.moves := by
  have hdrive : s'.canDrive = s.canDrive := by
    rw [canDrive, canDrive, h.driver, h.pending, h.free]
  rw [moves, moves, hdrive, h.isDriven_eq, h.calling, h.reporting, h.ended, List.length_map,
    List.length_map]

theorem measure_eq (h : Abreast translate same s s') : s'.measure = s.measure := by
  rw [measure, measure, h.pending, h.driver, h.calling, h.reporting, h.ended, List.length_map,
    List.length_map]

variable (tracks : d.Tracks d' translate same)
include tracks

theorem drive (h : Abreast translate same s s') :
    Option.Rel (Abreast translate same) (Pool.drive d s) (Pool.drive d' s') := by
  unfold Pool.drive
  rw [h.driver, h.pending, h.free, h.calling, h.started]
  cases s.driver with
  | idle =>
    cases s.pending with
    | nil => exact .none
    | cons job rest =>
      simp only [tracks.admits job _ _ h.world]
      split
      · exact .some ⟨h.world, rfl, rfl, rfl, rfl, h.reporting, h.ended, rfl⟩
      · exact .some ⟨tracks.refuse job _ _ h.world, rfl, rfl, rfl, rfl, h.reporting, h.ended, rfl⟩
  | waiting job =>
    cases s.free with
    | zero => exact .none
    | succ free => exact .some ⟨h.world, rfl, rfl, rfl, rfl, h.reporting, h.ended, rfl⟩
  | holding job => exact .some ⟨h.world, rfl, rfl, rfl, rfl, h.reporting, h.ended, rfl⟩

theorem answer (h : Abreast translate same s s') (position : Nat) :
    Option.Rel (Abreast translate same) (Pool.answer d s position)
      (Pool.answer d' s' position) := by
  unfold Pool.answer
  rw [h.calling]
  cases s.calling[position]? with
  | none => exact .none
  | some task =>
    refine .some { h with world := tracks.call task.job _ _ h.world, calling := rfl, reporting := ?_ }
    change s'.reporting ++ [(task, (d'.call task.job s'.world).1)] = _
    rw [h.reporting, tracks.answer task.job _ _ h.world, List.map_append]
    rfl

theorem report (h : Abreast translate same s s') (position : Nat) :
    Option.Rel (Abreast translate same) (Pool.report d s position)
      (Pool.report d' s' position) := by
  unfold Pool.report
  rw [h.reporting, List.getElem?_map]
  rcases s.reporting[position]? with _ | ⟨task, a⟩
  · exact .none
  · refine .some { h with
      world := tracks.report task.job a _ _ h.world
      free := congrArg (· + 1) h.free
      reporting := ?_
      ended := ?_ }
    · exact List.eraseIdx_map _ _ _
    · change s'.ended ++ [(task, translate a)] = _
      rw [h.ended, List.map_append]
      rfl

theorem join (h : Abreast translate same s s') (position : Nat) :
    Option.Rel (Abreast translate same) (Pool.join d s position) (Pool.join d' s' position) := by
  unfold Pool.join
  rw [h.isDriven_eq, h.ended, List.getElem?_map]
  cases s.isDriven with
  | false => exact .none
  | true =>
    rcases s.ended[position]? with _ | ⟨task, a⟩
    · exact .none
    · refine .some { h with world := tracks.settle task.number task.job a _ _ h.world, ended := ?_ }
      exact List.eraseIdx_map _ _ _

theorem apply (h : Abreast translate same s s') (m : Move) :
    Option.Rel (Abreast translate same) (Pool.apply d s m) (Pool.apply d' s' m) := by
  cases m with
  | drive => exact h.drive tracks
  | answer position => exact h.answer tracks position
  | report position => exact h.report tracks position
  | join position => exact h.join tracks position

end Abreast

theorem abreast_runFrom (tracks : d.Tracks d' translate same) (schedule : Schedule) (fuel n : Nat)
    (h : Abreast translate same s s') :
    Abreast translate same (runFrom d schedule fuel n s) (runFrom d' schedule fuel n s') := by
  induction fuel generalizing n s s' with
  | zero => exact h
  | succ fuel ih =>
    unfold runFrom
    rw [h.moves_eq]
    cases hm : s.moves[schedule n % s.moves.length]? with
    | none =>
      simp only [hm, Option.bind_none]
      exact h
    | some m =>
      have hnext := h.apply tracks m
      simp only [hm, Option.bind_some]
      generalize Pool.apply d s m = t, Pool.apply d' s' m = t' at hnext
      cases hnext with
      | none => exact h
      | some hnext => exact ih (n + 1) hnext

/-- Both pools come to their end in the same way. -/
theorem abreast_run (tracks : d.Tracks d' translate same) (schedule : Schedule)
    (h : Abreast translate same s s') :
    Abreast translate same (d.run schedule s) (d'.run schedule s') := by
  rw [Duty.run, Duty.run, h.measure_eq]
  exact abreast_runFrom tracks schedule s.measure 0 h

end Breakage.Pool
