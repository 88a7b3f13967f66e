/-!
A pool that does jobs side by side, at most so many at a time. A driver goes through the jobs in
order; it refuses a job or takes a permit for it, waiting if none is free, and starts a task that
keeps the permit to its end. A task makes a call and then reports on the answer. When the driver
is through, the tasks that have ended are joined, in any order. Driver, tasks and joins make their
moves in any order that is possible; a schedule picks one. Main statements: `apply_permits` and
`measure_apply_lt`.
-/

namespace Breakage

/-- What is done with the jobs of a pool, all of it in one shared world. -/
structure Pool.Duty (World Job Answer : Type) where
  admits : Job → World → Bool
  /-- what becomes of a job that is not admitted -/
  refuse : Job → World → World
  call : Job → World → Answer × World
  report : Job → Answer → World → World
  /-- joining the task with this number -/
  settle : Nat → Job → Answer → World → World

/-- Tasks are numbered in the order in which they are started. -/
structure Pool.Task (Job : Type) where
  number : Nat
  job : Job
  deriving DecidableEq, Repr

inductive Pool.Driver (Job : Type) where
  | idle
  /-- for a permit -/
  | waiting (job : Job)
  /-- a permit, for a task to start -/
  | holding (job : Job)
  deriving DecidableEq, Repr

structure Pool (World Job Answer : Type) where
  world : World
  /-- permits that nobody holds -/
  free : Nat
  pending : List Job
  driver : Pool.Driver Job
  calling : List (Pool.Task Job)
  reporting : List (Pool.Task Job × Answer)
  ended : List (Pool.Task Job × Answer)
  /-- the jobs that became tasks, in order -/
  started : List Job

namespace Pool

variable {World Job Answer : Type}

def widthLimit : Nat := Nat.pow 2 61 - 1

/-- A pool before its first move. A width of zero is taken for one. -/
def init (world : World) (width : Nat) (jobs : List Job) : Pool World Job Answer :=
  ⟨world, max width 1, jobs, .idle, [], [], [], []⟩

inductive Move where
  | drive
  /-- the call of the task at this position ends -/
  | answer (position : Nat)
  | report (position : Nat)
  | join (position : Nat)
  deriving DecidableEq, Repr

variable (d : Duty World Job Answer)

def drive (s : Pool World Job Answer) : Option (Pool World Job Answer) :=
  match s.driver with
  | .idle =>
    match s.pending with
    | [] => none
    | job :: rest =>
      if d.admits job s.world then some { s with driver := .waiting job, pending := rest }
      else some { s with world := d.refuse job s.world, pending := rest }
  | .waiting job =>
    match s.free with
    | 0 => none
    | free + 1 => some { s with driver := .holding job, free := free }
  | .holding job =>
    some { s with
      driver := .idle
      calling := s.calling ++ [⟨s.started.length, job⟩]
      started := s.started ++ [job] }

def answer (s : Pool World Job Answer) (position : Nat) : Option (Pool World Job Answer) :=
  match s.calling[position]? with
  | none => none
  | some task =>
    let (a, world) := d.call task.job s.world
    some { s with
      world := world
      calling := s.calling.eraseIdx position
      reporting := s.reporting ++ [(task, a)] }

/-- The permit is given back as the task ends. -/
def report (s : Pool World Job Answer) (position : Nat) : Option (Pool World Job Answer) :=
  match s.reporting[position]? with
  | none => none
  | some (task, a) =>
    some { s with
      world := d.report task.job a s.world
      free := s.free + 1
      reporting := s.reporting.eraseIdx position
      ended := s.ended ++ [(task, a)] }

def isDriven (s : Pool World Job Answer) : Bool :=
  match s.driver, s.pending with
  | .idle, [] => true
  | _, _ => false

def join (s : Pool World Job Answer) (position : Nat) : Option (Pool World Job Answer) :=
  if s.isDriven then
    match s.ended[position]? with
    | none => none
    | some (task, a) =>
      some { s with
        world := d.settle task.number task.job a s.world
        ended := s.ended.eraseIdx position }
  else none

def apply (s : Pool World Job Answer) : Move → Option (Pool World Job Answer)
  | .drive => drive d s
  | .answer position => answer d s position
  | .report position => report d s position
  | .join position => join d s position

def Step (s t : Pool World Job Answer) : Prop := ∃ m, apply d s m = some t

def canDrive (s : Pool World Job Answer) : Bool :=
  match s.driver with
  | .idle => !s.pending.isEmpty
  | .waiting _ => decide (0 < s.free)
  | .holding _ => true

def moves (s : Pool World Job Answer) : List Move :=
  (if s.canDrive then [.drive] else []) ++ (List.range s.calling.length).map .answer ++
    (List.range s.reporting.length).map .report ++
    (if s.isDriven then (List.range s.ended.length).map .join else [])

def isDone (s : Pool World Job Answer) : Bool :=
  s.isDriven && s.calling.isEmpty && s.reporting.isEmpty && s.ended.isEmpty

/-- The permit between acquiring it and starting the task. -/
def held (s : Pool World Job Answer) : Nat :=
  match s.driver with
  | .holding _ => 1
  | _ => 0

/-- All permits: the free ones, the one of the driver and those of the tasks. -/
def permits (s : Pool World Job Answer) : Nat :=
  s.free + s.held + s.calling.length + s.reporting.length

def driverMeasure : Driver Job → Nat
  | .idle => 0
  | .waiting _ => 5
  | .holding _ => 4

/-- A bound on the number of moves that are left. -/
def measure (s : Pool World Job Answer) : Nat :=
  6 * s.pending.length + driverMeasure s.driver + 3 * s.calling.length + 2 * s.reporting.length +
    s.ended.length

theorem mem_moves (s : Pool World Job Answer) (m : Move) :
    m ∈ s.moves ↔ (apply d s m).isSome = true := by
  cases m with
  | drive =>
    have : Move.drive ∈ s.moves ↔ s.canDrive = true := by simp [moves]
    rw [this]
    cases hd : s.driver with
    | idle =>
      cases hp : s.pending with
      | nil => simp [apply, drive, canDrive, hd, hp]
      | cons job rest =>
        simp only [apply, drive, canDrive, hd, hp]
        split <;> simp
    | waiting job =>
      cases hf : s.free <;> simp [apply, drive, canDrive, hd, hf]
    | holding job => simp [apply, drive, canDrive, hd]
  | answer p =>
    simp only [moves, apply, answer]
    cases hp : s.calling[p]? with
    | none => simpa using hp
    | some task => simpa using (List.getElem?_eq_some_iff.1 hp).1
  | report p =>
    simp only [moves, apply, report]
    cases hp : s.reporting[p]? with
    | none => simpa using hp
    | some task => simpa using (List.getElem?_eq_some_iff.1 hp).1
  | join p =>
    simp only [moves, apply, join]
    cases s.isDriven with
    | false => simp
    | true =>
      cases hp : s.ended[p]? with
      | none => simpa using hp
      | some task => simpa using (List.getElem?_eq_some_iff.1 hp).1

theorem apply_permits {s t : Pool World Job Answer} {m : Move} (h : apply d s m = some t) :
    t.permits = s.permits := by
  cases m with
  | drive =>
    simp only [apply, drive] at h
    split at h
    · rename_i hd
      split at h
      · simp at h
      · split at h <;> (simp only [Option.some.injEq] at h; subst h; simp [permits, held, hd])
    · rename_i hd
      split at h
      · simp at h
      · rename_i n hf
        simp only [Option.some.injEq] at h
        subst h
        simp [permits, held, hd, hf]
    · rename_i hd
      simp only [Option.some.injEq] at h
      subst h
      simp [permits, held, hd]
      omega
  | answer p =>
    simp only [apply, answer] at h
    split at h
    · simp at h
    · rename_i task hp
      have hp := (List.getElem?_eq_some_iff.1 hp).1
      simp only [Option.some.injEq] at h
      subst h
      simp only [permits, held, List.length_eraseIdx, hp, if_true, List.length_append,
        List.length_singleton]
      split <;> omega
  | report p =>
    simp only [apply, report] at h
    split at h
    · simp at h
    · rename_i task a hp
      have hp := (List.getElem?_eq_some_iff.1 hp).1
      simp only [Option.some.injEq] at h
      subst h
      simp only [permits, held, List.length_eraseIdx, hp, if_true]
      split <;> omega
  | join p =>
    simp only [apply, join] at h
    split at h
    · split at h
      · simp at h
      · simp only [Option.some.injEq] at h
        subst h
        rfl
    · simp at h

theorem measure_apply_lt {s t : Pool World Job Answer} {m : Move} (h : apply d s m = some t) :
    t.measure < s.measure := by
  cases m with
  | drive =>
    simp only [apply, drive] at h
    split at h
    · rename_i hd
      split at h
      · simp at h
      · rename_i hp
        split at h <;>
          (simp only [Option.some.injEq] at h; subst h
           simp only [measure, driverMeasure, hd, hp, List.length_cons]; omega)
    · rename_i hd
      split at h
      · simp at h
      · simp only [Option.some.injEq] at h
        subst h
        simp [measure, driverMeasure, hd]
    · rename_i hd
      simp only [Option.some.injEq] at h
      subst h
      simp [measure, driverMeasure, hd]
      omega
  | answer p =>
    simp only [apply, answer] at h
    split at h
    · simp at h
    · rename_i task hp
      have hp := (List.getElem?_eq_some_iff.1 hp).1
      simp only [Option.some.injEq] at h
      subst h
      simp only [measure, List.length_eraseIdx, hp, if_true, List.length_append,
        List.length_singleton]
      omega
  | report p =>
    simp only [apply, report] at h
    split at h
    · simp at h
    · rename_i task a hp
      have hp := (List.getElem?_eq_some_iff.1 hp).1
      simp only [Option.some.injEq] at h
      subst h
      simp only [measure, List.length_eraseIdx, hp, if_true, List.length_append,
        List.length_singleton]
      omega
  | join p =>
    simp only [apply, join] at h
    split at h
    · split at h
      · simp at h
      · rename_i task a hp
        have hp := (List.getElem?_eq_some_iff.1 hp).1
        simp only [Option.some.injEq] at h
        subst h
        simp only [measure, List.length_eraseIdx, hp, if_true]
        omega
    · simp at h

/-- Which of the possible moves is made, at each step. -/
abbrev Schedule := Nat → Nat

/-- The pool after at most so many moves, from the step of the given number on. -/
def runFrom (schedule : Schedule) : Nat → Nat → Pool World Job Answer → Pool World Job Answer
  | 0, _, s => s
  | fuel + 1, n, s =>
    let ms := s.moves
    match ms[schedule n % ms.length]?.bind (apply d s) with
    | none => s
    | some t => runFrom schedule fuel (n + 1) t

def Duty.run (schedule : Schedule) (s : Pool World Job Answer) : Pool World Job Answer :=
  runFrom d schedule s.measure 0 s

end Pool

end Breakage
