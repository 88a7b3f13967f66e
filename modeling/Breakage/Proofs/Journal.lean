import Breakage.Proofs.Run.Session
import Breakage.Proofs.SharedUse

/-!
Many who write in one journal. A writer raises the flag, if its event is an error, and then puts the
event in the list; between the two the others may do anything. So the flag may be ahead of the list,
never behind it (`Writing.IsCovered`). Main statement: `Writing.flag_agrees`.
-/

namespace Breakage.Journal

theorem isConsistent_emitAll {j : Journal} (h : j.IsConsistent) (es : List Event) :
    (j.emitAll es).IsConsistent := by
  rw [IsConsistent, errorsReported_emitAll, events_emitAll, List.any_append, h]

theorem eq_of_isConsistent {j k : Journal} (hj : j.IsConsistent) (hk : k.IsConsistent)
    (same : j.events = k.events) : j = k := by
  have hflag : j.errorsReported = k.errorsReported := by rw [hj, hk, same]
  cases j
  cases k
  simp only at same hflag
  rw [same, hflag]

inductive Stage where
  | idle
  | begun (event : Event)
  /-- the flag is raised for it, and it is not in the list yet -/
  | raised (event : Event)
  deriving DecidableEq, Repr

def Stage.event? : Stage → Option Event
  | idle => none
  | begun event | raised event => some event

structure Writing (Writer : Type) where
  journal : Journal
  stage : Writer → Stage

namespace Writing

inductive Deed (Writer : Type) where
  | begins (writer : Writer) (event : Event)
  | raises (writer : Writer) (event : Event)
  | enters (writer : Writer) (event : Event)
  deriving DecidableEq, Repr

variable {Writer : Type}

def Deed.begun? : Deed Writer → Option (Writer × Event)
  | begins writer event => some (writer, event)
  | raises .. | enters .. => none

def Deed.entered? : Deed Writer → Option (Writer × Event)
  | enters writer event => some (writer, event)
  | begins .. | raises .. => none

/-- The flag is up just when there is an error in the list or on its way there. -/
structure IsCovered (s : Writing Writer) : Prop where
  listed : ∀ e ∈ s.journal.events, e.isError = true → s.journal.errorsReported = true
  raised : ∀ writer e, s.stage writer = .raised e → e.isError = true →
    s.journal.errorsReported = true
  cause : s.journal.errorsReported = true → (∃ e ∈ s.journal.events, e.isError = true) ∨
    ∃ writer e, s.stage writer = .raised e ∧ e.isError = true

def start : Writing Writer := ⟨.empty, fun _ => .idle⟩

theorem isCovered_start : (start : Writing Writer).IsCovered := ⟨nofun, nofun, nofun⟩

variable [DecidableEq Writer]

inductive Does : Writing Writer → Deed Writer → Writing Writer → Prop where
  | begin {s : Writing Writer} {writer : Writer} {event : Event} (idle : s.stage writer = .idle) :
      Does s (.begins writer event) ⟨s.journal, Function.update s.stage writer (.begun event)⟩
  | raise {s : Writing Writer} {writer : Writer} {event : Event}
      (begun : s.stage writer = .begun event) :
      Does s (.raises writer event)
        ⟨s.journal.raiseFor event, Function.update s.stage writer (.raised event)⟩
  | enter {s : Writing Writer} {writer : Writer} {event : Event}
      (raised : s.stage writer = .raised event) :
      Does s (.enters writer event) ⟨s.journal.append event, Function.update s.stage writer .idle⟩

theorem Does.balanced {s t : Writing Writer} {deed : Deed Writer} (h : Does s deed t)
    (writer : Writer) :
    callsOf writer deed.entered?.toList ++ (t.stage writer).event?.toList =
      (s.stage writer).event?.toList ++ callsOf writer deed.begun?.toList := by
  cases h with
  | @begin _ event idle =>
    exact balanced_update Stage.event? (b := event) (e := none)
      (by simp [Stage.event?, idle]) writer
  | @raise _ event begun =>
    exact balanced_update Stage.event? (b := none) (e := none)
      (by simp [Stage.event?, begun]) writer
  | @enter _ event raised =>
    exact balanced_update Stage.event? (b := none) (e := event)
      (by simp [Stage.event?, raised]) writer

/-- Entering an event, as a call that takes three deeds. -/
def use (Writer : Type) [DecidableEq Writer] :
    SharedUse (Writing Writer) (Deed Writer) Writer Event where
  Does := Does
  underway s writer := (s.stage writer).event?
  begun? := Deed.begun?
  ended? := Deed.entered?
  balanced := Does.balanced

theorem isQuiet_start : (use Writer).IsQuiet start := fun _ => rfl

theorem stage_of_isQuiet {s : Writing Writer} (quiet : (use Writer).IsQuiet s) (writer : Writer) :
    s.stage writer = .idle := by
  have hnone : (s.stage writer).event? = none := quiet writer
  cases hstage : s.stage writer with
  | idle => rfl
  | begun event => simp [hstage, Stage.event?] at hnone
  | raised event => simp [hstage, Stage.event?] at hnone

/-! ### What one deed does -/

theorem Does.errorsReported {s t : Writing Writer} {deed : Deed Writer} (h : Does s deed t)
    (up : s.journal.errorsReported = true) : t.journal.errorsReported = true := by
  cases h with
  | begin _ => exact up
  | raise _ => simp [raiseFor, up]
  | enter _ => exact up

theorem Does.events {s t : Writing Writer} {deed : Deed Writer} (h : Does s deed t) :
    t.journal.events = s.journal.events ++ deed.entered?.toList.map Prod.snd := by
  cases h with
  | begin _ => exact (List.append_nil _).symm
  | raise _ => exact (List.append_nil _).symm
  | enter _ => rfl

theorem update_of_raised {stage : Writer → Stage} {writer other : Writer} {next : Stage} {e : Event}
    (hnow : ∀ e, stage writer ≠ .raised e) (h : stage other = .raised e) :
    Function.update stage writer next other = .raised e := by
  have different : other ≠ writer := by
    rintro rfl
    exact hnow e h
  rwa [Function.update_of_ne different]

theorem Does.isCovered {s t : Writing Writer} {deed : Deed Writer} (h : Does s deed t)
    (covered : s.IsCovered) : t.IsCovered := by
  cases h with
  | @begin writer event idle =>
    refine ⟨covered.listed, fun j e hj => covered.raised j e (stage_of_update (by simp) hj).2,
      fun up => ?_⟩
    exact (covered.cause up).imp_right fun ⟨j, e, hj, error⟩ =>
      ⟨j, e, update_of_raised (by simp [idle]) hj, error⟩
  | @raise writer event begun =>
    have hup : s.journal.errorsReported = true → (s.journal.raiseFor event).errorsReported = true :=
      (Does.raise begun).errorsReported
    refine ⟨fun e he error => hup (covered.listed e he error), fun j e hj error => ?_, fun up => ?_⟩
    · dsimp only at hj
      by_cases same : j = writer
      · rw [same, Function.update_self] at hj
        cases hj
        simp [raiseFor, error]
      · rw [Function.update_of_ne same] at hj
        exact hup (covered.raised j e hj error)
    · rcases Bool.or_eq_true_iff.1 up with up | error
      · exact (covered.cause up).imp_right fun ⟨j, e, hj, error⟩ =>
          ⟨j, e, update_of_raised (by simp [begun]) hj, error⟩
      · exact .inr ⟨writer, event, Function.update_self .., error⟩
  | @enter writer event raised =>
    refine ⟨fun e he error => ?_, fun j e hj => covered.raised j e (stage_of_update (by simp) hj).2,
      fun up => ?_⟩
    · rcases List.mem_append.1 he with he | he
      · exact covered.listed e he error
      · rw [List.mem_singleton.1 he] at error
        exact covered.raised writer event raised error
    · rcases covered.cause up with ⟨e, he, error⟩ | ⟨j, e, hj, error⟩
      · exact .inl ⟨e, List.mem_append_left _ he, error⟩
      · by_cases same : j = writer
        · -- the error on its way is the one that arrives
          rw [same, raised] at hj
          cases hj
          exact .inl ⟨event, List.mem_append_right _ List.mem_cons_self, error⟩
        · exact .inr ⟨j, e, (Function.update_of_ne same _ _).trans hj, error⟩

theorem leads_emit (s : Writing Writer) {writer : Writer} (idle : s.stage writer = .idle)
    (e : Event) :
    (use Writer).Leads s [.begins writer e, .raises writer e, .enters writer e]
      ⟨s.journal.emit e, s.stage⟩ := by
  have hstage : Function.update s.stage writer .idle = s.stage := by
    rw [← idle, Function.update_eq_self]
  have hleads : (use Writer).Leads s [.begins writer e, .raises writer e, .enters writer e] _ :=
    .cons (Does.begin idle) <| .cons (Does.raise (Function.update_self ..)) <|
      .cons (Does.enter (Function.update_self ..)) .nil
  rwa [Function.update_idem, Function.update_idem, hstage] at hleads

/-! ### What all deeds do -/

variable {ds es : List (Deed Writer)} {s t : Writing Writer}

theorem errorsReported_of_leads (h : (use Writer).Leads s ds t)
    (up : s.journal.errorsReported = true) : t.journal.errorsReported = true := by
  induction h with
  | nil => exact up
  | snoc _ last ih => exact Does.errorsReported last ih

theorem events_of_leads (h : (use Writer).Leads s ds t) :
    t.journal.events = s.journal.events ++ ((use Writer).ended ds).map Prod.snd := by
  induction h with
  | nil => exact (List.append_nil _).symm
  | snoc _ last ih =>
    rw [Does.events last, ih, SharedUse.ended_snoc, List.map_append, List.append_assoc]
    rfl

theorem isCovered_of_leads (h : (use Writer).Leads s ds t) (covered : s.IsCovered) :
    t.IsCovered := by
  induction h with
  | nil => exact covered
  | snoc _ last ih => exact Does.isCovered last ih

theorem isConsistent_of_isQuiet (covered : s.IsCovered) (quiet : (use Writer).IsQuiet s) :
    s.journal.IsConsistent := by
  rw [IsConsistent, Bool.eq_iff_iff, List.any_eq_true]
  constructor
  · intro up
    rcases covered.cause up with h | ⟨writer, e, hstage, -⟩
    · exact h
    · rw [stage_of_isQuiet quiet] at hstage
      cases hstage
  · rintro ⟨e, he, error⟩
    exact covered.listed e he error

/-- When nobody is writing, the journal is as if the events had been entered one at a time. -/
theorem journal_of_isQuiet (reached : (use Writer).Leads start ds s)
    (quiet : (use Writer).IsQuiet s) :
    s.journal = empty.emitAll (((use Writer).ended ds).map Prod.snd) := by
  have covered := isCovered_of_leads reached isCovered_start
  refine eq_of_isConsistent (isConsistent_of_isQuiet covered quiet)
    (isConsistent_emitAll isConsistent_empty _) ?_
  rw [events_of_leads reached, events_emitAll]
  rfl

/-- A journal that many write in. The flag is up as soon as an error is in the list, and it stays
up; what is in the list stays there, in its place; and each writer's events are there in the order
in which it entered them. When nobody is writing, the flag is up just when there is an error in the
list, and the list has one event for each call: all is as if the events had been entered one at a
time. -/
theorem flag_agrees (reached : (use Writer).Leads start ds s) (next : (use Writer).Leads s es t) :
    (∀ e ∈ s.journal.events, e.level = .error → s.journal.errorsReported = true) ∧
    (s.journal.errorsReported = true → t.journal.errorsReported = true) ∧
    s.journal.events <+: t.journal.events ∧
    s.journal.events = ((use Writer).ended ds).map Prod.snd ∧
    (∀ writer, callsOf writer ((use Writer).ended ds) <+: callsOf writer ((use Writer).begun ds)) ∧
    ((use Writer).IsQuiet s →
      (s.journal.errorsReported = true ↔ ∃ e ∈ s.journal.events, e.level = .error) ∧
      ((use Writer).ended ds).Perm ((use Writer).begun ds) ∧
      s.journal = empty.emitAll (((use Writer).ended ds).map Prod.snd)) := by
  have hevents := events_of_leads reached
  have covered := isCovered_of_leads reached isCovered_start
  refine ⟨fun e he error => covered.listed e he (decide_eq_true error),
    errorsReported_of_leads next, ⟨_, (events_of_leads next).symm⟩, hevents,
    reached.ended_prefix isQuiet_start, fun quiet => ⟨?_, ?_, ?_⟩⟩
  · rw [isConsistent_of_isQuiet covered quiet, List.any_eq_true]
    simp [Event.isError]
  · exact reached.ended_perm isQuiet_start quiet
  · exact journal_of_isQuiet reached quiet

/-- Two writers: one raises the flag, and the event of the other comes first. -/
theorem flag_agrees_crossed :
    let failure : Event := .error "dump failed"
    let note : Event := .info "done"
    ∃ s t : Writing Bool, (use Bool).IsQuiet s ∧
      (use Bool).Leads start [.begins true failure, .begins false note, .raises true failure,
        .raises false note, .enters false note, .enters true failure] s ∧
      (use Bool).Leads s [.begins true note, .raises true note, .enters true note] t ∧
      s.journal = empty.emitAll [note, failure] ∧ s.journal.errorsReported = true ∧
      t.journal.errorsReported = true := by
  intro failure note
  obtain ⟨s, reached, quiet⟩ : ∃ s, (use Bool).Leads start [.begins true failure,
      .begins false note, .raises true failure, .raises false note, .enters false note,
      .enters true failure] s ∧ (use Bool).IsQuiet s :=
    ⟨_, .cons (Does.begin rfl) <| .cons (Does.begin rfl) <| .cons (Does.raise rfl) <|
      .cons (Does.raise rfl) <| .cons (Does.enter rfl) <| .cons (Does.enter rfl) .nil,
      fun writer => by cases writer <;> rfl⟩
  have next := leads_emit s (stage_of_isQuiet quiet true) note
  obtain ⟨-, stays, -, hevents, -, hquiet⟩ := flag_agrees reached next
  have up : s.journal.errorsReported = true := by
    refine (hquiet quiet).1.2 ⟨failure, ?_, rfl⟩
    rw [hevents]
    exact List.mem_cons_of_mem _ List.mem_cons_self
  exact ⟨s, _, quiet, reached, next, (hquiet quiet).2.2, up, stays up⟩

end Writing

end Breakage.Journal
