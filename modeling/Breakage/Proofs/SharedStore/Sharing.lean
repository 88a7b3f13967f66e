import Breakage.Proofs.SharedStore.Accounts
import Breakage.Proofs.SharedUse

/-!
Stores that many tasks use at once. A task that appends or drains waits until it has the store to
itself, reads it and then writes it; between the two the others may do anything but use that store
(`Sharing.IsExclusive`), so that a call ends as if it had been done in one go (`Does.done_eq`) and
nothing that was appended is overwritten. Main statement: `Sharing.nothing_lost`.
-/

namespace Breakage.SharedStore

variable {Task α : Type}

inductive Stage (α : Type) where
  | idle
  | waiting (handle : Nat) (request : Request α)
  /-- it has the store to itself, and knows what to return and what to leave there -/
  | holding (handle : Nat) (request : Request α) (returned left : List α)
  deriving DecidableEq, Repr

def Stage.call? : Stage α → Option (Nat × Request α)
  | idle => none
  | waiting handle request | holding handle request _ _ => some (handle, request)

/-- Stores, and the tasks that use them. -/
structure Sharing (Task α : Type) where
  store : SharedStore α
  /-- the task that has a store to itself -/
  holder : Nat → Option Task
  stage : Task → Stage α

namespace Sharing

def start : Sharing Task α := ⟨.single, fun _ => none, fun _ => .idle⟩

/-! ### One at a time -/

/-- A task that has a store to itself is about to do what a call of that moment would do. -/
structure IsExclusive (s : Sharing Task α) : Prop where
  sound : s.store.IsSound
  holding : ∀ task handle request returned left,
    s.stage task = .holding handle request returned left →
      ∃ i, s.store.handles[handle]? = some i ∧ s.holder i = some task ∧
        (request.call s.store handle).1 = returned ∧
        (request.call s.store handle).2.items handle = left

theorem isExclusive_start : (start : Sharing Task α).IsExclusive := ⟨isSound_single, nofun⟩

theorem IsExclusive.kept {s t : Sharing Task α} (exclusive : s.IsExclusive)
    (sound : t.store.IsSound) {task : Task} {handle : Nat} {request : Request α}
    {returned left : List α} (holding : s.stage task = .holding handle request returned left)
    (kept : ∀ i, s.store.handles[handle]? = some i → s.holder i = some task →
      t.store.handles[handle]? = some i ∧ t.holder i = some task ∧
        t.store.items handle = s.store.items handle) :
    ∃ i, t.store.handles[handle]? = some i ∧ t.holder i = some task ∧
      (request.call t.store handle).1 = returned ∧
      (request.call t.store handle).2.items handle = left := by
  obtain ⟨i, reaches, holder, rfl, rfl⟩ :=
    exclusive.holding task handle request returned left holding
  obtain ⟨reaches', holder', same⟩ := kept i reaches holder
  exact ⟨i, reaches', holder', call_congr exclusive.sound reaches sound reaches' same request⟩

/-! ### What one deed does -/

variable [DecidableEq Task]

/-- What can be done next. Handles are made at any time. -/
inductive Does : Sharing Task α → Deed Task α → Sharing Task α → Prop where
  | create {s : Sharing Task α} :
      Does s (.created s.store.handles.length) { s with store := s.store.create }
  | share {s : Sharing Task α} {handle i : Nat} (reaches : s.store.handles[handle]? = some i) :
      Does s (.shared handle s.store.handles.length) { s with store := s.store.share handle }
  | begin {s : Sharing Task α} {task : Task} {handle i : Nat} {request : Request α}
      (idle : s.stage task = .idle) (reaches : s.store.handles[handle]? = some i) :
      Does s (.begun task handle request)
        { s with stage := Function.update s.stage task (.waiting handle request) }
  | lock {s : Sharing Task α} {task : Task} {handle i : Nat} {request : Request α}
      (waiting : s.stage task = .waiting handle request)
      (reaches : s.store.handles[handle]? = some i) (free : s.holder i = none) :
      Does s (.locked task)
        { s with
          holder := Function.update s.holder i (some task)
          stage := Function.update s.stage task
            (.holding handle request (request.call s.store handle).1
              ((request.call s.store handle).2.items handle)) }
  | finish {s : Sharing Task α} {task : Task} {handle i : Nat} {request : Request α}
      {returned left : List α} (holding : s.stage task = .holding handle request returned left)
      (reaches : s.store.handles[handle]? = some i) :
      Does s (.done task handle request returned)
        { store := s.store.put handle left
          holder := Function.update s.holder i none
          stage := Function.update s.stage task .idle }

theorem Does.balanced {s t : Sharing Task α} {deed : Deed Task α} (h : Does s deed t)
    (task : Task) :
    callsOf task deed.done?.toList ++ (t.stage task).call?.toList =
      (s.stage task).call?.toList ++ callsOf task deed.begun?.toList := by
  cases h with
  | create => exact (List.append_nil _).symm
  | share _ => exact (List.append_nil _).symm
  | @begin _ handle _ request idle _ =>
    exact balanced_update Stage.call? (b := some (handle, request)) (e := none)
      (by simp [Stage.call?, idle]) task
  | lock waiting _ _ =>
    exact balanced_update Stage.call? (b := none) (e := none) (by simp [Stage.call?, waiting]) task
  | @finish _ handle _ request _ _ holding _ =>
    exact balanced_update Stage.call? (b := none) (e := some (handle, request))
      (by simp [Stage.call?, holding]) task

def use (Task α : Type) [DecidableEq Task] :
    SharedUse (Sharing Task α) (Deed Task α) Task (Nat × Request α) where
  Does := Does
  underway s task := (s.stage task).call?
  begun? := Deed.begun?
  ended? := Deed.done?
  balanced := Does.balanced

theorem isQuiet_start : (use Task α).IsQuiet start := fun _ => rfl

theorem Does.isExclusive {s t : Sharing Task α} {deed : Deed Task α} (h : Does s deed t)
    (exclusive : s.IsExclusive) : t.IsExclusive := by
  cases h with
  | create =>
    refine ⟨isSound_create exclusive.sound, fun task handle request returned left hold => ?_⟩
    exact exclusive.kept (isSound_create exclusive.sound) hold fun i reaches holder =>
      ⟨getElem?_append_of_some reaches _, holder, items_create exclusive.sound handle⟩
  | @share g _ reaches =>
    refine ⟨isSound_share exclusive.sound _, fun task handle request returned left hold => ?_⟩
    refine exclusive.kept (isSound_share exclusive.sound _) hold fun i hreaches holder => ?_
    have hold : handle ≠ s.store.handles.length :=
      Nat.ne_of_lt (List.getElem?_eq_some_iff.1 hreaches).1
    refine ⟨?_, holder, (items_share reaches handle).trans (if_neg hold)⟩
    rw [share_eq reaches]
    exact getElem?_append_of_some hreaches _
  | begin _ _ =>
    exact ⟨exclusive.sound, fun task handle request returned left hold =>
      exclusive.holding task handle request returned left (stage_of_update (by simp) hold).2⟩
  | @lock task handle i request waiting reaches free =>
    refine ⟨exclusive.sound, fun other handle' request' returned left hold => ?_⟩
    dsimp only at hold ⊢
    by_cases same : other = task
    · subst same
      rw [Function.update_self] at hold
      cases hold
      exact ⟨i, reaches, Function.update_self .., rfl, rfl⟩
    · rw [Function.update_of_ne same] at hold
      obtain ⟨j, hreaches, holder, hcall⟩ :=
        exclusive.holding other handle' request' returned left hold
      -- the store that another task has to itself is not the one that was free
      have different : j ≠ i := by
        rintro rfl
        rw [free] at holder
        cases holder
      exact ⟨j, hreaches, (Function.update_of_ne different _ _).trans holder, hcall⟩
  | @finish task handle i request returned left holding reaches =>
    refine ⟨isSound_put exclusive.sound _ _, fun other handle' request' returned' left' hold => ?_⟩
    obtain ⟨different, hold⟩ := stage_of_update (by simp) hold
    refine exclusive.kept (isSound_put exclusive.sound _ _) hold fun j hreaches holder => ?_
    obtain ⟨i', reaches', holder', -⟩ := exclusive.holding task handle request returned left holding
    obtain rfl : i' = i := Option.some.inj (reaches'.symm.trans reaches)
    have hstore : j ≠ i' := by
      rintro rfl
      exact different (Option.some.inj (holder.symm.trans holder'))
    refine ⟨(congrArg (·[handle']?) (s.store.handles_put handle _)).trans hreaches,
      (Function.update_of_ne hstore _ _).trans holder, ?_⟩
    rw [items_put_of_reaches exclusive.sound reaches, if_neg]
    rw [reaches, hreaches]
    exact fun same => hstore (Option.some.inj same).symm

theorem Does.done_eq {s t : Sharing Task α} {task : Task} {handle : Nat} {request : Request α}
    {returned : List α} (h : Does s (.done task handle request returned) t)
    (exclusive : s.IsExclusive) : request.call s.store handle = (returned, t.store) := by
  cases h with
  | finish holding reaches =>
    obtain ⟨i, -, -, rfl, rfl⟩ := exclusive.holding task handle request returned _ holding
    rw [put_call exclusive.sound reaches]

theorem Does.store {s t : Sharing Task α} {deed : Deed Task α} (h : Does s deed t)
    (exclusive : s.IsExclusive) : t.store = deed.effect s.store := by
  cases deed with
  | done task handle request returned => rw [Deed.effect, h.done_eq exclusive]
  | _ =>
    cases h
    rfl

theorem Does.accounts {ds : List (Deed Task α)} {s t : Sharing Task α} {deed : Deed Task α}
    (h : Does s deed t) (exclusive : s.IsExclusive) (accounts : Accounts ds s.store) :
    Accounts (ds ++ [deed]) t.store := by
  cases h with
  | create => exact accounts.created exclusive.sound _
  | share reaches => exact accounts.shared reaches
  | begin _ _ => exact accounts.begun _ _ _
  | lock _ _ _ => exact accounts.locked _
  | @finish task handle i request returned left holding reaches =>
    have hcall := Does.done_eq (.finish holding reaches) exclusive
    have hdone := accounts.done exclusive.sound reaches task request
    rwa [hcall] at hdone

/-- What a deed does to the stores, and what of it is seen through the handles, where some of them are
kin. -/
def Shows (kin : Nat → Nat → Prop) (s t : SharedStore α) : Deed Task α → Prop
  | .created made => t = s.create ∧ t.items made = [] ∧ ∀ h, t.items h = s.items h
  | .shared g made =>
    t = s.share g ∧ t.items made = s.items g ∧ ∀ h, h ≠ made → t.items h = s.items h
  | .done _ g (.append item) _ => t = s.append g item ∧
    ∀ h, (kin g h → t.items h = s.items h ++ [item]) ∧ (¬kin g h → t.items h = s.items h)
  | .done _ g .drain returned => s.drain g = (returned, t) ∧ returned = s.items g ∧
    ∀ h, (kin g h → t.items h = []) ∧ (¬kin g h → t.items h = s.items h)
  | .begun .. | .locked _ => t = s

theorem Does.shows {ds : List (Deed Task α)} {s t : Sharing Task α} {deed : Deed Task α}
    (h : Does s deed t) (exclusive : s.IsExclusive) (accounts : Accounts ds s.store) :
    Shows (Kin ds) s.store t.store deed := by
  cases h with
  | create =>
    refine ⟨rfl, ?_, items_create exclusive.sound⟩
    rw [items_create exclusive.sound]
    exact items_of_none (List.getElem?_eq_none (Nat.le_refl _))
  | share reaches =>
    refine ⟨rfl, ?_, fun h hne => ?_⟩
    · rw [items_share reaches, if_pos rfl]
    · rw [items_share reaches, if_neg hne]
  | begin _ _ => rfl
  | lock _ _ _ => rfl
  | @finish task handle i request returned left holding reaches =>
    have hkin : ∀ h, Kin ds handle h ↔ s.store.handles[handle]? = s.store.handles[h]? := fun h =>
      ⟨reaches_of_kin accounts.known, fun same => accounts.kin _ _ i reaches (same ▸ reaches)⟩
    have hcall := Does.done_eq (.finish holding reaches) exclusive
    have hitems := items_put_of_reaches exclusive.sound reaches left
    have hleft := congrArg (fun result : List α × SharedStore α => result.2.items handle) hcall
    dsimp only at hleft
    rw [hitems, if_pos rfl] at hleft
    cases request with
    | append item =>
      refine ⟨(congrArg Prod.snd hcall).symm, fun h => ⟨fun kin => ?_, fun kin => ?_⟩⟩
      · rw [hitems, if_pos ((hkin h).1 kin), ← items_congr ((hkin h).1 kin), ← hleft]
        exact items_append exclusive.sound reaches item
      · rw [hitems, if_neg fun same => kin ((hkin h).2 same)]
    | drain =>
      refine ⟨hcall, (congrArg Prod.fst hcall).symm, fun h => ⟨fun kin => ?_, fun kin => ?_⟩⟩
      · rw [hitems, if_pos ((hkin h).1 kin), ← hleft]
        exact items_drain exclusive.sound reaches
      · rw [hitems, if_neg fun same => kin ((hkin h).2 same)]

/-! ### What all deeds do -/

variable {ds : List (Deed Task α)} {s t : Sharing Task α}

theorem isExclusive_of_leads (h : (use Task α).Leads s ds t) (exclusive : s.IsExclusive) :
    t.IsExclusive := by
  induction h with
  | nil => exact exclusive
  | snoc _ last ih => exact Does.isExclusive last ih

theorem store_of_leads (h : (use Task α).Leads s ds t) (exclusive : s.IsExclusive) :
    t.store = ds.foldl Deed.effect s.store := by
  induction h with
  | nil => rfl
  | snoc before last ih =>
    rw [List.foldl_append, ← ih]
    exact Does.store last (isExclusive_of_leads before exclusive)

theorem accounts_of_leads (h : (use Task α).Leads start ds s) : Accounts ds s.store := by
  induction h with
  | nil => exact accounts_single
  | snoc before last ih =>
    exact Does.accounts last (isExclusive_of_leads before isExclusive_start) ih

/-- Many tasks use stores through handles. Handles are kin just when they reach the same store, and
then they see the same. Of each store, what its drains have returned and then what is in it is all
that was appended to it through any of its handles, in order; and each drain has returned what a drain
of the stores as they were then returns. What a task does shows through the kin of its handle and no
others, so that a drain leaves its store empty and the others as they were. The calls of each task are
done in its order, all of them when no task is at one; and all is as if each had been done in one go. -/
theorem nothing_lost (reached : (use Task α).Leads start ds s) :
    (∀ g h, g < s.store.handles.length → h < s.store.handles.length →
      (s.store.handles[g]? = s.store.handles[h]? ↔ Kin ds g h)) ∧
    (∀ g h, Kin ds g h → s.store.items g = s.store.items h) ∧
    (∀ i now, s.store.contents[i]? = some now →
      (drainedFrom s.store i ds).flatten ++ now = appendedTo s.store i ds) ∧
    (∀ es task g returned es', ds = es ++ .done task g .drain returned :: es' →
      returned = ((replay es).drain g).1) ∧
    (∀ deed t, Does s deed t → Shows (Kin ds) s.store t.store deed) ∧
    (∀ task, callsOf task ((use Task α).ended ds) <+: callsOf task ((use Task α).begun ds)) ∧
    ((use Task α).IsQuiet s → ((use Task α).ended ds).Perm ((use Task α).begun ds)) ∧
    s.store = replay ds := by
  have exclusive := isExclusive_of_leads reached isExclusive_start
  have accounts := accounts_of_leads reached
  refine ⟨fun g h hg hh => ⟨fun same => ?_, reaches_of_kin accounts.known⟩,
    fun g h kin => items_congr (reaches_of_kin accounts.known kin), accounts.balances,
    fun es task g returned es' split => ?_, fun deed t does => does.shows exclusive accounts,
    reached.ended_prefix isQuiet_start, reached.ended_perm isQuiet_start,
    store_of_leads reached isExclusive_start⟩
  · have hreaches := List.getElem?_eq_getElem hg
    exact accounts.kin g h _ hreaches (same ▸ hreaches)
  · obtain ⟨t, t', before, does⟩ := reached.split split
    have hcall := does.done_eq (isExclusive_of_leads before isExclusive_start)
    rw [store_of_leads before isExclusive_start] at hcall
    exact (congrArg Prod.fst hcall).symm

/-- Two tasks at one store: the second waits until the first has appended, and drains it. -/
theorem nothing_lost_waiting :
    let ds : List (Deed Bool Nat) := [.shared 0 1, .created 2, .begun true 0 (.append 7),
      .begun false 1 .drain, .locked true, .done true 0 (.append 7) [], .locked false,
      .begun true 2 (.append 8), .locked true, .done true 2 (.append 8) [],
      .done false 1 .drain [7]]
    ∃ s, (use Bool Nat).Leads start ds s ∧ s.store = ⟨[[], [8]], [0, 0, 1]⟩ ∧
      (drainedFrom s.store 0 ds).flatten ++ [] = appendedTo s.store 0 ds ∧
      appendedTo s.store 0 ds = [7] ∧ ((replay ds.dropLast).drain 1).1 = [7] ∧
      Kin ds 0 1 ∧ ¬Kin ds 0 2 := by
  intro ds
  obtain ⟨s, reached⟩ : ∃ s, (use Bool Nat).Leads start ds s :=
    ⟨_, .cons (Does.share rfl) <| .cons Does.create <| .cons (Does.begin rfl rfl) <|
      .cons (Does.begin rfl rfl) <| .cons (Does.lock rfl rfl rfl) <|
      .cons (Does.finish rfl rfl) <| .cons (Does.lock rfl rfl rfl) <|
      .cons (Does.begin rfl rfl) <| .cons (Does.lock rfl rfl rfl) <|
      .cons (Does.finish rfl rfl) <| .cons (Does.finish rfl rfl) .nil⟩
  obtain ⟨hkin, -, hbalance, hreturned, -, -, -, hstore⟩ := nothing_lost reached
  have hs : s.store = ⟨[[], [8]], [0, 0, 1]⟩ := hstore
  rw [hs] at hkin hbalance
  have balanced := hbalance 0 [] rfl
  refine ⟨s, reached, hs, ?_⟩
  rw [hs]
  exact ⟨balanced, rfl, (hreturned ds.dropLast false 1 [7] [] rfl).symm, (hkin 0 1 (by decide) (by decide)).1 rfl,
    fun kin => absurd ((hkin 0 2 (by decide) (by decide)).2 kin) (by decide)⟩

end Sharing

end Breakage.SharedStore
