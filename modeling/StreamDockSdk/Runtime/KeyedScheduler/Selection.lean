import Mathlib.Algebra.BigOperators.Group.Finset.Basic
import Mathlib.Algebra.Order.BigOperators.Group.Finset
import StreamDockSdk.Runtime.KeyedScheduler.Completion

namespace StreamDockSdk.Messaging

/-- What the pump submits for a selected item: the item itself, or, through
`submit(event)`, an event that came without a size. -/
def SizedEvent.measured (item : SizedEvent) (retainedSize : StreamDockEvent → Nat) : SizedEvent :=
  if item.size = 0 then { item with size := retainedSize item.event } else item

end StreamDockSdk.Messaging

namespace StreamDockSdk.Runtime

open Messaging Automaton KeyedSerialHandlerScheduler

/-! # Selection by the pump

`SelectingWorld` is the scheduler with the pump as its only producer: what the
pump submits is what `select_sized_event` chose for it.
-/

structure SelectingWorld where
  keyed : KeyedWorld
  /-- The item that the pump has received and not yet submitted. -/
  selected : Option SizedEvent := none

inductive SelectingLabel where
  | select (retainedSize : StreamDockEvent → Nat) (events : List SizedEvent)
  | submit
  /-- The pump was asked to stop and finishes the received event itself. -/
  | drop
  | other (label : KeyedLabel)

/-- The steps of `KeyedWorld` that are not the pump's. -/
def KeyedLabel.produces : KeyedLabel → Bool
  | .submit _ | .select _ _ => true
  | _ => false

namespace SelectingWorld

variable (world : SelectingWorld)

def step : SelectingLabel → Option SelectingWorld
  | .select retainedSize events =>
      if world.selected.isSome || !world.keyed.blocked.isEmpty then none
      else match world.keyed.scheduler.selectSizedEvent retainedSize events with
        | .error _ => some world
        | .ok (scheduler, index) => some {
            keyed := { world.keyed with scheduler }
            selected := (index.bind (events[·]?)).map (·.measured retainedSize) }
  | .submit =>
      match world.selected with
      | none => none
      | some item => (world.keyed.step (.submit item)).map ({ keyed := · })
  | .drop => if world.selected.isSome then some { world with selected := none } else none
  | .other label =>
      if label.produces then none else (world.keyed.step label).map ({ world with keyed := · })

end SelectingWorld

/-- Every run in which all submissions come from selections. -/
def selectingSystem (config : SchedulerConfig) :
    System SelectingWorld SelectingLabel where
  initial world := world = { keyed := { scheduler := { config } } }
  step := SelectingWorld.step

namespace KeyedSerialHandlerScheduler

variable {scheduler next : KeyedSerialHandlerScheduler}

/-- `submit_sized` of the item would not wait, and the budget of its context has room. -/
structure HasRoom (scheduler : KeyedSerialHandlerScheduler) (item : SizedEvent) : Prop where
  started : scheduler.started = true
  depth : scheduler.pending.length < scheduler.config.pendingLimit
  bytes : scheduler.canAdmitBytes item.size = true
  context : ∀ context, scheduledContext? item.event = some context →
    scheduler.contextWork context < scheduler.contextWorkLimit

theorem selectFrom_admissible {retainedSize : StreamDockEvent → Nat} {start index : Nat}
    {deferred : Finset Str} {events : List SizedEvent}
    (selected : scheduler.selectFrom retainedSize start deferred events = some index) :
    ∃ offset item, index = start + offset ∧ events[offset]? = some item ∧
      scheduler.canAdmitBytes (item.measured retainedSize).size = true ∧
      ∀ context, scheduledContext? item.event = some context →
        scheduler.contextWork context < scheduler.contextWorkLimit := by
  induction events generalizing start deferred with
  | nil => simp [selectFrom] at selected
  | cons head rest ih =>
      have size_eq : (head.measured retainedSize).size =
          if head.size = 0 then retainedSize head.event else head.size := by
        unfold SizedEvent.measured
        split <;> rfl
      have later {deferred : Finset Str}
          (selected : scheduler.selectFrom retainedSize (start + 1) deferred rest = some index) :
          ∃ offset item, index = start + offset ∧ (head :: rest)[offset]? = some item ∧
            scheduler.canAdmitBytes (item.measured retainedSize).size = true ∧
            ∀ context, scheduledContext? item.event = some context →
              scheduler.contextWork context < scheduler.contextWorkLimit := by
        obtain ⟨offset, item, rfl, found, admissible, budget⟩ := ih selected
        exact ⟨offset + 1, item, by omega, found, admissible, budget⟩
      simp only [selectFrom, ← size_eq] at selected
      cases lane : scheduledContext? head.event with
      | none =>
          simp only [lane] at selected
          split at selected
          · next admissible =>
            simp only [Option.some.injEq] at selected
            exact ⟨0, head, by omega, rfl, admissible.2, by simp [lane]⟩
          · contradiction
      | some context =>
          simp only [lane] at selected
          split at selected
          · exact later selected
          split at selected
          · next budget =>
            split at selected
            · next admissible =>
              simp only [Option.some.injEq] at selected
              refine ⟨0, head, by omega, rfl, admissible, fun other same => ?_⟩
              rw [lane, Option.some.injEq] at same
              exact same ▸ budget
            · exact later selected
          · exact later selected

theorem selectSizedEvent_hasRoom {retainedSize : StreamDockEvent → Nat} {events : List SizedEvent}
    {index : Nat} (accepting : scheduler.accepting = true)
    (selected : scheduler.selectSizedEvent retainedSize events = .ok (next, some index)) :
    ∃ item, events[index]? = some item ∧ HasRoom next (item.measured retainedSize) := by
  unfold selectSizedEvent at selected
  simp only [accepting, Bool.not_true, Bool.false_eq_true, if_false, Bool.not_eq_true'] at selected
  split at selected
  · contradiction
  next started =>
  split at selected
  · next chosen =>
    simp only [Except.ok.injEq, Prod.mk.injEq, Option.some.injEq] at selected
    obtain ⟨rfl, rfl⟩ := selected
    split at chosen
    · next depth =>
      obtain ⟨offset, item, index_eq, found, admissible, budget⟩ := selectFrom_admissible chosen
      rw [Nat.zero_add] at index_eq
      subst index_eq
      refine ⟨item, found, by simpa using started, depth, admissible, ?_⟩
      unfold SizedEvent.measured
      split <;> exact budget
    · contradiction
  · split at selected <;> cases selected

theorem HasRoom.submitted {item : SizedEvent} (room : HasRoom scheduler item)
    (sized : 0 < item.size) (accepting : scheduler.accepting = true) :
    scheduler.submitSized item = .ok (scheduler.admitItem item) ∨
      (∃ after, scheduler.submitSized item = .ok (after, .oversized)) ∧
        scheduler.config.pendingByteLimit < item.size := by
  unfold submitSized
  simp only [Nat.ne_of_gt sized, if_false, accepting, room.started, Bool.not_true,
    Bool.false_eq_true]
  by_cases oversized : scheduler.config.pendingByteLimit < item.size
  · exact .inr ⟨⟨_, by rw [if_pos oversized]⟩, oversized⟩
  · have fits : scheduler.pendingBytes + item.size ≤ scheduler.config.pendingByteLimit := by
      have admissible := room.bytes
      simp only [canAdmitBytes, Bool.or_eq_true, decide_eq_true_eq] at admissible
      exact admissible.resolve_left oversized
    have depth := room.depth
    have empty : scheduler.isFull item.size = false := by
      simp only [isFull, Bool.or_eq_false_iff, decide_eq_false_iff_not]
      omega
    exact .inl (by simp [oversized, empty])

/-- The scheduler has at least the room that it had. -/
structure Relieves (before after : KeyedSerialHandlerScheduler) : Prop where
  config : after.config = before.config
  depth : after.pending.length ≤ before.pending.length
  bytes : after.pendingBytes ≤ before.pendingBytes
  contexts : ∀ context, after.contextWork context ≤ before.contextWork context
  accepting : after.accepting = true → before.accepting = true
  started : before.started = true → after.started = true

theorem HasRoom.relieved {item : SizedEvent} (room : HasRoom scheduler item)
    (relieves : Relieves scheduler next) : HasRoom next item where
  started := relieves.started room.started
  depth := by
    rw [relieves.config]
    exact Nat.lt_of_le_of_lt relieves.depth room.depth
  bytes := by
    have bytes := room.bytes
    have smaller := relieves.bytes
    simp only [canAdmitBytes, Bool.or_eq_true, decide_eq_true_eq, relieves.config] at bytes ⊢
    omega
  context := by
    intro context lane
    rw [contextWorkLimit, relieves.config]
    exact Nat.lt_of_le_of_lt (relieves.contexts context) (room.context context lane)

theorem SameLoad.relieves (same : SameLoad scheduler next) : Relieves scheduler next where
  config := same.config
  depth := by rw [same.pending]
  bytes := by rw [same.pendingBytes]
  contexts context := by
    rw [contextWork, contextWork, same.pendingByContext, same.activeContexts]
  accepting := same.accepting
  started := same.started

/-- Taking a work moves it within the budget of its context. -/
theorem contextWork_activate {passed rest : List ScheduledWork} {work : ScheduledWork}
    {thread : Nat} (sound : KeyedWorld.LoadSound scheduler)
    (split : scheduler.pending = passed ++ work :: rest)
    (free : ∀ context, work.context = some context → context ∉ scheduler.activeContexts)
    (context : Str) :
    (scheduler.activate thread passed.length work).contextWork context =
      scheduler.contextWork context := by
  obtain ⟨token, event, lane, size⟩ := work
  cases lane with
  | none => rfl
  | some own =>
      simp only [contextWork, activate, uncountPending]
      by_cases same : context = own
      · subst same
        have counted := sound.contexts context
        rw [split, List.countP_append, List.countP_cons] at counted
        simp only [decide_true, if_true] at counted
        simp only [Function.update_self, Finset.mem_insert, true_or, if_true,
          if_neg (free context rfl)]
        omega
      · simp [same]

theorem Advances.relieves {thread : Nat} {pc : ThreadPc} {result : Advance}
    (advances : Advances scheduler thread pc result) (sound : KeyedWorld.LoadSound scheduler) :
    Relieves scheduler result.scheduler := by
  cases advances with
  | take taken =>
      obtain ⟨passed, rest, split, rfl, _, _, _, free⟩ := takeInternalWork_spec taken
      refine ⟨rfl, ?_, Nat.sub_le _ _, fun context =>
        (contextWork_activate sound split free context).le, id, id⟩
      rw [activate_pending split, split]
      simp
  | release work reply observerFailed =>
      refine ⟨rfl, Nat.le_refl _, Nat.le_refl _, fun context => ?_, id, id⟩
      have shrinks : (scheduler.release thread work reply).activeContexts ⊆
          scheduler.activeContexts := by
        simp only [KeyedSerialHandlerScheduler.release]
        split
        · exact Finset.Subset.refl _
        · exact Finset.erase_subset _ _
      refine Nat.add_le_add_left ?_ _
      by_cases kept : context ∈ (scheduler.release thread work reply).activeContexts
      · rw [if_pos kept, if_pos (shrinks kept)]
      · rw [if_neg kept]
        exact Nat.zero_le _
  | clear caller =>
      exact ⟨rfl, Nat.zero_le _, Nat.zero_le _, fun context =>
        Nat.add_le_add_right (Nat.zero_le _) _, id, id⟩
  | refuse | giveUp => exact stopAccepting_sameLoad.relieves
  | exit => exact exitWorker_sameLoad.relieves
  | timeOut => exact recordTimedOut_sameLoad.relieves
  | _ => exact ⟨rfl, Nat.le_refl _, Nat.le_refl _, fun _ => Nat.le_refl _, id, id⟩

theorem budget_relieved (budget : ∀ context, scheduler.contextWork context ≤ scheduler.contextWorkLimit)
    (relieves : Relieves scheduler next) (context : Str) :
    next.contextWork context ≤ next.contextWorkLimit := by
  rw [contextWorkLimit, relieves.config]
  exact Nat.le_trans (relieves.contexts context) (budget context)

theorem HasRoom.budget_admitted {item : SizedEvent} (room : HasRoom scheduler item)
    (budget : ∀ context, scheduler.contextWork context ≤ scheduler.contextWorkLimit)
    (context : Str) :
    (scheduler.admitItem item).1.contextWork context ≤
      (scheduler.admitItem item).1.contextWorkLimit := by
  have earlier := budget context
  have allowed := room.context context
  change scheduler.countPending (scheduledContext? item.event) context +
    (if context ∈ scheduler.activeContexts then 1 else 0) ≤ scheduler.contextWorkLimit
  unfold contextWork at earlier allowed
  cases lane : scheduledContext? item.event with
  | none => exact earlier
  | some own =>
      by_cases same : context = own
      · subst same
        have smaller := allowed lane
        simp only [countPending, Function.update_self]
        omega
      · simpa [countPending, same] using earlier

end KeyedSerialHandlerScheduler

namespace KeyedWorld

variable {world before after : KeyedWorld}

theorem Quiet.relieves (quiet : Quiet before after) (active : before.ActiveSound)
    (load : LoadSound before.scheduler) : Relieves before.scheduler after.scheduler := by
  cases quiet with
  | thread found advances => exact advances.relieves load
  | housekeeping kept => exact (kept.frame active.launch).1.relieves

theorem step_blocked {label : KeyedLabel} (quiet : label.submits = false)
    (stepped : before.step label = some after) : after.blocked = before.blocked := by
  cases label with
  | submit | resume => contradiction
  | start =>
      simp only [step, start] at stepped
      split at stepped
      · cases stepped
        rfl
      · split at stepped <;> cases stepped
        rfl
  | launch succeeds =>
      simp only [step, launchStep] at stepped
      split at stepped
      · contradiction
      · cases stepped
        rfl
      · cases stepped
        rfl
      · split at stepped <;> (cases stepped; rfl)
      · cases stepped
        rfl
  | select =>
      simp only [step] at stepped
      split at stepped <;> (cases stepped; rfl)
  | thread index move =>
      simp only [step] at stepped
      split at stepped
      · contradiction
      split at stepped
      · contradiction
      · cases stepped
        rfl
  | stopAccepting | stop =>
      cases stepped
      rfl
  | drainTimeout =>
      simp only [step] at stepped
      split at stepped
      · contradiction
      · cases stepped
        rfl

end KeyedWorld

namespace SelectingWorld

variable {world before after : SelectingWorld} {config : SchedulerConfig}

/-- What the pump does to the scheduler is a step of `KeyedWorld`. -/
theorem step_keyed {label : SelectingLabel} (stepped : before.step label = some after) :
    after.keyed = before.keyed ∨ ∃ keyed, before.keyed.step keyed = some after.keyed := by
  cases label with
  | select retainedSize events =>
      simp only [step] at stepped
      split at stepped
      · contradiction
      split at stepped
      · cases stepped
        exact .inl rfl
      · next selected =>
        cases stepped
        exact .inr ⟨.select retainedSize events, by simp only [KeyedWorld.step, selected]⟩
  | submit =>
      simp only [step] at stepped
      split at stepped
      · contradiction
      · next item _ =>
        simp only [Option.map_eq_some_iff] at stepped
        obtain ⟨keyed, moved, rfl⟩ := stepped
        exact .inr ⟨.submit item, moved⟩
  | drop =>
      simp only [step] at stepped
      split at stepped
      · cases stepped
        exact .inl rfl
      · contradiction
  | other label =>
      simp only [step] at stepped
      split at stepped
      · contradiction
      · simp only [Option.map_eq_some_iff] at stepped
        obtain ⟨keyed, moved, rfl⟩ := stepped
        exact .inr ⟨label, moved⟩

theorem reachable_keyed (reachable : (selectingSystem config).Reachable world) :
    (keyedSystem config).Reachable world.keyed := by
  refine reachable.invariant (motive := fun world => (keyedSystem config).Reachable world.keyed)
    ?_ fun before label after earlier stepped => ?_
  · rintro _ rfl
    exact .initial rfl
  · rcases step_keyed stepped with same | ⟨label, moved⟩
    · rw [same]
      exact earlier
    · exact earlier.next label moved

/-- Between its selection and its submission the item keeps the room that the
selection saw, so the pump is never parked and no context exceeds its budget. -/
structure PumpSound (world : SelectingWorld) : Prop where
  room : ∀ item, world.selected = some item → world.keyed.scheduler.accepting = true →
    HasRoom world.keyed.scheduler item
  unblocked : world.keyed.blocked = []
  budget : ∀ context, world.keyed.scheduler.contextWork context ≤
    world.keyed.scheduler.contextWorkLimit

theorem PumpSound.select (sound : before.PumpSound) {retainedSize : StreamDockEvent → Nat}
    {events : List SizedEvent} {scheduler : KeyedSerialHandlerScheduler} {index : Option Nat}
    (selected : before.keyed.scheduler.selectSizedEvent retainedSize events =
      .ok (scheduler, index)) :
    PumpSound {
      keyed := { before.keyed with scheduler }
      selected := (index.bind (events[·]?)).map (·.measured retainedSize) } where
  room := by
    intro item chosen accepting
    cases index with
    | none => simp at chosen
    | some index =>
        have earlier := (selectSizedEvent_sameLoad selected).accepting accepting
        obtain ⟨found, located, room⟩ := selectSizedEvent_hasRoom earlier selected
        simp only [Option.bind_some, located, Option.map_some, Option.some.injEq] at chosen
        exact chosen ▸ room
  unblocked := sound.unblocked
  budget := budget_relieved sound.budget (selectSizedEvent_sameLoad selected).relieves

theorem PumpSound.submit (sound : before.PumpSound) {item : SizedEvent} {keyed : KeyedWorld}
    (held : before.selected = some item) (moved : before.keyed.step (.submit item) = some keyed) :
    PumpSound { keyed } := by
  have room := sound.room item held
  simp only [KeyedWorld.step] at moved
  cases submission : before.keyed.scheduler.submitSized item with
  | error raised =>
      simp only [submission, Option.some.injEq] at moved
      subst moved
      exact ⟨by simp, sound.unblocked, sound.budget⟩
  | ok decision =>
      simp only [submission, Option.some.injEq] at moved
      subst moved
      have decided := submitSized_cases submission
      by_cases accepting : before.keyed.scheduler.accepting = true
      · by_cases sized : item.size = 0
        · simp [submitSized, sized] at submission
        · rcases (room accepting).submitted (Nat.pos_of_ne_zero sized) accepting with
            admitted | ⟨⟨next, refused⟩, _⟩
          · rw [admitted, Except.ok.injEq] at submission
            subst submission
            exact ⟨by simp, sound.unblocked, (room accepting).budget_admitted sound.budget⟩
          · rw [refused, Except.ok.injEq] at submission
            subst submission
            cases decided with
            | refused same _ =>
                exact ⟨by simp, sound.unblocked, budget_relieved sound.budget same.relieves⟩
      · have refused : before.keyed.scheduler.submitSized item =
            .ok before.keyed.scheduler.discardSubmission := by
          have sized : item.size ≠ 0 := by
            intro zero
            simp [submitSized, zero] at submission
          simp [submitSized, sized, accepting]
        rw [refused, Except.ok.injEq] at submission
        subst submission
        exact ⟨by simp, sound.unblocked,
          budget_relieved sound.budget discardSubmission_sameLoad.relieves⟩

theorem PumpSound.other (sound : before.PumpSound) (active : before.keyed.ActiveSound)
    (load : KeyedWorld.LoadSound before.keyed.scheduler) {label : KeyedLabel} {keyed : KeyedWorld}
    (apart : label.produces = false) (moved : before.keyed.step label = some keyed) :
    PumpSound { before with keyed } := by
  have quiet : label.submits = false := by
    cases label with
    | submit => contradiction
    | resume index => simp [KeyedWorld.step, sound.unblocked] at moved
    | _ => rfl
  have relieves := (KeyedWorld.quiet_cases quiet moved).relieves active load
  constructor
  · intro item held accepting
    exact (sound.room item held (relieves.accepting accepting)).relieved relieves
  · exact (KeyedWorld.step_blocked quiet moved).trans sound.unblocked
  · exact budget_relieved sound.budget relieves

theorem pumpSound (reachable : (selectingSystem config).Reachable world) : world.PumpSound := by
  refine reachable.invariant_given
    (fun world => world.keyed.ActiveSound ∧ KeyedWorld.LoadSound world.keyed.scheduler)
    (fun _ reached => ⟨KeyedWorld.activeSound (reachable_keyed reached),
      (KeyedWorld.conserved (reachable_keyed reached)).load⟩) ?_ ?_
  · rintro _ rfl
    constructor <;> simp [contextWork]
  · intro before label after known sound stepped
    simp only [selectingSystem] at stepped
    cases label with
    | select retainedSize events =>
        simp only [step] at stepped
        split at stepped
        · contradiction
        split at stepped
        · cases stepped
          exact sound
        · next selected =>
          cases stepped
          exact sound.select selected
    | submit =>
        simp only [step] at stepped
        split at stepped
        · contradiction
        · next held =>
          simp only [Option.map_eq_some_iff] at stepped
          obtain ⟨keyed, moved, rfl⟩ := stepped
          exact sound.submit held moved
    | drop =>
        simp only [step] at stepped
        split at stepped
        · cases stepped
          exact ⟨by simp, sound.unblocked, sound.budget⟩
        · contradiction
    | other label =>
        simp only [step] at stepped
        split at stepped
        · contradiction
        · next apart =>
          simp only [Option.map_eq_some_iff] at stepped
          obtain ⟨keyed, moved, rfl⟩ := stepped
          exact sound.other known.1 known.2 (by simpa using apart) moved

end SelectingWorld

namespace KeyedWorld

variable {world : KeyedWorld} {config : SchedulerConfig}

/-- An active context belongs to a recorded work. -/
theorem ActiveSound.activeContexts_empty (sound : world.ActiveSound)
    (inactive : world.scheduler.activeByThread = []) : world.scheduler.activeContexts = ∅ := by
  rw [Finset.eq_empty_iff_forall_notMem]
  intro context busy
  obtain ⟨index, work, active, _⟩ := (sound.contexts context).mp busy
  have recorded := sound.tracked index work active
  rw [inactive] at recorded
  contradiction

theorem ActiveSound.takes (sound : world.ActiveSound) (thread : Nat)
    (waiting : world.scheduler.pending ≠ [])
    (inactive : world.scheduler.activeByThread = [])
    (unbarred : world.scheduler.barrierActive = false) :
    ∃ next work, world.scheduler.takeInternalWork thread = some (next, work) := by
  have idle := sound.activeContexts_empty inactive
  obtain ⟨head, rest, pending⟩ := List.exists_cons_of_ne_nil waiting
  have found : world.scheduler.scan 0 world.scheduler.pending = some (0, head) := by
    rw [pending]
    cases lane : head.context <;> simp [scan, lane, inactive, idle]
  exact ⟨_, _, by simp only [takeInternalWork, unbarred, Bool.false_eq_true, if_false, found]; rfl⟩

theorem LoadSound.selects_first (load : LoadSound world.scheduler) (sound : world.ActiveSound)
    (retainedSize : StreamDockEvent → Nat) {events : List SizedEvent}
    (accepting : world.scheduler.accepting = true) (started : world.scheduler.started = true)
    (empty : world.scheduler.pending = []) (inactive : world.scheduler.activeByThread = [])
    (waiting : events ≠ []) :
    ∃ next, world.scheduler.selectSizedEvent retainedSize events = .ok (next, some 0) := by
  have idle := sound.activeContexts_empty inactive
  have bytes : world.scheduler.pendingBytes = 0 := by simp [load.bytes, empty]
  have unplanned (context : Str) : world.scheduler.contextWork context <
      world.scheduler.contextWorkLimit := by
    have counted := load.contexts context
    rw [empty, List.countP_nil] at counted
    simp [contextWork, counted, idle, contextWorkLimit]
  have admissible (size : Nat) : world.scheduler.canAdmitBytes size = true := by
    simp only [canAdmitBytes, bytes, Bool.or_eq_true, decide_eq_true_eq]
    omega
  obtain ⟨head, rest, rfl⟩ := List.exists_cons_of_ne_nil waiting
  have chosen : world.scheduler.selectFrom retainedSize 0 ∅ (head :: rest) = some 0 := by
    cases lane : scheduledContext? head.event <;> simp [selectFrom, lane, admissible, unplanned]
  have depth : world.scheduler.pending.length < world.scheduler.config.pendingLimit := by
    rw [empty]
    exact world.scheduler.config.pendingLimit_pos
  exact ⟨_, by simp [selectSizedEvent, accepting, started, depth, chosen]; rfl⟩

end KeyedWorld

/-- Pending work that nothing holds up is taken, an idle scheduler selects the
first event, and what a selection chose is submitted without waiting. -/
theorem never_stalls_and_selects {config : SchedulerConfig} :
    (∀ world, (keyedSystem config).Reachable world →
      (∀ thread, world.scheduler.pending ≠ [] → world.scheduler.activeByThread = [] →
        world.scheduler.barrierActive = false →
        ∃ next work, world.scheduler.takeInternalWork thread = some (next, work)) ∧
      ∀ retainedSize events, world.scheduler.accepting = true → world.scheduler.started = true →
        world.scheduler.pending = [] → world.scheduler.activeByThread = [] → events ≠ [] →
        ∃ next, world.scheduler.selectSizedEvent retainedSize events = .ok (next, some 0)) ∧
    ∀ world item, (selectingSystem config).Reachable world → world.selected = some item →
      0 < item.size →
      ∃ next admission, world.keyed.scheduler.submitSized item = .ok (next, admission) ∧
        ((∃ work, admission = .accepted work) ∨
          (admission = .oversized ∧ config.pendingByteLimit < item.size) ∨
          (admission = .discarded ∧ world.keyed.scheduler.accepting = false)) := by
  refine ⟨fun world reachable => ⟨fun thread => ?_, fun retainedSize events => ?_⟩, ?_⟩
  · exact (KeyedWorld.activeSound reachable).takes thread
  · exact (KeyedWorld.conserved reachable).load.selects_first (KeyedWorld.activeSound reachable)
      retainedSize
  · intro world item reachable held sized
    have same := KeyedWorld.config_eq (SelectingWorld.reachable_keyed reachable)
    by_cases accepting : world.keyed.scheduler.accepting = true
    · have room := (SelectingWorld.pumpSound reachable).room item held accepting
      rcases room.submitted sized accepting with admitted | ⟨⟨next, refused⟩, oversized⟩
      · exact ⟨_, _, admitted, .inl ⟨_, rfl⟩⟩
      · exact ⟨next, _, refused, .inr (.inl ⟨rfl, same ▸ oversized⟩)⟩
    · refine ⟨world.keyed.scheduler.discardSubmission.1, .discarded, ?_,
        .inr (.inr ⟨rfl, by simpa using accepting⟩)⟩
      simp only [submitSized, Nat.ne_of_gt sized, if_false, accepting]
      rfl

/-- The labels of a run of the selecting system, from a new scheduler. -/
def selectingRun (labels : List SelectingLabel) : Option SelectingWorld :=
  (selectingSystem sampleConfig).exec { keyed := { scheduler := { config := sampleConfig } } } labels

theorem selectingRun_reachable (labels : List SelectingLabel)
    (enabled : (selectingRun labels).isSome) :
    (selectingSystem sampleConfig).Reachable ((selectingRun labels).get enabled) :=
  System.Reachable.exec (.initial rfl) (Option.some_get enabled).symm

/-- The pump selects the item and submits it. -/
def pumped (item : SizedEvent) : List SelectingLabel :=
  [.select (fun _ => 8) [item], .submit]

/-- One work is pending, and the pump holds a second item of its context. -/
def selectedLabels : List SelectingLabel := launchLabels.map .other ++
  pumped (sampleItem ⟨[1]⟩) ++ [.select (fun _ => 8) [sampleItem ⟨[1]⟩]]

def selectedWorld : SelectingWorld := (selectingRun selectedLabels).get rfl

theorem never_stalls_and_selects_run :
    (∃ next work, selectedWorld.keyed.scheduler.takeInternalWork 0 = some (next, work)) ∧
    ∃ next admission, selectedWorld.keyed.scheduler.submitSized (sampleItem ⟨[1]⟩) =
      .ok (next, admission) ∧
        ((∃ work, admission = .accepted work) ∨
          (admission = .oversized ∧ sampleConfig.pendingByteLimit < (sampleItem ⟨[1]⟩).size) ∨
          (admission = .discarded ∧ selectedWorld.keyed.scheduler.accepting = false)) :=
  have reachable := selectingRun_reachable selectedLabels rfl
  ⟨(never_stalls_and_selects.1 _ (SelectingWorld.reachable_keyed reachable)).1 0
      (List.cons_ne_nil _ _) rfl rfl,
    never_stalls_and_selects.2 selectedWorld _ reachable rfl (by decide)⟩

end StreamDockSdk.Runtime
