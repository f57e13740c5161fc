import Mathlib
import StreamDockSdk.Messaging.Inbound.Positions
import StreamDockSdk.Runtime.EventPump
import StreamDockSdk.Runtime.KeyedScheduler.Fate

namespace StreamDockSdk.Runtime

open Messaging Automaton

/-- Events with these scheduling contexts must not overtake each other. -/
def Clash (first second : Option Str) : Prop :=
  first = none ∨ second = none ∨ first = second

namespace KeyedSerialHandlerScheduler

variable {scheduler next : KeyedSerialHandlerScheduler} {retainedSize : StreamDockEvent → Nat}

/-- The selected item follows no earlier item of its own context, and no barrier. -/
def Selects (scheduler : KeyedSerialHandlerScheduler) (index : Nat) (deferred : Finset Str)
    (items : List SizedEvent) (selected : Nat) : Prop :=
  ∃ passed item rest, items = passed ++ item :: rest ∧ selected = index + passed.length ∧
    (scheduledContext? item.event = none → selected = 0) ∧
    (∀ context, scheduledContext? item.event = some context → context ∉ deferred ∧
      scheduler.contextWork context < scheduler.contextWorkLimit) ∧
    ∀ other ∈ passed, scheduledContext? other.event ≠ none ∧
      scheduledContext? other.event ≠ scheduledContext? item.event

/-- An item is passed over when its context is deferred or has used up its budget. -/
theorem Selects.skip {index selected : Nat} {deferred later : Finset Str} {head : SizedEvent}
    {items : List SizedEvent} {context : Str}
    (selects : scheduler.Selects (index + 1) later items selected)
    (lane : scheduledContext? head.event = some context)
    (kept : ∀ other, other ∉ later → other ∉ deferred)
    (blocked : context ∈ later ∨ ¬ scheduler.contextWork context < scheduler.contextWorkLimit) :
    scheduler.Selects index deferred (head :: items) selected := by
  obtain ⟨passed, item, rest, rfl, selected_eq, barrier, free, behind⟩ := selects
  refine ⟨head :: passed, item, rest, rfl, by simp only [List.length_cons]; omega, barrier,
    fun other same => ⟨kept other (free other same).1, (free other same).2⟩, ?_⟩
  intro other member
  rcases List.mem_cons.mp member with rfl | member
  · refine ⟨by simp [lane], fun same => ?_⟩
    rw [lane] at same
    obtain ⟨allowed, room⟩ := free context same.symm
    exact blocked.elim allowed (absurd room)
  · exact behind other member

theorem selectFrom_spec {index selected : Nat} {deferred : Finset Str} {items : List SizedEvent}
    (found : scheduler.selectFrom retainedSize index deferred items = some selected) :
    scheduler.Selects index deferred items selected := by
  induction items generalizing index deferred with
  | nil => simp [selectFrom] at found
  | cons head tail ih =>
      cases lane : scheduledContext? head.event with
      | none =>
          simp only [selectFrom, lane] at found
          generalize (if head.size = 0 then _ else _) = size at found
          split at found
          · next first =>
            simp only [Option.some.injEq] at found
            subst found
            exact ⟨[], head, tail, rfl, rfl, fun _ => first.1, by simp [lane], by simp⟩
          · contradiction
      | some context =>
          simp only [selectFrom, lane] at found
          generalize (if head.size = 0 then _ else _) = size at found
          split at found
          · next seen => exact (ih found).skip lane (fun _ => id) (.inl seen)
          next unseen =>
          split at found
          · next room =>
            split at found
            · simp only [Option.some.injEq] at found
              subst found
              refine ⟨[], head, tail, rfl, rfl, by simp [lane], ?_, by simp⟩
              intro other same
              rw [lane, Option.some.injEq] at same
              exact same ▸ ⟨unseen, room⟩
            · exact (ih found).skip lane (fun other absent member => absent (Finset.mem_insert_of_mem member))
                (.inl (Finset.mem_insert_self _ _))
          · next full => exact (ih found).skip lane (fun _ => id) (.inr full)

/-- The selector never lets an event overtake one that it clashes with. -/
theorem selectSizedEvent_overtakes {items : List SizedEvent} {index : Nat}
    (selected : scheduler.selectSizedEvent retainedSize items = .ok (next, some index)) :
    index = 0 ∨ ∃ passed item rest, items = passed ++ item :: rest ∧ index = passed.length ∧
      ∀ other ∈ passed, ¬ Clash (scheduledContext? other.event) (scheduledContext? item.event) := by
  unfold selectSizedEvent at selected
  split at selected
  · cases selected
    exact .inl rfl
  split at selected
  · contradiction
  dsimp only at selected
  split at selected
  · next index_ found =>
    cases selected
    split at found
    · obtain ⟨passed, item, rest, split_, rfl, barrier, _, behind⟩ := selectFrom_spec found
      refine .inr ⟨passed, item, rest, split_, Nat.zero_add _, ?_⟩
      intro other member clash
      obtain ⟨keyed, different⟩ := behind other member
      rcases clash with none_lane | none_lane | same
      · exact keyed none_lane
      · have first := barrier none_lane
        rw [Nat.zero_add, List.length_eq_zero_iff] at first
        rw [first] at member
        contradiction
      · exact different same
    · contradiction
  · split at selected <;> cases selected

end KeyedSerialHandlerScheduler

namespace KeyedWorld

open KeyedSerialHandlerScheduler

/-- The parts that the scheduler's other callers leave to its producer. -/
structure SameAdmissions (before after : KeyedWorld) : Prop where
  blocked : after.blocked = before.blocked
  internalToken : after.scheduler.internalToken = before.scheduler.internalToken
  accepted : ∀ work, .accepted work ∈ after.history → .accepted work ∈ before.history

theorem foreign_sameAdmissions {before after : KeyedWorld} {label : KeyedLabel}
    (foreign : isForeignKeyed label = true) (stepped : before.step label = some after) :
    SameAdmissions before after := by
  cases label with
  | submit | resume | select => contradiction
  | start =>
      simp only [step, start] at stepped
      split at stepped
      · cases stepped
        exact ⟨rfl, rfl, fun _ => id⟩
      split at stepped
      · contradiction
      · cases stepped
        exact ⟨rfl, rfl, fun _ => id⟩
  | launch succeeds =>
      simp only [step, launchStep] at stepped
      split at stepped
      · contradiction
      · cases stepped
        exact ⟨rfl, rfl, fun _ => id⟩
      · cases stepped
        exact ⟨rfl, rfl, fun _ => id⟩
      · split at stepped <;> cases stepped <;> exact ⟨rfl, rfl, fun _ => id⟩
      · cases stepped
        exact ⟨rfl, rfl, fun _ => id⟩
  | thread index move =>
      simp only [step] at stepped
      split at stepped
      · contradiction
      split at stepped
      · contradiction
      next advanced =>
      cases stepped
      cases advance_cases advanced with
      | take taken =>
          obtain ⟨passed, rest, _, rfl, _⟩ := takeInternalWork_spec taken
          exact ⟨rfl, rfl, fun _ => id⟩
      | clear => exact ⟨rfl, rfl, fun _ member => by simpa using member⟩
      | _ => exact ⟨rfl, rfl, fun _ member => by simpa using member⟩
  | stopAccepting =>
      cases stepped
      exact ⟨rfl, rfl, fun _ => id⟩
  | drainTimeout =>
      simp only [step] at stepped
      split at stepped
      · contradiction
      · cases stepped
        exact ⟨rfl, rfl, fun _ => id⟩
  | stop calledFromCallback =>
      cases stepped
      exact ⟨rfl, rfl, fun _ => id⟩

end KeyedWorld

namespace PumpPc

/-- The entry that the pump has received and not yet handed on. -/
def held? : PumpPc → Option (Nat × SizedEvent)
  | .owning ref item | .submitting ref item | .blocked ref item => some (ref, item)
  | _ => none

def parked : PumpPc → List SizedEvent
  | .blocked _ item => [item]
  | _ => []

end PumpPc

namespace PumpWorld

variable {world before after : PumpWorld}

/-- The event handed on for an entry, and those still held or queued, follow the
queue's order wherever they clash. -/
structure OrderSound (world : PumpWorld) : Prop where
  parked : world.keyed.blocked = world.pump.parked
  received : ∀ entry ∈ world.handoffs,
    .received entry.1 { event := entry.2.event, size := entry.2.size } ∈ world.inbound.history ∧
      entry.2.context = scheduledContext? entry.2.event
  held : ∀ ref item, world.pump.held? = some (ref, item) →
    .received ref item ∈ world.inbound.history
  behind : ∀ entry ∈ world.handoffs, ∀ ref ∈ world.inbound.queue.queue, ref < entry.1 →
    ¬ Clash (world.inbound.queue.scheduledContextOf? ref) entry.2.context
  held_behind : ∀ held item, world.pump.held? = some (held, item) →
    (∀ ref ∈ world.inbound.queue.queue, ref < held →
      ¬ Clash (world.inbound.queue.scheduledContextOf? ref) (scheduledContext? item.event)) ∧
    ∀ entry ∈ world.handoffs, held < entry.1 →
      ¬ Clash (scheduledContext? item.event) entry.2.context
  ordered : world.handoffs.Pairwise fun newer older => older.2.token < newer.2.token ∧
    (newer.1 < older.1 → ¬ newer.2.Conflicts older.2)
  issued : ∀ entry ∈ world.handoffs, entry.2.token ≤ world.keyed.scheduler.internalToken
  handed : ∀ work, .accepted work ∈ world.keyed.history → ∃ ref, (ref, work) ∈ world.handoffs

/-- The composite state is made of reachable ones. -/
structure Composed (inbound : InboundConfig) (scheduler : SchedulerConfig) (world : PumpWorld) :
    Prop where
  inbound : (inboundSystem inbound).Reachable world.inbound
  keyed : (keyedSystem scheduler).Reachable world.keyed
  order : world.OrderSound

variable {inboundConfig : InboundConfig} {schedulerConfig : SchedulerConfig}

theorem received_allocated {inbound : InboundWorld} {ref : Nat} {item : SizedEvent}
    (reachable : (inboundSystem inboundConfig).Reachable inbound)
    (received : .received ref item ∈ inbound.history) : ref < inbound.queue.allocated := by
  have gone : ref ∈ removed inbound.history := List.mem_filterMap.mpr ⟨_, received, rfl⟩
  have entries := (InboundWorld.runSound reachable).entries
  exact List.mem_range.mp (entries.removals.subset (List.mem_append_right _ gone))

/-- Steps of the queue's producers keep the order. -/
theorem OrderSound.inbound_step (sound : before.OrderSound) {inbound : InboundWorld}
    (reachable : (inboundSystem inboundConfig).Reachable before.inbound)
    (transition : InboundWorld.Transition before.inbound inbound) :
    OrderSound { before with inbound } := by
  have linked := InboundWorld.linked reachable
  have advanced := transition.advanced linked
  obtain ⟨events, history⟩ := transition.history_suffix
  obtain ⟨added, sublist, _, bounds⟩ := advanced.queue
  have received_before : ∀ ref item, .received ref item ∈ before.inbound.history →
      ref < before.inbound.queue.allocated := fun _ _ => received_allocated reachable
  have kept : ∀ {ref limit : Nat} {context : Option Str}, limit < before.inbound.queue.allocated →
      (∀ ref ∈ before.inbound.queue.queue, ref < limit →
        ¬ Clash (before.inbound.queue.scheduledContextOf? ref) context) →
      ref ∈ inbound.queue.queue → ref < limit →
        ¬ Clash (inbound.queue.scheduledContextOf? ref) context := by
    intro ref limit context within clear member less
    rcases List.mem_append.mp (sublist.subset member) with member | member
    · rw [advanced.contexts ref (linked.allocated ref member)]
      exact clear ref member less
    · have bound := (bounds ref member).1
      omega
  have extended : ∀ {event : InboundEvent}, event ∈ before.inbound.history →
      event ∈ inbound.history := by
    intro event member
    rw [history]
    exact List.mem_append_right _ member
  constructor
  · exact sound.parked
  · exact fun entry member =>
      ⟨extended (sound.received entry member).1, (sound.received entry member).2⟩
  · exact fun ref item held => extended (sound.held ref item held)
  · intro entry member ref
    exact kept (received_before _ _ (sound.received entry member).1)
      (sound.behind entry member)
  · intro held item holds
    obtain ⟨queued, handed⟩ := sound.held_behind held item holds
    exact ⟨fun ref => kept (received_before _ _ (sound.held held item holds)) queued, handed⟩
  · exact sound.ordered
  · exact sound.issued
  · exact sound.handed

/-- Steps of the scheduler that admit nothing keep the order, and so do those
of the pump that neither receive nor hand on. -/
theorem OrderSound.keyed_step (sound : before.OrderSound) {keyed : KeyedWorld} {pump : PumpPc}
    {stopRequested : Bool} (parked : keyed.blocked = pump.parked)
    (token : keyed.scheduler.internalToken = before.keyed.scheduler.internalToken)
    (accepted : ∀ work, .accepted work ∈ keyed.history → .accepted work ∈ before.keyed.history)
    (holds : ∀ entry, pump.held? = some entry → before.pump.held? = some entry) :
    OrderSound { before with keyed, pump, stopRequested } := by
  constructor
  · exact parked
  · exact sound.received
  · exact fun ref item held => sound.held ref item (holds _ held)
  · exact sound.behind
  · exact fun ref item held => sound.held_behind ref item (holds _ held)
  · exact sound.ordered
  · intro entry member
    rw [token]
    exact sound.issued entry member
  · exact fun work member => sound.handed work (accepted work member)

/-- The pump receives an entry that clashes with none before it. -/
theorem OrderSound.receive (sound : before.OrderSound) {inbound : InboundWorld} {ref : Nat}
    {item : SizedEvent} {index : Nat} {keyed : KeyedWorld}
    (reachable : (inboundSystem inboundConfig).Reachable before.inbound)
    (entry : before.inbound.queue.queue[index]? = some ref)
    (received : before.inbound.receiveAt index = some (inbound, item))
    (polling : before.pump = .polling)
    (same : KeyedWorld.SameAdmissions before.keyed keyed)
    (overtakes : ∀ passed rest, before.inbound.queue.queue = passed ++ ref :: rest →
      passed.length = index → ∀ other ∈ passed,
        ¬ Clash (before.inbound.queue.scheduledContextOf? other)
          (before.inbound.queue.scheduledContextOf? ref)) :
    OrderSound { before with keyed, inbound, pump := .owning ref item } := by
  have ascending := InboundWorld.ascending reachable
  have stepped := sound.inbound_step reachable (.received received)
  obtain ⟨queue, taken_ref, taken, rfl, rfl⟩ := InboundWorld.receiveAt_spec received
  obtain ⟨within, here⟩ := List.getElem?_eq_some_iff.mp entry
  have split : before.inbound.queue.queue = before.inbound.queue.queue.take index ++
      ref :: before.inbound.queue.queue.drop (index + 1) := by
    rw [← here, ← List.drop_eq_getElem_cons within, List.take_append_drop]
  have length : (before.inbound.queue.queue.take index).length = index :=
    List.length_take_of_le (Nat.le_of_lt within)
  have same_ref : taken_ref = ref := by
    unfold InboundEventQueue.takeAt at taken
    rw [entry] at taken
    simp only [Option.some.injEq, Prod.mk.injEq] at taken
    exact taken.2.symm
  subst same_ref
  have member : taken_ref ∈ before.inbound.queue.queue := by
    rw [split]
    simp
  have clear := overtakes _ _ split length
  constructor
  · rw [same.blocked, sound.parked, polling]
    rfl
  · exact stepped.received
  · intro ref item held
    cases held
    exact List.mem_cons_self
  · exact stepped.behind
  · intro held item holds
    cases holds
    constructor
    · intro other queued less
      have linked := InboundWorld.linked reachable
      have advanced := (InboundWorld.Transition.received received).advanced linked
      obtain ⟨added, sublist, _, bounds⟩ := advanced.queue
      rcases List.mem_append.mp (sublist.subset queued) with queued | fresh
      · rw [advanced.contexts other (linked.allocated other queued)]
        refine clear other ?_
        rw [split] at queued ascending
        rcases List.mem_append.mp queued with passed | later
        · exact passed
        · have order := List.pairwise_append.mp ascending
          rcases List.mem_cons.mp later with rfl | later
          · exact absurd less (Nat.lt_irrefl _)
          · have after_ref := (List.pairwise_cons.mp order.2.1).1 other later
            omega
      · have bound := (bounds other fresh).1
        have born := linked.allocated taken_ref member
        omega
    · exact fun handed handed_mem less => sound.behind handed handed_mem taken_ref member less
  · exact sound.ordered
  · intro handed handed_mem
    rw [same.internalToken]
    exact sound.issued handed handed_mem
  · exact fun work accepted => sound.handed work (same.accepted work accepted)

/-- The scheduler accepts the event that the pump holds. -/
theorem OrderSound.accept (sound : before.OrderSound) {held : Nat} {item : SizedEvent}
    (holds : before.pump.held? = some (held, item)) :
    OrderSound { before with
      keyed := {
        scheduler := (before.keyed.scheduler.admitItem item).1
        threads := before.keyed.threads
        launching := before.keyed.launching
        blocked := []
        history := .accepted (before.keyed.scheduler.newWork item) :: before.keyed.history }
      pump := .polling
      handoffs := (held, before.keyed.scheduler.newWork item) :: before.handoffs } := by
  obtain ⟨queued, handed⟩ := sound.held_behind held item holds
  constructor
  · rfl
  · intro entry member
    rcases List.mem_cons.mp member with rfl | member
    · exact ⟨sound.held held item holds, rfl⟩
    · exact sound.received entry member
  · intro ref item impossible
    cases impossible
  · intro entry member
    rcases List.mem_cons.mp member with rfl | member
    · exact queued
    · exact sound.behind entry member
  · intro ref item impossible
    cases impossible
  · refine List.pairwise_cons.mpr ⟨?_, sound.ordered⟩
    intro entry member
    exact ⟨Nat.lt_succ_of_le (sound.issued entry member), handed entry member⟩
  · intro entry member
    rcases List.mem_cons.mp member with rfl | member
    · exact Nat.le_refl _
    · exact Nat.le_succ_of_le (sound.issued entry member)
  · intro work accepted
    simp only [List.mem_cons, KeyedEvent.accepted.injEq] at accepted
    rcases accepted with rfl | accepted
    · exact ⟨held, List.mem_cons_self⟩
    · obtain ⟨ref, member⟩ := sound.handed work accepted
      exact ⟨ref, List.mem_cons_of_mem _ member⟩

/-- What the pump's side makes of an admission, wherever it comes from. -/
theorem OrderSound.handOff (sound : before.OrderSound) {held : Nat} {item : SizedEvent}
    {decision : KeyedSerialHandlerScheduler × Admission}
    (holds : before.pump.held? = some (held, item))
    (decided : KeyedSerialHandlerScheduler.Admits before.keyed.scheduler item decision) :
    (before.handOff held item ({ before.keyed with blocked := [] }.admitted item decision)
      decision.2).OrderSound := by
  cases decided with
  | accepted => exact sound.accept holds
  | @refused next admission same unaccepted =>
      cases admission with
      | accepted work => exact absurd rfl (unaccepted work)
      | blocked =>
          refine sound.keyed_step rfl same.internalToken (fun _ => id) ?_
          intro entry kept
          rw [holds]
          exact kept
      | discarded | oversized =>
          refine sound.keyed_step rfl same.internalToken (fun _ => id) ?_
          intro entry impossible
          cases impossible

theorem Composed.poll (composed : before.Composed inboundConfig schedulerConfig)
    (polling : before.pump = .polling) (retainedSize : StreamDockEvent → Nat) :
    (before.poll retainedSize).Composed inboundConfig schedulerConfig := by
  obtain ⟨inbound, keyed, sound⟩ := composed
  have free : before.keyed.blocked = [] := by rw [sound.parked, polling]; rfl
  have idle : ∀ {pump : PumpPc}, pump.held? = none → ∀ entry, pump.held? = some entry →
      before.pump.held? = some entry := by
    intro pump nothing entry held
    rw [nothing] at held
    contradiction
  have halted : ∀ {stopRequested : Bool},
      OrderSound { before with pump := .stopped, stopRequested } :=
    sound.keyed_step free rfl (fun _ => id) (idle rfl)
  unfold PumpWorld.poll
  split
  · exact ⟨inbound, keyed, halted⟩
  split
  · split
    · exact ⟨inbound, keyed, sound⟩
    · exact ⟨inbound, keyed, halted⟩
  split
  · exact ⟨inbound, keyed, halted⟩
  next scheduler selected found =>
  have load := KeyedSerialHandlerScheduler.selectSizedEvent_sameLoad found
  have moved : (keyedSystem schedulerConfig).Reachable { before.keyed with scheduler } := by
    refine keyed.next (.select retainedSize before.offered) ?_
    simp only [keyedSystem, KeyedWorld.step, found]
  have same : KeyedWorld.SameAdmissions before.keyed { before.keyed with scheduler } :=
    ⟨rfl, load.internalToken, fun _ => id⟩
  dsimp only
  split
  · exact ⟨inbound, moved, sound.keyed_step sound.parked load.internalToken (fun _ => id)
      fun _ => id⟩
  next index =>
  split
  · next ref after item entry received =>
    have stepped : (inboundSystem inboundConfig).Reachable after := by
      refine inbound.next (.receive (some (.ofNat index))) ?_
      simp only [inboundSystem, InboundWorld.step, received]
    refine ⟨stepped, moved, sound.receive inbound entry received polling same ?_⟩
    intro passed rest split_ length other member
    rcases KeyedSerialHandlerScheduler.selectSizedEvent_overtakes found with
      rfl | ⟨front, chosen, back, offered, index_eq, clear⟩
    · rw [List.length_eq_zero_iff] at length
      rw [length] at member
      contradiction
    · have aligned : passed.map before.inbound.queue.objects = front ∧
          before.inbound.queue.objects ref = chosen := by
        unfold PumpWorld.offered at offered
        rw [split_, List.map_append, List.map_cons] at offered
        have parts := List.append_inj offered (by simp [length, index_eq])
        simp only [List.cons.injEq] at parts
        exact ⟨parts.1, parts.2.1⟩
      rw [← aligned.1, ← aligned.2] at clear
      exact clear _ (List.mem_map_of_mem member)
  · exact ⟨inbound, moved, sound.keyed_step free load.internalToken (fun _ => id) (idle rfl)⟩

theorem Composed.proceed (composed : before.Composed inboundConfig schedulerConfig)
    (stepped : before.proceed = some after) : after.Composed inboundConfig schedulerConfig := by
  obtain ⟨inbound, keyed, sound⟩ := composed
  unfold PumpWorld.proceed at stepped
  split at stepped
  · contradiction
  · contradiction
  · next ref item owning =>
    have free : before.keyed.blocked = [] := by rw [sound.parked, owning]; rfl
    split at stepped
    · cases stepped
      refine ⟨inbound, keyed, sound.keyed_step free rfl (fun _ => id) ?_⟩
      intro entry impossible
      cases impossible
    · cases stepped
      refine ⟨inbound, keyed, sound.keyed_step free rfl (fun _ => id) ?_⟩
      intro entry held
      rw [owning]
      exact held
  · next ref item submitting =>
    have free : before.keyed.blocked = [] := by rw [sound.parked, submitting]; rfl
    split at stepped
    · cases stepped
      refine ⟨inbound, keyed, sound.keyed_step free rfl (fun _ => id) ?_⟩
      intro entry impossible
      cases impossible
    · next decision submitted =>
      cases stepped
      have same : { before.keyed with blocked := [] } = before.keyed := by rw [← free]
      have order := sound.handOff (show before.pump.held? = some (ref, item) by rw [submitting]; rfl)
        (KeyedSerialHandlerScheduler.submitSized_cases submitted)
      rw [same] at order
      refine ⟨?_, ?_, order⟩
      · cases decision with
        | mk scheduler admission => cases admission <;> exact inbound
      · have moved : (keyedSystem schedulerConfig).Reachable
            (before.keyed.admitted item decision) := by
          refine keyed.next (.submit item) ?_
          simp only [keyedSystem, KeyedWorld.step, submitted]
        cases decision with
        | mk scheduler admission => cases admission <;> exact moved
  · next ref item blocked =>
    have parked : before.keyed.blocked = [item] := by rw [sound.parked, blocked]; rfl
    cases stepped
    have unparked : before.keyed.blocked.eraseIdx 0 = [] := by rw [parked]; rfl
    have order := sound.handOff (show before.pump.held? = some (ref, item) by rw [blocked]; rfl)
      (KeyedSerialHandlerScheduler.resumeSubmission_cases item)
    have moved : (keyedSystem schedulerConfig).Reachable
        ({ before.keyed with blocked := [] }.admitted item
          (before.keyed.scheduler.resumeSubmission item)) := by
      refine keyed.next (.resume 0) ?_
      have here : before.keyed.blocked[0]? = some item := by rw [parked]; rfl
      simp only [keyedSystem, KeyedWorld.step, here, unparked]
    rw [unparked]
    generalize before.keyed.scheduler.resumeSubmission item = decision at order moved ⊢
    refine ⟨?_, ?_, order⟩
    · cases decision with
      | mk scheduler admission => cases admission <;> exact inbound
    · cases decision with
      | mk scheduler admission => cases admission <;> exact moved

theorem Composed.step {label : PumpLabel} (composed : before.Composed inboundConfig schedulerConfig)
    (stepped : before.step label = some after) : after.Composed inboundConfig schedulerConfig := by
  cases label with
  | inbound label =>
      simp only [PumpWorld.step] at stepped
      split at stepped
      · simp only [Option.map_eq_some_iff] at stepped
        obtain ⟨inbound, moved, rfl⟩ := stepped
        exact ⟨.step composed.inbound trivial moved, composed.keyed,
          composed.order.inbound_step composed.inbound (InboundWorld.step_cases moved)⟩
      · contradiction
  | keyed label =>
      simp only [PumpWorld.step] at stepped
      split at stepped
      · next foreign =>
        simp only [Option.map_eq_some_iff] at stepped
        obtain ⟨keyed, moved, rfl⟩ := stepped
        have same := KeyedWorld.foreign_sameAdmissions foreign moved
        exact ⟨composed.inbound, .step composed.keyed trivial moved,
          composed.order.keyed_step (same.blocked.trans composed.order.parked)
            same.internalToken same.accepted fun _ => id⟩
      · contradiction
  | requestStop =>
      cases stepped
      exact ⟨composed.inbound, composed.keyed,
        composed.order.keyed_step composed.order.parked rfl (fun _ => id) fun _ => id⟩
  | poll retainedSize =>
      simp only [PumpWorld.step] at stepped
      split at stepped
      · next polling =>
        cases stepped
        exact composed.poll polling retainedSize
      · contradiction
  | proceed => exact composed.proceed stepped

theorem composed (reachable : (pumpSystem inboundConfig schedulerConfig).Reachable world) :
    world.Composed inboundConfig schedulerConfig := by
  refine reachable.invariant ?_ fun _ _ _ composed stepped => composed.step stepped
  rintro _ rfl
  refine ⟨.initial rfl, .initial rfl, ?_⟩
  constructor <;> simp [PumpPc.parked, PumpPc.held?]

/-- The queue keeps its entries in order, every accepted work comes from one
entry, and clashing entries that are both dispatched are completed in the
queue's order. -/
theorem inbound_order_preserved
    (reachable : (pumpSystem inboundConfig schedulerConfig).Reachable world) :
    world.inbound.queue.queue.Pairwise (· < ·) ∧
    (∀ work, .accepted work ∈ world.keyed.history → ∃ ref, (ref, work) ∈ world.handoffs) ∧
    (∀ entry ∈ world.handoffs,
      .received entry.1 { event := entry.2.event, size := entry.2.size } ∈ world.inbound.history ∧
        entry.2.context = scheduledContext? entry.2.event) ∧
    (∀ first ∈ world.handoffs, ∀ second ∈ world.handoffs, first.1 < second.1 →
      Clash (scheduledContext? first.2.event) (scheduledContext? second.2.event) →
      .dispatched first.2 ∈ world.keyed.history → ∀ newer older,
      world.keyed.history = newer ++ .dispatched second.2 :: older →
        (∃ reply, .returned first.2 reply ∈ older) ∧ .finished first.2 ∈ older) := by
  obtain ⟨inbound, keyed, sound⟩ := composed reachable
  refine ⟨InboundWorld.ascending inbound, sound.handed, sound.received, ?_⟩
  intro first first_mem second second_mem queued clash dispatched newer older split
  have conflict : first.2.Conflicts second.2 := by
    rw [← (sound.received first first_mem).2, ← (sound.received second second_mem).2] at clash
    exact clash
  have earlier : first.2.token < second.2.token := by
    obtain ⟨front, back, handoffs⟩ := List.append_of_mem second_mem
    have ordered := sound.ordered
    rw [handoffs] at first_mem ordered
    obtain ⟨_, behind, across⟩ := List.pairwise_append.mp ordered
    rcases List.mem_append.mp first_mem with later | member
    · exact absurd conflict ((across first later second List.mem_cons_self).2 queued)
    · rcases List.mem_cons.mp member with rfl | member
      · exact absurd queued (Nat.lt_irrefl _)
      · exact ((List.pairwise_cons.mp behind).1 first member).1
  exact (KeyedWorld.fateSound keyed).completed_before (KeyedWorld.orderSound keyed) split
    dispatched earlier conflict

end PumpWorld

def sampleInbound : InboundConfig where
  queueLimit := 4
  overflowPolicy := .dropNewest
  coalesceDialRotations := true
  byteLimit := 64
  queueLimit_pos := sampleConfig.pendingLimit_pos
  byteLimit_pos := sampleBytes_pos

/-- Both events are queued before the pump takes the first. -/
def pumpLabels : List PumpLabel := launchLabels.map .keyed ++
  ([.inbound (.submit (sampleItem ⟨[1]⟩).event 8 8 false),
    .inbound (.submit (sampleItem ⟨[1]⟩).event 8 8 false),
    .poll fun _ => 8, .proceed, .proceed, .poll fun _ => 8, .proceed, .proceed,
    .keyed (.thread 0 .proceed), .keyed (.thread 0 .proceed),
    .keyed (.thread 0 (.returns .handled)), .keyed (.thread 0 .proceed),
    .keyed (.thread 0 (.observed false)), .keyed (.thread 1 .proceed),
    .keyed (.thread 1 .proceed)] : List PumpLabel)

def pumpRun : Option PumpWorld :=
  (pumpSystem sampleInbound sampleConfig).exec {
    inbound := { queue := { config := sampleInbound } }
    keyed := { scheduler := { config := sampleConfig } } } pumpLabels

def pumpedWorld : PumpWorld := pumpRun.get (by decide +kernel)

theorem pumpedWorld_reachable : (pumpSystem sampleInbound sampleConfig).Reachable pumpedWorld :=
  System.Reachable.exec (.initial rfl) (Option.some_get _).symm

theorem pumpedWorld_handoffs :
    pumpedWorld.handoffs = [(1, sampleWork 2 ⟨[1]⟩), (0, sampleWork 1 ⟨[1]⟩)] := by
  cbv

theorem pumpedWorld_history :
    pumpedWorld.keyed.history = [.dispatched (sampleWork 2 ⟨[1]⟩),
      .finished (sampleWork 1 ⟨[1]⟩), .returned (sampleWork 1 ⟨[1]⟩) (.result .handled),
      .dispatched (sampleWork 1 ⟨[1]⟩), .accepted (sampleWork 2 ⟨[1]⟩),
      .accepted (sampleWork 1 ⟨[1]⟩)] := by
  cbv

theorem inbound_order_preserved_run :
    (∃ reply, .returned (sampleWork 1 ⟨[1]⟩) reply ∈ pumpedWorld.keyed.history.tail) ∧
      .finished (sampleWork 1 ⟨[1]⟩) ∈ pumpedWorld.keyed.history.tail := by
  refine (PumpWorld.inbound_order_preserved pumpedWorld_reachable).2.2.2
    (0, sampleWork 1 ⟨[1]⟩) ?_ (1, sampleWork 2 ⟨[1]⟩) ?_ (by decide) (.inr (.inr rfl)) ?_
    [] pumpedWorld.keyed.history.tail ?_
  · rw [pumpedWorld_handoffs]
    exact List.mem_cons_of_mem _ List.mem_cons_self
  · rw [pumpedWorld_handoffs]
    exact List.mem_cons_self
  · rw [pumpedWorld_history]
    simp
  · rw [pumpedWorld_history]
    rfl

end StreamDockSdk.Runtime
