import Mathlib.Data.List.Basic
import StreamDockSdk.Messaging.Inbound

namespace StreamDockSdk.Messaging

open Automaton

namespace InboundEventQueue

variable {queue next room : InboundEventQueue} {ref : Nat} {call : SubmitCall}

theorem findIdx?_split {entries : List Nat} {wanted : Nat → Bool} {index : Nat}
    (found : entries.findIdx? wanted = some index) :
    ∃ passed rest, entries = passed ++ rest ∧ passed.length = index ∧
      ∃ entry tail, rest = entry :: tail ∧ wanted entry = true := by
  obtain ⟨within, matching, _⟩ := List.findIdx?_eq_some_iff_getElem.mp found
  refine ⟨entries.take index, entries.drop index, (List.take_append_drop _ _).symm,
    List.length_take_of_le (Nat.le_of_lt within), entries[index], entries.drop (index + 1), ?_,
    matching⟩
  exact List.drop_eq_getElem_cons within

/-- The search stops at a queued rotation, if there is one. -/
theorem rotationIndex?_spec {index : Nat} (found : queue.rotationIndex? = some index) :
    ∃ passed ref rest, queue.queue = passed ++ ref :: rest ∧ passed.length = index ∧
      queue.isRotation ref = true := by
  unfold rotationIndex? at found
  cases policy : queue.config.overflowPolicy with
  | dropOldest =>
      rw [policy] at found
      obtain ⟨passed, rest, split, length, ref, tail, rfl, rotation⟩ := findIdx?_split found
      exact ⟨passed, ref, tail, split, length, rotation⟩
  | dropNewest =>
      rw [policy] at found
      simp only [Option.map_eq_some_iff] at found
      obtain ⟨offset, found, rfl⟩ := found
      obtain ⟨passed, rest, split, length, ref, tail, rfl, rotation⟩ := findIdx?_split found
      refine ⟨tail.reverse, ref, passed.reverse, ?_, ?_, rotation⟩
      · rw [← List.reverse_reverse queue.queue, split]
        simp
      · have total := congrArg List.length split
        simp only [List.length_reverse, List.length_append, List.length_cons] at total ⊢
        omega

theorem rotationIndex?_none (missing : queue.rotationIndex? = none) :
    ∀ ref ∈ queue.queue, queue.isRotation ref = false := by
  unfold rotationIndex? at missing
  intro ref member
  cases policy : queue.config.overflowPolicy with
  | dropOldest =>
      rw [policy] at missing
      exact List.findIdx?_eq_none_iff.mp missing ref member
  | dropNewest =>
      rw [policy] at missing
      simp only [Option.map_eq_none_iff] at missing
      exact List.findIdx?_eq_none_iff.mp missing ref (List.mem_reverse.mpr member)

theorem dropQueuedRotation_spec (dropped : queue.dropQueuedRotation = some (next, ref)) :
    ∃ passed rest, queue.queue = passed ++ ref :: rest ∧ queue.isRotation ref = true ∧
      next = (queue.removeAt passed.length ref).countDropped := by
  unfold dropQueuedRotation at dropped
  split at dropped
  · contradiction
  next found =>
  obtain ⟨passed, entry, rest, split, rfl, rotation⟩ := rotationIndex?_spec found
  have here : queue.queue[passed.length]? = some entry := by simp [split]
  rw [here] at dropped
  simp only [Option.some.injEq, Prod.mk.injEq] at dropped
  obtain ⟨rfl, rfl⟩ := dropped
  exact ⟨passed, rest, split, rotation, rfl⟩

theorem dropQueuedRotation_none (kept : queue.dropQueuedRotation = none) :
    ∀ ref ∈ queue.queue, queue.isRotation ref = false := by
  unfold dropQueuedRotation at kept
  split at kept
  · next missing => exact rotationIndex?_none missing
  next found =>
  obtain ⟨passed, entry, rest, split, rfl, _⟩ := rotationIndex?_spec found
  have here : queue.queue[passed.length]? = some entry := by simp [split]
  simp [here] at kept

/-- The evictions of one pass of the waiting loop; their events newest first. -/
inductive Evicts : InboundEventQueue → List InboundEvent → InboundEventQueue → Prop
  | done (queue : InboundEventQueue) : Evicts queue [] queue
  | drop {queue next room : InboundEventQueue} {ref : Nat} {events : List InboundEvent} :
      queue.dropQueuedRotation = some (next, ref) → Evicts next events room →
      Evicts queue (events ++ [.evicted ref (queue.objects ref)]) room

/-- How the waiting loop of `submit` ends once it evicts no more. -/
inductive Decides (room : InboundEventQueue) (call : SubmitCall) : SubmitResult → Prop
  | enqueue : room.isFull call.size = false → Decides room call (room.enqueue call)
  | dropNewest : call.submission.event.isDialRotate = true → Decides room call
      ({ room with droppedNewest := room.droppedNewest + 1 }.refuse call.submission)
  | rejectFull : Decides room call
      ({ room with rejectedFull := room.rejectedFull + 1 }.refuse call.submission)
  | wait (count : Nat) : call.submission.event.isDialRotate = false →
      (∀ ref ∈ room.queue, room.isRotation ref = false) → Decides room call {
        queue := { room with backpressured := room.backpressured + count }
        events := []
        waits := true }

theorem removeAt_queue (index : Nat) :
    (queue.removeAt index ref).queue = queue.queue.eraseIdx index := by
  unfold removeAt forgetQueuedEvent
  split
  · rfl
  · split <;> rfl

theorem countDropped_queue : queue.countDropped.queue = queue.queue := by
  unfold countDropped
  cases queue.config.overflowPolicy <;> rfl

theorem dropQueuedRotation_length (dropped : queue.dropQueuedRotation = some (next, ref)) :
    next.queue.length + 1 = queue.queue.length := by
  obtain ⟨passed, rest, split, _, rfl⟩ := dropQueuedRotation_spec dropped
  rw [countDropped_queue, removeAt_queue, split, List.eraseIdx_append_of_length_le (Nat.le_refl _)]
  simp [Nat.add_assoc]

theorem admitCall_cases (queue : InboundEventQueue) (call : SubmitCall) (expired firstWait : Bool)
    {turns : Nat} (enough : queue.queue.length ≤ turns) :
    ∃ evictions room result, Evicts queue evictions room ∧ Decides room call result ∧
      admitCall call expired firstWait turns queue =
        { result with events := result.events ++ evictions } := by
  have stop : ∀ {result : SubmitResult}, Decides queue call result →
      ∃ evictions room result', Evicts queue evictions room ∧ Decides room call result' ∧
        result = { result' with events := result'.events ++ evictions } := by
    intro result decides
    exact ⟨[], queue, result, .done queue, decides, by simp⟩
  induction turns generalizing queue with
  | zero =>
      have empty : queue.queue = [] := List.length_eq_zero_iff.mp (Nat.le_zero.mp enough)
      unfold admitCall
      dsimp only
      split
      · next room => exact stop (.enqueue (by simpa using room))
      split
      · next refused =>
        simp only [Bool.and_eq_true] at refused
        exact stop (.dropNewest refused.1)
      split
      · next rotation => exact stop (.dropNewest rotation)
      split
      · exact stop .rejectFull
      · next keyed _ => exact stop (.wait _ (by simpa using keyed) (by simp [empty]))
  | succ turns ih =>
      unfold admitCall
      dsimp only
      split
      · next room => exact stop (.enqueue (by simpa using room))
      split
      · next refused =>
        simp only [Bool.and_eq_true] at refused
        exact stop (.dropNewest refused.1)
      cases dropped : queue.dropQueuedRotation with
      | some pair =>
          obtain ⟨next, ref⟩ := pair
          have shorter := dropQueuedRotation_length dropped
          obtain ⟨evictions, room, result, evicts, decides, equal⟩ :=
            ih next (by omega)
              fun decides => ⟨[], next, _, .done next, decides, by simp⟩
          refine ⟨evictions ++ [.evicted ref (queue.objects ref)], room, result,
            .drop dropped evicts, decides, ?_⟩
          dsimp only
          rw [equal]
          simp
      | none =>
          dsimp only
          split
          · next rotation => exact stop (.dropNewest rotation)
          split
          · exact stop .rejectFull
          · next keyed _ =>
            exact stop (.wait _ (by simpa using keyed) (dropQueuedRotation_none dropped))

/-- How a call of `submit` gets on in one locked region.  A new call has
already been counted. -/
inductive Settles (queue : InboundEventQueue) (call : SubmitCall) : SubmitResult → Prop
  | closed : queue.accepting = false → Settles queue call {
      queue := { queue with rejectedAfterShutdown := queue.rejectedAfterShutdown + 1 }
      events := [.refused call.submission] }
  | closedWaiting : queue.accepting = false → Settles queue call
      ({ queue with rejectedAfterShutdown := queue.rejectedAfterShutdown + 1 }.refuse
        call.submission)
  | oversized : Settles queue call
      ({ queue with rejectedOversized := queue.rejectedOversized + 1 }.refuse call.submission)
  | coalesce {merged : InboundEventQueue} {entry replacementSize : Nat} :
      queue.accepting = true →
      queue.coalesce call.submission.event replacementSize = some (merged, entry) →
      Settles queue call {
        queue := { merged with coalesced := merged.coalesced + 1 }
        events := [.coalesced call.submission entry] }
  | decide {emptied : InboundEventQueue} {evictions : List InboundEvent} {result : SubmitResult} :
      queue.accepting = true → Evicts queue evictions emptied → Decides emptied call result →
      Settles queue call { result with events := result.events ++ evictions }

theorem submit_cases (queue : InboundEventQueue) (call : SubmitCall) (replacementSize : Nat)
    (expired : Bool) :
    Settles { queue with submitted := queue.submitted + 1 } call
      (queue.submit call replacementSize expired) := by
  unfold submit
  dsimp only
  split
  · next closed =>
    refine .closed ?_
    simpa using closed
  next open_ =>
  have accepting : queue.accepting = true := by simpa using open_
  split
  · exact .oversized
  split
  · next merged => exact .coalesce accepting merged
  · obtain ⟨evictions, room, result, evicts, decides, equal⟩ :=
      admitCall_cases { queue with submitted := queue.submitted + 1 } call expired true
        (Nat.le_refl _)
    rw [equal]
    exact .decide accepting evicts decides

theorem resumeSubmit_cases (queue : InboundEventQueue) (call : SubmitCall) (expired : Bool) :
    Settles queue call (queue.resumeSubmit call expired) := by
  unfold resumeSubmit
  split
  · next closed =>
    refine .closedWaiting ?_
    simpa using closed
  next open_ =>
  obtain ⟨evictions, room, result, evicts, decides, equal⟩ :=
    admitCall_cases queue call expired false (Nat.le_refl _)
  rw [equal]
  exact .decide (by simpa using open_) evicts decides

/-- Everything `_coalesce` guarantees when it takes the rotation. -/
theorem coalesce_spec {event : StreamDockEvent} {replacementSize : Nat}
    (merged : queue.coalesce event replacementSize = some (next, ref)) :
    ∃ rotation previous, event = .dialRotate rotation ∧
      (queue.objects ref).event = .dialRotate previous ∧
      queue.lastQueuedByContext rotation.context = some ref ∧
      sameRotation previous rotation = true ∧
      queue.currentBytes - (queue.objects ref).size + replacementSize ≤ queue.config.byteLimit ∧
      next = { queue with
        objects := Function.update queue.objects ref
          { event := .dialRotate { rotation with ticks := previous.ticks + rotation.ticks }
            size := replacementSize }
        currentBytes := queue.currentBytes - (queue.objects ref).size + replacementSize
        peakBytes := max queue.peakBytes
          (queue.currentBytes - (queue.objects ref).size + replacementSize) } := by
  unfold coalesce at merged
  split at merged
  · next rotation =>
    split at merged
    · contradiction
    split at merged
    · contradiction
    next entry pointed =>
    split at merged
    · next previous held =>
      dsimp only at merged
      split at merged
      · contradiction
      next same =>
      split at merged
      · contradiction
      next within =>
      simp only [Option.some.injEq, Prod.mk.injEq] at merged
      obtain ⟨rfl, rfl⟩ := merged
      exact ⟨rotation, previous, rfl, held, pointed, by simpa using same, by omega, rfl⟩
    · contradiction
  · contradiction

theorem takeAt_spec {index : Nat} (taken : queue.takeAt index = some (next, ref)) :
    ∃ passed rest, queue.queue = passed ++ ref :: rest ∧
      next = { queue.removeAt passed.length ref with
        dequeued := (queue.removeAt passed.length ref).dequeued + 1
        inFlight := (queue.removeAt passed.length ref).inFlight + 1 } := by
  unfold takeAt at taken
  split at taken
  · contradiction
  next entry found =>
  simp only [Option.some.injEq, Prod.mk.injEq] at taken
  obtain ⟨rfl, rfl⟩ := taken
  obtain ⟨within, here⟩ := List.getElem?_eq_some_iff.mp found
  have length : (queue.queue.take index).length = index :=
    List.length_take_of_le (Nat.le_of_lt within)
  refine ⟨queue.queue.take index, queue.queue.drop (index + 1), ?_, by rw [length]⟩
  rw [← here, ← List.drop_eq_getElem_cons within, List.take_append_drop]

end InboundEventQueue

namespace InboundWorld

open InboundEventQueue

inductive Transition (before : InboundWorld) : InboundWorld → Prop
  | submitted {call : SubmitCall} {result : SubmitResult} :
      call.submission.number = before.queue.submitted + 1 →
      Settles { before.queue with submitted := before.queue.submitted + 1 } call result →
      Transition before
        ({ before with history := .submitted call.submission :: before.history }.settle call result)
  | resumed {index : Nat} {call : SubmitCall} {result : SubmitResult} :
      before.waiting[index]? = some call → Settles before.queue call result →
      Transition before
        ({ before with waiting := before.waiting.eraseIdx index }.settle call result)
  | received {after : InboundWorld} {index : Nat} {item : SizedEvent} :
      before.receiveAt index = some (after, item) → Transition before after
  | acknowledged {queue : InboundEventQueue} : before.queue.taskDone = some queue →
      Transition before { before with queue }
  | bookkeeping {accepting : Bool} {draining discarding : Nat} :
      (accepting = true → before.queue.accepting = true) →
      Transition before { before with
        queue := { before.queue with accepting }
        draining
        discarding }
  | discarded {discarding : Nat} : Transition before { before with
      queue := before.queue.discardQueued
      discarding
      history := (before.queue.queue.map .discarded).reverse ++ before.history }

theorem step_cases {before after : InboundWorld} {label : InboundLabel}
    (stepped : before.step label = some after) : Transition before after := by
  have unchanged : Transition before before := @Transition.bookkeeping before _ _ _ id
  cases label with
  | submit event size replacementSize expired =>
      cases stepped
      exact .submitted rfl (submit_cases _ _ _ _)
  | resume index expired =>
      simp only [step] at stepped
      split at stepped
      · contradiction
      next found =>
      cases stepped
      exact .resumed found (resumeSubmit_cases _ _ _)
  | receive selected =>
      cases selected with
      | none =>
          cases stepped
          exact unchanged
      | some index =>
          cases index with
          | negSucc index =>
              cases stepped
              exact unchanged
          | ofNat index =>
              simp only [step] at stepped
              split at stepped
              · cases stepped
                exact unchanged
              next received =>
              cases stepped
              exact .received received
  | taskDone =>
      simp only [step] at stepped
      split at stepped
      · cases stepped
        exact unchanged
      next acknowledged =>
      cases stepped
      exact .acknowledged acknowledged
  | stopAccepting =>
      cases stepped
      exact .bookkeeping nofun
  | shutdown =>
      cases stepped
      exact .bookkeeping nofun
  | drained | drainTimeout =>
      simp only [step] at stepped
      split at stepped
      · cases stepped
        exact @Transition.bookkeeping before before.queue.accepting _ _ id
      · contradiction
  | discard =>
      simp only [step] at stepped
      split at stepped
      · cases stepped
        exact .discarded
      · contradiction

end InboundWorld

end StreamDockSdk.Messaging
