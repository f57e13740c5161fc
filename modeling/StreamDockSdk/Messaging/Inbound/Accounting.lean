import Mathlib.Algebra.GroupWithZero.Nat
import StreamDockSdk.Messaging.Inbound.Index

namespace StreamDockSdk.Messaging

open Automaton

namespace InboundEventQueue

variable {queue next room : InboundEventQueue} {ref undecided : Nat} {call : SubmitCall}

def retainedBytes (queue : InboundEventQueue) : Nat :=
  (queue.queue.map fun ref => (queue.objects ref).size).sum

/-- The counters account for every call but the undecided ones, and the byte
count and the depth are exact and within their limits. -/
structure Accounted (queue : InboundEventQueue) (undecided : Nat) : Prop where
  calls : queue.submitted = undecided + queue.queue.length + queue.dequeued + queue.coalesced +
    queue.droppedNewest + queue.droppedOldest + queue.rejectedFull + queue.rejectedAfterShutdown +
    queue.rejectedOversized + queue.discardedDuringShutdown
  receipts : queue.dequeued = queue.inFlight + queue.acknowledged
  bytes : queue.currentBytes = queue.retainedBytes
  budget : queue.currentBytes ≤ queue.config.byteLimit
  depth : queue.queue.length ≤ queue.config.queueLimit

/-- The numbers that removing an entry leaves. -/
theorem Accounted.removed {passed rest : List Nat} (sound : queue.Accounted undecided)
    (split : queue.queue = passed ++ ref :: rest) :
    queue.currentBytes - (queue.objects ref).size =
        ((passed ++ rest).map fun entry => (queue.objects entry).size).sum ∧
      queue.currentBytes - (queue.objects ref).size ≤ queue.config.byteLimit ∧
      (passed ++ rest).length ≤ queue.config.queueLimit ∧
      queue.queue.length = (passed ++ rest).length + 1 := by
  obtain ⟨_, _, bytes, budget, depth⟩ := sound
  unfold retainedBytes at bytes
  rw [split] at bytes depth
  simp only [List.map_append, List.map_cons, List.sum_append, List.sum_cons, List.length_append,
    List.length_cons] at bytes depth
  rw [split]
  simp only [List.map_append, List.sum_append, List.length_append, List.length_cons]
  omega

theorem eraseIdx_split {entries passed rest : List Nat} (split : entries = passed ++ ref :: rest) :
    entries.eraseIdx passed.length = passed ++ rest := by
  rw [split, List.eraseIdx_append_of_length_le (Nat.le_refl _)]
  simp

theorem Accounted.drop (sound : queue.Accounted undecided)
    (dropped : queue.dropQueuedRotation = some (next, ref)) : next.Accounted undecided := by
  obtain ⟨passed, rest, split, _, rfl⟩ := dropQueuedRotation_spec dropped
  obtain ⟨bytes, budget, depth, length⟩ := sound.removed split
  have calls := sound.calls
  rw [removeAt_eq, eraseIdx_split split]
  unfold countDropped
  dsimp only
  cases queue.config.overflowPolicy <;>
    exact ⟨by dsimp only; omega, sound.receipts, bytes, budget, depth⟩

theorem Accounted.take {index : Nat} (sound : queue.Accounted undecided)
    (taken : queue.takeAt index = some (next, ref)) : next.Accounted undecided := by
  obtain ⟨passed, rest, split, rfl⟩ := takeAt_spec taken
  obtain ⟨bytes, budget, depth, length⟩ := sound.removed split
  have calls := sound.calls
  have receipts := sound.receipts
  rw [removeAt_eq, eraseIdx_split split]
  exact ⟨by dsimp only; omega, by dsimp only; omega, bytes, budget, depth⟩

theorem Accounted.enqueue (sound : queue.Accounted (undecided + 1)) (linked : queue.Linked)
    (fits : queue.isFull call.size = false) :
    (queue.enqueue call).queue.Accounted undecided := by
  simp only [isFull, Bool.or_eq_false_iff, decide_eq_false_iff_not] at fits
  have calls := sound.calls
  have same : (queue.queue.map fun entry => (Function.update queue.objects queue.allocated
      { event := call.submission.event, size := call.size } entry).size) =
      queue.queue.map fun entry => (queue.objects entry).size := by
    refine List.map_congr_left fun entry member => ?_
    rw [Function.update_of_ne (Nat.ne_of_lt (linked.allocated entry member))]
  constructor
  · simp only [InboundEventQueue.enqueue, List.length_append, List.length_singleton]
    omega
  · exact sound.receipts
  · simp only [retainedBytes, InboundEventQueue.enqueue, List.map_append, List.map_singleton,
      List.sum_append, List.sum_singleton, Function.update_self, same]
    rw [sound.bytes]
    rfl
  · simp only [InboundEventQueue.enqueue]
    omega
  · simp only [InboundEventQueue.enqueue, List.length_append, List.length_singleton]
    omega

theorem sum_update {entries : List Nat} (objects : Nat → SizedEvent) (item : SizedEvent)
    (distinct : entries.Nodup) (member : ref ∈ entries) :
    (entries.map fun entry => (Function.update objects ref item entry).size).sum +
        (objects ref).size =
      (entries.map fun entry => (objects entry).size).sum + item.size := by
  induction entries with
  | nil => contradiction
  | cons head rest ih =>
      obtain ⟨apart, distinct⟩ := List.nodup_cons.mp distinct
      simp only [List.map_cons, List.sum_cons]
      rcases List.mem_cons.mp member with rfl | member
      · have same : (rest.map fun entry => (Function.update objects ref item entry).size) =
            rest.map fun entry => (objects entry).size := by
          refine List.map_congr_left fun entry later => ?_
          rw [Function.update_of_ne]
          rintro rfl
          exact apart later
        rw [same, Function.update_self]
        omega
      · have different : head ≠ ref := by
          rintro rfl
          exact apart member
        have tail := ih distinct member
        rw [Function.update_of_ne different]
        omega

theorem Accounted.coalesce {event : StreamDockEvent} {replacementSize : Nat}
    (sound : queue.Accounted (undecided + 1)) (linked : queue.Linked)
    (merged : queue.coalesce event replacementSize = some (next, ref)) :
    { next with coalesced := next.coalesced + 1 }.Accounted undecided := by
  obtain ⟨rotation, previous, _, held, points, _, within, rfl⟩ := coalesce_spec merged
  have member := (linked.pointed _ _ points).1
  have calls := sound.calls
  have bytes := sound.bytes
  have updated := sum_update queue.objects {
    event := .dialRotate { rotation with ticks := previous.ticks + rotation.ticks }
    size := replacementSize } linked.distinct member
  have counted : (queue.objects ref).size ≤ queue.retainedBytes := by
    obtain ⟨passed, rest, split⟩ := List.append_of_mem member
    unfold retainedBytes
    rw [split]
    simp only [List.map_append, List.map_cons, List.sum_append, List.sum_cons]
    omega
  constructor
  · dsimp only
    omega
  · exact sound.receipts
  · unfold retainedBytes at bytes counted ⊢
    dsimp only at updated ⊢
    omega
  · exact within
  · exact sound.depth

theorem Accounted.break (sound : queue.Accounted undecided) (event : StreamDockEvent) :
    (queue.breakContextCoalescing event).Accounted undecided := by
  rw [breakContextCoalescing_eq]
  exact ⟨sound.calls, sound.receipts, sound.bytes, sound.budget, sound.depth⟩

theorem Evicts.accounted {events : List InboundEvent} (evicts : Evicts queue events room)
    (sound : queue.Accounted undecided) : room.Accounted undecided := by
  induction evicts with
  | done => exact sound
  | drop dropped _ ih => exact ih (sound.drop dropped)

/-- The call is decided, unless it waits. -/
theorem Decides.accounted {result : SubmitResult} (decides : Decides room call result)
    (linked : room.Linked) (sound : room.Accounted (undecided + 1)) :
    result.queue.Accounted (undecided + if result.waits then 1 else 0) := by
  obtain ⟨calls, receipts, bytes, budget, depth⟩ := sound
  cases decides with
  | enqueue fits => exact Accounted.enqueue ⟨calls, receipts, bytes, budget, depth⟩ linked fits
  | dropNewest =>
      have counted : Accounted { room with droppedNewest := room.droppedNewest + 1 } undecided :=
        ⟨by dsimp only; omega, receipts, bytes, budget, depth⟩
      exact counted.break _
  | rejectFull =>
      have counted : Accounted { room with rejectedFull := room.rejectedFull + 1 } undecided :=
        ⟨by dsimp only; omega, receipts, bytes, budget, depth⟩
      exact counted.break _
  | wait => exact ⟨calls, receipts, bytes, budget, depth⟩

theorem Settles.accounted {result : SubmitResult} (settles : Settles queue call result)
    (linked : queue.Linked) (sound : queue.Accounted (undecided + 1)) :
    result.queue.Accounted (undecided + if result.waits then 1 else 0) := by
  have rejected : Accounted
      { queue with rejectedAfterShutdown := queue.rejectedAfterShutdown + 1 } undecided := by
    obtain ⟨calls, receipts, bytes, budget, depth⟩ := sound
    exact ⟨by dsimp only; omega, receipts, bytes, budget, depth⟩
  have oversized : Accounted
      { queue with rejectedOversized := queue.rejectedOversized + 1 } undecided := by
    obtain ⟨calls, receipts, bytes, budget, depth⟩ := sound
    exact ⟨by dsimp only; omega, receipts, bytes, budget, depth⟩
  cases settles with
  | closed => exact rejected
  | closedWaiting => exact rejected.break _
  | oversized => exact oversized.break _
  | coalesce _ merged => exact sound.coalesce linked merged
  | decide _ evicts decides =>
      exact decides.accounted (evicts.linked linked) (evicts.accounted sound)

end InboundEventQueue

namespace InboundWorld

open InboundEventQueue

variable {world before after : InboundWorld} {call : SubmitCall} {result : SubmitResult}

theorem settle_waiting (world : InboundWorld) (call : SubmitCall) (result : SubmitResult) :
    (world.settle call result).waiting.length =
      world.waiting.length + if result.waits then 1 else 0 := by
  unfold settle
  dsimp only
  split <;> simp

theorem Transition.accounted (transition : Transition before after) (linked : before.queue.Linked)
    (sound : before.queue.Accounted before.waiting.length) :
    after.queue.Accounted after.waiting.length := by
  cases transition with
  | submitted _ settles =>
      obtain ⟨calls, receipts, bytes, budget, depth⟩ := sound
      rw [settle_waiting]
      exact settles.accounted (linked.frame (by constructor <;> rfl))
        ⟨by dsimp only; omega, receipts, bytes, budget, depth⟩
  | @resumed index call result found settles =>
      have within := (List.getElem?_eq_some_iff.mp found).1
      have length : before.waiting.length = (before.waiting.eraseIdx index).length + 1 := by
        rw [List.length_eraseIdx_of_lt within]
        omega
      rw [settle_waiting]
      exact settles.accounted linked (length ▸ sound)
  | received received =>
      obtain ⟨queue, ref, taken, _, rfl⟩ := receiveAt_spec received
      exact sound.take taken
  | acknowledged acknowledged =>
      unfold taskDone at acknowledged
      split at acknowledged
      · contradiction
      · cases acknowledged
        have receipts := sound.receipts
        exact ⟨sound.calls, by dsimp only; omega, sound.bytes, sound.budget, sound.depth⟩
  | bookkeeping => exact ⟨sound.calls, sound.receipts, sound.bytes, sound.budget, sound.depth⟩
  | discarded =>
      have calls := sound.calls
      refine ⟨?_, sound.receipts, rfl, Nat.zero_le _, Nat.zero_le _⟩
      simp only [discardQueued, List.length_nil]
      omega

theorem accounted {config : InboundConfig} {world : InboundWorld}
    (reachable : (inboundSystem config).Reachable world) :
    world.queue.Accounted world.waiting.length := by
  refine reachable.invariant_given (fun world => world.queue.Linked)
    (motive := fun world => world.queue.Accounted world.waiting.length)
    (fun _ => linked) ?_
    fun _ _ _ linked sound stepped => (step_cases stepped).accounted linked sound
  rintro _ rfl
  exact ⟨rfl, rfl, rfl, Nat.zero_le _, Nat.zero_le _⟩

end InboundWorld

end StreamDockSdk.Messaging
