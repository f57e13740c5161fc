import Mathlib.Algebra.Order.BigOperators.Group.List
import Mathlib.Algebra.Order.Group.Nat
import StreamDockSdk.Messaging.Inbound.Refinement

namespace StreamDockSdk.Messaging

open Automaton

namespace InboundEventQueue

variable (queue : InboundEventQueue)

/-- The entries that neither policy evicts. -/
def lossless : List Nat := queue.queue.filter fun ref => !queue.isRotation ref

def losslessBytes : Nat :=
  (queue.lossless.map fun ref => (queue.objects ref).size).sum

/-- The loop of `submit` evicts the queued rotations one by one although the other
entries leave no room for the new one. -/
def evictsInVain (rotation : DialRotateEvent) (size replacementSize : Nat) : Bool :=
  queue.accepting && decide (size ≤ queue.config.byteLimit) &&
    (queue.coalesce (.dialRotate rotation) replacementSize).isNone &&
    decide (queue.config.overflowPolicy = .dropOldest) && queue.queue.any queue.isRotation &&
    decide (queue.config.byteLimit < queue.losslessBytes + size)

/-- The entries, their order and the byte total. -/
structure SameEntries (before after : InboundEventQueue) : Prop where
  queue : after.queue = before.queue
  items : ∀ ref ∈ before.queue, after.objects ref = before.objects ref
  bytes : after.currentBytes = before.currentBytes

variable {queue} {room : InboundEventQueue} {call : SubmitCall} {events : List InboundEvent}
variable {submission : Submission}

/-- What the evictions of one pass leave alone. -/
structure Thinned (before after : InboundEventQueue) : Prop where
  objects : after.objects = before.objects
  config : after.config = before.config
  entries : after.queue.Sublist before.queue
  lossless : after.lossless = before.lossless

theorem thinned_drop {next : InboundEventQueue} {ref : Nat}
    (dropped : queue.dropQueuedRotation = some (next, ref)) : Thinned queue next := by
  obtain ⟨passed, rest, split, rotation, rfl⟩ := dropQueuedRotation_spec dropped
  have same := (@countDropped_sameContents (queue.removeAt passed.length ref))
  have objects : (queue.removeAt passed.length ref).countDropped.objects = queue.objects := by
    rw [same.objects, removeAt_eq]
  have entries : (queue.removeAt passed.length ref).countDropped.queue = passed ++ rest := by
    rw [countDropped_queue, removeAt_queue, eraseIdx_split split]
  refine ⟨objects, ?_, ?_, ?_⟩
  · rw [same.config, removeAt_eq]
  · rw [entries, split]
    exact (List.Sublist.refl passed).append (List.sublist_cons_self ref rest)
  · unfold InboundEventQueue.lossless isRotation
    rw [objects, entries, split]
    have evicted : (queue.objects ref).event.isDialRotate = true := rotation
    simp [List.filter_append, evicted]

theorem Evicts.thinned (evicts : Evicts queue events room) : Thinned queue room := by
  induction evicts with
  | done => exact ⟨rfl, rfl, .refl _, rfl⟩
  | drop dropped _ ih =>
      have first := thinned_drop dropped
      exact ⟨ih.objects.trans first.objects, ih.config.trans first.config,
        ih.entries.trans first.entries, ih.lossless.trans first.lossless⟩

theorem Evicts.spared (evicts : Evicts queue events room)
    (keyed : ∀ ref ∈ queue.queue, queue.isRotation ref = false) : room = queue := by
  cases evicts with
  | done => rfl
  | drop dropped =>
      obtain ⟨passed, rest, split, rotation, _⟩ := dropQueuedRotation_spec dropped
      rw [keyed _ (by simp [split])] at rotation
      contradiction

/-- Under `DROP_OLDEST` a rotation is refused only after the last queued one was evicted. -/
theorem admitCall_dropOldest (queue : InboundEventQueue) (call : SubmitCall)
    (expired firstWait : Bool) (policy : queue.config.overflowPolicy = .dropOldest)
    (rotation : call.submission.event.isDialRotate = true) {turns : Nat}
    (enough : queue.queue.length ≤ turns) :
    ∃ evictions room, Evicts queue evictions room ∧
      ((room.isFull call.size = false ∧ admitCall call expired firstWait turns queue =
          { room.enqueue call with events := (room.enqueue call).events ++ evictions }) ∨
        ((∀ ref ∈ room.queue, room.isRotation ref = false) ∧ room.isFull call.size = true ∧
          admitCall call expired firstWait turns queue =
            { ({ room with droppedNewest := room.droppedNewest + 1 }.refuse call.submission) with
              events := .refused call.submission :: evictions })) := by
  induction turns generalizing queue with
  | zero =>
      have empty : queue.queue = [] := List.length_eq_zero_iff.mp (Nat.le_zero.mp enough)
      refine ⟨[], queue, .done queue, ?_⟩
      unfold admitCall
      dsimp only
      split
      · next room =>
        exact .inl ⟨by simpa using room, by simp⟩
      · next full =>
        rw [policy, rotation]
        exact .inr ⟨by simp [empty], by simpa using full, rfl⟩
  | succ turns ih =>
      unfold admitCall
      dsimp only
      split
      · next room =>
        exact ⟨[], queue, .done queue, .inl ⟨by simpa using room, by simp⟩⟩
      · next full =>
        rw [if_neg (by simp [policy])]
        cases dropped : queue.dropQueuedRotation with
        | none =>
            dsimp only
            exact ⟨[], queue, .done queue,
              .inr ⟨dropQueuedRotation_none dropped, by simpa using full, rfl⟩⟩
        | some pair =>
            obtain ⟨next, ref⟩ := pair
            have shorter := dropQueuedRotation_length dropped
            obtain ⟨evictions, room, evicts, outcome⟩ :=
              ih next ((thinned_drop dropped).config ▸ policy) (by omega)
            refine ⟨evictions ++ [.evicted ref (queue.objects ref)], room, .drop dropped evicts, ?_⟩
            dsimp only
            rcases outcome with ⟨fits, equal⟩ | ⟨keyed, stays, equal⟩
            · refine .inl ⟨fits, ?_⟩
              rw [equal]
              simp
            · refine .inr ⟨keyed, stays, ?_⟩
              rw [equal]
              simp

theorem lossless_eq (keyed : ∀ ref ∈ queue.queue, queue.isRotation ref = false) :
    queue.lossless = queue.queue :=
  List.filter_eq_self.mpr fun ref member => by rw [keyed ref member, Bool.not_false]

theorem Thinned.losslessBytes (thinned : Thinned queue room) :
    room.losslessBytes = queue.losslessBytes := by
  unfold InboundEventQueue.losslessBytes
  rw [thinned.lossless, thinned.objects]

theorem losslessBytes_le : queue.losslessBytes ≤ queue.retainedBytes := by
  unfold losslessBytes retainedBytes lossless
  exact (List.filter_sublist.map _).sum_le_sum fun _ _ => Nat.zero_le _

/-- What the loop leaves of the queue when it refuses a rotation under `DROP_OLDEST`. -/
theorem admitCall_costs {undecided : Nat} (sound : queue.Accounted undecided)
    (policy : queue.config.overflowPolicy = .dropOldest)
    (rotation : call.submission.event.isDialRotate = true) (expired firstWait : Bool) :
    (.refused call.submission ∈
        (admitCall call expired firstWait queue.queue.length queue).events →
      SameEntries queue (admitCall call expired firstWait queue.queue.length queue).queue) ↔
    ((∀ ref ∈ queue.queue, queue.isRotation ref = false) ∨
      queue.losslessBytes + call.size ≤ queue.config.byteLimit) := by
  obtain ⟨evictions, room, evicts, outcome⟩ :=
    admitCall_dropOldest queue call expired firstWait policy rotation (Nat.le_refl _)
  have thinned := evicts.thinned
  have counted := evicts.accounted sound
  rcases outcome with ⟨fits, equal⟩ | ⟨keyed, full, equal⟩
  · have room_left : queue.losslessBytes + call.size ≤ queue.config.byteLimit := by
      have bound : room.losslessBytes ≤ room.currentBytes := counted.bytes ▸ losslessBytes_le
      simp only [isFull, Bool.or_eq_false_iff, decide_eq_false_iff_not, Nat.not_lt] at fits
      rw [← thinned.losslessBytes, ← thinned.config]
      omega
    have accepted : .refused call.submission ∉
        (admitCall call expired firstWait queue.queue.length queue).events := by
      rw [equal]
      intro member
      rcases List.mem_append.mp member with enqueued | evicted
      · simp [enqueue] at enqueued
      · obtain ⟨ref, item, same⟩ := evicts.events_evicted _ evicted
        contradiction
    exact ⟨fun _ => .inr room_left, fun _ refused => absurd refused accepted⟩
  · rw [equal]
    constructor
    · intro same
      obtain ⟨entries, _, _⟩ := same List.mem_cons_self
      refine .inl fun ref member => ?_
      have kept : ref ∈ room.queue := by
        have unchanged : room.queue = queue.queue := by
          rw [← entries]
          unfold refuse
          rw [breakContextCoalescing_eq]
        rwa [unchanged]
      have spared := keyed ref kept
      unfold isRotation at spared ⊢
      rwa [thinned.objects] at spared
    · intro spared _
      have unchanged : room = queue := by
        refine evicts.spared ?_
        rcases spared with keyed | fits
        · exact keyed
        · -- The entries that are left are those that are never evicted; they fit, so that
          -- the item limit refused the rotation, and nothing was evicted.
          have bytes : room.currentBytes = queue.losslessBytes := by
            rw [counted.bytes, ← thinned.losslessBytes, losslessBytes, lossless_eq keyed]
            rfl
          have deep : queue.config.queueLimit ≤ room.queue.length := by
            simp only [isFull, Bool.or_eq_true, decide_eq_true_eq] at full
            rw [thinned.config] at full
            omega
          have all : room.queue = queue.queue :=
            thinned.entries.eq_of_length_le (Nat.le_trans sound.depth deep)
          intro ref member
          have here := keyed ref (all ▸ member)
          unfold isRotation at here ⊢
          rwa [thinned.objects] at here
      subst unchanged
      unfold refuse
      rw [breakContextCoalescing_eq]
      exact ⟨rfl, fun _ _ => rfl, rfl⟩

/-- `_coalesce` does not look at the counters. -/
theorem coalesce_submitted (count replacementSize : Nat) (event : StreamDockEvent) :
    ({ queue with submitted := count }.coalesce event replacementSize).isNone =
      (queue.coalesce event replacementSize).isNone := by
  unfold coalesce
  cases event with
  | dialRotate rotation =>
      dsimp only
      split
      · rfl
      · cases queue.lastQueuedByContext rotation.context with
        | none => rfl
        | some ref =>
            dsimp only
            cases (queue.objects ref).event with
            | dialRotate previous =>
                dsimp only
                split
                · rfl
                · split <;> rfl
            | _ => rfl
  | _ => rfl

end InboundEventQueue

namespace InboundWorld

open InboundEventQueue

/-- The call of `submit` of a rotation; it never waits. -/
def submitRotation (world : InboundWorld) (rotation : DialRotateEvent)
    (size replacementSize : Nat) (expired : Bool) : SubmitResult :=
  world.queue.submit ⟨⟨world.queue.submitted + 1, .dialRotate rotation⟩, size⟩ replacementSize expired

/-- The call of `submit` returns `False`. -/
def Refuses (world : InboundWorld) (rotation : DialRotateEvent) (result : SubmitResult) : Prop :=
  .refused ⟨world.queue.submitted + 1, .dialRotate rotation⟩ ∈ result.events

/-- A rotation that is refused leaves the queue as it was if and only if the call does
not evict in vain. -/
theorem refused_rotation_costs {config : InboundConfig} {world : InboundWorld}
    (reachable : (inboundSystem config).Reachable world) (rotation : DialRotateEvent)
    (size replacementSize : Nat) (expired : Bool) :
    (world.Refuses rotation (world.submitRotation rotation size replacementSize expired) →
      SameEntries world.queue (world.submitRotation rotation size replacementSize expired).queue) ↔
    world.queue.evictsInVain rotation size replacementSize = false := by
  have sound := accounted reachable
  have counted : Accounted { world.queue with submitted := world.queue.submitted + 1 }
      (world.waiting.length + 1) := by
    refine ⟨?_, sound.receipts, sound.bytes, sound.budget, sound.depth⟩
    have calls := sound.calls
    dsimp only
    omega
  unfold Refuses submitRotation submit evictsInVain
  dsimp only
  split
  · next closed =>
    rw [Bool.not_eq_true'] at closed
    simp only [closed, Bool.false_and, iff_true]
    exact fun _ => ⟨rfl, fun _ _ => rfl, rfl⟩
  next accepts =>
  rw [Bool.not_eq_true', Bool.not_eq_false] at accepts
  split
  · next oversized =>
    have large : decide (size ≤ world.queue.config.byteLimit) = false := by simpa using oversized
    simp only [large, Bool.and_false, Bool.false_and, iff_true]
    intro _
    unfold refuse
    rw [breakContextCoalescing_eq]
    exact ⟨rfl, fun _ _ => rfl, rfl⟩
  next small =>
  split
  · next next entry merged =>
    have taken : (world.queue.coalesce (.dialRotate rotation) replacementSize).isNone = false := by
      rw [← coalesce_submitted (world.queue.submitted + 1), merged]
      rfl
    simp only [taken, Bool.and_false, Bool.false_and, iff_true]
    simp
  · next unmerged =>
    have untaken : (world.queue.coalesce (.dialRotate rotation) replacementSize).isNone = true := by
      rw [← coalesce_submitted (world.queue.submitted + 1), unmerged]
      rfl
    have fits : size ≤ world.queue.config.byteLimit := Nat.le_of_not_lt small
    by_cases policy : world.queue.config.overflowPolicy = .dropOldest
    · have costs := (@admitCall_costs _ ⟨⟨world.queue.submitted + 1, .dialRotate rotation⟩, size⟩)
        counted policy rfl expired true
      refine Iff.trans ?_ (costs.trans ?_)
      · exact ⟨fun same refused => ⟨(same refused).queue, (same refused).items, (same refused).bytes⟩,
          fun same refused => ⟨(same refused).queue, (same refused).items, (same refused).bytes⟩⟩
      · simp only [accepts, fits, untaken, policy, decide_true, Bool.true_and, Bool.and_eq_false_iff,
          decide_eq_false_iff_not, Nat.not_lt, List.any_eq_false, Bool.not_eq_true]
        rfl
    · simp only [policy, decide_false, Bool.and_false, Bool.false_and, iff_true]
      have newest : world.queue.config.overflowPolicy = .dropNewest := by
        cases other : world.queue.config.overflowPolicy with
        | dropNewest => rfl
        | dropOldest => exact absurd other policy
      unfold admitCall
      dsimp only
      split
      · simp [enqueue]
      · rw [if_pos (by rw [newest]; rfl)]
        intro _
        unfold refuse
        rw [breakContextCoalescing_eq]
        exact ⟨rfl, fun _ _ => rfl, rfl⟩

end InboundWorld

open InboundEventQueue InboundWorld

/-- A rotation is queued behind a large event. -/
def pressedWorld : InboundWorld :=
  ((inboundSystem coalescingConfig).exec { queue := { config := coalescingConfig } }
    [.submit .systemDidWakeUp 50 50 false,
      .submit (.dialRotate (sampleRotation 2)) 8 8 false]).get (by decide +kernel)

theorem pressedWorld_reachable : (inboundSystem coalescingConfig).Reachable pressedWorld :=
  System.Reachable.exec (.initial rfl) (Option.some_get _).symm

theorem refused_rotation_costs_run :
    (pressedWorld.Refuses (sampleRotation 3) (pressedWorld.submitRotation (sampleRotation 3) 70 70 false) ∧
      SameEntries pressedWorld.queue
        (pressedWorld.submitRotation (sampleRotation 3) 70 70 false).queue) ∧
    ¬ (pressedWorld.Refuses (sampleRotation 3) (pressedWorld.submitRotation (sampleRotation 3) 20 20 false) →
      SameEntries pressedWorld.queue
        (pressedWorld.submitRotation (sampleRotation 3) 20 20 false).queue) := by
  have refused : pressedWorld.Refuses (sampleRotation 3)
      (pressedWorld.submitRotation (sampleRotation 3) 70 70 false) :=
    List.mem_cons_self
  refine ⟨⟨refused, ?_⟩, fun same => ?_⟩
  · exact (refused_rotation_costs pressedWorld_reachable (sampleRotation 3) 70 70 false).mpr
      (by decide +kernel) refused
  · have spared :=
      (refused_rotation_costs pressedWorld_reachable (sampleRotation 3) 20 20 false).mp same
    exact absurd spared (by decide +kernel)

/-- The rotation is lost, and so is the one that was queued. -/
theorem refused_rotation_evicts :
    ¬ ∀ (config : InboundConfig) (world : InboundWorld) (rotation : DialRotateEvent)
      (size replacementSize : Nat) (expired : Bool), (inboundSystem config).Reachable world →
      world.Refuses rotation (world.submitRotation rotation size replacementSize expired) →
      SameEntries world.queue
        (world.submitRotation rotation size replacementSize expired).queue := by
  intro claimed
  have refused : pressedWorld.Refuses (sampleRotation 3)
      (pressedWorld.submitRotation (sampleRotation 3) 20 20 false) :=
    List.mem_cons_self
  have same := claimed coalescingConfig pressedWorld (sampleRotation 3) 20 20 false
    pressedWorld_reachable refused
  have shorter : (pressedWorld.submitRotation (sampleRotation 3) 20 20 false).queue.queue ≠
      pressedWorld.queue.queue := by decide +kernel
  exact shorter same.queue

end StreamDockSdk.Messaging
