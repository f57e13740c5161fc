import StreamDockSdk.Messaging.Inbound.Transition

namespace StreamDockSdk.Messaging

open Automaton

namespace InboundEventQueue

variable {queue next room : InboundEventQueue} {ref : Nat} {call : SubmitCall}

/-- The two queues differ in their counters alone. -/
structure SameContents (before after : InboundEventQueue) : Prop where
  config : after.config = before.config
  objects : after.objects = before.objects
  allocated : after.allocated = before.allocated
  queue : after.queue = before.queue
  lastQueuedByContext : after.lastQueuedByContext = before.lastQueuedByContext
  currentBytes : after.currentBytes = before.currentBytes
  accepting : after.accepting = before.accepting

theorem countDropped_sameContents : SameContents queue queue.countDropped := by
  unfold countDropped
  cases queue.config.overflowPolicy <;> constructor <;> rfl

def contextOf? (queue : InboundEventQueue) (ref : Nat) : Option Str :=
  coalescingContext? (queue.objects ref).event

/-- The index without the references to one entry of its own context. -/
def lastWithout (queue : InboundEventQueue) (ref : Nat) : Str → Option Nat := fun context =>
  if queue.contextOf? ref = some context ∧ queue.lastQueuedByContext context = some ref then none
  else queue.lastQueuedByContext context

theorem removeAt_eq (index : Nat) : queue.removeAt index ref = { queue with
    queue := queue.queue.eraseIdx index
    currentBytes := queue.currentBytes - (queue.objects ref).size
    lastQueuedByContext := queue.lastWithout ref } := by
  unfold removeAt forgetQueuedEvent lastWithout contextOf?
  dsimp only
  cases lane : coalescingContext? (queue.objects ref).event with
  | none => simp
  | some own =>
      dsimp only
      split
      · next points =>
        congr 1
        funext context
        by_cases same : context = own
        · subst same
          simp [points]
        · simp [same, Ne.symm same]
      · next elsewhere =>
        congr 1
        funext context
        by_cases same : own = context
        · subst same
          simp [elsewhere]
        · simp [same]

/-- `ref` is the last queued entry of the context, and no entry without a
coalescing context is queued behind it. -/
def LastOf (queue : InboundEventQueue) (context : Str) (ref : Nat) : Prop :=
  ref ∈ queue.queue ∧ queue.contextOf? ref = some context ∧
    ∀ other, [ref, other].Sublist queue.queue →
      queue.contextOf? other ≠ some context ∧ queue.contextOf? other ≠ none

structure Linked (queue : InboundEventQueue) : Prop where
  distinct : queue.queue.Nodup
  allocated : ∀ ref ∈ queue.queue, ref < queue.allocated
  pointed : ∀ context ref, queue.lastQueuedByContext context = some ref →
    queue.LastOf context ref

theorem Linked.frame (linked : queue.Linked) (same : SameContents queue next) : next.Linked := by
  obtain ⟨distinct, allocated, pointed⟩ := linked
  constructor
  · rw [same.queue]
    exact distinct
  · rw [same.queue, same.allocated]
    exact allocated
  · unfold LastOf contextOf? at pointed ⊢
    rw [same.queue, same.objects, same.lastQueuedByContext]
    exact pointed

/-- Forgetting references keeps the index sound. -/
theorem Linked.forget (linked : queue.Linked) {last : Str → Option Nat}
    (fewer : ∀ context ref, last context = some ref →
      queue.lastQueuedByContext context = some ref) :
    Linked { queue with lastQueuedByContext := last } :=
  ⟨linked.distinct, linked.allocated, fun context ref points =>
    linked.pointed context ref (fewer context ref points)⟩

theorem breakContextCoalescing_eq (event : StreamDockEvent) :
    queue.breakContextCoalescing event = { queue with
      lastQueuedByContext := (queue.breakContextCoalescing event).lastQueuedByContext } := by
  unfold breakContextCoalescing
  split <;> rfl

/-- What the index still points to after a refused event. -/
theorem breakContextCoalescing_points {event : StreamDockEvent} {context : Str}
    (points : (queue.breakContextCoalescing event).lastQueuedByContext context = some ref) :
    queue.lastQueuedByContext context = some ref ∧ coalescingContext? event ≠ none ∧
      coalescingContext? event ≠ some context := by
  unfold breakContextCoalescing at points
  cases lane : coalescingContext? event with
  | none => simp [lane] at points
  | some own =>
      simp only [lane] at points
      by_cases same : context = own
      · subst same
        simp at points
      · simp [same] at points
        exact ⟨points, by simp, by simpa using Ne.symm same⟩

theorem Linked.break (linked : queue.Linked) (event : StreamDockEvent) :
    (queue.breakContextCoalescing event).Linked := by
  rw [breakContextCoalescing_eq]
  exact linked.forget fun context ref points => (breakContextCoalescing_points points).1

theorem lastWithout_points {context : Str} {other : Nat} (linked : queue.Linked)
    (points : queue.lastWithout ref context = some other) :
    queue.lastQueuedByContext context = some other ∧ other ≠ ref := by
  unfold lastWithout at points
  split at points
  · contradiction
  next kept =>
  refine ⟨points, ?_⟩
  rintro rfl
  exact kept ⟨(linked.pointed context other points).2.1, points⟩

theorem Linked.remove (linked : queue.Linked) {passed rest : List Nat}
    (split : queue.queue = passed ++ ref :: rest) :
    (queue.removeAt passed.length ref).Linked := by
  have erased : queue.queue.eraseIdx passed.length = passed ++ rest := by
    rw [split, List.eraseIdx_append_of_length_le (Nat.le_refl _)]
    simp
  have sublist : (passed ++ rest).Sublist queue.queue := by
    rw [← erased]
    exact List.eraseIdx_sublist _ _
  rw [removeAt_eq, erased]
  constructor
  · exact linked.distinct.sublist sublist
  · exact fun other member => linked.allocated other (sublist.subset member)
  · intro context other points
    obtain ⟨points, different⟩ := lastWithout_points linked points
    obtain ⟨member, lane, behind⟩ := linked.pointed context other points
    refine ⟨?_, lane, fun later pair => behind later (pair.trans sublist)⟩
    rw [split] at member
    simpa [different] using member

theorem Linked.drop (linked : queue.Linked)
    (dropped : queue.dropQueuedRotation = some (next, ref)) : next.Linked := by
  obtain ⟨passed, rest, split, _, rfl⟩ := dropQueuedRotation_spec dropped
  exact (linked.remove split).frame countDropped_sameContents

theorem pair_sublist_append {entries : List Nat} {first second last : Nat}
    (pair : [first, second].Sublist (entries ++ [last])) :
    [first, second].Sublist entries ∨ (first ∈ entries ∧ second = last) := by
  obtain ⟨front, back, split, front_sub, back_sub⟩ := List.sublist_append_iff.mp pair
  match front, split with
  | [], split =>
      have short := back_sub.length_le
      rw [List.nil_append] at split
      rw [← split] at short
      simp at short
  | [head], split =>
      simp only [List.cons_append, List.nil_append, List.cons.injEq] at split
      obtain ⟨rfl, rfl⟩ := split
      exact .inr ⟨List.singleton_sublist.mp front_sub,
        List.mem_singleton.mp (List.singleton_sublist.mp back_sub)⟩
  | head :: other :: more, split =>
      simp only [List.cons_append, List.cons.injEq, List.nil_eq, List.append_eq_nil_iff] at split
      obtain ⟨rfl, rfl, rfl, _⟩ := split
      exact .inl front_sub

theorem Linked.enqueue (linked : queue.Linked) (call : SubmitCall) :
    (queue.enqueue call).queue.Linked := by
  have fresh : queue.allocated ∉ queue.queue :=
    fun member => Nat.lt_irrefl _ (linked.allocated _ member)
  have own : (queue.enqueue call).queue.contextOf? queue.allocated =
      coalescingContext? call.submission.event := by
    simp [contextOf?, InboundEventQueue.enqueue]
  have others : ∀ other ∈ queue.queue,
      (queue.enqueue call).queue.contextOf? other = queue.contextOf? other := by
    intro other member
    have different : other ≠ queue.allocated := fun same => fresh (same ▸ member)
    simp [contextOf?, InboundEventQueue.enqueue, different]
  constructor
  · simp only [InboundEventQueue.enqueue]
    exact List.nodup_append.mpr ⟨linked.distinct, by simp, by
      intro other member last mem_last
      rw [List.mem_singleton.mp mem_last]
      rintro rfl
      exact fresh member⟩
  · intro other member
    simp only [InboundEventQueue.enqueue, List.mem_append, List.mem_singleton] at member ⊢
    rcases member with member | rfl
    · exact Nat.lt_succ_of_lt (linked.allocated other member)
    · exact Nat.lt_succ_self _
  · intro context other points
    cases lane : coalescingContext? call.submission.event with
    | none => simp [InboundEventQueue.enqueue, lane] at points
    | some mine =>
        by_cases same : context = mine
        · subst same
          simp only [InboundEventQueue.enqueue, lane, Function.update_self,
            Option.some.injEq] at points
          subst points
          refine ⟨by simp [InboundEventQueue.enqueue], own.trans lane, ?_⟩
          intro later pair
          rcases pair_sublist_append pair with pair | ⟨member, _⟩
          · exact absurd (pair.subset (by simp)) fresh
          · exact absurd member fresh
        · simp only [InboundEventQueue.enqueue, lane, Function.update_of_ne same] at points
          obtain ⟨member, other_lane, behind⟩ := linked.pointed context other points
          refine ⟨List.mem_append_left _ member, (others other member).trans other_lane, ?_⟩
          intro later pair
          rcases pair_sublist_append pair with pair | ⟨_, rfl⟩
          · rw [others later (pair.subset (by simp))]
            exact behind later pair
          · rw [own, lane]
            exact ⟨by simpa using Ne.symm same, by simp⟩

theorem Linked.coalesce (linked : queue.Linked) {event : StreamDockEvent} {replacementSize : Nat}
    (merged : queue.coalesce event replacementSize = some (next, ref)) : next.Linked := by
  obtain ⟨rotation, previous, _, held, points, _, _, rfl⟩ := coalesce_spec merged
  obtain ⟨_, lane, _⟩ := linked.pointed _ _ points
  have kept : ∀ other, coalescingContext? (Function.update queue.objects ref
      { event := .dialRotate { rotation with ticks := previous.ticks + rotation.ticks }
        size := replacementSize } other).event = queue.contextOf? other := by
    intro other
    by_cases same : other = ref
    · subst same
      rw [Function.update_self, lane]
      rfl
    · rw [Function.update_of_ne same]
      rfl
  refine ⟨linked.distinct, linked.allocated, ?_⟩
  intro context other points
  unfold LastOf contextOf?
  simp only [kept]
  exact linked.pointed context other points

theorem Evicts.linked {events : List InboundEvent} (evicts : Evicts queue events room)
    (linked : queue.Linked) : room.Linked := by
  induction evicts with
  | done => exact linked
  | drop dropped _ ih => exact ih (linked.drop dropped)

theorem Decides.linked {result : SubmitResult} (decides : Decides room call result)
    (linked : room.Linked) : result.queue.Linked := by
  cases decides with
  | enqueue => exact linked.enqueue call
  | dropNewest | rejectFull =>
      exact (linked.frame (by constructor <;> rfl)).break _
  | wait => exact linked.frame (by constructor <;> rfl)

theorem Settles.linked {result : SubmitResult} (settles : Settles queue call result)
    (linked : queue.Linked) : result.queue.Linked := by
  cases settles with
  | closed => exact linked.frame (by constructor <;> rfl)
  | closedWaiting | oversized => exact (linked.frame (by constructor <;> rfl)).break _
  | coalesce _ merged => exact (linked.coalesce merged).frame (by constructor <;> rfl)
  | decide _ evicts decides => exact decides.linked (evicts.linked linked)

theorem takeAt_linked {index : Nat} (linked : queue.Linked)
    (taken : queue.takeAt index = some (next, ref)) : next.Linked := by
  obtain ⟨passed, rest, split, rfl⟩ := takeAt_spec taken
  exact (linked.remove split).frame (by constructor <;> rfl)

end InboundEventQueue

namespace InboundWorld

open InboundEventQueue

variable {world before after : InboundWorld}

/-- The entry that `receiveAt` hands out, and the queue it leaves. -/
theorem receiveAt_spec {index : Nat} {item : SizedEvent}
    (received : before.receiveAt index = some (after, item)) :
    ∃ queue ref, before.queue.takeAt index = some (queue, ref) ∧
      item = before.queue.objects ref ∧
      after = { before with queue, history := .received ref item :: before.history } := by
  unfold receiveAt at received
  split at received
  · contradiction
  next queue ref taken =>
  simp only [Option.some.injEq, Prod.mk.injEq] at received
  obtain ⟨rfl, rfl⟩ := received
  exact ⟨queue, ref, taken, rfl, rfl⟩

theorem Transition.linked (transition : Transition before after)
    (linked : before.queue.Linked) : after.queue.Linked := by
  cases transition with
  | submitted _ settles => exact settles.linked (linked.frame (by constructor <;> rfl))
  | resumed _ settles => exact settles.linked linked
  | received received =>
      obtain ⟨queue, ref, taken, _, rfl⟩ := receiveAt_spec received
      exact takeAt_linked linked taken
  | acknowledged acknowledged =>
      unfold taskDone at acknowledged
      split at acknowledged
      · contradiction
      · cases acknowledged
        exact linked.frame (by constructor <;> rfl)
  | bookkeeping => exact ⟨linked.distinct, linked.allocated, linked.pointed⟩
  | discarded =>
      exact ⟨List.nodup_nil, fun _ member => absurd member (List.not_mem_nil), nofun⟩

theorem linked {config : InboundConfig} {world : InboundWorld}
    (reachable : (inboundSystem config).Reachable world) : world.queue.Linked := by
  refine reachable.invariant (motive := fun world => world.queue.Linked) ?_
    fun _ _ _ linked stepped => (step_cases stepped).linked linked
  rintro _ rfl
  exact ⟨List.nodup_nil, fun _ member => absurd member (List.not_mem_nil), nofun⟩

end InboundWorld

end StreamDockSdk.Messaging
