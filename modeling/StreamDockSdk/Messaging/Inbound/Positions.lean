import StreamDockSdk.Messaging.Inbound.Refinement
import StreamDockSdk.Runtime.Routes

namespace StreamDockSdk.Messaging

open StreamDockSdk.Runtime Automaton InboundEventQueue

namespace InboundEventQueue

variable {queue next room : InboundEventQueue} {ref : Nat} {call : SubmitCall}

/-- The context that the scheduler would run the entry under. -/
def scheduledContextOf? (queue : InboundEventQueue) (ref : Nat) : Option Str :=
  scheduledContext? (queue.objects ref).event

/-- Entries leave the queue or join its end; they neither move nor change their context. -/
structure Advanced (before after : InboundEventQueue) : Prop where
  queue : ∃ added, after.queue.Sublist (before.queue ++ added) ∧ added.Pairwise (· < ·) ∧
    ∀ ref ∈ added, before.allocated ≤ ref ∧ ref < after.allocated
  contexts : ∀ ref < before.allocated,
    after.scheduledContextOf? ref = before.scheduledContextOf? ref
  allocated : before.allocated ≤ after.allocated

theorem Advanced.trans {first second third : InboundEventQueue} (left : Advanced first second)
    (right : Advanced second third) : Advanced first third := by
  obtain ⟨left_added, left_sub, left_sorted, left_bounds⟩ := left.queue
  obtain ⟨right_added, right_sub, right_sorted, right_bounds⟩ := right.queue
  constructor
  · refine ⟨left_added ++ right_added, ?_, ?_, ?_⟩
    · rw [← List.append_assoc]
      exact right_sub.trans (left_sub.append_right right_added)
    · refine List.pairwise_append.mpr ⟨left_sorted, right_sorted, ?_⟩
      intro older old_mem newer new_mem
      exact Nat.lt_of_lt_of_le (left_bounds older old_mem).2 (right_bounds newer new_mem).1
    · intro ref member
      rcases List.mem_append.mp member with member | member
      · exact ⟨(left_bounds ref member).1,
          Nat.lt_of_lt_of_le (left_bounds ref member).2 right.allocated⟩
      · exact ⟨Nat.le_trans left.allocated (right_bounds ref member).1,
          (right_bounds ref member).2⟩
  · intro ref born
    rw [right.contexts ref (Nat.lt_of_lt_of_le born left.allocated), left.contexts ref born]
  · exact Nat.le_trans left.allocated right.allocated

/-- A step that takes entries from the queue at most. -/
theorem Advanced.shrink {before after : InboundEventQueue}
    (sublist : after.queue.Sublist before.queue) (objects : after.objects = before.objects)
    (allocated : after.allocated = before.allocated) : Advanced before after := by
  refine ⟨⟨[], by simpa using sublist, .nil, fun _ member => absurd member List.not_mem_nil⟩,
    ?_, Nat.le_of_eq allocated.symm⟩
  intro ref _
  unfold scheduledContextOf?
  rw [objects]

theorem SameContents.advanced (same : SameContents queue next) : Advanced queue next :=
  .shrink (by rw [same.queue]) same.objects same.allocated

theorem removeAt_advanced (index : Nat) : Advanced queue (queue.removeAt index ref) := by
  rw [removeAt_eq]
  exact .shrink (List.eraseIdx_sublist _ _) rfl rfl

theorem breakContextCoalescing_advanced (event : StreamDockEvent) :
    Advanced queue (queue.breakContextCoalescing event) := by
  rw [breakContextCoalescing_eq]
  exact .shrink (.refl _) rfl rfl

theorem enqueue_advanced (queue : InboundEventQueue) (call : SubmitCall) :
    Advanced queue (queue.enqueue call).queue := by
  constructor
  · refine ⟨[queue.allocated], .refl _, List.pairwise_singleton _ _, ?_⟩
    intro ref member
    rw [List.mem_singleton.mp member]
    exact ⟨Nat.le_refl _, Nat.lt_succ_self _⟩
  · intro ref born
    simp [scheduledContextOf?, InboundEventQueue.enqueue, Nat.ne_of_lt born]
  · exact Nat.le_succ _

theorem coalesce_advanced {event : StreamDockEvent} {replacementSize : Nat}
    (linked : queue.Linked)
    (merged : queue.coalesce event replacementSize = some (next, ref)) : Advanced queue next := by
  obtain ⟨rotation, previous, _, held, points, _, _, rfl⟩ := coalesce_spec merged
  obtain ⟨_, own, _⟩ := linked.pointed _ _ points
  refine ⟨⟨[], by simp, .nil, fun _ member => absurd member List.not_mem_nil⟩, ?_, Nat.le_refl _⟩
  intro other _
  unfold scheduledContextOf?
  by_cases here : other = ref
  · subst here
    have context : some previous.context = some rotation.context := by
      rw [contextOf?, held] at own
      exact own
    rw [held]
    simp only [Function.update_self]
    exact context.symm
  · simp only [Function.update_of_ne here]

theorem Evicts.advanced {events : List InboundEvent} (evicts : Evicts queue events room) :
    Advanced queue room := by
  induction evicts with
  | done => exact .shrink (.refl _) rfl rfl
  | drop dropped _ ih =>
      obtain ⟨passed, rest, _, _, rfl⟩ := dropQueuedRotation_spec dropped
      exact ((removeAt_advanced _).trans countDropped_sameContents.advanced).trans ih

theorem Settles.advanced {result : SubmitResult} (settles : Settles queue call result)
    (linked : queue.Linked) : Advanced queue result.queue := by
  have refused : ∀ {counted : InboundEventQueue}, Advanced queue counted →
      Advanced queue (counted.refuse call.submission).queue :=
    fun counted => counted.trans (breakContextCoalescing_advanced _)
  cases settles with
  | closed => exact .shrink (.refl _) rfl rfl
  | closedWaiting | oversized => exact refused (.shrink (.refl _) rfl rfl)
  | coalesce _ merged =>
      exact (coalesce_advanced linked merged).trans (.shrink (.refl _) rfl rfl)
  | decide _ evicts decides =>
      cases decides with
      | enqueue => exact evicts.advanced.trans (enqueue_advanced _ _)
      | dropNewest | rejectFull => exact refused (evicts.advanced.trans (.shrink (.refl _) rfl rfl))
      | wait => exact evicts.advanced.trans (.shrink (.refl _) rfl rfl)

end InboundEventQueue

namespace InboundWorld

variable {world before after : InboundWorld}

theorem Transition.advanced (transition : Transition before after)
    (linked : before.queue.Linked) : Advanced before.queue after.queue := by
  cases transition with
  | submitted _ settles =>
      have counted : Advanced before.queue
          { before.queue with submitted := before.queue.submitted + 1 } :=
        .shrink (.refl _) rfl rfl
      exact counted.trans (settles.advanced (linked.frame (by constructor <;> rfl)))
  | resumed _ settles => exact settles.advanced linked
  | received received =>
      obtain ⟨queue, ref, taken, _, rfl⟩ := receiveAt_spec received
      obtain ⟨passed, rest, _, rfl⟩ := takeAt_spec taken
      exact (removeAt_advanced _).trans (.shrink (.refl _) rfl rfl)
  | acknowledged acknowledged =>
      unfold taskDone at acknowledged
      split at acknowledged
      · contradiction
      · cases acknowledged
        exact .shrink (.refl _) rfl rfl
  | bookkeeping => exact .shrink (.refl _) rfl rfl
  | discarded => exact .shrink (List.nil_sublist _) rfl rfl

/-- The queue lists its entries in the order in which they were queued. -/
theorem ascending {config : InboundConfig} {world : InboundWorld}
    (reachable : (inboundSystem config).Reachable world) :
    world.queue.queue.Pairwise (· < ·) := by
  refine reachable.invariant_given (fun world => world.queue.Linked)
    (motive := fun world => world.queue.queue.Pairwise (· < ·)) (fun _ => linked) ?_ ?_
  · rintro _ rfl
    exact .nil
  · intro before label after linked sorted stepped
    obtain ⟨added, sublist, added_sorted, bounds⟩ :=
      ((step_cases stepped).advanced linked).queue
    refine List.Pairwise.sublist sublist (List.pairwise_append.mpr ⟨sorted, added_sorted, ?_⟩)
    intro older old_mem newer new_mem
    exact Nat.lt_of_lt_of_le (linked.allocated older old_mem) (bounds newer new_mem).1

/-- The history only grows. -/
theorem Transition.history_suffix (transition : Transition before after) :
    ∃ events, after.history = events ++ before.history := by
  cases transition with
  | @submitted call result _ _ =>
      exact ⟨result.events ++ [.submitted call.submission], by simp [settle]⟩
  | resumed => exact ⟨_, rfl⟩
  | received received =>
      obtain ⟨queue, ref, taken, _, rfl⟩ := receiveAt_spec received
      exact ⟨[_], rfl⟩
  | acknowledged | bookkeeping => exact ⟨[], rfl⟩
  | discarded => exact ⟨_, rfl⟩

end InboundWorld

end StreamDockSdk.Messaging
