import StreamDockSdk.Messaging.Inbound.Runs

namespace StreamDockSdk.Messaging

open Automaton InboundEventQueue

/-- The event neither joins a submission to an entry nor takes one from the queue. -/
def InboundEvent.Silent (event : InboundEvent) : Prop :=
  (∀ ref, event.joined? ref = none) ∧ event.removed? = none

structure Entries (queue : InboundEventQueue) (history : List InboundEvent) : Prop where
  removals : (queue.queue ++ removed history).Perm (List.range queue.allocated)
  unborn : ∀ ref, queue.allocated ≤ ref → run history ref = []
  stands : ∀ ref < queue.allocated, Represents (run history ref) (queue.objects ref).event
  contiguous : ∀ ref < queue.allocated, run history ref <:+: lane history (queue.contextOf? ref)
  delivered : ∀ ref item, .received ref item ∈ history ∨ .evicted ref item ∈ history →
    item = queue.objects ref
  rotations : ∀ ref item, .evicted ref item ∈ history → item.event.isDialRotate = true
  unbarred : ∀ context ref, queue.lastQueuedByContext context = some ref →
    ¬ BarrierBehind history ref

/-- The runs of the rotations that may still grow end at the newest submission
of their context among those seen. -/
def Growing (queue : InboundEventQueue) (history : List InboundEvent) (seen : List Submission) :
    Prop :=
  ∀ context ref, queue.lastQueuedByContext context = some ref → queue.isRotation ref = true →
    run history ref <+: seen.filter (relevant (some context))

section Entries

variable {queue next room : InboundEventQueue} {ref : Nat} {call : SubmitCall}
  {history : List InboundEvent} {event : InboundEvent} {seen : List Submission}

theorem Entries.frame (entries : Entries queue history) (same : SameContents queue next) :
    Entries next history := by
  obtain ⟨removals, unborn, stands, contiguous, delivered, rotations, unbarred⟩ := entries
  unfold contextOf? at contiguous
  constructor
  · rw [same.queue, same.allocated]
    exact removals
  · rw [same.allocated]
    exact unborn
  · rw [same.allocated, same.objects]
    exact stands
  · unfold contextOf?
    rw [same.allocated, same.objects]
    exact contiguous
  · rw [same.objects]
    exact delivered
  · exact rotations
  · rw [same.lastQueuedByContext]
    exact unbarred

theorem Growing.frame (growing : Growing queue history seen) (same : SameContents queue next) :
    Growing next history seen := by
  unfold Growing isRotation
  rw [same.lastQueuedByContext, same.objects]
  exact growing

theorem Entries.forget (entries : Entries queue history) {last : Str → Option Nat}
    (fewer : ∀ context ref, last context = some ref →
      queue.lastQueuedByContext context = some ref) :
    Entries { queue with lastQueuedByContext := last } history :=
  ⟨entries.removals, entries.unborn, entries.stands, entries.contiguous, entries.delivered,
    entries.rotations, fun context ref points =>
      entries.unbarred context ref (fewer context ref points)⟩

theorem run_silent (silent : event.Silent) (ref : Nat) :
    run (event :: history) ref = run history ref :=
  List.filterMap_cons_none (silent.1 ref)

theorem barrierBehind_cons (quiet : ∀ barrier other, event = .enqueued barrier other →
    coalescingContext? barrier.event ≠ none) (ref : Nat)
    (behind : BarrierBehind (event :: history) ref) : BarrierBehind history ref := by
  obtain ⟨mine, barrier, other, free, precedes⟩ := behind
  rcases precedes_cons.mp precedes with ⟨same, _⟩ | precedes
  · exact absurd free (quiet barrier other same)
  · exact ⟨mine, barrier, other, free, precedes⟩

theorem lane_cons (context : Option Str) : lane history context <:+: lane (event :: history) context := by
  unfold lane submissions
  cases here : event.submitted? with
  | none =>
      simp only [List.filterMap_cons_none here]
      exact List.infix_rfl
  | some submission =>
      rw [List.filterMap_cons_some here, List.filter_cons]
      split
      · exact List.infix_cons List.infix_rfl
      · exact List.infix_rfl

/-- A silent event extends the history and nothing else. -/
theorem Entries.log (entries : Entries queue history) (silent : event.Silent) :
    Entries queue (event :: history) := by
  have untaken : removed (event :: history) = removed history :=
    List.filterMap_cons_none silent.2
  have absent : ∀ ref item, event ≠ .received ref item ∧ event ≠ .evicted ref item := by
    intro ref item
    constructor <;> rintro rfl <;> exact absurd silent.2 (by simp [InboundEvent.removed?])
  constructor
  · rw [untaken]
    exact entries.removals
  · intro ref beyond
    rw [run_silent silent]
    exact entries.unborn ref beyond
  · intro ref born
    rw [run_silent silent]
    exact entries.stands ref born
  · intro ref born
    rw [run_silent silent]
    exact (entries.contiguous ref born).trans (lane_cons _)
  · intro ref item member
    simp only [List.mem_cons, (absent ref item).1.symm, (absent ref item).2.symm,
      false_or] at member
    exact entries.delivered ref item member
  · intro ref item member
    simp only [List.mem_cons, (absent ref item).2.symm, false_or] at member
    exact entries.rotations ref item member
  · intro context ref points behind
    refine entries.unbarred context ref points (barrierBehind_cons ?_ ref behind)
    rintro barrier other rfl
    exact absurd (silent.1 other) (by simp [InboundEvent.joined?])

theorem Growing.log (growing : Growing queue history seen) (silent : event.Silent) :
    Growing queue (event :: history) seen := by
  intro context ref points rotation
  rw [run_silent silent]
  exact growing context ref points rotation

/-- An entry leaves the queue with the item that it holds. -/
theorem Entries.remove (entries : Entries queue history) (linked : queue.Linked)
    {passed rest : List Nat} (split : queue.queue = passed ++ ref :: rest)
    (leaves : event = .received ref (queue.objects ref) ∨
      event = .evicted ref (queue.objects ref) ∧ queue.isRotation ref = true) :
    Entries (queue.removeAt passed.length ref) (event :: history) := by
  have gone : event.removed? = some ref := by
    rcases leaves with rfl | ⟨rfl, _⟩ <;> rfl
  have unjoined : ∀ other, run (event :: history) other = run history other := by
    intro other
    refine List.filterMap_cons_none ?_
    rcases leaves with rfl | ⟨rfl, _⟩ <;> rfl
  have same_lane : ∀ context, lane (event :: history) context = lane history context := by
    intro context
    unfold lane submissions
    rw [List.filterMap_cons_none]
    rcases leaves with rfl | ⟨rfl, _⟩ <;> rfl
  have kept : SameContents (queue.removeAt passed.length ref) { queue with
      queue := passed ++ rest
      currentBytes := queue.currentBytes - (queue.objects ref).size
      lastQueuedByContext := queue.lastWithout ref } := by
    rw [removeAt_eq, eraseIdx_split split]
    constructor <;> rfl
  rw [removeAt_eq, eraseIdx_split split]
  constructor
  · have removals := entries.removals
    rw [split] at removals
    unfold removed at removals ⊢
    rw [List.filterMap_cons_some gone]
    refine List.Perm.trans ?_ removals
    simp only [List.append_assoc, List.cons_append]
    exact (List.perm_middle.append_left passed)
  · intro other beyond
    rw [unjoined]
    exact entries.unborn other beyond
  · intro other born
    rw [unjoined]
    exact entries.stands other born
  · intro other born
    rw [unjoined, same_lane]
    exact entries.contiguous other born
  · intro other item member
    simp only [List.mem_cons] at member
    rcases leaves with rfl | ⟨rfl, _⟩
    · rcases member with (same | member) | (same | member)
      · cases same
        rfl
      · exact entries.delivered other item (.inl member)
      · cases same
      · exact entries.delivered other item (.inr member)
    · rcases member with (same | member) | (same | member)
      · cases same
      · exact entries.delivered other item (.inl member)
      · cases same
        rfl
      · exact entries.delivered other item (.inr member)
  · intro other item member
    simp only [List.mem_cons] at member
    rcases member with same | member
    · rcases leaves with rfl | ⟨rfl, rotation⟩
      · cases same
      · cases same
        exact rotation
    · exact entries.rotations other item member
  · intro context other points behind
    refine entries.unbarred context other (lastWithout_points linked points).1
      (barrierBehind_cons ?_ other behind)
    rintro barrier entry rfl
    simp [InboundEvent.removed?] at gone

theorem Growing.remove (growing : Growing queue history seen) (linked : queue.Linked)
    (passed : List Nat) (silent : ∀ other, event.joined? other = none) :
    Growing (queue.removeAt passed.length ref) (event :: history) seen := by
  intro context other points rotation
  rw [removeAt_eq] at points rotation
  rw [show run (event :: history) other = run history other from
    List.filterMap_cons_none (silent other)]
  exact growing context other (lastWithout_points linked points).1 rotation

theorem singleton_infix {Value : Type} {value : Value} {values : List Value}
    (member : value ∈ values) : [value] <:+: values := by
  obtain ⟨front, back, rfl⟩ := List.append_of_mem member
  exact ⟨front, back, by simp⟩

/-- A call that has been counted becomes a new entry. -/
theorem Entries.enqueue (entries : Entries queue history)
    (counted : call.submission ∈ submissions history) :
    Entries (queue.enqueue call).queue (.enqueued call.submission queue.allocated :: history) := by
  have fresh := entries.unborn queue.allocated (Nat.le_refl _)
  have joined : run (.enqueued call.submission queue.allocated :: history) queue.allocated =
      [call.submission] := by
    unfold run at fresh ⊢
    rw [List.filterMap_cons_some (show InboundEvent.joined? _ _ = some call.submission by
      simp [InboundEvent.joined?]), fresh]
  have others : ∀ ref, ref ≠ queue.allocated →
      run (.enqueued call.submission queue.allocated :: history) ref = run history ref := by
    intro ref different
    exact List.filterMap_cons_none (by simp [InboundEvent.joined?, Ne.symm different])
  have held : ∀ ref, ref ≠ queue.allocated →
      (queue.enqueue call).queue.objects ref = queue.objects ref :=
    fun ref different => Function.update_of_ne different _ _
  have own : (queue.enqueue call).queue.objects queue.allocated =
      { event := call.submission.event, size := call.size } := Function.update_self _ _ _
  have older : ∀ ref, run history ref ≠ [] → ref ≠ queue.allocated := by
    rintro ref joined rfl
    exact joined fresh
  have born_or_new : ∀ ref, ref < (queue.enqueue call).queue.allocated →
      ref = queue.allocated ∨ (ref ≠ queue.allocated ∧ ref < queue.allocated) := by
    intro ref born
    have bound : ref < queue.allocated + 1 := born
    omega
  constructor
  · have removals := entries.removals
    simp only [InboundEventQueue.enqueue]
    rw [List.range_succ]
    refine List.Perm.trans ?_ (removals.append_right [queue.allocated])
    simp only [List.append_assoc]
    exact List.perm_append_comm.append_left _
  · intro ref beyond
    have bound : queue.allocated + 1 ≤ ref := beyond
    rw [others ref (by omega)]
    exact entries.unborn ref (by omega)
  · intro ref born
    rcases born_or_new ref born with rfl | ⟨different, born⟩
    · rw [joined, own]
      exact .inl ⟨call.submission, rfl, rfl⟩
    · rw [others ref different, held ref different]
      exact entries.stands ref born
  · intro ref born
    rcases born_or_new ref born with rfl | ⟨different, born⟩
    · rw [joined]
      refine singleton_infix (List.mem_filter.mpr ⟨counted, ?_⟩)
      simp [relevant, contextOf?, own]
    · unfold contextOf?
      rw [others ref different, held ref different]
      exact entries.contiguous ref born
  · intro ref item member
    simp only [List.mem_cons, reduceCtorEq, false_or] at member
    have kept := entries.delivered ref item member
    have gone : ref ∈ removed history := by
      rcases member with member | member
      all_goals exact List.mem_filterMap.mpr ⟨_, member, rfl⟩
    have born : ref < queue.allocated :=
      List.mem_range.mp (entries.removals.subset (List.mem_append_right _ gone))
    rw [held ref (Nat.ne_of_lt born)]
    exact kept
  · intro ref item member
    simp only [List.mem_cons, reduceCtorEq, false_or] at member
    exact entries.rotations ref item member
  · intro context ref points
    cases mine : coalescingContext? call.submission.event with
    | none => simp [InboundEventQueue.enqueue, mine] at points
    | some own_context =>
        have keyed : ∀ barrier other, InboundEvent.enqueued call.submission queue.allocated =
            .enqueued barrier other → coalescingContext? barrier.event ≠ none := by
          rintro barrier other same
          cases same
          simp [mine]
        intro behind
        have earlier := barrierBehind_cons keyed ref behind
        simp only [InboundEventQueue.enqueue, mine] at points
        by_cases same : context = own_context
        · subst same
          simp only [Function.update_self, Option.some.injEq] at points
          subst points
          obtain ⟨first, barrier, other, _, precedes⟩ := earlier
          have joined_before : first ∈ run history queue.allocated :=
            List.mem_filterMap.mpr ⟨_, precedes.older_mem, by simp [InboundEvent.joined?]⟩
          rw [fresh] at joined_before
          contradiction
        · rw [Function.update_of_ne same] at points
          exact entries.unbarred context ref points earlier

/-- The call is the newest one seen, or it is no rotation. -/
def Sees (call : SubmitCall) (seen extended : List Submission) : Prop :=
  extended = call.submission :: seen ∨
    extended = seen ∧ call.submission.event.isDialRotate = false

/-- A call of another context does not show in the lane of a context. -/
theorem Sees.filter_eq {extended : List Submission} {context : Str}
    (sees : Sees call seen extended)
    (keyed : coalescingContext? call.submission.event ≠ none)
    (other : coalescingContext? call.submission.event ≠ some context) :
    extended.filter (relevant (some context)) = seen.filter (relevant (some context)) := by
  rcases sees with rfl | ⟨rfl, _⟩
  · exact List.filter_cons_of_neg (by simp [relevant, keyed, other])
  · rfl

theorem Growing.refuse {extended : List Submission} (growing : Growing queue history seen)
    (sees : Sees call seen extended) :
    Growing (queue.breakContextCoalescing call.submission.event) history extended := by
  intro context ref points rotation
  obtain ⟨points, keyed, other⟩ := breakContextCoalescing_points points
  rw [sees.filter_eq keyed other]
  refine growing context ref points ?_
  rw [breakContextCoalescing_eq] at rotation
  exact rotation

theorem Growing.enqueue {extended : List Submission} (growing : Growing queue history seen)
    (linked : queue.Linked) (entries : Entries queue history) (sees : Sees call seen extended) :
    Growing (queue.enqueue call).queue (.enqueued call.submission queue.allocated :: history)
      extended := by
  intro context ref points rotation
  cases mine : coalescingContext? call.submission.event with
  | none => simp [InboundEventQueue.enqueue, mine] at points
  | some own =>
      simp only [InboundEventQueue.enqueue, mine] at points
      by_cases same : context = own
      · subst same
        simp only [Function.update_self, Option.some.injEq] at points
        subst points
        have joined : run (.enqueued call.submission queue.allocated :: history)
            queue.allocated = [call.submission] := by
          have fresh := entries.unborn queue.allocated (Nat.le_refl _)
          unfold run at fresh ⊢
          rw [List.filterMap_cons_some (show InboundEvent.joined? _ _ = some call.submission by
      simp [InboundEvent.joined?]),
            fresh]
        rcases sees with rfl | ⟨_, keyed⟩
        · rw [joined, List.filter_cons_of_pos (by simp [relevant, mine])]
          exact (List.prefix_cons_inj _).mpr List.nil_prefix
        · simp [isRotation, InboundEventQueue.enqueue, keyed] at rotation
      · rw [Function.update_of_ne same] at points
        have member := (linked.pointed context ref points).1
        have older : ref ≠ queue.allocated := Nat.ne_of_lt (linked.allocated ref member)
        rw [sees.filter_eq (by simp [mine]) (by simpa [mine] using Ne.symm same),
          show run (.enqueued call.submission queue.allocated :: history) ref = run history ref from
            List.filterMap_cons_none (by simp [InboundEvent.joined?, Ne.symm older])]
        refine growing context ref points ?_
        simpa [isRotation, InboundEventQueue.enqueue, older] using rotation

/-- A rotation that joins an entry. -/
theorem Entries.coalesce {replacementSize : Nat} (entries : Entries queue history)
    (linked : queue.Linked) (growing : Growing queue history seen)
    (counted : submissions history = call.submission :: seen)
    (merged : queue.coalesce call.submission.event replacementSize = some (next, ref)) :
    Entries next (.coalesced call.submission ref :: history) ∧
      Growing next (.coalesced call.submission ref :: history) (call.submission :: seen) := by
  obtain ⟨rotation, previous, event, held, points, same, _, rfl⟩ := coalesce_spec merged
  obtain ⟨member, own_lane, _⟩ := linked.pointed _ _ points
  have born := linked.allocated ref member
  have joined : run (.coalesced call.submission ref :: history) ref =
      call.submission :: run history ref :=
    List.filterMap_cons_some (by simp [InboundEvent.joined?])
  have others : ∀ other, other ≠ ref →
      run (.coalesced call.submission ref :: history) other = run history other := by
    intro other different
    exact List.filterMap_cons_none (by simp [InboundEvent.joined?, Ne.symm different])
  have rotates : coalescingContext? call.submission.event = some rotation.context := by
    rw [event]
    rfl
  have counted_relevant : relevant (some rotation.context) call.submission = true := by
    simp [relevant, rotates]
  have extends_lane : call.submission :: run history ref <+:
      (call.submission :: seen).filter (relevant (some rotation.context)) := by
    rw [List.filter_cons_of_pos counted_relevant]
    refine (List.prefix_cons_inj _).mpr (growing _ ref points ?_)
    simp [isRotation, held, StreamDockEvent.isDialRotate]
  constructor
  · constructor
    · exact entries.removals
    · intro other beyond
      rw [others other (by rintro rfl; exact absurd born (Nat.not_lt.mpr beyond))]
      exact entries.unborn other beyond
    · intro other other_born
      by_cases here : other = ref
      · subst here
        have stands := entries.stands other other_born
        rw [held] at stands
        rw [joined]
        simp only [Function.update_self]
        exact stands.merge event (sameRotation_sound same)
      · rw [others other here]
        simp only [Function.update_of_ne here]
        exact entries.stands other other_born
    · intro other other_born
      by_cases here : other = ref
      · subst here
        rw [joined]
        have lane_eq : coalescingContext? (Function.update queue.objects other
            { event := .dialRotate { rotation with ticks := previous.ticks + rotation.ticks }
              size := replacementSize } other).event = some rotation.context := by
          rw [Function.update_self]
          rfl
        unfold contextOf? lane
        rw [lane_eq, show submissions (.coalesced call.submission other :: history) =
          call.submission :: seen from counted]
        exact extends_lane.isInfix
      · unfold contextOf?
        rw [others other here]
        simp only [Function.update_of_ne here]
        exact entries.contiguous other other_born
    · intro other item leaves
      simp only [List.mem_cons, reduceCtorEq, false_or] at leaves
      have gone : other ∈ removed history := by
        rcases leaves with leaves | leaves
        all_goals exact List.mem_filterMap.mpr ⟨_, leaves, rfl⟩
      have different : other ≠ ref := by
        rintro rfl
        have distinct := entries.removals.nodup_iff.mpr List.nodup_range
        exact (List.nodup_append.mp distinct).2.2 other member other gone rfl
      simp only [Function.update_of_ne different]
      exact entries.delivered other item leaves
    · intro other item leaves
      simp only [List.mem_cons, reduceCtorEq, false_or] at leaves
      exact entries.rotations other item leaves
    · intro context other pointed behind
      refine entries.unbarred context other pointed (barrierBehind_cons ?_ other behind)
      intro barrier entry impossible
      cases impossible
  · intro context other pointed turning
    by_cases here : other = ref
    · subst here
      have lane_other := (linked.pointed context other pointed).2.1
      rw [own_lane, Option.some.injEq] at lane_other
      rw [joined, ← lane_other]
      exact extends_lane
    · have different : context ≠ rotation.context := by
        rintro rfl
        rw [points, Option.some.injEq] at pointed
        exact here pointed.symm
      rw [others other here, Sees.filter_eq (show Sees call _ _ from .inl rfl) (by simp [rotates])
        (by simpa [rotates] using Ne.symm different)]
      refine growing context other pointed ?_
      simpa [isRotation, here] using turning

/-- Dropping every queued entry. -/
theorem Entries.discard (entries : Entries queue history) :
    Entries queue.discardQueued ((queue.queue.map .discarded).reverse ++ history) := by
  have unjoined : ∀ ref, run ((queue.queue.map InboundEvent.discarded).reverse ++ history) ref =
      run history ref := by
    intro ref
    unfold run
    rw [List.filterMap_append, List.filterMap_eq_nil_iff.mpr]
    · rfl
    · intro event member
      simp only [List.mem_reverse, List.mem_map] at member
      obtain ⟨other, _, rfl⟩ := member
      rfl
  have unsubmitted : submissions ((queue.queue.map InboundEvent.discarded).reverse ++ history) =
      submissions history := by
    unfold submissions
    rw [List.filterMap_append, List.filterMap_eq_nil_iff.mpr]
    · rfl
    · intro event member
      simp only [List.mem_reverse, List.mem_map] at member
      obtain ⟨other, _, rfl⟩ := member
      rfl
  have taken : removed ((queue.queue.map InboundEvent.discarded).reverse ++ history) =
      queue.queue.reverse ++ removed history := by
    unfold removed
    rw [List.filterMap_append, ← List.map_reverse, List.filterMap_map]
    congr 1
    exact List.filterMap_some
  constructor
  · rw [taken]
    refine List.Perm.trans ?_ entries.removals
    exact (List.reverse_perm _).append_right _
  · intro ref beyond
    rw [unjoined]
    exact entries.unborn ref beyond
  · intro ref born
    rw [unjoined]
    exact entries.stands ref born
  · intro ref born
    unfold lane
    rw [unjoined, unsubmitted]
    exact entries.contiguous ref born
  · intro ref item member
    refine entries.delivered ref item ?_
    simpa using member
  · intro ref item member
    exact entries.rotations ref item (by simpa using member)
  · exact nofun

theorem InboundEventQueue.Evicts.entries {events : List InboundEvent} (evicts : Evicts queue events room)
    (linked : queue.Linked) (entries : Entries queue history)
    (growing : Growing queue history seen) :
    Entries room (events ++ history) ∧ Growing room (events ++ history) seen := by
  induction evicts generalizing history with
  | done => exact ⟨entries, growing⟩
  | drop dropped _ ih =>
      obtain ⟨passed, rest, split, rotation, rfl⟩ := dropQueuedRotation_spec dropped
      rw [List.append_assoc]
      exact ih (linked.drop dropped)
        ((entries.remove linked split (.inr ⟨rfl, rotation⟩)).frame countDropped_sameContents)
        ((growing.remove linked passed fun _ => rfl).frame countDropped_sameContents)

theorem Entries.refuse (entries : Entries queue history) (submission : Submission) :
    Entries (queue.refuse submission).queue (.refused submission :: history) := by
  simp only [InboundEventQueue.refuse]
  rw [breakContextCoalescing_eq]
  exact (entries.forget fun context ref points => (breakContextCoalescing_points points).1).log
    ⟨fun _ => rfl, rfl⟩

theorem InboundEventQueue.Decides.entries {result : SubmitResult} {extended : List Submission}
    (decides : Decides room call result) (linked : room.Linked) (entries : Entries room history)
    (growing : Growing room history seen) (counted : call.submission ∈ submissions history)
    (sees : Sees call seen extended) :
    Entries result.queue (result.events ++ history) ∧
      Growing result.queue (result.events ++ history) extended := by
  cases decides with
  | enqueue => exact ⟨entries.enqueue counted, growing.enqueue linked entries sees⟩
  | dropNewest =>
      have same : SameContents room { room with droppedNewest := room.droppedNewest + 1 } := by
        constructor <;> rfl
      exact ⟨(entries.frame same).refuse _,
        ((growing.frame same).refuse sees).log ⟨fun _ => rfl, rfl⟩⟩
  | rejectFull =>
      have same : SameContents room { room with rejectedFull := room.rejectedFull + 1 } := by
        constructor <;> rfl
      exact ⟨(entries.frame same).refuse _,
        ((growing.frame same).refuse sees).log ⟨fun _ => rfl, rfl⟩⟩
  | wait count keyed still =>
      refine ⟨entries.frame (by constructor <;> rfl), ?_⟩
      intro context ref points rotation
      have member := (linked.pointed context ref points).1
      have turning : room.isRotation ref = true := rotation
      rw [still ref member] at turning
      contradiction

theorem InboundEventQueue.Settles.entries {result : SubmitResult} {extended : List Submission}
    (settles : Settles queue call result) (linked : queue.Linked)
    (entries : Entries queue history)
    (growing : queue.accepting = true → Growing queue history seen)
    (counted : call.submission ∈ submissions history) (sees : Sees call seen extended)
    (all_seen : extended = submissions history) :
    Entries result.queue (result.events ++ history) ∧
      (result.queue.accepting = true →
        Growing result.queue (result.events ++ history) extended) := by
  cases settles with
  | closed closed =>
      refine ⟨(entries.frame (by constructor <;> rfl)).log ⟨fun _ => rfl, rfl⟩, ?_⟩
      intro accepting
      have open_ : queue.accepting = true := accepting
      rw [closed] at open_
      contradiction
  | closedWaiting closed =>
      refine ⟨Entries.refuse (entries.frame (by constructor <;> rfl)) _, ?_⟩
      intro accepting
      simp only [InboundEventQueue.refuse] at accepting
      rw [breakContextCoalescing_eq] at accepting
      have open_ : queue.accepting = true := accepting
      rw [closed] at open_
      contradiction
  | oversized =>
      have same : SameContents queue
          { queue with rejectedOversized := queue.rejectedOversized + 1 } := by
        constructor <;> rfl
      refine ⟨(entries.frame same).refuse _, ?_⟩
      intro accepting
      simp only [InboundEventQueue.refuse] at accepting
      rw [breakContextCoalescing_eq] at accepting
      exact (((growing accepting).frame same).refuse sees).log ⟨fun _ => rfl, rfl⟩
  | coalesce accepting merged =>
      have turning : call.submission.event.isDialRotate = true := by
        obtain ⟨rotation, _, event, _⟩ := coalesce_spec merged
        rw [event]
        rfl
      rcases sees with rfl | ⟨_, keyed⟩
      · obtain ⟨kept, grows⟩ := entries.coalesce linked (growing accepting) all_seen.symm merged
        exact ⟨kept.frame (by constructor <;> rfl),
          fun _ => grows.frame (by constructor <;> rfl)⟩
      · rw [turning] at keyed
        contradiction
  | @decide emptied evictions result accepting evicts decides =>
      obtain ⟨kept, grows⟩ := evicts.entries linked entries (growing accepting)
      have counted_still : call.submission ∈ submissions (evictions ++ history) := by
        unfold submissions
        rw [List.filterMap_append]
        exact List.mem_append_right _ counted
      obtain ⟨kept, grows⟩ :=
        decides.entries (evicts.linked linked) kept grows counted_still sees
      rw [List.append_assoc]
      exact ⟨kept, fun _ => grows⟩

end Entries

end StreamDockSdk.Messaging
