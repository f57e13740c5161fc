import Mathlib.Data.List.Perm.Basic
import StreamDockSdk.Messaging.Inbound.Coalescing

namespace StreamDockSdk.Messaging

open Automaton InboundEventQueue

namespace InboundEventQueue

variable {queue next room : InboundEventQueue} {ref : Nat} {call : SubmitCall}
  {history : List InboundEvent} {undecided : List Submission}

/-- The parts of the queue that the end of a call of `submit` leaves alone. -/
structure SameCalls (before after : InboundEventQueue) : Prop where
  submitted : after.submitted = before.submitted
  config : after.config = before.config

theorem SameCalls.trans {first second third : InboundEventQueue} (left : SameCalls first second)
    (right : SameCalls second third) : SameCalls first third :=
  ⟨right.submitted.trans left.submitted, right.config.trans left.config⟩

theorem SameCalls.refuse (same : SameCalls queue next) (submission : Submission) :
    SameCalls queue (next.refuse submission).queue := by
  simp only [InboundEventQueue.refuse]
  rw [breakContextCoalescing_eq]
  exact ⟨same.submitted, same.config⟩

theorem Evicts.sameCalls {events : List InboundEvent} (evicts : Evicts queue events room) :
    SameCalls queue room := by
  induction evicts with
  | done => exact ⟨rfl, rfl⟩
  | drop dropped _ ih =>
      obtain ⟨passed, rest, _, _, rfl⟩ := dropQueuedRotation_spec dropped
      refine SameCalls.trans ?_ ih
      rw [removeAt_eq]
      unfold countDropped
      dsimp only
      split <;> exact ⟨rfl, rfl⟩

theorem Settles.sameCalls {result : SubmitResult} (settles : Settles queue call result) :
    SameCalls queue result.queue := by
  cases settles with
  | closed => exact ⟨rfl, rfl⟩
  | closedWaiting | oversized =>
      refine SameCalls.refuse ?_ _
      exact ⟨rfl, rfl⟩
  | coalesce _ merged =>
      obtain ⟨_, _, _, _, _, _, _, rfl⟩ := coalesce_spec merged
      exact ⟨rfl, rfl⟩
  | decide _ evicts decides =>
      refine evicts.sameCalls.trans ?_
      cases decides with
      | enqueue => exact ⟨rfl, rfl⟩
      | dropNewest | rejectFull =>
          refine SameCalls.refuse ?_ _
          exact ⟨rfl, rfl⟩
      | wait => exact ⟨rfl, rfl⟩

theorem Evicts.events_evicted {events : List InboundEvent} (evicts : Evicts queue events room) :
    ∀ event ∈ events, ∃ ref item, event = .evicted ref item := by
  induction evicts with
  | done => simp
  | drop _ _ ih =>
      intro event member
      rcases List.mem_append.mp member with member | member
      · exact ih event member
      · exact ⟨_, _, List.mem_singleton.mp member⟩

/-- Only a call that is no rotation waits, and any other is decided now. -/
theorem Settles.ledger {result : SubmitResult} (settles : Settles queue call result)
    (ledger : Ledger history (call.submission :: undecided)) :
    (result.waits = true → call.submission.event.isDialRotate = false) ∧
    Ledger (result.events ++ history)
      (if result.waits then call.submission :: undecided else undecided) := by
  cases settles with
  | closed | closedWaiting | oversized => exact ⟨nofun, ledger.decide rfl rfl⟩
  | coalesce => exact ⟨nofun, ledger.decide rfl rfl⟩
  | @decide emptied evictions result accepting evicts decides =>
      have quiet := ledger.quiet evictions fun event member => by
        obtain ⟨ref, item, rfl⟩ := evicts.events_evicted event member
        exact ⟨rfl, rfl⟩
      rw [List.append_assoc]
      cases decides with
      | enqueue => exact ⟨nofun, quiet.decide rfl rfl⟩
      | dropNewest | rejectFull => exact ⟨nofun, quiet.decide rfl rfl⟩
      | wait count keyed => exact ⟨fun _ => keyed, quiet⟩

theorem Settles.submissions_eq {result : SubmitResult} (settles : Settles queue call result)
    (history : List InboundEvent) :
    submissions (result.events ++ history) = submissions history := by
  unfold submissions
  rw [List.filterMap_append, List.filterMap_eq_nil_iff.mpr]
  · rfl
  intro event member
  cases settles with
  | closed | closedWaiting | oversized | coalesce =>
      rw [List.mem_singleton.mp member]
      rfl
  | decide _ evicts decides =>
      rcases List.mem_append.mp member with member | member
      · cases decides with
        | enqueue | dropNewest | rejectFull =>
            rw [List.mem_singleton.mp member]
            rfl
        | wait => contradiction
      · obtain ⟨_, _, rfl⟩ := evicts.events_evicted event member
        rfl

end InboundEventQueue

namespace InboundWorld

variable {world before after : InboundWorld}

structure RunSound (world : InboundWorld) : Prop where
  ledger : Ledger world.history (world.waiting.map (·.submission))
  numbered : ∀ submission ∈ submissions world.history, submission.number ≤ world.queue.submitted
  entries : Entries world.queue world.history
  growing : world.queue.accepting = true →
    Growing world.queue world.history (submissions world.history)
  waiters : ∀ call ∈ world.waiting, call.submission.event.isDialRotate = false

/-- A part of `submit` for a call that is counted, undecided and not parked. -/
theorem RunSound.settle (before : InboundWorld) {call : SubmitCall} {result : SubmitResult}
    {seen : List Submission} {queue : InboundEventQueue} (settles : Settles queue call result) (linked : queue.Linked)
    (ledger : Ledger before.history
      (call.submission :: before.waiting.map (·.submission)))
    (numbered : ∀ submission ∈ submissions before.history, submission.number ≤ queue.submitted)
    (entries : Entries queue before.history)
    (growing : queue.accepting = true → Growing queue before.history seen)
    (sees : Sees call seen (submissions before.history))
    (waiters : ∀ call ∈ before.waiting, call.submission.event.isDialRotate = false) :
    (before.settle call result).RunSound := by
  obtain ⟨keyed, decided⟩ := settles.ledger ledger
  obtain ⟨kept, grows⟩ := settles.entries linked entries growing
    (ledger.undecided_mem List.mem_cons_self) sees rfl
  have same := settles.submissions_eq before.history
  constructor
  · unfold InboundWorld.settle
    dsimp only
    cases waits : result.waits with
    | false => simpa [waits] using decided
    | true =>
        simp only [waits, if_true, List.map_append, List.map_singleton] at decided ⊢
        exact decided.perm (List.perm_append_comm.trans (by simp))
  · intro submission member
    have counted : submission ∈ submissions (result.events ++ before.history) := member
    rw [same] at counted
    exact settles.sameCalls.submitted ▸ numbered submission counted
  · exact kept
  · intro accepting
    have open_ := grows accepting
    rw [← same] at open_
    exact open_
  · intro other member
    unfold InboundWorld.settle at member
    dsimp only at member
    split at member
    · next waits =>
      rcases List.mem_append.mp member with member | member
      · exact waiters other member
      · rw [List.mem_singleton.mp member]
        exact keyed waits
    · exact waiters other member

theorem eraseIdx_perm {Value : Type} {values : List Value} {index : Nat} {value : Value}
    (found : values[index]? = some value) : (value :: values.eraseIdx index).Perm values := by
  obtain ⟨within, rfl⟩ := List.getElem?_eq_some_iff.mp found
  exact List.getElem_cons_eraseIdx_perm within

theorem Transition.runSound (transition : Transition before after) (linked : before.queue.Linked)
    (sound : before.RunSound) : after.RunSound := by
  cases transition with
  | @submitted call result number settles =>
      have same : SameContents before.queue
          { before.queue with submitted := before.queue.submitted + 1 } := by
        constructor <;> rfl
      have silent : (InboundEvent.submitted call.submission).Silent := ⟨fun _ => rfl, rfl⟩
      refine RunSound.settle { before with
        history := .submitted call.submission :: before.history } settles (linked.frame same)
        (sound.ledger.submit ?_) ?_ ((sound.entries.frame same).log silent)
        (fun accepting => ((sound.growing accepting).frame same).log silent)
        (.inl rfl) sound.waiters
      · intro other member
        have bound := sound.numbered other member
        omega
      · intro other member
        rcases List.mem_cons.mp member with rfl | member
        · exact Nat.le_of_eq number
        · exact Nat.le_succ_of_le (sound.numbered other member)
  | @resumed index call result found settles =>
      have parked : (call.submission :: (before.waiting.eraseIdx index).map (·.submission)).Perm
          (before.waiting.map (·.submission)) := (eraseIdx_perm found).map _
      exact RunSound.settle { before with waiting := before.waiting.eraseIdx index }
        settles linked (sound.ledger.perm parked) sound.numbered sound.entries sound.growing
        (.inr ⟨rfl, sound.waiters call (List.mem_of_getElem? found)⟩)
        fun other member => sound.waiters other (List.mem_of_mem_eraseIdx member)
  | received received =>
      obtain ⟨queue, ref, taken, rfl, rfl⟩ := receiveAt_spec received
      obtain ⟨passed, rest, split, rfl⟩ := takeAt_spec taken
      have same : SameContents (before.queue.removeAt passed.length ref)
          { before.queue.removeAt passed.length ref with
            dequeued := (before.queue.removeAt passed.length ref).dequeued + 1
            inFlight := (before.queue.removeAt passed.length ref).inFlight + 1 } := by
        constructor <;> rfl
      refine ⟨sound.ledger.quiet [_] ?_, ?_,
        (sound.entries.remove linked split (.inl rfl)).frame same, ?_, sound.waiters⟩
      · intro event member
        rw [List.mem_singleton.mp member]
        exact ⟨rfl, rfl⟩
      · intro submission member
        dsimp only
        rw [removeAt_eq]
        exact sound.numbered submission member
      · intro accepting
        have open_ : before.queue.accepting = true := by
          dsimp only at accepting
          rw [removeAt_eq] at accepting
          exact accepting
        exact ((sound.growing open_).remove linked passed fun _ => rfl).frame same
  | acknowledged acknowledged =>
      unfold taskDone at acknowledged
      split at acknowledged
      · contradiction
      · cases acknowledged
        exact ⟨sound.ledger, sound.numbered, sound.entries.frame (by constructor <;> rfl),
          fun accepting => (sound.growing accepting).frame (by constructor <;> rfl),
          sound.waiters⟩
  | bookkeeping open_ =>
      obtain ⟨removals, unborn, stands, contiguous, delivered, rotations, unbarred⟩ :=
        sound.entries
      exact ⟨sound.ledger, sound.numbered,
        ⟨removals, unborn, stands, contiguous, delivered, rotations, unbarred⟩,
        fun accepting => sound.growing (open_ accepting), sound.waiters⟩
  | discarded =>
      have quiet : ∀ event ∈ (before.queue.queue.map InboundEvent.discarded).reverse,
          event.submitted? = none ∧ event.decided? = none := by
        intro event member
        simp only [List.mem_reverse, List.mem_map] at member
        obtain ⟨ref, _, rfl⟩ := member
        exact ⟨rfl, rfl⟩
      refine ⟨sound.ledger.quiet _ quiet, ?_, sound.entries.discard, nofun, sound.waiters⟩
      intro submission member
      refine sound.numbered submission ?_
      simpa [submissions, InboundEvent.submitted?] using member

theorem config_eq {config : InboundConfig} {world : InboundWorld}
    (reachable : (inboundSystem config).Reachable world) : world.queue.config = config := by
  refine reachable.invariant (motive := fun world => world.queue.config = config) ?_ ?_
  · rintro _ rfl
    rfl
  · intro before label after same stepped
    cases step_cases stepped with
    | submitted _ settles => exact settles.sameCalls.config.trans same
    | resumed _ settles => exact settles.sameCalls.config.trans same
    | received received =>
        obtain ⟨queue, ref, taken, _, rfl⟩ := receiveAt_spec received
        obtain ⟨passed, rest, _, rfl⟩ := takeAt_spec taken
        dsimp only
        rw [removeAt_eq]
        exact same
    | acknowledged acknowledged =>
        unfold taskDone at acknowledged
        split at acknowledged
        · contradiction
        · cases acknowledged
          exact same
    | bookkeeping => exact same
    | discarded => exact same

theorem runSound {config : InboundConfig} {world : InboundWorld}
    (reachable : (inboundSystem config).Reachable world) : world.RunSound := by
  refine reachable.invariant_given (fun world => world.queue.Linked)
    (fun _ => InboundWorld.linked) ?_
    fun _ _ _ linked sound stepped => (step_cases stepped).runSound linked sound
  rintro _ rfl
  have untouched : Entries { config } [] := by
    constructor
    · exact .refl _
    · exact fun _ _ => rfl
    · exact fun ref born => absurd born (Nat.not_lt_zero ref)
    · exact fun ref born => absurd born (Nat.not_lt_zero ref)
    all_goals simp
  exact ⟨⟨.nil, .refl _⟩, by simp [submissions], untouched, by simp [Growing], by simp⟩

theorem accepted_sublist (history : List InboundEvent) :
    (accepted history).Sublist (decided history) := by
  induction history with
  | nil => exact .slnil
  | cons event older ih =>
      cases event with
      | enqueued submission ref | coalesced submission ref => exact ih.cons_cons submission
      | refused submission => exact ih.cons submission
      | _ => exact ih

theorem accepted_iff_joined {history : List InboundEvent} {submission : Submission} :
    submission ∈ accepted history ↔ ∃ ref, submission ∈ run history ref := by
  constructor
  · intro member
    obtain ⟨event, listed, here⟩ := List.mem_filterMap.mp member
    cases event with
    | enqueued first ref | coalesced first ref =>
        refine ⟨ref, List.mem_filterMap.mpr ⟨_, listed, ?_⟩⟩
        simpa [InboundEvent.joined?, InboundEvent.accepted?] using here
    | _ => contradiction
  · rintro ⟨ref, member⟩
    obtain ⟨event, listed, here⟩ := List.mem_filterMap.mp member
    cases event with
    | enqueued first entry | coalesced first entry =>
        refine List.mem_filterMap.mpr ⟨_, listed, ?_⟩
        simp only [InboundEvent.joined?, Option.ite_none_right_eq_some] at here
        exact here.2
    | _ => contradiction

/-- A submission joins one entry only. -/
theorem RunSound.joined_once (sound : world.RunSound) {first second : Nat}
    {submission : Submission} (in_first : submission ∈ run world.history first)
    (in_second : submission ∈ run world.history second) : first = second := by
  have distinct : (accepted world.history).Nodup := by
    have all := sound.ledger.decisions.nodup_iff.mpr sound.ledger.submissions_nodup
    exact (List.nodup_append.mp all).1.sublist (accepted_sublist _)
  have accepts : ∀ ref event, InboundEvent.joined? ref event = some submission →
      event.accepted? = some submission := by
    intro ref event joined
    cases event with
    | enqueued other entry | coalesced other entry =>
        simp only [InboundEvent.joined?, Option.ite_none_right_eq_some] at joined
        exact joined.2
    | _ => contradiction
  obtain ⟨event, listed, joined⟩ := List.mem_filterMap.mp in_first
  obtain ⟨other, other_listed, other_joined⟩ := List.mem_filterMap.mp in_second
  have same := filterMap_injective distinct listed other_listed (accepts _ _ joined)
    (accepts _ _ other_joined)
  subst same
  cases event with
  | enqueued submission entry | coalesced submission entry =>
      simp only [InboundEvent.joined?, Option.ite_none_right_eq_some] at joined other_joined
      exact joined.1.symm.trans other_joined.1
  | _ => contradiction

/-- Every entry that was queued is in the queue, or left it in one way. -/
theorem RunSound.placed (sound : world.RunSound) {ref : Nat}
    (born : ref < world.queue.allocated) : ref ∈ world.queue.queue ∨
      (∃ item, .received ref item ∈ world.history) ∨
      (∃ item, .evicted ref item ∈ world.history) ∨ .discarded ref ∈ world.history := by
  have located := sound.entries.removals.symm.subset (List.mem_range.mpr born)
  rcases List.mem_append.mp located with queued | gone
  · exact .inl queued
  · obtain ⟨event, listed, here⟩ := List.mem_filterMap.mp gone
    cases event with
    | evicted other item =>
        rw [InboundEvent.removed?, Option.some.injEq] at here
        exact .inr (.inr (.inl ⟨item, here ▸ listed⟩))
    | received other item =>
        rw [InboundEvent.removed?, Option.some.injEq] at here
        exact .inr (.inl ⟨item, here ▸ listed⟩)
    | discarded other =>
        rw [InboundEvent.removed?, Option.some.injEq] at here
        exact .inr (.inr (.inr (here ▸ listed)))
    | _ => contradiction

/-- The queue's counters and byte count are exact and within the limits, and
entries other than rotations leave it by being received. -/
theorem accounting_exact {config : InboundConfig} {world : InboundWorld}
    (reachable : (inboundSystem config).Reachable world) :
    world.queue.queue.length ≤ config.queueLimit ∧
    world.queue.currentBytes = world.queue.retainedBytes ∧
    world.queue.currentBytes ≤ config.byteLimit ∧
    world.queue.submitted = world.waiting.length + world.queue.queue.length +
      world.queue.dequeued + world.queue.coalesced + world.queue.droppedNewest +
      world.queue.droppedOldest + world.queue.rejectedFull + world.queue.rejectedAfterShutdown +
      world.queue.rejectedOversized + world.queue.discardedDuringShutdown ∧
    world.queue.dequeued = world.queue.inFlight + world.queue.acknowledged ∧
    ((∀ ref, .discarded ref ∉ world.history) → ∀ submission ref,
      .enqueued submission ref ∈ world.history → submission.event.isDialRotate = false →
        ref ∈ world.queue.queue ∨ ∃ item, .received ref item ∈ world.history) := by
  have counted := accounted reachable
  have sound := runSound reachable
  have same := config_eq reachable
  refine ⟨same ▸ counted.depth, counted.bytes, same ▸ counted.budget, counted.calls,
    counted.receipts, ?_⟩
  intro undiscarded submission ref queued keyed
  have joined : submission ∈ run world.history ref :=
    List.mem_filterMap.mpr ⟨_, queued, by simp [InboundEvent.joined?]⟩
  have born : ref < world.queue.allocated := by
    refine Nat.lt_of_not_le fun beyond => ?_
    rw [sound.entries.unborn ref beyond] at joined
    contradiction
  rcases sound.placed born with inside | received | ⟨item, evicted⟩ | discarded
  · exact .inl inside
  · exact .inr received
  · have rotation := sound.entries.rotations ref item evicted
    rw [sound.entries.delivered ref item (.inr evicted),
      (sound.entries.stands ref born).isDialRotate joined, keyed] at rotation
    contradiction
  · exact absurd discarded (undiscarded ref)

/-- The queue refines the stream of submissions: the index points to last
entries, every entry stands for a contiguous run, and the runs partition the
accepted submissions. -/
theorem coalescing_refines_stream {config : InboundConfig} {world : InboundWorld}
    (reachable : (inboundSystem config).Reachable world) :
    (∀ context ref, world.queue.lastQueuedByContext context = some ref →
      (∃ passed rest, world.queue.queue = passed ++ ref :: rest ∧
        world.queue.contextOf? ref = some context ∧
        ∀ other ∈ rest, world.queue.contextOf? other ≠ some context) ∧
      ¬ BarrierBehind world.history ref) ∧
    (∀ ref < world.queue.allocated,
      Represents (run world.history ref) (world.queue.objects ref).event ∧
        run world.history ref <:+: lane world.history (world.queue.contextOf? ref)) ∧
    (∀ submission, submission ∈ accepted world.history ↔
      ∃ ref < world.queue.allocated, submission ∈ run world.history ref) ∧
    (∀ submission first second, submission ∈ run world.history first →
      submission ∈ run world.history second → first = second) ∧
    (accepted world.history).Nodup ∧
    (world.queue.queue ++ removed world.history).Perm (List.range world.queue.allocated) ∧
    (∀ ref item, .received ref item ∈ world.history ∨ .evicted ref item ∈ world.history →
      Represents (run world.history ref) item.event) := by
  have linked := InboundWorld.linked reachable
  have sound := runSound reachable
  have born : ∀ ref submission, submission ∈ run world.history ref →
      ref < world.queue.allocated := by
    intro ref submission joined
    refine Nat.lt_of_not_le fun beyond => ?_
    rw [sound.entries.unborn ref beyond] at joined
    contradiction
  refine ⟨?_, fun ref exists_ => ⟨sound.entries.stands ref exists_,
    sound.entries.contiguous ref exists_⟩, ?_, fun _ _ _ => sound.joined_once, ?_,
    sound.entries.removals, ?_⟩
  · intro context ref points
    obtain ⟨member, own, behind⟩ := linked.pointed context ref points
    obtain ⟨passed, rest, split⟩ := List.append_of_mem member
    refine ⟨⟨passed, rest, split, own, fun other later => ?_⟩,
      sound.entries.unbarred context ref points⟩
    refine (behind other ?_).1
    rw [split]
    exact (List.Sublist.cons_cons ref (List.singleton_sublist.mpr later)).trans
      (List.sublist_append_right _ _)
  · intro submission
    rw [accepted_iff_joined]
    exact ⟨fun ⟨ref, joined⟩ => ⟨ref, born ref submission joined, joined⟩,
      fun ⟨ref, _, joined⟩ => ⟨ref, joined⟩⟩
  · have all := sound.ledger.decisions.nodup_iff.mpr sound.ledger.submissions_nodup
    exact (List.nodup_append.mp all).1.sublist (accepted_sublist _)
  · intro ref item leaves
    have gone : ref ∈ removed world.history := by
      rcases leaves with leaves | leaves
      all_goals exact List.mem_filterMap.mpr ⟨_, leaves, rfl⟩
    have exists_ : ref < world.queue.allocated :=
      List.mem_range.mp (sound.entries.removals.subset (List.mem_append_right _ gone))
    rw [sound.entries.delivered ref item leaves]
    exact sound.entries.stands ref exists_

end InboundWorld

def coalescingConfig : InboundConfig where
  queueLimit := 2
  overflowPolicy := .dropOldest
  coalesceDialRotations := true
  byteLimit := 64
  queueLimit_pos := by decide
  byteLimit_pos := by decide

def sampleRotation (ticks : Int) : DialRotateEvent where
  action := ⟨[]⟩
  context := ⟨[1]⟩
  device := ⟨[]⟩
  settings := []
  coordinates := { column := 0, row := 0 }
  ticks
  pressed := false
  controller := none

/-- Two rotations are merged and received; an event without a context follows. -/
def mergedLabels : List InboundLabel :=
  [.submit (.dialRotate (sampleRotation 2)) 8 8 false,
    .submit (.dialRotate (sampleRotation 3)) 8 8 false,
    .receive (some 0), .submit .systemDidWakeUp 8 8 false]

def mergedRun : Option InboundWorld :=
  (inboundSystem coalescingConfig).exec { queue := { config := coalescingConfig } } mergedLabels

def mergedWorld : InboundWorld := mergedRun.get (by decide +kernel)

theorem mergedWorld_reachable : (inboundSystem coalescingConfig).Reachable mergedWorld :=
  System.Reachable.exec (.initial rfl) (Option.some_get _).symm

theorem accounting_exact_run :
    mergedWorld.queue.coalesced = 1 ∧
      mergedWorld.queue.currentBytes = mergedWorld.queue.retainedBytes ∧
      mergedWorld.queue.dequeued = mergedWorld.queue.inFlight + mergedWorld.queue.acknowledged :=
  ⟨by decide +kernel, (InboundWorld.accounting_exact mergedWorld_reachable).2.1,
    (InboundWorld.accounting_exact mergedWorld_reachable).2.2.2.2.1⟩

theorem coalescing_refines_stream_run :
    (run mergedWorld.history 0).length = 2 ∧
      Represents (run mergedWorld.history 0) (mergedWorld.queue.objects 0).event :=
  ⟨by decide +kernel,
    ((InboundWorld.coalescing_refines_stream mergedWorld_reachable).2.1 0
      (by decide +kernel)).1⟩

end StreamDockSdk.Messaging
