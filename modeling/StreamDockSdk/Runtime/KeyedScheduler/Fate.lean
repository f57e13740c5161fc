import StreamDockSdk.Runtime.KeyedScheduler.Ordering

namespace StreamDockSdk.Runtime

open Messaging Automaton KeyedSerialHandlerScheduler

namespace KeyedWorld

variable {world before after : KeyedWorld}

structure FateSound (world : KeyedWorld) : Prop where
  waiting : ∀ work ∈ world.scheduler.pending, .dispatched work ∉ world.history ∧
    .discarded work ∉ world.history ∧ ∀ index, world.activeAt index ≠ some work
  running : ∀ index work, world.activeAt index = some work → .discarded work ∉ world.history
  dispatched : ∀ work, .dispatched work ∈ world.history →
    .accepted work ∈ world.history ∧ .discarded work ∉ world.history
  discarded : ∀ work, .discarded work ∈ world.history → .accepted work ∈ world.history

/-- A step whose events neither dispatch nor discard, and that makes no work
pending or active. -/
theorem FateSound.frame (sound : before.FateSound) (events : List KeyedEvent)
    (history : after.history = events ++ before.history)
    (quiet : ∀ work, .dispatched work ∉ events ∧ .discarded work ∉ events)
    (pending : after.scheduler.pending = before.scheduler.pending)
    (active : ∀ index work, after.activeAt index = some work →
      before.activeAt index = some work) : after.FateSound := by
  have dispatched : ∀ work, .dispatched work ∈ after.history ↔
      .dispatched work ∈ before.history := by
    intro work
    simp [history, (quiet work).1]
  have discarded : ∀ work, .discarded work ∈ after.history ↔
      .discarded work ∈ before.history := by
    intro work
    simp [history, (quiet work).2]
  have accepted : ∀ work, .accepted work ∈ before.history → .accepted work ∈ after.history := by
    intro work member
    rw [history]
    exact List.mem_append_right _ member
  constructor
  · intro work member
    rw [pending] at member
    rw [dispatched, discarded]
    obtain ⟨undispatched, undiscarded, idle⟩ := sound.waiting work member
    exact ⟨undispatched, undiscarded, fun index busy => idle index (active index work busy)⟩
  · intro index work busy
    rw [discarded]
    exact sound.running index work (active index work busy)
  · intro work member
    rw [dispatched] at member
    rw [discarded]
    exact ⟨accepted work (sound.dispatched work member).1, (sound.dispatched work member).2⟩
  · intro work member
    rw [discarded] at member
    exact accepted work (sound.discarded work member)

theorem FateSound.take (sound : before.FateSound) (order : before.OrderSound) {index : Nat}
    {work : ScheduledWork} {next : KeyedSerialHandlerScheduler}
    (found : before.threads[index]? = some .ready)
    (taken : before.scheduler.takeInternalWork index = some (next, work)) :
    FateSound { before with
      scheduler := next
      threads := before.threads.set index (.taken work) } := by
  obtain ⟨passed, rest, split, rfl, _⟩ := takeInternalWork_spec taken
  have remaining := activate_pending split index
  have seen : ∀ other, (before.threads.set index (.taken work))[other]?.bind ThreadPc.active? =
      if other = index then some work else before.activeAt other := look_set found
  have chosen : work ∈ before.scheduler.pending := by
    rw [split]
    simp
  have sorted := order.sorted
  rw [split] at sorted
  obtain ⟨_, behind, across⟩ := List.pairwise_append.mp sorted
  constructor
  · intro other member
    dsimp only at member
    rw [remaining] at member
    have earlier : other ∈ before.scheduler.pending := by
      rw [split]
      rcases List.mem_append.mp member with member | member <;> simp [member]
    have different : work ≠ other := by
      rintro rfl
      rcases List.mem_append.mp member with member | member
      · exact Nat.lt_irrefl _ (across work member work List.mem_cons_self)
      · exact Nat.lt_irrefl _ ((List.pairwise_cons.mp behind).1 work member)
    obtain ⟨undispatched, undiscarded, idle⟩ := sound.waiting other earlier
    refine ⟨undispatched, undiscarded, fun position busy => ?_⟩
    simp only [activeAt, seen] at busy
    split at busy
    · exact different (Option.some.inj busy)
    · exact idle position busy
  · intro position other busy
    simp only [activeAt, seen] at busy
    split at busy
    · rw [← Option.some.inj busy]
      exact (sound.waiting work chosen).2.1
    · exact sound.running position other busy
  · exact sound.dispatched
  · exact sound.discarded

theorem FateSound.dispatch (sound : before.FateSound) (order : before.OrderSound) {index : Nat}
    {work : ScheduledWork} (found : before.threads[index]? = some (.taken work)) :
    FateSound { before with
      threads := before.threads.set index (.dispatching work)
      history := .dispatched work :: before.history } := by
  have busy : before.activeAt index = some work := activeAt_found found
  have seen : ∀ other, (before.threads.set index (.dispatching work))[other]?.bind
      ThreadPc.active? = before.activeAt other := by
    intro other
    rw [look_set found]
    split
    · next here => rw [here, busy, ThreadPc.active?]
    · rfl
  constructor
  · intro other member
    obtain ⟨undispatched, undiscarded, idle⟩ := sound.waiting other member
    refine ⟨?_, by simpa using undiscarded, fun position => ?_⟩
    · simp only [List.mem_cons, KeyedEvent.dispatched.injEq, not_or]
      refine ⟨?_, undispatched⟩
      rintro rfl
      exact idle index busy
    · simp only [activeAt, seen]
      exact idle position
  · intro position other active
    simp only [activeAt, seen] at active
    simpa using sound.running position other active
  · intro other member
    simp only [List.mem_cons, KeyedEvent.dispatched.injEq, reduceCtorEq, false_or] at member ⊢
    rcases member with rfl | member
    · exact ⟨order.active_accepted index other busy, sound.running index other busy⟩
    · exact sound.dispatched other member
  · intro other member
    simp only [List.mem_cons, reduceCtorEq, false_or] at member ⊢
    exact sound.discarded other member

theorem FateSound.clear (sound : before.FateSound) (order : before.OrderSound) {index : Nat}
    {caller : DiscardCaller} (found : before.threads[index]? = some (.discarding caller .entering)) :
    FateSound { before with
      scheduler := before.scheduler.clearPending
      threads := before.threads.set index
        (.discarding caller (.finishing before.scheduler.pending false))
      history := (before.scheduler.pending.map .discarded).reverse ++ before.history } := by
  have seen : ∀ other, (before.threads.set index
      (.discarding caller (.finishing before.scheduler.pending false)))[other]?.bind
        ThreadPc.active? = before.activeAt other := by
    intro other
    rw [look_set found]
    split
    · next same =>
      rw [same, activeAt_found found]
      rfl
    · rfl
  constructor
  · intro work member
    contradiction
  · intro position work busy
    simp only [activeAt, seen] at busy
    simp only [List.mem_append, List.mem_reverse, List.mem_map, KeyedEvent.discarded.injEq,
      exists_eq_right, not_or]
    exact ⟨fun member => (sound.waiting work member).2.2 position busy,
      sound.running position work busy⟩
  · intro work member
    simp only [List.mem_append, List.mem_reverse, List.mem_map, reduceCtorEq, and_false,
      exists_false, false_or] at member
    obtain ⟨accepted, undiscarded⟩ := sound.dispatched work member
    refine ⟨List.mem_append_right _ accepted, ?_⟩
    simp only [List.mem_append, List.mem_reverse, List.mem_map, KeyedEvent.discarded.injEq,
      exists_eq_right, not_or]
    exact ⟨fun waiting => (sound.waiting work waiting).1 member, undiscarded⟩
  · intro work member
    simp only [List.mem_append, List.mem_reverse, List.mem_map, KeyedEvent.discarded.injEq,
      exists_eq_right] at member
    rcases member with waiting | member
    · exact List.mem_append_right _ (order.pending_accepted work waiting)
    · exact List.mem_append_right _ (sound.discarded work member)

theorem FateSound.admission (sound : before.FateSound) (order : before.OrderSound)
    (item : SizedEvent) (blocked : List SizedEvent) :
    FateSound { before with
      scheduler := (before.scheduler.admitItem item).1
      blocked
      history := .accepted (before.scheduler.newWork item) :: before.history } := by
  have unknown : .accepted (before.scheduler.newWork item) ∉ before.history := by
    intro member
    exact Nat.lt_irrefl _ (order.issued _ member)
  constructor
  · intro work member
    simp only [List.mem_cons, reduceCtorEq, false_or]
    rcases List.mem_append.mp member with member | last
    · exact sound.waiting work member
    · rw [List.mem_singleton.mp last]
      exact ⟨fun member => unknown (sound.dispatched _ member).1,
        fun member => unknown (sound.discarded _ member),
        fun index busy => unknown (order.active_accepted index _ busy)⟩
  · intro index work busy
    simp only [List.mem_cons, reduceCtorEq, false_or]
    exact sound.running index work busy
  · intro work member
    simp only [List.mem_cons, reduceCtorEq, false_or] at member ⊢
    exact ⟨.inr (sound.dispatched work member).1, (sound.dispatched work member).2⟩
  · intro work member
    simp only [List.mem_cons, reduceCtorEq, false_or] at member
    exact List.mem_cons_of_mem _ (sound.discarded work member)

theorem Transition.fateSound (transition : Transition before after) (active : before.ActiveSound)
    (order : before.OrderSound) (sound : before.FateSound) : after.FateSound := by
  cases transition with
  | @thread index pc next found advances =>
      have still (fewer : ∀ work, next.pc.active? = some work → pc.active? = some work)
          (other : Nat) (work : ScheduledWork)
          (busy : (before.threads.set index next.pc)[other]?.bind ThreadPc.active? = some work) :
          before.activeAt other = some work := by
        rw [look_set found] at busy
        split at busy
        · next here =>
          rw [here, activeAt_found found]
          exact fewer work busy
        · exact busy
      cases advances with
      | take taken => exact sound.take order found taken
      | dispatch work => exact sound.dispatch order found
      | clear caller => exact sound.clear order found
      | release work reply observerFailed =>
          exact sound.frame [] rfl (by simp) rfl (still (by simp))
      | leaveDiscard caller observerFailed =>
          exact sound.frame [] rfl (by simp) rfl (still (by simp))
      | leave | refuse | giveUp | exit | drained | timeOut | count =>
          exact sound.frame [] rfl (by simp) rfl (still fun _ => id)
      | answer | fail | finish | discard =>
          exact sound.frame [_] rfl (by simp) rfl (still fun _ => id)
  | admission accepting room => exact sound.admission order _ _
  | housekeeping kept =>
      obtain ⟨same, history, reshaped⟩ := kept.frame active.launch
      refine sound.frame [] history (by simp) same.pending ?_
      intro index work busy
      exact (reshaped.view (fun _ => ThreadPc.Idle.inactive) index).symm.trans busy

theorem fateSound {config : SchedulerConfig} {world : KeyedWorld}
    (reachable : (keyedSystem config).Reachable world) : world.FateSound := by
  refine reachable.invariant_given (fun world => world.ActiveSound ∧ world.OrderSound)
    (fun _ reached => ⟨activeSound reached, orderSound reached⟩) ?_
    fun _ _ _ known sound stepped => (step_cases stepped).fateSound known.1 known.2 sound
  rintro _ rfl
  constructor <;> simp [activeAt]

/-- Of two conflicting works that are both dispatched, the one accepted first is
completed before the other is dispatched. -/
theorem FateSound.completed_before (sound : world.FateSound) (order : world.OrderSound)
    {newer older : List KeyedEvent} {first second : ScheduledWork}
    (split : world.history = newer ++ .dispatched second :: older)
    (dispatched : .dispatched first ∈ world.history) (earlier : first.token < second.token)
    (conflict : first.Conflicts second) :
    (∃ reply, .returned first reply ∈ older) ∧ .finished first ∈ older := by
  have law := order.law
  rw [split] at law
  obtain ⟨second_accepted, ordered⟩ := law.at_event
  obtain ⟨first_accepted, undiscarded⟩ := sound.dispatched first dispatched
  rw [split] at first_accepted undiscarded
  have accepted : .accepted first ∈ older := by
    rcases List.mem_append.mp first_accepted with late | accepted
    · obtain ⟨later, between, newer_eq⟩ := List.append_of_mem late
      rw [newer_eq, List.append_assoc, List.cons_append] at law
      have reversed := law.at_event second (by simp [second_accepted])
      omega
    · simpa using accepted
  rcases ordered first accepted earlier conflict with done | discarded
  · exact done
  · exact absurd (by simp [discarded]) undiscarded

end KeyedWorld

end StreamDockSdk.Runtime
