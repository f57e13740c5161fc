import Mathlib.Logic.Relation
import StreamDockSdk.Runtime.KeyedScheduler.Wakeups

namespace StreamDockSdk.Runtime

open Messaging Automaton KeyedSerialHandlerScheduler

/-- A step that needs no new call and no time-out: a worker, a caller of `stop` or `start`
that is not waiting, or a submitter whose wait has returned.  A callback returns. -/
def KeyedLabel.own : KeyedLabel → Bool
  | .launch _ | .resume _ => true
  | .thread _ move => move != .timedOut
  | _ => false

namespace ParkingWorld

/-- The second world is one own step after the first. -/
def OwnStep (config : SchedulerConfig) (before after : ParkingWorld) : Prop :=
  ∃ label : KeyedLabel, label.own = true ∧
    (keyedMonitor config).parking.step before (.step label) = some after

/-- Nobody has an own step left. -/
def Resting (config : SchedulerConfig) (world : ParkingWorld) : Prop :=
  ∀ next, ¬ OwnStep config world next

end ParkingWorld

namespace KeyedWorld

variable {config : SchedulerConfig} {world before after : KeyedWorld}

/-- A submitter that was not refused as oversized has room in an empty scheduler. -/
theorem blocked_sized (reachable : (keyedSystem config).Reachable world) :
    ∀ item ∈ world.blocked, item.size ≤ config.pendingByteLimit := by
  refine reachable.invariant_given (fun world => world.scheduler.config = config)
    (motive := fun world => ∀ item ∈ world.blocked, item.size ≤ config.pendingByteLimit)
    (fun _ => config_eq) ?_ ?_
  · rintro _ rfl item member
    contradiction
  · intro before label after same sized stepped item member
    cases submits : label.submits with
    | false =>
        rw [step_blocked submits stepped] at member
        exact sized item member
    | true =>
        cases label with
        | submit other =>
            simp only [keyedSystem, step] at stepped
            split at stepped
            · cases stepped
              exact sized item member
            next decision submitted =>
              cases stepped
              obtain ⟨next, admission⟩ := decision
              cases admission with
              | accepted | discarded | oversized => exact sized item member
              | blocked =>
                  rcases List.mem_append.mp member with older | new
                  · exact sized item older
                  · rw [List.mem_singleton.mp new, ← same]
                    unfold submitSized at submitted
                    split at submitted
                    · contradiction
                    split at submitted
                    · cases submitted
                    split at submitted
                    · contradiction
                    split at submitted
                    · cases submitted
                    next within => exact Nat.not_lt.mp within
        | resume index =>
            simp only [keyedSystem, step] at stepped
            split at stepped
            · contradiction
            next other found =>
              cases stepped
              have older : ∀ item ∈ before.blocked.eraseIdx index,
                  item.size ≤ config.pendingByteLimit :=
                fun item member => sized item (List.mem_of_mem_eraseIdx member)
              generalize before.scheduler.resumeSubmission other = decision at member
              obtain ⟨next, admission⟩ := decision
              cases admission with
              | accepted | discarded | oversized => exact older item member
              | blocked =>
                  rcases List.mem_append.mp member with kept | new
                  · exact older item kept
                  · rw [List.mem_singleton.mp new]
                    exact sized other (List.mem_of_getElem? found)
        | _ => contradiction

theorem advances_worker {scheduler : KeyedSerialHandlerScheduler} {index : Nat} {pc : ThreadPc}
    {next : Advance} (advances : Advances scheduler index pc next) :
    next.pc.isWorker = pc.isWorker := by
  cases advances with
  | release work reply observerFailed => cases reply <;> cases observerFailed <;> rfl
  | leaveDiscard caller observerFailed => cases caller <;> cases observerFailed <;> rfl
  | clear caller | discard caller | count caller => cases caller <;> rfl
  | _ => rfl

theorem submitSized_started {scheduler : KeyedSerialHandlerScheduler} {item : SizedEvent}
    {decision : KeyedSerialHandlerScheduler × Admission}
    (submitted : scheduler.submitSized item = .ok decision) :
    decision.1.started = scheduler.started := by
  unfold submitSized at submitted
  repeat' split at submitted
  all_goals first
    | contradiction
    | (cases submitted; rfl)

theorem resumeSubmission_started {scheduler : KeyedSerialHandlerScheduler} {item : SizedEvent} :
    (scheduler.resumeSubmission item).1.started = scheduler.started := by
  unfold resumeSubmission
  repeat' split
  all_goals rfl

theorem selectSizedEvent_started {scheduler next : KeyedSerialHandlerScheduler}
    {retainedSize : StreamDockEvent → Nat} {events : List SizedEvent} {index : Option Nat}
    (selected : scheduler.selectSizedEvent retainedSize events = .ok (next, index)) :
    next.started = scheduler.started := by
  unfold selectSizedEvent at selected
  split at selected
  · cases selected
    rfl
  split at selected
  · contradiction
  dsimp only at selected
  repeat' split at selected
  all_goals cases selected; rfl

theorem admitted_started (item : SizedEvent)
    (decision : KeyedSerialHandlerScheduler × Admission) :
    (before.admitted item decision).scheduler.started = decision.1.started := by
  obtain ⟨next, admission⟩ := decision
  cases admission <;> rfl

/-- Only `start` makes the scheduler started, and it creates the pool. -/
theorem started_step {label : KeyedLabel} (stepped : before.step label = some after) :
    after.scheduler.started = before.scheduler.started ∨ ∃ pc ∈ after.threads, pc.isWorker = true := by
  cases label with
  | start =>
      simp only [step, start] at stepped
      split at stepped
      · cases stepped
        exact .inl rfl
      split at stepped
      · contradiction
      · cases stepped
        refine .inr ⟨.created, ?_, rfl⟩
        simp [Nat.ne_of_gt before.scheduler.config.workerCount_pos]
  | launch succeeds =>
      left
      simp only [step, launchStep] at stepped
      repeat' split at stepped
      all_goals first
        | contradiction
        | (cases stepped; rfl)
  | submit item =>
      left
      simp only [step] at stepped
      split at stepped
      · cases stepped
        rfl
      · next submitted =>
        cases stepped
        rw [admitted_started, submitSized_started submitted]
  | resume index =>
      left
      simp only [step] at stepped
      split at stepped
      · contradiction
      · cases stepped
        rw [admitted_started, resumeSubmission_started]
  | select retainedSize events =>
      left
      simp only [step] at stepped
      split at stepped
      · cases stepped
        rfl
      · next selected =>
        cases stepped
        exact selectSizedEvent_started selected
  | thread index move =>
      left
      simp only [step] at stepped
      split at stepped
      · contradiction
      split at stepped
      · contradiction
      · next advanced =>
        cases stepped
        exact advances_started (advance_cases advanced)
  | stopAccepting | stop =>
      cases stepped
      exact .inl rfl
  | drainTimeout =>
      simp only [step] at stepped
      split at stepped <;> cases stepped
      exact .inl rfl

/-- Nothing is submitted to a scheduler that was not started. -/
theorem unstarted_empty (reachable : (keyedSystem config).Reachable world) :
    world.scheduler.started = true ∨ (world.scheduler.pending = [] ∧ world.blocked = []) := by
  refine reachable.invariant_given ActiveSound
    (motive := fun world => world.scheduler.started = true ∨
      (world.scheduler.pending = [] ∧ world.blocked = [])) (fun _ => activeSound) ?_ ?_
  · rintro _ rfl
    exact .inr ⟨rfl, rfl⟩
  · intro before label after active sound stepped
    cases submits : label.submits with
    | false =>
        have blocked := step_blocked submits stepped
        cases quiet_cases submits stepped with
        | thread found advances =>
            rw [advances_started advances]
            exact sound.imp_right fun empty =>
              ⟨advances_empty advances empty.1, blocked.trans empty.2⟩
        | housekeeping kept =>
            have same := (kept.frame active.launch).1
            rcases sound with started | empty
            · exact .inl (same.started started)
            · exact .inr ⟨same.pending.trans empty.1, blocked.trans empty.2⟩
    | true =>
        cases label with
        | submit item =>
            simp only [keyedSystem, step] at stepped
            split at stepped
            · cases stepped
              exact sound
            next decision submitted =>
              cases stepped
              cases started : before.scheduler.started with
              | true =>
                  rw [admitted_started, submitSized_started submitted]
                  exact .inl started
              | false =>
                  have empty := sound.resolve_left (by simp [started])
                  unfold submitSized at submitted
                  split at submitted
                  · contradiction
                  split at submitted
                  · cases submitted
                    exact .inr empty
                  · simp [started] at submitted
        | resume index =>
            rcases sound with started | empty
            · simp only [keyedSystem, step] at stepped
              split at stepped
              · contradiction
              · cases stepped
                rw [admitted_started, resumeSubmission_started]
                exact .inl started
            · simp [keyedSystem, step, empty.2] at stepped
        | _ => contradiction

theorem worker_kept {pc : ThreadPc} (transition : Transition before after)
    (active : before.ActiveSound) (member : pc ∈ before.threads) (worker : pc.isWorker = true) :
    ∃ kept ∈ after.threads, kept.isWorker = true := by
  obtain ⟨position, here⟩ := List.mem_iff_getElem?.mp member
  have moved {index : Nat} {old new : ThreadPc} (found : before.threads[index]? = some old)
      (same : new.isWorker = old.isWorker) :
      ∃ kept ∈ before.threads.set index new, kept.isWorker = true := by
    by_cases own : position = index
    · subst own
      rw [found, Option.some.injEq] at here
      subst here
      refine ⟨new, List.mem_of_getElem? (i := position) ?_, same.trans worker⟩
      rw [getElem?_set_found found, if_pos rfl]
    · refine ⟨pc, List.mem_of_getElem? (i := position) ?_, worker⟩
      rw [getElem?_set_found found, if_neg own]
      exact here
  cases transition with
  | thread found advances => exact moved found (advances_worker advances)
  | admission => exact ⟨pc, member, worker⟩
  | housekeeping kept =>
      cases kept with
      | bookkeeping | start => exact ⟨pc, List.mem_append_left _ member, worker⟩
      | launch launched =>
          have launch := active.launch
          simp only [launchStep] at launched
          split at launched
          · contradiction
          · cases launched
            exact ⟨pc, member, worker⟩
          · cases launched
            exact ⟨pc, member, worker⟩
          · next index remaining state =>
            simp only [LaunchSound, state] at launch
            split at launched
            · cases launched
              exact moved (launch 0 (Nat.zero_le _)) rfl
            · cases launched
              exact ⟨pc, member, worker⟩
          · cases launched
            exact ⟨pc, List.mem_append_left _ member, worker⟩

/-- A started scheduler has a pool. -/
theorem has_worker (reachable : (keyedSystem config).Reachable world)
    (started : world.scheduler.started = true) : ∃ pc ∈ world.threads, pc.isWorker = true := by
  refine reachable.invariant_given ActiveSound
    (motive := fun world => world.scheduler.started = true →
      ∃ pc ∈ world.threads, pc.isWorker = true) (fun _ => activeSound) ?_ ?_ started
  · rintro _ rfl started
    contradiction
  · intro before label after active present stepped started
    rcases started_step stepped with same | created
    · obtain ⟨pc, member, worker⟩ := present (same ▸ started)
      exact worker_kept (step_cases stepped) active member worker
    · exact created

end KeyedWorld

namespace ParkingWorld

variable {config : SchedulerConfig} {world : ParkingWorld}

theorem parked_sized (reachable : (keyedMonitor config).parking.Reachable world) {size : Nat}
    (member : .submitter size ∈ world.parked) : size ≤ config.pendingByteLimit := by
  refine Monitor.reachable_parked reachable
    (motive := fun _ waiter => ∀ size, waiter = .submitter size → size ≤ config.pendingByteLimit)
    ?_ ?_ ?_ _ member size rfl
  · rintro state waiter looks _ size rfl
    contradiction
  · intro before label after waiter reached _ parks size same
    obtain ⟨item, decided, rfl⟩ := parks_submitter parks
    cases same
    cases label with
    | submit other =>
        simp only [KeyedWorld.admission?] at decided
        split at decided
        · contradiction
        next next admission submitted =>
          cases decided
          unfold submitSized at submitted
          split at submitted
          · contradiction
          split at submitted
          · cases submitted
          split at submitted
          · contradiction
          split at submitted
          · cases submitted
          next within =>
            rw [KeyedWorld.config_eq reached] at within
            exact Nat.not_lt.mp within
    | resume index =>
        simp only [KeyedWorld.admission?, Option.map_eq_some_iff, Prod.mk.injEq] at decided
        obtain ⟨other, found, rfl, _⟩ := decided
        exact KeyedWorld.blocked_sized reached _ (List.mem_of_getElem? found)
    | _ => contradiction
  · intro before label after waiters waiter _ _ _ _ _ sized
    exact sized

/-- When nobody can move, who has an enabled step is parked. -/
theorem Resting.asleep {label : KeyedLabel} {next : KeyedWorld} (resting : Resting config world)
    (own : label.own = true) (stepped : world.state.step label = some next) :
    world.state.awake world.parked label = false := by
  by_contra awake
  rw [Bool.not_eq_false] at awake
  refine resting ?_ ⟨label, own, ?next⟩
  case next =>
    simp only [Monitor.parking, Monitor.step, keyedMonitor]
    rw [if_pos awake]
    simp only [keyedSystem, stepped, Option.map_some]
    rfl

theorem Resting.parked {index : Nat} {pc : ThreadPc} {next : Advance}
    (resting : Resting config world) (found : world.state.threads[index]? = some pc)
    (move : ThreadMove) (own : move ≠ .timedOut) (advanced : world.state.scheduler.advance index pc move = some next) :
    .worker index ∈ world.parked ∨ .stopping index ∈ world.parked := by
  have stepped : (world.state.step (.thread index move)).isSome := by
    simp [KeyedWorld.step, found, advanced]
  have asleep := resting.asleep (by simpa [KeyedLabel.own] using own)
    (Option.some_get stepped).symm
  by_contra unparked
  push Not at unparked
  simp [KeyedWorld.awake, unparked.1, unparked.2] at asleep

/-- A thread outside the waiting loops has an own step. -/
theorem advances_own (scheduler : KeyedSerialHandlerScheduler) (thread : Nat) (pc : ThreadPc) :
    pc = .created ∨ pc = .exited ∨ pc = .stopped ∨ pc = .ready ∨ pc = .draining ∨
      ∃ move next, move ≠ ThreadMove.timedOut ∧ scheduler.advance thread pc move = some next := by
  cases pc with
  | created | exited | stopped | ready | draining => simp
  | taken | raised | finishing | failing | exiting =>
      exact .inr (.inr (.inr (.inr (.inr ⟨.proceed, _, by simp, rfl⟩))))
  | dispatching => exact .inr (.inr (.inr (.inr (.inr ⟨.raises, _, by simp, rfl⟩))))
  | observing => exact .inr (.inr (.inr (.inr (.inr ⟨.observed false, _, by simp, rfl⟩))))
  | discarding caller frame =>
      refine .inr (.inr (.inr (.inr (.inr ?_))))
      cases frame with
      | entering => exact ⟨.proceed, _, by simp, rfl⟩
      | finishing rest observerFailed =>
          cases rest with
          | nil | cons => exact ⟨.proceed, _, by simp, rfl⟩
      | observing => exact ⟨.observed false, _, by simp, rfl⟩

/-- Where a thread can be when nobody can move. -/
theorem Resting.thread {index : Nat} {pc : ThreadPc}
    (reachable : (keyedMonitor config).parking.Reachable world) (resting : Resting config world)
    (found : world.state.threads[index]? = some pc) :
    pc = .created ∨ pc = .exited ∨ pc = .stopped ∨ pc = .ready ∨ pc = .draining := by
  rcases advances_own world.state.scheduler index pc with
    rfl | rfl | rfl | rfl | rfl | ⟨move, next, own, advanced⟩
  · simp
  · simp
  · simp
  · simp
  · simp
  · rcases resting.parked found move own advanced with parked | parked
    · have loop := parked_atLoop reachable _ parked
      rw [KeyedWorld.AtLoop, found, Option.some.injEq] at loop
      simp [loop]
    · have loop := parked_atLoop reachable _ parked
      rw [KeyedWorld.AtLoop, found, Option.some.injEq] at loop
      simp [loop]

theorem Resting.unfailing (reachable : (keyedMonitor config).parking.Reachable world)
    (resting : Resting config world) : ¬ world.state.Failing := by
  rintro ⟨thread, found⟩
  rcases resting.thread reachable found with same | same | same | same | same <;> cases same

/-- A test on which somebody could move is false. -/
theorem Resting.unready (reachable : (keyedMonitor config).parking.Reachable world)
    (resting : Resting config world) {waiter : KeyedWaiter} (parked : waiter ∈ world.parked) :
    world.state.waiterReady waiter = false :=
  (parked_quiet reachable waiter parked).resolve_right (resting.unfailing reachable)

theorem Resting.worker_unready {index : Nat}
    (reachable : (keyedMonitor config).parking.Reachable world) (resting : Resting config world)
    (found : world.state.threads[index]? = some .ready) :
    world.state.waiterReady (.worker index) = false := by
  cases advanced : world.state.scheduler.advance index .ready .proceed with
  | none => simp [KeyedWorld.waiterReady, advanced]
  | some next =>
      rcases resting.parked found .proceed (by simp) advanced with parked | parked
      · exact resting.unready reachable parked
      · have loop := parked_atLoop reachable _ parked
        rw [KeyedWorld.AtLoop, found] at loop
        cases loop

theorem Resting.undrained {index : Nat}
    (reachable : (keyedMonitor config).parking.Reachable world) (resting : Resting config world)
    (found : world.state.threads[index]? = some .draining) :
    world.state.scheduler.isDrained = false := by
  by_contra drained
  rw [Bool.not_eq_false] at drained
  rcases resting.parked found .proceed (by simp) (by simp only [advance, drained]; rfl)
    with parked | parked
  · have loop := parked_atLoop reachable _ parked
    rw [KeyedWorld.AtLoop, found] at loop
    cases loop
  · have unready := resting.unready reachable parked
    simp [KeyedWorld.waiterReady, drained] at unready

theorem Resting.launched (resting : Resting config world) :
    world.state.launching = .idle := by
  have launching : world.state.step (.launch true) = none := by
    by_contra enabled
    obtain ⟨next, stepped⟩ := Option.ne_none_iff_exists'.mp enabled
    have asleep := resting.asleep rfl stepped
    contradiction
  simp only [KeyedWorld.step, KeyedWorld.launchStep, if_true] at launching
  split at launching
  · assumption
  all_goals cases launching

/-- The entry of a malformed dispatch outlives its worker, which has seen the closed
scheduler empty. -/
theorem Resting.unoccupied (reachable : (keyedMonitor config).parking.Reachable world)
    (resting : Resting config world) (waiting : world.state.scheduler.pending ≠ []) :
    world.state.scheduler.activeByThread = [] := by
  have reached := Monitor.reachable_state reachable
  have active := KeyedWorld.activeSound reached
  have life := KeyedWorld.lifecycleSound reached
  refine List.eq_nil_iff_forall_not_mem.mpr ?_
  intro entry member
  rcases active.held entry member with working | leaving
  · simp only [KeyedWorld.activeAt, Option.bind_eq_some_iff] at working
    obtain ⟨pc, found, busy⟩ := working
    rcases resting.thread reachable found with rfl | rfl | rfl | rfl | rfl <;> cases busy
  · simp only [KeyedWorld.leavingAt, Option.bind_eq_some_iff] at leaving
    obtain ⟨pc, found, left⟩ := leaving
    rcases resting.thread reachable found with rfl | rfl | rfl | rfl | rfl
    · cases left
    · exact waiting (life.departed _ (List.mem_of_getElem? found) trivial).2
    · cases left
    · cases left
    · cases left

theorem Resting.pending_empty (reachable : (keyedMonitor config).parking.Reachable world)
    (resting : Resting config world) : world.state.scheduler.pending = [] := by
  by_contra waiting
  have reached := Monitor.reachable_state reachable
  have active := KeyedWorld.activeSound reached
  have life := KeyedWorld.lifecycleSound reached
  have started := (KeyedWorld.unstarted_empty reached).resolve_right fun empty => waiting empty.1
  obtain ⟨pc, member, worker⟩ := KeyedWorld.has_worker reached started
  obtain ⟨index, found⟩ := List.mem_iff_getElem?.mp member
  rcases resting.thread reachable found with rfl | rfl | rfl | rfl | rfl
  · have placed := life.unlaunched index found
    simp only [KeyedWorld.LaunchPlaced, resting.launched] at placed
    rcases placed.2 with empty | discarding
    · exact waiting empty
    · obtain ⟨other, entering⟩ := List.mem_iff_getElem?.mp discarding
      rcases resting.thread reachable entering with same | same | same | same | same <;> cases same
  · exact waiting (life.departed _ member trivial).2
  · contradiction
  · have unready := resting.worker_unready reachable found
    have unoccupied := resting.unoccupied reachable waiting
    have unbarred : world.state.scheduler.barrierActive = false := by
      by_contra barred
      rw [Bool.not_eq_false] at barred
      obtain ⟨holder, work, busy, _⟩ := active.barrier.mp barred
      have entry := active.tracked holder work busy
      rw [unoccupied] at entry
      contradiction
    obtain ⟨next, work, taken⟩ := active.takes index waiting unoccupied unbarred
    simp [KeyedWorld.waiterReady, advance_ready, taken] at unready
  · contradiction

theorem Resting.unsubmitting (reachable : (keyedMonitor config).parking.Reachable world)
    (resting : Resting config world) (size : Nat) : .submitter size ∉ world.parked := by
  intro parked
  have reached := Monitor.reachable_state reachable
  have within := parked_sized reachable parked
  have unready := resting.unready reachable parked
  have room := config.pendingLimit_pos
  have bytes := (KeyedWorld.conserved reached).load.bytes
  simp only [resting.pending_empty reachable, List.map_nil, List.sum_nil] at bytes
  simp only [KeyedWorld.waiterReady, isFull, KeyedWorld.config_eq reached, bytes,
    resting.pending_empty reachable, List.length_nil, Bool.or_eq_false_iff, Bool.not_eq_false',
    Bool.or_eq_true, decide_eq_true_eq] at unready
  omega

theorem Resting.blocked_empty (reachable : (keyedMonitor config).parking.Reachable world)
    (resting : Resting config world) : world.state.blocked = [] := by
  by_contra waiting
  have queued := List.length_pos_iff.mpr waiting
  have resumed : (world.state.step (.resume 0)).isSome := by
    simp [KeyedWorld.step, List.getElem?_eq_getElem queued]
  have asleep := resting.asleep rfl (Option.some_get resumed).symm
  simp only [KeyedWorld.awake, Nat.zero_add, decide_eq_false_iff_not] at asleep
  obtain ⟨waiter, parked, submits⟩ :=
    List.countP_pos_iff.mp (Nat.lt_of_lt_of_le queued (Nat.not_lt.mp asleep))
  cases waiter with
  | worker | stopping | draining => contradiction
  | submitter size => exact resting.unsubmitting reachable size parked

end ParkingWorld

/-- When nobody can move, everything accepted has been completed once, nobody waits for
admission, a closed scheduler has no worker left, and only a malformed result keeps a
caller of `stop` or `drain` waiting. -/
theorem settled_at_rest {config : SchedulerConfig} {world : ParkingWorld}
    (reachable : (keyedMonitor config).parking.Reachable world)
    (resting : world.Resting config) :
    world.state.scheduler.pending = [] ∧ world.state.blocked = [] ∧
    (∀ work, .accepted work ∈ world.state.history →
      completions work.token world.state.history = 1) ∧
    (world.state.scheduler.accepting = false → ∀ pc ∈ world.state.threads,
      pc.isWorker = true → pc = .exited ∨ pc = .created) ∧
    (WellTyped world.state.history →
      world.state.scheduler.isDrained = true ∧ .draining ∉ world.state.threads ∧
        ∀ waiter ∈ world.parked, ∃ thread, waiter = .worker thread) := by
  have reached := Monitor.reachable_state reachable
  have sound := KeyedWorld.conserved reached
  have empty := resting.pending_empty reachable
  have unburdened (measure : ThreadPc → Nat) (left : measure .created = 0)
      (exited : measure .exited = 0) (stopped : measure .stopped = 0) (ready : measure .ready = 0)
      (draining : measure .draining = 0) : weight measure world.state.threads = 0 := by
    refine weight_eq_zero ?_
    intro pc member
    obtain ⟨index, found⟩ := List.mem_iff_getElem?.mp member
    rcases resting.thread reachable found with rfl | rfl | rfl | rfl | rfl <;> assumption
  refine ⟨empty, resting.blocked_empty reachable, ?_, ?_, ?_⟩
  · intro work accepted
    have issued := KeyedWorld.acceptances_of_mem (KeyedWorld.orderSound reached).law accepted
    have tally := sound.tally work.token
    rw [empty, List.countP_nil, unburdened (ThreadPc.unfinished work.token) rfl rfl rfl rfl rfl]
      at tally
    omega
  · intro closed pc member worker
    obtain ⟨index, found⟩ := List.mem_iff_getElem?.mp member
    rcases resting.thread reachable found with rfl | rfl | rfl | rfl | rfl
    · exact .inr rfl
    · exact .inl rfl
    · contradiction
    · have unready := resting.worker_unready reachable found
      simp [KeyedWorld.waiterReady, advance_ready, closed, empty] at unready
    · contradiction
  · intro typed
    have drained : world.state.scheduler.isDrained = true := by
      have recorded := sound.recorded typed
      have owed := sound.owed
      rw [unburdened ThreadPc.activeLoad rfl rfl rfl rfl rfl] at recorded
      rw [unburdened ThreadPc.outstanding rfl rfl rfl rfl rfl] at owed
      simp [isDrained, empty, owed, List.eq_nil_of_length_eq_zero recorded]
    refine ⟨drained, ?_, ?_⟩
    · intro member
      obtain ⟨index, found⟩ := List.mem_iff_getElem?.mp member
      have undrained := resting.undrained reachable found
      rw [drained] at undrained
      contradiction
    · intro waiter parked
      have unready := resting.unready reachable parked
      cases waiter with
      | worker thread => exact ⟨thread, rfl⟩
      | stopping | draining =>
          rw [KeyedWorld.waiterReady, drained] at unready
          contradiction
      | submitter size => exact absurd parked (resting.unsubmitting reachable size)

/-- Both workers leave after the only work is completed. -/
def settledWorld : ParkingWorld := (parkingRun (drainedLabels.map .step)).get rfl

theorem settledWorld_resting : settledWorld.Resting sampleConfig := by
  rintro next ⟨label, own, moved⟩
  cases label with
  | launch succeeds | resume index =>
      have still : some next = none := moved.symm
      contradiction
  | thread index move =>
      rcases index with _ | _ | _ | index <;> cases move <;>
        (have still : some next = none := moved.symm; contradiction)
  | _ => contradiction

theorem settled_at_rest_run : completions 1 settledWorld.state.history = 1 :=
  (settled_at_rest (show (keyedMonitor sampleConfig).parking.Reachable settledWorld from
    parkingRun_reachable _ rfl) settledWorld_resting).2.2.1
    (sampleWork 1 ⟨[1]⟩) (List.mem_iff_getElem?.mpr ⟨3, rfl⟩)

namespace ThreadPc

/-- More than the own steps that the thread has left, the works it holds included. -/
def remaining : ThreadPc → Nat
  | .created | .exited | .stopped => 0
  | .exiting | .draining => 1
  | .ready => 2
  | .failing => 5
  | .observing _ _ => 9
  | .finishing _ _ => 10
  | .raised _ _ => 11
  | .dispatching _ => 12
  | .taken _ => 13
  | .discarding caller frame =>
      let returning := match caller with
        | .afterError => 6
        | .fatal => 2
        | .stopping => 1
      match frame with
      | .entering => returning + 1
      | .finishing rest _ => returning + 3 * rest.length
      | .observing rest _ => returning + 3 * rest.length + 1

end ThreadPc

def LaunchPc.remaining : LaunchPc → Nat
  | .idle => 0
  | .counting _ workers => 4 * workers + 4
  | .starting _ workers => 4 * workers + 7
  | .aborting => 3

namespace KeyedWorld

variable {before after : KeyedWorld}

def remaining (world : KeyedWorld) : Nat :=
  weight ThreadPc.remaining world.threads + 12 * world.scheduler.pending.length +
    13 * world.blocked.length + world.launching.remaining

theorem advances_remaining {scheduler : KeyedSerialHandlerScheduler} {thread : Nat} {pc : ThreadPc}
    {next : Advance} (advances : Advances scheduler thread pc next)
    (awake : next.pc ≠ .discarding .stopping .entering) :
    next.pc.remaining + 12 * next.scheduler.pending.length <
      pc.remaining + 12 * scheduler.pending.length := by
  cases advances with
  | take taken =>
      obtain ⟨passed, rest, split, rfl, _⟩ := takeInternalWork_spec taken
      rw [activate_pending split, split]
      simp only [ThreadPc.remaining, List.length_append, List.length_cons]
      omega
  | release work reply observerFailed =>
      cases reply <;> cases observerFailed <;> simp [ThreadPc.remaining, release, afterRelease]
  | timeOut => contradiction
  | clear caller =>
      simp only [ThreadPc.remaining, clearPending, List.length_nil]
      omega
  | leaveDiscard caller observerFailed =>
      cases caller <;> cases observerFailed <;> simp [ThreadPc.remaining, afterDiscard]
  | discard caller work rest observerFailed =>
      simp only [ThreadPc.remaining, List.length_cons]
      omega
  | count caller rest observerFailed raised =>
      simp only [ThreadPc.remaining, countDiscarded]
      omega
  | _ => simp [ThreadPc.remaining, stopAccepting, exitWorker]

/-- Only a time-out leaves `drain` before the scheduler is drained. -/
theorem advance_untimed {scheduler : KeyedSerialHandlerScheduler} {thread : Nat} {pc : ThreadPc}
    {move : ThreadMove} {next : Advance} (own : move ≠ .timedOut)
    (advanced : scheduler.advance thread pc move = some next) :
    next.pc ≠ .discarding .stopping .entering := by
  cases advance_cases advanced with
  | timeOut => cases move <;> first | contradiction | simp [advance] at advanced
  | release work reply observerFailed => cases reply <;> cases observerFailed <;> simp [afterRelease]
  | leaveDiscard caller observerFailed =>
      cases caller <;> cases observerFailed <;> simp [afterDiscard]
  | _ => simp

theorem launch_remaining {succeeds : Bool} (launched : before.launchStep succeeds = some after) :
    after.remaining < before.remaining := by
  unfold launchStep at launched
  split at launched
  · contradiction
  · next launching =>
    cases launched
    simp [remaining, launching, LaunchPc.remaining]
  · next launching =>
    cases launched
    simp only [remaining, launching, LaunchPc.remaining]
    omega
  · next index workers launching =>
    split at launched
    · cases launched
      have started : weight ThreadPc.remaining (before.threads.set index .ready) ≤
          weight ThreadPc.remaining before.threads + 2 := by
        cases found : before.threads[index]? with
        | none =>
            rw [List.set_eq_of_length_le (List.getElem?_eq_none_iff.mp found)]
            omega
        | some old =>
            have replaced := weight_set ThreadPc.remaining .ready found
            simp only [ThreadPc.remaining] at replaced ⊢
            omega
      simp only [remaining, launching, LaunchPc.remaining]
      omega
    · cases launched
      simp only [remaining, launching, LaunchPc.remaining]
      omega
  · next launching =>
    cases launched
    simp only [remaining, launching, LaunchPc.remaining, weight_append]
    simp only [weight, List.map_cons, List.map_nil, List.sum_cons, List.sum_nil, ThreadPc.remaining]
    omega

theorem resume_remaining {index : Nat} (stepped : before.step (.resume index) = some after) :
    after.remaining < before.remaining ∨
      (after.remaining = before.remaining ∧ after.blocked.length = before.blocked.length ∧
        before.notifies (.resume index) = false ∧
        ∃ item, before.admission? (.resume index) = some (item, .blocked)) := by
  simp only [step] at stepped
  split at stepped
  · contradiction
  next item found =>
    cases stepped
    have bound := (List.getElem?_eq_some_iff.mp found).1
    have fewer : (before.blocked.eraseIdx index).length + 1 = before.blocked.length := by
      rw [List.length_eraseIdx_of_lt bound]
      omega
    unfold resumeSubmission
    split
    · left
      simp only [remaining, admitted, discardSubmission]
      omega
    next accepting =>
    split
    · next full =>
      right
      have waits : before.admission? (.resume index) = some (item, .blocked) := by
        simp [admission?, found, resumeSubmission, accepting, full]
      refine ⟨?_, ?_, by simp [notifies, waits, Admission.notifies], item, waits⟩
      · simp only [remaining, admitted, List.length_append, List.length_singleton]
        omega
      · simpa [admitted] using fewer
    · left
      simp only [remaining, admitted, admitItem, List.length_append, List.length_singleton]
      omega

theorem own_remaining {label : KeyedLabel} (own : label.own = true)
    (stepped : before.step label = some after) (resumes : ∀ index, label ≠ .resume index) :
    after.remaining < before.remaining := by
  cases label with
  | launch succeeds => exact launch_remaining stepped
  | resume index => exact absurd rfl (resumes index)
  | thread index move =>
      simp only [step] at stepped
      split at stepped
      · contradiction
      next pc found =>
      split at stepped
      · contradiction
      next next advanced =>
        cases stepped
        have untimed := advance_untimed (by simpa [KeyedLabel.own] using own) advanced
        have less := advances_remaining (advance_cases advanced) untimed
        have replaced := weight_set ThreadPc.remaining next.pc found
        simp only [remaining]
        omega
  | _ => contradiction

end KeyedWorld

namespace ParkingWorld

/-- The submitters whose wait has returned. -/
def woken (world : ParkingWorld) : Nat :=
  world.state.blocked.length - world.parked.countP KeyedWaiter.submits

theorem ownStep_decreases {config : SchedulerConfig} {before after : ParkingWorld}
    (stepped : OwnStep config before after) :
    after.state.remaining < before.state.remaining ∨
      (after.state.remaining = before.state.remaining ∧ after.woken < before.woken) := by
  obtain ⟨label, own, moved⟩ := stepped
  simp only [Monitor.parking, Monitor.step] at moved
  split at moved
  · next awake =>
    obtain ⟨next, stepped, rfl⟩ := Option.map_eq_some_iff.mp moved
    cases label with
    | resume index =>
        refine (KeyedWorld.resume_remaining stepped).imp_right ?_
        rintro ⟨same, length, silent, item, waits⟩
        refine ⟨same, ?_⟩
        have behind : index + before.parked.countP KeyedWaiter.submits <
            before.state.blocked.length := by
          simpa [keyedMonitor, KeyedWorld.awake] using awake
        simp only [woken, keyedMonitor, silent, waits, length, Bool.false_eq_true, if_false,
          Option.map_some, Option.getD_some, Admission.parks, List.countP_append,
          List.countP_singleton, KeyedWaiter.submits, if_true]
        omega
    | _ => exact .inl (KeyedWorld.own_remaining own stepped (by simp))
  · contradiction

end ParkingWorld

/-- The two ranks of an own step: the work left, and the submitters that are awake. -/
theorem ownStep_wf (config : SchedulerConfig) :
    WellFounded fun after before : ParkingWorld => before.OwnStep config after := by
  refine Subrelation.wf ?_ (InvImage.wf (fun world : ParkingWorld =>
    (world.state.remaining, world.woken)) (Prod.lex Nat.lt_wfRel Nat.lt_wfRel).wf)
  intro after before stepped
  rcases ParkingWorld.ownStep_decreases stepped with less | ⟨same, less⟩
  · exact Prod.Lex.left _ _ less
  · simp only [InvImage, same]
    exact Prod.Lex.right _ less

/-- Whatever the order of the steps, no run of own steps goes on for ever, and from every
reachable world the own steps lead to one at rest. -/
theorem own_steps_settle {config : SchedulerConfig} {world : ParkingWorld}
    (reachable : (keyedMonitor config).parking.Reachable world) :
    (¬ ∃ run : Nat → ParkingWorld, run 0 = world ∧
      ∀ step, (run step).OwnStep config (run (step + 1))) ∧
    ∃ finish : ParkingWorld, Relation.ReflTransGen (ParkingWorld.OwnStep config) world finish ∧
      (keyedMonitor config).parking.Reachable finish ∧ finish.Resting config := by
  refine ⟨?_, ?_⟩
  · clear reachable
    rintro ⟨run, start, steps⟩
    induction world using (ownStep_wf config).induction generalizing run with
    | _ world ih =>
      exact ih (run 1) (start ▸ steps 0) (fun step => run (step + 1)) rfl fun step => steps (step + 1)
  · induction world using (ownStep_wf config).induction with
    | _ world ih =>
      by_cases resting : world.Resting config
      · exact ⟨world, .refl, reachable, resting⟩
      · simp only [ParkingWorld.Resting, not_forall, not_not] at resting
        obtain ⟨next, label, own, moved⟩ := resting
        obtain ⟨finish, run, reached, rest⟩ := ih next ⟨label, own, moved⟩ (reachable.next _ moved)
        exact ⟨finish, .head ⟨label, own, moved⟩ run, reached, rest⟩

theorem own_steps_settle_run :
    ¬ ∃ run : Nat → ParkingWorld, run 0 = idleWorld ∧
      ∀ step, (run step).OwnStep sampleConfig (run (step + 1)) :=
  (own_steps_settle (show (keyedMonitor sampleConfig).parking.Reachable idleWorld from
    parkingRun_reachable _ rfl)).1

end StreamDockSdk.Runtime
