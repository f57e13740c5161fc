import StreamDockSdk.Automaton.Threads
import StreamDockSdk.Runtime.KeyedScheduler

namespace StreamDockSdk.Runtime

open Messaging Automaton

/-- The two works share a context, or one of them is a barrier. -/
def ScheduledWork.Conflicts (first second : ScheduledWork) : Prop :=
  first.context = none ∨ second.context = none ∨ first.context = second.context

theorem ScheduledWork.Conflicts.symm {first second : ScheduledWork}
    (conflict : first.Conflicts second) : second.Conflicts first := by
  rcases conflict with barrier | barrier | same
  · exact .inr (.inl barrier)
  · exact .inl barrier
  · exact .inr (.inr same.symm)

namespace KeyedSerialHandlerScheduler

variable {scheduler next : KeyedSerialHandlerScheduler} {work : ScheduledWork} {thread : Nat}

theorem scan_spec {index position : Nat} {pending : List ScheduledWork}
    (found : scheduler.scan index pending = some (position, work)) :
    ∃ passed rest, pending = passed ++ work :: rest ∧ position = index + passed.length ∧
      (∀ other ∈ passed, ∃ context, other.context = some context ∧
        context ∈ scheduler.activeContexts) ∧
      (work.context = none → position = 0 ∧ scheduler.activeByThread = []) ∧
      ∀ context, work.context = some context → context ∉ scheduler.activeContexts := by
  induction pending generalizing index with
  | nil => simp [scan] at found
  | cons head tail ih =>
      cases lane : head.context with
      | none =>
          simp only [scan, lane] at found
          split at found
          · contradiction
          · next clear =>
            simp only [Option.some.injEq, Prod.mk.injEq] at found
            obtain ⟨rfl, rfl⟩ := found
            push Not at clear
            exact ⟨[], tail, rfl, rfl, by simp, fun _ => clear, by simp [lane]⟩
      | some context =>
          simp only [scan, lane] at found
          split at found
          · next busy =>
            obtain ⟨passed, rest, rfl, rfl, skipped, barrier, free⟩ := ih found
            refine ⟨head :: passed, rest, rfl, by simp; omega, ?_, barrier, free⟩
            intro other member
            rcases List.mem_cons.mp member with rfl | member
            · exact ⟨context, lane, busy⟩
            · exact skipped other member
          · next idle =>
            simp only [Option.some.injEq, Prod.mk.injEq] at found
            obtain ⟨rfl, rfl⟩ := found
            exact ⟨[], tail, rfl, rfl, by simp, by simp [lane], by
              intro other same
              rw [lane, Option.some.injEq] at same
              exact same ▸ idle⟩

/-- Everything `_take_internal_work` guarantees about the work it returns. -/
theorem takeInternalWork_spec
    (taken : scheduler.takeInternalWork thread = some (next, work)) :
    ∃ passed rest, scheduler.pending = passed ++ work :: rest ∧
      next = scheduler.activate thread passed.length work ∧
      scheduler.barrierActive = false ∧
      (∀ other ∈ passed, ¬ other.Conflicts work) ∧
      (work.context = none → scheduler.activeByThread = []) ∧
      ∀ context, work.context = some context → context ∉ scheduler.activeContexts := by
  unfold takeInternalWork at taken
  split at taken
  · contradiction
  · next inactive =>
    simp only [Option.map_eq_some_iff, Prod.exists, Prod.mk.injEq] at taken
    obtain ⟨position, chosen, found, rfl, rfl⟩ := taken
    obtain ⟨passed, rest, split, position_eq, skipped, barrier, free⟩ := scan_spec found
    rw [Nat.zero_add] at position_eq
    subst position_eq
    refine ⟨passed, rest, split, rfl, by simpa using inactive, ?_,
      fun lane => (barrier lane).2, free⟩
    intro other member conflict
    obtain ⟨context, lane, busy⟩ := skipped other member
    rcases conflict with none_lane | none_lane | same
    · simp [none_lane] at lane
    · have first := (barrier none_lane).1
      rw [List.length_eq_zero_iff] at first
      simp [first] at member
    · exact free context (same ▸ lane) busy

theorem activate_pending {passed rest : List ScheduledWork}
    (split : scheduler.pending = passed ++ work :: rest) (thread : Nat) :
    (scheduler.activate thread passed.length work).pending = passed ++ rest := by
  simp [activate, split, List.eraseIdx_append_of_length_le]

/-- The named forms of a thread's step. -/
inductive Advances (scheduler : KeyedSerialHandlerScheduler) (thread : Nat) :
    ThreadPc → Advance → Prop
  | take {next : KeyedSerialHandlerScheduler} {work : ScheduledWork} :
      scheduler.takeInternalWork thread = some (next, work) →
      Advances scheduler thread .ready { scheduler := next, pc := .taken work }
  | leave : scheduler.accepting = false → scheduler.pending = [] →
      Advances scheduler thread .ready { scheduler, pc := .exiting }
  | dispatch (work : ScheduledWork) : Advances scheduler thread (.taken work)
      { scheduler, events := [.dispatched work], pc := .dispatching work }
  | answer (work : ScheduledWork) (outcome : DispatchOutcome) :
      Advances scheduler thread (.dispatching work)
      { scheduler, events := [.returned work (.result outcome)]
        pc := .finishing work (.result outcome) }
  | fail (work : ScheduledWork) (reply : DispatchReply) :
      Advances scheduler thread (.dispatching work)
      { scheduler, events := [.returned work reply], pc := .raised work reply }
  | refuse (work : ScheduledWork) (reply : DispatchReply) :
      Advances scheduler thread (.raised work reply)
      { scheduler := scheduler.stopAccepting, pc := .finishing work reply }
  | finish (work : ScheduledWork) (reply : DispatchReply) :
      Advances scheduler thread (.finishing work reply)
      { scheduler, events := [.finished work], pc := .observing work reply }
  | release (work : ScheduledWork) (reply : DispatchReply) (observerFailed : Bool) :
      Advances scheduler thread (.observing work reply)
      { scheduler := scheduler.release thread work reply
        pc := afterRelease reply observerFailed }
  | giveUp : Advances scheduler thread .failing
      { scheduler := scheduler.stopAccepting, pc := .discarding .fatal .entering }
  | exit : Advances scheduler thread .exiting { scheduler := scheduler.exitWorker, pc := .exited }
  | drained : scheduler.isDrained = true →
      Advances scheduler thread .draining { scheduler, pc := .stopped }
  | timeOut : Advances scheduler thread .draining
      { scheduler := scheduler.recordTimedOut, pc := .discarding .stopping .entering }
  | clear (caller : DiscardCaller) : Advances scheduler thread (.discarding caller .entering)
      { scheduler := scheduler.clearPending
        events := (scheduler.pending.map .discarded).reverse
        pc := .discarding caller (.finishing scheduler.pending false) }
  | leaveDiscard (caller : DiscardCaller) (observerFailed : Bool) :
      Advances scheduler thread (.discarding caller (.finishing [] observerFailed))
        { scheduler, pc := afterDiscard observerFailed caller }
  | discard (caller : DiscardCaller) (work : ScheduledWork) (rest : List ScheduledWork)
      (observerFailed : Bool) :
      Advances scheduler thread (.discarding caller (.finishing (work :: rest) observerFailed))
        { scheduler, events := [.finished work]
          pc := .discarding caller (.observing rest observerFailed) }
  | count (caller : DiscardCaller) (rest : List ScheduledWork) (observerFailed raised : Bool) :
      Advances scheduler thread (.discarding caller (.observing rest observerFailed))
        { scheduler := scheduler.countDiscarded
          pc := .discarding caller (.finishing rest (observerFailed || raised)) }

theorem advanceDiscard_cases {caller : DiscardCaller} {frame : DiscardPc} {move : ThreadMove}
    {result : Advance} (advanced : scheduler.advanceDiscard caller frame move = some result) :
    Advances scheduler thread (.discarding caller frame) result := by
  unfold advanceDiscard at advanced
  split at advanced
  all_goals first
    | contradiction
    | (simp only [Option.some.injEq] at advanced; subst advanced; constructor)

theorem advance_cases {pc : ThreadPc} {move : ThreadMove} {result : Advance}
    (advanced : scheduler.advance thread pc move = some result) :
    Advances scheduler thread pc result := by
  unfold advance at advanced
  split at advanced
  case h_1 =>
    split at advanced
    · next taken =>
      simp only [Option.some.injEq] at advanced
      subst advanced
      exact .take taken
    · split at advanced
      · next closed =>
        simp only [Bool.and_eq_true, Bool.not_eq_true', List.isEmpty_iff] at closed
        simp only [Option.some.injEq] at advanced
        subst advanced
        exact .leave closed.1 closed.2
      · contradiction
  case h_11 =>
    split at advanced
    · next drained =>
      simp only [Option.some.injEq] at advanced
      subst advanced
      exact .drained drained
    · contradiction
  case h_12 =>
    split at advanced
    · contradiction
    · simp only [Option.some.injEq] at advanced
      subst advanced
      exact .timeOut
  case h_13 => exact advanceDiscard_cases advanced
  all_goals first
    | contradiction
    | (simp only [Option.some.injEq] at advanced; subst advanced; constructor)

/-- The parts of the object that only admission and worker threads change. -/
structure SameLoad (before after : KeyedSerialHandlerScheduler) : Prop where
  config : after.config = before.config
  pending : after.pending = before.pending
  pendingBytes : after.pendingBytes = before.pendingBytes
  pendingByContext : after.pendingByContext = before.pendingByContext
  activeContexts : after.activeContexts = before.activeContexts
  activeByThread : after.activeByThread = before.activeByThread
  barrierActive : after.barrierActive = before.barrierActive
  internalToken : after.internalToken = before.internalToken
  accepted : after.accepted = before.accepted
  completed : after.completed = before.completed
  terminalizing : after.terminalizing = before.terminalizing
  accepting : after.accepting = true → before.accepting = true
  started : before.started = true → after.started = true

theorem SameLoad.refl (scheduler : KeyedSerialHandlerScheduler) : SameLoad scheduler scheduler := by
  constructor <;> first | rfl | exact id

theorem SameLoad.closed (same : SameLoad scheduler next) (closed : scheduler.accepting = false) :
    next.accepting = false := by
  cases reopened : next.accepting with
  | false => rfl
  | true =>
      rw [same.accepting reopened] at closed
      contradiction

theorem stopAccepting_sameLoad : SameLoad scheduler scheduler.stopAccepting := by
  constructor <;> first | rfl | exact id | simp [stopAccepting]

theorem recordTimedOut_sameLoad : SameLoad scheduler scheduler.recordTimedOut := by
  constructor <;> first | rfl | exact id

theorem exitWorker_sameLoad : SameLoad scheduler scheduler.exitWorker := by
  constructor <;> first | rfl | exact id

theorem discardSubmission_sameLoad : SameLoad scheduler scheduler.discardSubmission.1 := by
  constructor <;> first | rfl | exact id

/-- A refused or waiting submission leaves the load alone; an accepted one is
admitted by an accepting scheduler that is not full. -/
inductive Admits (scheduler : KeyedSerialHandlerScheduler) (item : SizedEvent) :
    KeyedSerialHandlerScheduler × Admission → Prop
  | refused {next admission} : SameLoad scheduler next →
      (∀ work, admission ≠ .accepted work) → Admits scheduler item (next, admission)
  | accepted : scheduler.accepting = true → scheduler.isFull item.size = false →
      Admits scheduler item (scheduler.admitItem item)

theorem submitSized_cases {item : SizedEvent} {decision : KeyedSerialHandlerScheduler × Admission}
    (submitted : scheduler.submitSized item = .ok decision) : Admits scheduler item decision := by
  unfold submitSized at submitted
  split at submitted
  · contradiction
  split at submitted
  · cases submitted
    exact .refused discardSubmission_sameLoad (by simp)
  next accepting =>
  split at submitted
  · contradiction
  split at submitted
  · cases submitted
    exact .refused (by constructor <;> first | rfl | exact id) (by simp)
  split at submitted
  · cases submitted
    exact .refused (by constructor <;> first | rfl | exact id) (by simp)
  next room =>
    cases submitted
    exact .accepted (by simpa using accepting) (by simpa using room)

theorem resumeSubmission_cases (item : SizedEvent) :
    Admits scheduler item (scheduler.resumeSubmission item) := by
  unfold resumeSubmission
  split
  · exact .refused discardSubmission_sameLoad (by simp)
  next accepting =>
  split
  · exact .refused (.refl _) (by simp)
  next room => exact .accepted (by simpa using accepting) (by simpa using room)

theorem selectSizedEvent_sameLoad {retainedSize : StreamDockEvent → Nat}
    {events : List SizedEvent} {index : Option Nat}
    (selected : scheduler.selectSizedEvent retainedSize events = .ok (next, index)) :
    SameLoad scheduler next := by
  unfold selectSizedEvent at selected
  split at selected
  · cases selected
    exact .refl _
  split at selected
  · contradiction
  dsimp only at selected
  split at selected
  · cases selected
    constructor <;> first | rfl | exact id
  split at selected
  · cases selected
    exact .refl _
  · cases selected
    constructor <;> first | rfl | exact id

end KeyedSerialHandlerScheduler

/-- The label is a step of a caller of `submit_sized`. -/
def KeyedLabel.submits : KeyedLabel → Bool
  | .submit _ | .resume _ => true
  | _ => false

namespace KeyedWorld

open KeyedSerialHandlerScheduler

/-- A step of the world that is neither a thread's step nor an admission. -/
inductive Housekeeping (before : KeyedWorld) : KeyedWorld → Prop
  | bookkeeping {scheduler blocked added} : SameLoad before.scheduler scheduler →
      (∀ pc ∈ added, pc = ThreadPc.draining) →
      Housekeeping before { before with scheduler, blocked, threads := before.threads ++ added }
  | start : before.scheduler.accepting = true → before.scheduler.started = false →
      Housekeeping before { before with
        scheduler := { before.scheduler with started := true }
        threads := before.threads ++ List.replicate before.scheduler.config.workerCount .created
        launching := .counting before.threads.length before.scheduler.config.workerCount }
  | launch {succeeds after} : before.launchStep succeeds = some after → Housekeeping before after

inductive Transition (before : KeyedWorld) : KeyedWorld → Prop
  | thread {index pc next} : before.threads[index]? = some pc →
      Advances before.scheduler index pc next →
      Transition before { before with
        scheduler := next.scheduler
        threads := before.threads.set index next.pc
        history := next.events ++ before.history }
  | admission {item blocked} : before.scheduler.accepting = true →
      before.scheduler.isFull item.size = false →
      Transition before { before with
        scheduler := (before.scheduler.admitItem item).1
        blocked
        history := .accepted (before.scheduler.newWork item) :: before.history }
  | housekeeping {after} : Housekeeping before after → Transition before after

private theorem bookkeep {before : KeyedWorld} {scheduler : KeyedSerialHandlerScheduler}
    {blocked : List SizedEvent} (same : SameLoad before.scheduler scheduler) :
    Housekeeping before { before with scheduler, blocked } := by
  have kept := @Housekeeping.bookkeeping before scheduler blocked [] same (by simp)
  rw [List.append_nil] at kept
  exact kept

theorem admitted_cases {before : KeyedWorld} {item : SizedEvent} {blocked : List SizedEvent}
    {decision : KeyedSerialHandlerScheduler × Admission}
    (decided : Admits before.scheduler item decision) :
    Transition before ({ before with blocked }.admitted item decision) := by
  cases decided with
  | refused same unaccepted =>
      next after admission =>
      cases admission with
      | accepted work => exact absurd rfl (unaccepted work)
      | blocked | discarded | oversized => exact .housekeeping (bookkeep same)
  | accepted accepting room => exact .admission accepting room

/-- A step that admits nothing. -/
inductive Quiet (before : KeyedWorld) : KeyedWorld → Prop
  | thread {index pc next} : before.threads[index]? = some pc →
      Advances before.scheduler index pc next →
      Quiet before { before with
        scheduler := next.scheduler
        threads := before.threads.set index next.pc
        history := next.events ++ before.history }
  | housekeeping {after} : Housekeeping before after → Quiet before after

theorem Quiet.transition {before after : KeyedWorld} (quiet : Quiet before after) :
    Transition before after := by
  cases quiet with
  | thread found advances => exact .thread found advances
  | housekeeping kept => exact .housekeeping kept

theorem quiet_cases {before after : KeyedWorld} {label : KeyedLabel}
    (quiet : label.submits = false) (stepped : before.step label = some after) :
    Quiet before after := by
  cases label with
  | submit | resume => contradiction
  | start =>
      simp only [step, start] at stepped
      split at stepped
      · cases stepped
        exact .housekeeping (bookkeep (.refl _))
      next fresh =>
      split at stepped
      · contradiction
      next running =>
        cases stepped
        simp only [Bool.or_eq_true, Bool.not_eq_true', not_or, Bool.not_eq_false] at running
        simp only [Bool.and_eq_true, Bool.not_eq_true', not_and, Bool.not_eq_false] at fresh
        refine .housekeeping (.start running.1 ?_)
        rw [← Bool.not_eq_true]
        exact fun started => running.2 (fresh started)
  | launch succeeds => exact .housekeeping (.launch stepped)
  | select retainedSize events =>
      simp only [step] at stepped
      split at stepped
      · cases stepped
        exact .housekeeping (bookkeep (.refl _))
      · next selected =>
        cases stepped
        exact .housekeeping (bookkeep (selectSizedEvent_sameLoad selected))
  | thread index move =>
      simp only [step] at stepped
      split at stepped
      · contradiction
      next found =>
      split at stepped
      · contradiction
      next advanced =>
        cases stepped
        exact .thread found (advance_cases advanced)
  | stopAccepting =>
      cases stepped
      exact .housekeeping (bookkeep stopAccepting_sameLoad)
  | drainTimeout =>
      simp only [step] at stepped
      split at stepped
      · contradiction
      · cases stepped
        exact .housekeeping (bookkeep recordTimedOut_sameLoad)
  | stop calledFromCallback =>
      cases stepped
      cases calledFromCallback with
      | true => exact .housekeeping (bookkeep stopAccepting_sameLoad)
      | false =>
          exact .housekeeping (@Housekeeping.bookkeeping before _ _ [.draining]
            stopAccepting_sameLoad (by simp))

theorem step_cases {before after : KeyedWorld} {label : KeyedLabel}
    (stepped : before.step label = some after) : Transition before after := by
  cases label with
  | submit item =>
      simp only [step] at stepped
      split at stepped
      · cases stepped
        exact .housekeeping (bookkeep (.refl _))
      · next submitted =>
        cases stepped
        exact admitted_cases (submitSized_cases submitted)
  | resume index =>
      simp only [step] at stepped
      split at stepped
      · contradiction
      · cases stepped
        exact admitted_cases (resumeSubmission_cases _)
  | start | launch | select | thread | stopAccepting | drainTimeout | stop =>
      exact (quiet_cases rfl stepped).transition

end KeyedWorld

end StreamDockSdk.Runtime
