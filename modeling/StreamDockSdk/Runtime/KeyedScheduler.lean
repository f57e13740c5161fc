import Mathlib.Data.Finset.Basic
import StreamDockSdk.Automaton.System
import StreamDockSdk.Messaging.Models
import StreamDockSdk.Runtime.Routes

namespace StreamDockSdk.Runtime

open Messaging

/-! # `KeyedSerialHandlerScheduler`

`KeyedSerialHandlerScheduler` is the object with the fields that its condition
guards; every function on it is one locked region.  `KeyedWorld` adds the
program counters of the threads that call into it.
-/

inductive DispatchOutcome where
  | handled
  | ignored
  | callbackFailed
  | discardedDuringShutdown
deriving DecidableEq, Repr

structure SchedulerConfig where
  workerCount : Nat
  pendingLimit : Nat
  pendingByteLimit : Nat
  workerCount_pos : 0 < workerCount
  pendingLimit_pos : 0 < pendingLimit
  pendingByteLimit_pos : 0 < pendingByteLimit

/-- What a call of the dispatcher left behind: a `DispatchResult`, an error and
no result, or an error and an object that is no `DispatchResult`. -/
inductive DispatchReply where
  | result (outcome : DispatchOutcome)
  | error
  | malformed
deriving DecidableEq, Repr

/-- One accepted submission.  Its completion is named by its token. -/
structure ScheduledWork where
  token : Nat
  event : StreamDockEvent
  context : Option Str
  size : Nat
deriving Repr

/-- `context=None if is_barrier else context`. -/
def ScheduledWork.isBarrier (work : ScheduledWork) : Bool :=
  work.context.isNone

structure KeyedSerialHandlerScheduler where
  config : SchedulerConfig
  pendingBytes : Nat := 0
  peakPendingBytes : Nat := 0
  rejectedOversized : Nat := 0
  pending : List ScheduledWork := []
  /-- A missing key reads as 0. -/
  pendingByContext : Str → Nat := fun _ => 0
  selectionBackpressured : Bool := false
  terminalizing : Nat := 0
  liveWorkers : Nat := 0
  activeContexts : Finset Str := ∅
  activeByThread : List (Nat × ScheduledWork) := []
  barrierActive : Bool := false
  started : Bool := false
  accepting : Bool := true
  stopped : Bool := false
  accepted : Nat := 0
  completed : Nat := 0
  peakPending : Nat := 0
  peakActiveCallbacks : Nat := 0
  barriersProcessed : Nat := 0
  callbackFailures : Nat := 0
  callbackTimeouts : Nat := 0
  discardedDuringShutdown : Nat := 0
  admissionBackpressure : Nat := 0
  internalToken : Nat := 0
  timedOutTokens : Finset Nat := ∅

/-- How one evaluation of the admission condition of `submit_sized` ends. -/
inductive Admission where
  | discarded
  | oversized
  | blocked
  | accepted (work : ScheduledWork)
deriving Repr

inductive SubmissionError where
  | valueError
  | handlerSchedulerLifecycleError
deriving DecidableEq, Repr

namespace KeyedSerialHandlerScheduler

variable (scheduler : KeyedSerialHandlerScheduler)

/-- The condition of the waiting loop in `submit_sized`. -/
def isFull (size : Nat) : Bool :=
  decide (scheduler.config.pendingLimit ≤ scheduler.pending.length) ||
    decide (scheduler.config.pendingByteLimit < scheduler.pendingBytes + size)

def countPending (context : Option Str) : Str → Nat :=
  match context with
  | none => scheduler.pendingByContext
  | some key =>
      Function.update scheduler.pendingByContext key (scheduler.pendingByContext key + 1)

def uncountPending (context : Option Str) : Str → Nat :=
  match context with
  | none => scheduler.pendingByContext
  | some key =>
      Function.update scheduler.pendingByContext key (scheduler.pendingByContext key - 1)

/-- The work object that `submit_sized` appends for an admitted item. -/
def newWork (item : SizedEvent) : ScheduledWork where
  token := scheduler.internalToken + 1
  event := item.event
  context := scheduledContext? item.event
  size := item.size

/-- The end of `submit_sized`, after its waiting loop. -/
def admitItem (item : SizedEvent) : KeyedSerialHandlerScheduler × Admission :=
  let work := scheduler.newWork item
  let pending := scheduler.pending ++ [work]
  let pendingBytes := scheduler.pendingBytes + item.size
  ({ scheduler with
      internalToken := scheduler.internalToken + 1
      pending
      accepted := scheduler.accepted + 1
      pendingBytes
      peakPendingBytes := max scheduler.peakPendingBytes pendingBytes
      pendingByContext := scheduler.countPending work.context
      peakPending := max scheduler.peakPending pending.length }, .accepted work)

def discardSubmission : KeyedSerialHandlerScheduler × Admission :=
  ({ scheduler with discardedDuringShutdown := scheduler.discardedDuringShutdown + 1 }, .discarded)

/-- `submit_sized` up to its first wait. -/
def submitSized (item : SizedEvent) :
    Except SubmissionError (KeyedSerialHandlerScheduler × Admission) :=
  if item.size = 0 then .error .valueError
  else if !scheduler.accepting then .ok scheduler.discardSubmission
  else if !scheduler.started then .error .handlerSchedulerLifecycleError
  else if scheduler.config.pendingByteLimit < item.size then
    .ok ({ scheduler with rejectedOversized := scheduler.rejectedOversized + 1 }, .oversized)
  else if scheduler.isFull item.size then
    .ok ({ scheduler with admissionBackpressure := scheduler.admissionBackpressure + 1 }, .blocked)
  else .ok (scheduler.admitItem item)

/-- `submit_sized` from the return of a wait to the next one. -/
def resumeSubmission (item : SizedEvent) : KeyedSerialHandlerScheduler × Admission :=
  if !scheduler.accepting then scheduler.discardSubmission
  else if scheduler.isFull item.size then (scheduler, .blocked)
  else scheduler.admitItem item

/-- `_can_admit_bytes` -/
def canAdmitBytes (size : Nat) : Bool :=
  decide (scheduler.config.pendingByteLimit < size) ||
    decide (scheduler.pendingBytes + size ≤ scheduler.config.pendingByteLimit)

/-- `_context_work_limit` -/
def contextWorkLimit : Nat :=
  max 1 (scheduler.config.pendingLimit / scheduler.config.workerCount)

def contextWork (context : Str) : Nat :=
  scheduler.pendingByContext context + if context ∈ scheduler.activeContexts then 1 else 0

/-- The loop of `select_sized_event` over the source, from a given index. -/
def selectFrom (retainedSize : StreamDockEvent → Nat) :
    Nat → Finset Str → List SizedEvent → Option Nat
  | _, _, [] => none
  | index, deferredContexts, item :: rest =>
      let size := if item.size = 0 then retainedSize item.event else item.size
      match scheduledContext? item.event with
      | none => if index = 0 ∧ scheduler.canAdmitBytes size then some index else none
      | some context =>
          if context ∈ deferredContexts then
            selectFrom retainedSize (index + 1) deferredContexts rest
          else if scheduler.contextWork context < scheduler.contextWorkLimit then
            if scheduler.canAdmitBytes size then some index
            else selectFrom retainedSize (index + 1) (insert context deferredContexts) rest
          else selectFrom retainedSize (index + 1) deferredContexts rest

/-- `select_sized_event` -/
def selectSizedEvent (retainedSize : StreamDockEvent → Nat) (events : List SizedEvent) :
    Except SubmissionError (KeyedSerialHandlerScheduler × Option Nat) :=
  if !scheduler.accepting then .ok (scheduler, some 0)
  else if !scheduler.started then .error .handlerSchedulerLifecycleError
  else
    let selected :=
      if scheduler.pending.length < scheduler.config.pendingLimit then
        scheduler.selectFrom retainedSize 0 ∅ events
      else none
    match selected with
    | some index => .ok ({ scheduler with selectionBackpressured := false }, some index)
    | none =>
        if scheduler.selectionBackpressured then .ok (scheduler, none)
        else .ok ({ scheduler with
          admissionBackpressure := scheduler.admissionBackpressure + 1
          selectionBackpressured := true }, none)

/-- The scan of `_take_internal_work`: the position and work it stops at. -/
def scan : Nat → List ScheduledWork → Option (Nat × ScheduledWork)
  | _, [] => none
  | index, work :: rest =>
      match work.context with
      | none => if index ≠ 0 ∨ scheduler.activeByThread ≠ [] then none else some (index, work)
      | some context =>
          if context ∈ scheduler.activeContexts then scan (index + 1) rest else some (index, work)

/-- The state after `_take_internal_work` removed the work at `index` for `thread`. -/
def activate (thread index : Nat) (work : ScheduledWork) : KeyedSerialHandlerScheduler :=
  let activeByThread := (thread, work) :: scheduler.activeByThread
  { scheduler with
    barrierActive := scheduler.barrierActive || work.isBarrier
    activeContexts :=
      match work.context with
      | none => scheduler.activeContexts
      | some context => insert context scheduler.activeContexts
    pending := scheduler.pending.eraseIdx index
    pendingBytes := scheduler.pendingBytes - work.size
    pendingByContext := scheduler.uncountPending work.context
    activeByThread
    peakActiveCallbacks := max scheduler.peakActiveCallbacks activeByThread.length }

/-- `_take_internal_work` -/
def takeInternalWork (thread : Nat) : Option (KeyedSerialHandlerScheduler × ScheduledWork) :=
  if scheduler.barrierActive then none
  else (scheduler.scan 0 scheduler.pending).map fun (index, work) =>
    (scheduler.activate thread index work, work)

/-- The locked region in the `finally` clause after a dispatch.  Reading the
outcome of a malformed result raises there, before the thread's entry is removed. -/
def release (thread : Nat) (work : ScheduledWork) (reply : DispatchReply) :
    KeyedSerialHandlerScheduler :=
  { scheduler with
    completed := scheduler.completed + 1
    barriersProcessed := scheduler.barriersProcessed + if work.isBarrier then 1 else 0
    barrierActive := scheduler.barrierActive && !work.isBarrier
    activeContexts :=
      match work.context with
      | none => scheduler.activeContexts
      | some context => scheduler.activeContexts.erase context
    callbackFailures :=
      scheduler.callbackFailures + if reply = .result .callbackFailed then 1 else 0
    activeByThread :=
      if reply = .malformed then scheduler.activeByThread
      else scheduler.activeByThread.filter fun entry => entry.1 != thread }

/-- `stop_accepting` -/
def stopAccepting : KeyedSerialHandlerScheduler :=
  { scheduler with
    accepting := false
    stopped := scheduler.stopped || !scheduler.started || scheduler.liveWorkers == 0 }

/-- `_is_drained` -/
def isDrained : Bool :=
  scheduler.pending.isEmpty && scheduler.activeByThread.isEmpty && scheduler.terminalizing == 0

/-- The locked region of `drain` after its wait timed out. -/
def recordTimedOut : KeyedSerialHandlerScheduler :=
  let timedOut := scheduler.activeByThread.filter fun entry =>
    decide (entry.2.token ∉ scheduler.timedOutTokens)
  { scheduler with
    timedOutTokens := scheduler.timedOutTokens ∪ (timedOut.map (·.2.token)).toFinset
    callbackTimeouts := scheduler.callbackTimeouts + timedOut.length }

/-- The first locked region of `_discard_pending`. -/
def clearPending : KeyedSerialHandlerScheduler :=
  { scheduler with
    pending := []
    pendingBytes := 0
    pendingByContext := fun _ => 0
    terminalizing := scheduler.terminalizing + scheduler.pending.length
    discardedDuringShutdown := scheduler.discardedDuringShutdown + scheduler.pending.length }

/-- The locked region of `_discard_pending` after one discarded work. -/
def countDiscarded : KeyedSerialHandlerScheduler :=
  { scheduler with
    terminalizing := scheduler.terminalizing - 1
    completed := scheduler.completed + 1 }

def exitWorker : KeyedSerialHandlerScheduler :=
  { scheduler with
    liveWorkers := scheduler.liveWorkers - 1
    stopped := scheduler.stopped || scheduler.liveWorkers - 1 == 0 }

end KeyedSerialHandlerScheduler

/-- Where `_discard_pending` was called from: `_run` after a raising dispatch,
the outer handler of `_run`, or a caller of `stop` or `start`. -/
inductive DiscardCaller where
  | afterError
  | fatal
  | stopping
deriving DecidableEq, Repr

inductive DiscardPc where
  | entering
  | finishing (rest : List ScheduledWork) (observerFailed : Bool)
  | observing (rest : List ScheduledWork) (observerFailed : Bool)
deriving Repr

/-- A worker thread inside `_run`, or a caller inside `stop`. -/
inductive ThreadPc where
  | created
  | ready
  | taken (work : ScheduledWork)
  | dispatching (work : ScheduledWork)
  | raised (work : ScheduledWork) (reply : DispatchReply)
  | finishing (work : ScheduledWork) (reply : DispatchReply)
  | observing (work : ScheduledWork) (reply : DispatchReply)
  | failing
  | exiting
  | exited
  | draining
  | stopped
  | discarding (caller : DiscardCaller) (frame : DiscardPc)
deriving Repr

/-- The thread inside `start`: the index of the next worker, and how many are left. -/
inductive LaunchPc where
  | idle
  | counting (index remaining : Nat)
  | starting (index remaining : Nat)
  | aborting
deriving DecidableEq, Repr

inductive KeyedEvent where
  | accepted (work : ScheduledWork)
  | discarded (work : ScheduledWork)
  | dispatched (work : ScheduledWork)
  | returned (work : ScheduledWork) (reply : DispatchReply)
  | finished (work : ScheduledWork)
deriving Repr

/-- What the environment decides about the next step of one thread. -/
inductive ThreadMove where
  | proceed
  | timedOut
  | returns (outcome : DispatchOutcome)
  | returnsOther
  | raises
  | observed (raised : Bool)
deriving DecidableEq, Repr

/-- The state, the new events and the thread after one step of a thread. -/
structure Advance where
  scheduler : KeyedSerialHandlerScheduler
  events : List KeyedEvent := []
  pc : ThreadPc

namespace KeyedSerialHandlerScheduler

variable (scheduler : KeyedSerialHandlerScheduler)

/-- The program counter after `_discard_pending`. -/
def afterDiscard (observerFailed : Bool) : DiscardCaller → ThreadPc
  | .afterError => if observerFailed then .failing else .ready
  | .fatal => .exiting
  | .stopping => .stopped

/-- One step inside `_discard_pending`. -/
def advanceDiscard (caller : DiscardCaller) : DiscardPc → ThreadMove → Option Advance
  | .entering, .proceed => some {
      scheduler := scheduler.clearPending
      events := (scheduler.pending.map .discarded).reverse
      pc := .discarding caller (.finishing scheduler.pending false) }
  | .finishing [] observerFailed, .proceed => some {
      scheduler, pc := afterDiscard observerFailed caller }
  | .finishing (work :: rest) observerFailed, .proceed => some {
      scheduler
      events := [.finished work]
      pc := .discarding caller (.observing rest observerFailed) }
  | .observing rest observerFailed, .observed raised => some {
      scheduler := scheduler.countDiscarded
      pc := .discarding caller (.finishing rest (observerFailed || raised)) }
  | _, _ => none

/-- The program counter after the `finally` clause of a dispatch. -/
def afterRelease (reply : DispatchReply) (observerFailed : Bool) : ThreadPc :=
  match reply with
  | .malformed => .failing
  | .error => if observerFailed then .failing else .discarding .afterError .entering
  | .result _ => if observerFailed then .failing else .ready

/-- One step of the thread with the given index. -/
def advance (thread : Nat) : ThreadPc → ThreadMove → Option Advance
  | .ready, .proceed =>
      match scheduler.takeInternalWork thread with
      | some (next, work) => some { scheduler := next, pc := .taken work }
      | none =>
          if !scheduler.accepting && scheduler.pending.isEmpty then
            some { scheduler, pc := .exiting }
          else none
  | .taken work, .proceed => some {
      scheduler, events := [.dispatched work], pc := .dispatching work }
  | .dispatching work, .returns outcome => some {
      scheduler
      events := [.returned work (.result outcome)]
      pc := .finishing work (.result outcome) }
  | .dispatching work, .returnsOther => some {
      scheduler, events := [.returned work .malformed], pc := .raised work .malformed }
  | .dispatching work, .raises => some {
      scheduler, events := [.returned work .error], pc := .raised work .error }
  | .raised work reply, .proceed => some {
      scheduler := scheduler.stopAccepting, pc := .finishing work reply }
  | .finishing work reply, .proceed => some {
      scheduler, events := [.finished work], pc := .observing work reply }
  | .observing work reply, .observed observerFailed => some {
      scheduler := scheduler.release thread work reply
      pc := afterRelease reply observerFailed }
  | .failing, .proceed => some {
      scheduler := scheduler.stopAccepting, pc := .discarding .fatal .entering }
  | .exiting, .proceed => some { scheduler := scheduler.exitWorker, pc := .exited }
  | .draining, .proceed =>
      if scheduler.isDrained then some { scheduler, pc := .stopped } else none
  | .draining, .timedOut =>
      if scheduler.isDrained then none
      else some {
        scheduler := scheduler.recordTimedOut, pc := .discarding .stopping .entering }
  | .discarding caller frame, move => scheduler.advanceDiscard caller frame move
  | _, _ => none

end KeyedSerialHandlerScheduler

structure KeyedWorld where
  scheduler : KeyedSerialHandlerScheduler
  threads : List ThreadPc := []
  launching : LaunchPc := .idle
  /-- Submitters parked in the wait of `submit_sized`. -/
  blocked : List SizedEvent := []
  /-- Newest first. -/
  history : List KeyedEvent := []

inductive KeyedLabel where
  | start
  | launch (succeeds : Bool)
  | submit (item : SizedEvent)
  | resume (index : Nat)
  | select (retainedSize : StreamDockEvent → Nat) (events : List SizedEvent)
  | thread (index : Nat) (move : ThreadMove)
  | stopAccepting
  | drainTimeout
  | stop (calledFromCallback : Bool)

namespace KeyedWorld

variable (world : KeyedWorld)

/-- The first locked region of `start`; it raises where the result is `none`. -/
def start : Option KeyedWorld :=
  if world.scheduler.started && !world.scheduler.stopped then some world
  else if !world.scheduler.accepting || world.scheduler.stopped then none
  else
    let workerCount := world.scheduler.config.workerCount
    some { world with
      scheduler := { world.scheduler with started := true }
      threads := world.threads ++ List.replicate workerCount .created
      launching := .counting world.threads.length workerCount }

/-- One step of the loop in `start` that launches the workers.  A worker whose
thread cannot be started stays `created`, as do those after it. -/
def launchStep (succeeds : Bool) : Option KeyedWorld :=
  match world.launching with
  | .idle => none
  | .counting _ 0 => some { world with launching := .idle }
  | .counting index (remaining + 1) => some { world with
      scheduler := { world.scheduler with liveWorkers := world.scheduler.liveWorkers + 1 }
      launching := .starting index remaining }
  | .starting index remaining =>
      if succeeds then some { world with
        threads := world.threads.set index .ready
        launching := .counting (index + 1) remaining }
      else some { world with
        scheduler := { world.scheduler with liveWorkers := world.scheduler.liveWorkers - 1 }
        launching := .aborting }
  | .aborting => some { world with
      scheduler := { world.scheduler with
        accepting := false
        stopped := world.scheduler.stopped || world.scheduler.liveWorkers == 0 }
      launching := .idle
      threads := world.threads ++ [.discarding .stopping .entering] }

/-- The effect of an admission decision on the submitter's side. -/
def admitted (item : SizedEvent) : KeyedSerialHandlerScheduler × Admission → KeyedWorld
  | (scheduler, .accepted work) =>
      { world with scheduler, history := .accepted work :: world.history }
  | (scheduler, .blocked) => { world with scheduler, blocked := world.blocked ++ [item] }
  | (scheduler, .discarded) | (scheduler, .oversized) => { world with scheduler }

def step : KeyedLabel → Option KeyedWorld
  | .start => world.start
  | .launch succeeds => world.launchStep succeeds
  | .submit item =>
      match world.scheduler.submitSized item with
      | .error _ => some world
      | .ok decision => some (world.admitted item decision)
  | .resume index =>
      match world.blocked[index]? with
      | none => none
      | some item =>
          some ({ world with blocked := world.blocked.eraseIdx index }.admitted item
            (world.scheduler.resumeSubmission item))
  | .select retainedSize events =>
      match world.scheduler.selectSizedEvent retainedSize events with
      | .error _ => some world
      | .ok (scheduler, _) => some { world with scheduler }
  | .thread index move =>
      match world.threads[index]? with
      | none => none
      | some pc =>
          match world.scheduler.advance index pc move with
          | none => none
          | some next => some { world with
              scheduler := next.scheduler
              threads := world.threads.set index next.pc
              history := next.events ++ world.history }
  | .stopAccepting => some { world with scheduler := world.scheduler.stopAccepting }
  | .drainTimeout =>
      if world.scheduler.isDrained then none
      else some { world with scheduler := world.scheduler.recordTimedOut }
  | .stop calledFromCallback => some { world with
      scheduler := world.scheduler.stopAccepting
      threads := if calledFromCallback then world.threads else world.threads ++ [.draining] }

end KeyedWorld

/-- Every run of a scheduler built with `config`. -/
def keyedSystem (config : SchedulerConfig) : Automaton.System KeyedWorld KeyedLabel where
  initial world := world = { scheduler := { config } }
  step := KeyedWorld.step

end StreamDockSdk.Runtime
