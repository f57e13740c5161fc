import StreamDockSdk.Automaton.System

namespace StreamDockSdk.Runtime

/-! # `ComposedStreamDockRuntime`

The runtime's own fields, with the positions of the threads that it starts
itself.  `RuntimeWorld` adds the callers of `run_forever`, `close` and
`_on_fatal_error`.  The workers and the boundary are ports: what their calls
return, and when, is part of the label.
-/

inductive RuntimeLifecycleState where
  | new
  | starting
  | running
  | stopping
  | stopped
  | failed
deriving DecidableEq, Repr

namespace RuntimeLifecycleState

def terminal : RuntimeLifecycleState → Bool
  | .stopped | .failed => true
  | _ => false

/-- `_RUNTIME_TRANSITIONS` -/
def targets : RuntimeLifecycleState → List RuntimeLifecycleState
  | .new => [.starting, .stopped]
  | .starting => [.running, .stopping, .failed]
  | .running => [.stopping, .failed]
  | .stopping => [.stopped, .failed]
  | .stopped | .failed => []

end RuntimeLifecycleState

/-- `transition_runtime_state`; it raises where the result is `none`. -/
def transitionRuntimeState (current target : RuntimeLifecycleState) :
    Option RuntimeLifecycleState :=
  if target ∈ current.targets then some target else none

inductive RuntimeWorker where
  | scheduler
  | eventPump
  | sessionPump
deriving DecidableEq, Repr

/-- Where a failure was first seen. -/
inductive RuntimeFailure where
  | startup
  | boundaryRun
  | worker
  | application
deriving DecidableEq, Repr

/-- The calls that release the application's resources. -/
inductive ReleaseCall where
  | clearContexts
  | willDisappear (index : Nat)
  | onStop
  | setReleased
deriving DecidableEq, Repr

/-- What the environment decides about one step: how a call ends, whether a wait
times out, and whether a thread can be started (`raises` where it cannot). -/
inductive RuntimeMove where
  | proceed
  | timesOut
  | returns (result : Bool)
  | clears (actions : Nat)
  | raises
  | interrupts
deriving DecidableEq, Repr

inductive BoundaryClosePc where
  | idle
  | calling
  | closing
  | finished
deriving DecidableEq, Repr

/-- The thread that runs `_run_boundary`. -/
inductive BoundaryRunPc where
  | idle
  | running
  | judging
  | judgingFailure
  | recording
  | ensuring
  | finishing
  | finished
deriving DecidableEq, Repr

/-- The thread that runs `_cleanup_owned`. -/
inductive CleanupPc where
  | idle
  | ensuring
  | awaitingClose
  | drainingEvents
  | stoppingAccepting (drained : Bool)
  | requestingStop
  | draining (worker : RuntimeWorker)
  | stopping (worker : RuntimeWorker)
  | deciding
  | awaitingBoundaryClose
  | awaitingBoundaryWorkers
  | awaitingBoundaryRun
  | checkingFailures
  | retrying (worker : RuntimeWorker)
  | clearing
  | releasing (next actions : Nat)
  | stoppingPlugin
  | settingReleased
  | finishing
  | finished
deriving DecidableEq, Repr

structure ComposedStreamDockRuntime where
  /-- `on_stop` is not `None`. -/
  hasOnStop : Bool
  state : RuntimeLifecycleState := .new
  shutdownRequested : Bool := false
  primaryFailure : Option RuntimeFailure := none
  /-- `_shutdown.primary_failure` -/
  sharedFailure : Option RuntimeFailure := none
  failedWorkerStops : List RuntimeWorker := []
  terminal : Bool := false
  resourcesReleased : Bool := false
  cleanupWaitComplete : Bool := false
  boundaryCloseStarted : Bool := false
  boundaryCloseComplete : Bool := false
  boundaryRunComplete : Bool := true
  /-- `scheduler_attempted`, `event_pump_started` and `session_pump_started` of
  the call of `run_forever` that was let in. -/
  attempted : RuntimeWorker → Bool := fun _ => false
  /-- A call of the worker's `stop` has returned `True`. -/
  stopped : RuntimeWorker → Bool := fun _ => false
  /-- A call of the boundary's `close` has begun. -/
  boundaryClosing : Bool := false
  /-- The boundary's `_workers_stopped` -/
  boundaryWorkersStopped : Bool := false
  boundaryCloser : BoundaryClosePc := .idle
  boundaryRun : BoundaryRunPc := .idle
  cleanup : CleanupPc := .idle
  /-- Newest first. -/
  calls : List ReleaseCall := []

inductive RunOutcome where
  | returned
  | raised (failure : RuntimeFailure)
  | interrupted
  | invalidTransition
deriving DecidableEq, Repr

/-- A call of `run_forever`. -/
inductive RunPc where
  | entering
  /-- `StreamDockRuntimeLifecycleError` -/
  | rejected
  | startingScheduler
  | checking (worker : RuntimeWorker)
  | starting (worker : RuntimeWorker)
  | announcing
  | checkingBoundary
  | startingBoundary
  | waiting
  | awaitingBoundary
  | judging
  | judgingFailure
  | recording
  | finalizing (interrupted : Bool)
  | launchingCleanup (interrupted : Bool)
  | awaitingCleanup (interrupted : Bool)
  | concluding (interrupted : Bool)
  | settling (outcome : RunOutcome)
  | ended (outcome : RunOutcome)
deriving DecidableEq, Repr

/-- A call of `close`, or of `_on_fatal_error`. -/
inductive ClosePc where
  | recording (failure : RuntimeFailure)
  | entering (fromWorker : Bool)
  | ensuring (beforeRun nonblocking : Bool)
  | awaitingClose (beforeRun : Bool)
  | awaitingAgain
  | settling
  | releasing
  | announcing
  | awaitingTerminal
  | ended
deriving DecidableEq, Repr

namespace ComposedStreamDockRuntime

variable (runtime : ComposedStreamDockRuntime)

/-- `_record_primary_failure` -/
def recordPrimaryFailure (failure : RuntimeFailure) : ComposedStreamDockRuntime :=
  { runtime with
    primaryFailure := runtime.primaryFailure.or (some failure)
    sharedFailure :=
      if runtime.primaryFailure.isNone then runtime.sharedFailure.or (some failure)
      else runtime.sharedFailure
    shutdownRequested := true }

/-- `_on_fatal_error` up to `_ensure_boundary_closed`. -/
def onFatalError (failure : RuntimeFailure) : ComposedStreamDockRuntime :=
  runtime.recordPrimaryFailure (runtime.sharedFailure.getD failure)

/-- The locked region of `_ensure_boundary_closed`. -/
def ensureBoundaryClosed (threadStarts : Bool) : ComposedStreamDockRuntime :=
  if runtime.boundaryCloseStarted then runtime
  else if threadStarts then
    { runtime with boundaryCloseStarted := true, boundaryCloser := .calling }
  else { runtime with boundaryCloseStarted := true, boundaryCloseComplete := true }

/-- `_resources_released.set()` -/
def setReleased : ComposedStreamDockRuntime :=
  if runtime.resourcesReleased then runtime
  else { runtime with resourcesReleased := true, calls := .setReleased :: runtime.calls }

/-- The worker that `_cleanup` did not start counts as stopped there. -/
def settled (worker : RuntimeWorker) : Bool :=
  !runtime.attempted worker || runtime.stopped worker

def markStopped (worker : RuntimeWorker) : ComposedStreamDockRuntime :=
  { runtime with stopped := fun other => other == worker || runtime.stopped other }

def enterRun : ComposedStreamDockRuntime × RunPc :=
  if runtime.state ≠ .new ∨ runtime.shutdownRequested then (runtime, .rejected)
  else match transitionRuntimeState runtime.state .starting with
    | none => (runtime, .ended .invalidTransition)
    | some state => (
        { runtime with state, attempted := fun worker => worker == .scheduler },
        .startingScheduler)

def markStarted (worker : RuntimeWorker) : ComposedStreamDockRuntime :=
  { runtime with attempted := fun other => other == worker || runtime.attempted other }

/-- Where `run_forever` goes after the start of a worker. -/
def afterStart : RuntimeWorker → RunPc
  | .scheduler => .checking .eventPump
  | .eventPump => .checking .sessionPump
  | .sessionPump => .announcing

/-- Where `run_forever` goes when it does not start the pump. -/
def afterSkip : RuntimeWorker → RunPc
  | .scheduler | .eventPump => .checking .sessionPump
  | .sessionPump => .checkingBoundary

def announce : ComposedStreamDockRuntime × RunPc :=
  if runtime.shutdownRequested then (runtime, .checkingBoundary)
  else match transitionRuntimeState runtime.state .running with
    | none => (runtime, .judging)
    | some state => ({ runtime with state }, .checkingBoundary)

/-- The first locked region of the `finally` clause. -/
def finalizeRun (interrupted : Bool) : ComposedStreamDockRuntime × RunPc :=
  if runtime.state = .starting ∨ runtime.state = .running then
    match transitionRuntimeState runtime.state .stopping with
    | none => (runtime, .ended .invalidTransition)
    | some state => ({ runtime with state, shutdownRequested := true }, .launchingCleanup interrupted)
  else ({ runtime with shutdownRequested := true }, .launchingCleanup interrupted)

/-- The last locked region of the `finally` clause. -/
def concludeRun (interrupted : Bool) : ComposedStreamDockRuntime × RunPc :=
  let failure := runtime.primaryFailure.or runtime.sharedFailure
  let target := if failure.isSome then .failed else .stopped
  match transitionRuntimeState runtime.state target with
  | none => ({ runtime with primaryFailure := failure }, .ended .invalidTransition)
  | some state => (
      { runtime with primaryFailure := failure, state },
      .settling (if interrupted then .interrupted else match failure with
        | none => .returned
        | some failure => .raised failure))

/-- One step of a call of `run_forever`. -/
def advanceRun : RunPc → RuntimeMove → Option (ComposedStreamDockRuntime × RunPc)
  | .entering, .proceed => some runtime.enterRun
  | .startingScheduler, .proceed => some (runtime, afterStart .scheduler)
  | .startingScheduler, .raises => some (runtime, .judging)
  | .startingScheduler, .interrupts => some (runtime, .finalizing true)
  | .checking worker, .proceed =>
      some (runtime, if runtime.shutdownRequested then afterSkip worker else .starting worker)
  | .starting worker, .proceed => some (runtime.markStarted worker, afterStart worker)
  | .starting _, .raises => some (runtime, .judging)
  | .starting _, .interrupts => some (runtime, .finalizing true)
  | .announcing, .proceed => some runtime.announce
  | .checkingBoundary, .proceed =>
      if runtime.shutdownRequested then some (runtime, .finalizing false)
      else some ({ runtime with boundaryRunComplete := false }, .startingBoundary)
  | .startingBoundary, .proceed => some ({ runtime with boundaryRun := .running }, .waiting)
  | .startingBoundary, .raises => some ({ runtime with boundaryRunComplete := true }, .judging)
  | .startingBoundary, .interrupts =>
      some ({ runtime with boundaryRunComplete := true }, .finalizing true)
  | .waiting, .proceed =>
      if runtime.boundaryRunComplete || runtime.shutdownRequested then
        some (runtime, .awaitingBoundary)
      else none
  | .waiting, .interrupts => some (runtime, .finalizing true)
  | .awaitingBoundary, .proceed =>
      if runtime.boundaryRunComplete then some (runtime, .finalizing false) else none
  | .awaitingBoundary, .timesOut => some (runtime, .finalizing false)
  | .awaitingBoundary, .interrupts => some (runtime, .finalizing true)
  | .judging, .proceed =>
      some (runtime, if runtime.shutdownRequested then .judgingFailure else .recording)
  | .judgingFailure, .proceed =>
      some (runtime, if runtime.primaryFailure.isSome then .recording else .finalizing false)
  | .recording, .proceed => some (runtime.recordPrimaryFailure .startup, .finalizing false)
  | .finalizing interrupted, .proceed => some (runtime.finalizeRun interrupted)
  | .launchingCleanup interrupted, .proceed =>
      some ({ runtime with cleanup := .ensuring }, .awaitingCleanup interrupted)
  | .launchingCleanup interrupted, .raises => some (runtime, .awaitingCleanup interrupted)
  | .awaitingCleanup interrupted, .proceed =>
      if runtime.cleanupWaitComplete then some (runtime, .concluding interrupted) else none
  | .awaitingCleanup interrupted, .timesOut => some (runtime, .concluding interrupted)
  | .awaitingCleanup _, .interrupts => some (runtime, .ended .interrupted)
  | .concluding interrupted, .proceed => some (runtime.concludeRun interrupted)
  | .settling outcome, .proceed => some ({ runtime with terminal := true }, .ended outcome)
  | _, _ => none

def enterClose (fromWorker : Bool) : ComposedStreamDockRuntime × ClosePc :=
  if runtime.state.terminal then (runtime, .ended)
  else ({ runtime with shutdownRequested := true },
    .ensuring (runtime.state = .new) fromWorker)

/-- The region of `close` that ends a runtime that was never run. -/
def settleUnrun : ComposedStreamDockRuntime :=
  if runtime.state = .new then
    { runtime with state := (transitionRuntimeState runtime.state .stopped).getD runtime.state }
  else runtime

def afterEnsuring (beforeRun nonblocking : Bool) : ClosePc :=
  if nonblocking then .ended else .awaitingClose beforeRun

/-- Where `close` goes after its first wait for the boundary. -/
def afterClose (beforeRun : Bool) : ClosePc :=
  if beforeRun then .awaitingAgain else .awaitingTerminal

/-- One step of a call of `close` or `_on_fatal_error`. -/
def advanceClose : ClosePc → RuntimeMove → Option (ComposedStreamDockRuntime × ClosePc)
  | .recording failure, .proceed => some (runtime.onFatalError failure, .ensuring false true)
  | .entering fromWorker, .proceed => some (runtime.enterClose fromWorker)
  | .ensuring beforeRun nonblocking, .proceed =>
      some (runtime.ensureBoundaryClosed true, afterEnsuring beforeRun nonblocking)
  | .ensuring beforeRun nonblocking, .raises =>
      some (runtime.ensureBoundaryClosed false, afterEnsuring beforeRun nonblocking)
  | .awaitingClose beforeRun, .proceed =>
      if runtime.boundaryCloseComplete then some (runtime, afterClose beforeRun) else none
  | .awaitingClose beforeRun, .timesOut => some (runtime, afterClose beforeRun)
  | .awaitingAgain, .proceed =>
      if runtime.boundaryCloseComplete then some (runtime, .settling) else none
  | .awaitingAgain, .timesOut => some (runtime, .settling)
  | .settling, .proceed => some (runtime.settleUnrun, .releasing)
  | .releasing, .proceed => some (runtime.setReleased, .announcing)
  | .announcing, .proceed => some ({ runtime with terminal := true }, .ended)
  | .awaitingTerminal, .proceed => if runtime.terminal then some (runtime, .ended) else none
  | .awaitingTerminal, .timesOut => some (runtime, .ended)
  | _, _ => none

/-- One step of `_close_boundary_owned`. -/
def advanceBoundaryCloser : BoundaryClosePc → RuntimeMove → Option ComposedStreamDockRuntime
  | .calling, .proceed =>
      some { runtime with boundaryClosing := true, boundaryCloser := .closing }
  | .closing, .returns _ | .closing, .raises =>
      some { runtime with boundaryCloseComplete := true, boundaryCloser := .finished }
  | _, _ => none

/-- One step of `_run_boundary`. -/
def advanceBoundaryRun : BoundaryRunPc → RuntimeMove → Option ComposedStreamDockRuntime
  | .running, .returns _ => some { runtime with boundaryRun := .finishing }
  | .running, .raises => some { runtime with boundaryRun := .judging }
  | .judging, .proceed => some { runtime with
      boundaryRun := if runtime.shutdownRequested then .judgingFailure else .recording }
  | .judgingFailure, .proceed => some { runtime with
      boundaryRun := if runtime.primaryFailure.isSome then .recording else .finishing }
  | .recording, .proceed =>
      some { runtime.onFatalError .boundaryRun with boundaryRun := .ensuring }
  | .ensuring, .proceed =>
      some { runtime.ensureBoundaryClosed true with boundaryRun := .finishing }
  | .ensuring, .raises =>
      some { runtime.ensureBoundaryClosed false with boundaryRun := .finishing }
  | .finishing, .proceed =>
      some { runtime with boundaryRunComplete := true, boundaryRun := .finished }
  | _, _ => none

/-- The next stage of `_cleanup` after the first `stop` of a worker. -/
def afterStop : RuntimeWorker → CleanupPc
  | .sessionPump => .draining .scheduler
  | .scheduler => .stopping .eventPump
  | .eventPump => .deciding

/-- The next stage of `_cleanup` after the deferred `stop` of a worker. -/
def afterRetry : RuntimeWorker → CleanupPc
  | .scheduler => .retrying .sessionPump
  | .sessionPump => .retrying .eventPump
  | .eventPump => .clearing

/-- `_safe_bool_cleanup` of a worker's `stop` that raised. -/
def failStop (worker : RuntimeWorker) : ComposedStreamDockRuntime :=
  { runtime with failedWorkerStops := worker :: runtime.failedWorkerStops }

/-- One step of `_cleanup_owned`. -/
def advanceCleanup : CleanupPc → RuntimeMove → Option ComposedStreamDockRuntime
  | .ensuring, .proceed =>
      some { runtime.ensureBoundaryClosed true with cleanup := .awaitingClose }
  | .ensuring, .raises =>
      some { runtime.ensureBoundaryClosed false with cleanup := .awaitingClose }
  | .awaitingClose, .proceed =>
      if runtime.boundaryCloseComplete then some { runtime with cleanup := .drainingEvents }
      else none
  | .awaitingClose, .timesOut => some { runtime with cleanup := .drainingEvents }
  | .drainingEvents, .proceed =>
      if runtime.attempted .eventPump then none
      else some { runtime with cleanup := .stoppingAccepting true }
  | .drainingEvents, .returns drained =>
      if runtime.attempted .eventPump then
        some { runtime with cleanup := .stoppingAccepting drained }
      else none
  | .drainingEvents, .raises =>
      if runtime.attempted .eventPump then
        some { runtime with cleanup := .stoppingAccepting false }
      else none
  | .stoppingAccepting drained, .proceed => some { runtime with
      cleanup := if drained then .draining .sessionPump else .requestingStop }
  | .requestingStop, .proceed => some { runtime with cleanup := .draining .sessionPump }
  | .draining worker, .proceed => some { runtime with cleanup := .stopping worker }
  | .stopping worker, .proceed =>
      if runtime.attempted worker then none else some { runtime with cleanup := afterStop worker }
  | .stopping worker, .returns result =>
      if runtime.attempted worker then
        if result then some { runtime.markStopped worker with cleanup := afterStop worker }
        else some { runtime with cleanup := afterStop worker }
      else none
  | .stopping worker, .raises =>
      if runtime.attempted worker then
        some { runtime.failStop worker with cleanup := afterStop worker }
      else none
  | .deciding, .proceed => some { runtime with
      cleanupWaitComplete := runtime.cleanupWaitComplete ||
        !(runtime.settled .scheduler && runtime.settled .eventPump && runtime.settled .sessionPump)
      cleanup := .awaitingBoundaryClose }
  | .awaitingBoundaryClose, .proceed =>
      if runtime.boundaryCloseComplete then
        some { runtime with cleanup := .awaitingBoundaryWorkers }
      else none
  | .awaitingBoundaryWorkers, .proceed =>
      if runtime.boundaryWorkersStopped then some { runtime with cleanup := .awaitingBoundaryRun }
      else none
  | .awaitingBoundaryRun, .proceed =>
      if runtime.boundaryRunComplete then some { runtime with cleanup := .checkingFailures }
      else none
  | .checkingFailures, .proceed => some { runtime with
      cleanup := if runtime.failedWorkerStops.isEmpty then .retrying .scheduler else .finishing }
  | .retrying worker, .proceed =>
      if runtime.settled worker then some { runtime with cleanup := afterRetry worker } else none
  | .retrying worker, .returns result =>
      if runtime.settled worker then none
      else if result then some { runtime.markStopped worker with cleanup := afterRetry worker }
      else some { runtime with cleanup := .finishing }
  | .retrying worker, .raises =>
      if runtime.settled worker then none
      else some { runtime.failStop worker with cleanup := .finishing }
  | .clearing, .clears actions => some { runtime with
      calls := .clearContexts :: runtime.calls, cleanup := .releasing 0 actions }
  | .clearing, .raises => some { runtime with
      calls := .clearContexts :: runtime.calls, cleanup := .stoppingPlugin }
  | .releasing next actions, .proceed =>
      if next < actions then some { runtime with
        calls := .willDisappear next :: runtime.calls, cleanup := .releasing (next + 1) actions }
      else some { runtime with cleanup := .stoppingPlugin }
  | .stoppingPlugin, .proceed =>
      if runtime.hasOnStop then some { runtime with
        calls := .onStop :: runtime.calls, cleanup := .settingReleased }
      else some { runtime with cleanup := .settingReleased }
  | .settingReleased, .proceed => some { runtime.setReleased with cleanup := .finishing }
  | .finishing, .proceed =>
      some { runtime with cleanupWaitComplete := true, cleanup := .finished }
  | _, _ => none

end ComposedStreamDockRuntime

structure RuntimeWorld where
  runtime : ComposedStreamDockRuntime
  runners : List RunPc := []
  closers : List ClosePc := []

inductive RuntimeLabel where
  | run
  | runner (index : Nat) (move : RuntimeMove)
  | close (fromWorker : Bool)
  | fatal (failure : RuntimeFailure)
  | closer (index : Nat) (move : RuntimeMove)
  /-- The boundary or the application records its failure in the shared state. -/
  | share (failure : RuntimeFailure)
  | boundaryCloser (move : RuntimeMove)
  | boundaryRun (move : RuntimeMove)
  | cleanup (move : RuntimeMove)
  /-- The boundary closes itself, after its run or a worker's failure. -/
  | boundaryCloses
  | boundaryWorkersStop
deriving Repr

namespace RuntimeWorld

variable (world : RuntimeWorld)

def step : RuntimeLabel → Option RuntimeWorld
  | .run => some { world with runners := world.runners ++ [.entering] }
  | .runner index move =>
      match world.runners[index]? with
      | none => none
      | some pc => (world.runtime.advanceRun pc move).map fun (runtime, next) =>
          { world with runtime, runners := world.runners.set index next }
  | .close fromWorker => some { world with closers := world.closers ++ [.entering fromWorker] }
  | .fatal failure => some { world with closers := world.closers ++ [.recording failure] }
  | .closer index move =>
      match world.closers[index]? with
      | none => none
      | some pc => (world.runtime.advanceClose pc move).map fun (runtime, next) =>
          { world with runtime, closers := world.closers.set index next }
  | .share failure => some { world with
      runtime := { world.runtime with
        sharedFailure := world.runtime.sharedFailure.or (some failure) } }
  | .boundaryCloser move =>
      (world.runtime.advanceBoundaryCloser world.runtime.boundaryCloser move).map
        ({ world with runtime := · })
  | .boundaryRun move =>
      (world.runtime.advanceBoundaryRun world.runtime.boundaryRun move).map
        ({ world with runtime := · })
  | .cleanup move =>
      (world.runtime.advanceCleanup world.runtime.cleanup move).map ({ world with runtime := · })
  | .boundaryCloses => some { world with
      runtime := { world.runtime with boundaryClosing := true } }
  | .boundaryWorkersStop =>
      if world.runtime.boundaryClosing then some { world with
        runtime := { world.runtime with boundaryWorkersStopped := true } }
      else none

end RuntimeWorld

/-- Every run of a runtime, with or without a plugin to stop. -/
def runtimeSystem (hasOnStop : Bool) : Automaton.System RuntimeWorld RuntimeLabel where
  initial world := world = { runtime := { hasOnStop } }
  step := RuntimeWorld.step

end StreamDockSdk.Runtime
