import StreamDockSdk.Automaton.System

namespace StreamDockSdk.Boundary

/-! # `ComposedStreamDockBoundary`

The calls of `run_forever` and `close`, the thread that finishes the close, the two
workers and the connector with its sender.  A step is one locked region or one
access to a shared field; a lock that is held over several steps has its owner in
the state.
-/

inductive CommandSinkLifecycleState where
  | created
  | starting
  | ready
  | stopping
  | closed
deriving DecidableEq, Repr

namespace CommandSinkLifecycleState

def beginStarting : CommandSinkLifecycleState → CommandSinkLifecycleState
  | .created => .starting
  | state => state

def markReady : CommandSinkLifecycleState → CommandSinkLifecycleState
  | .starting => .ready
  | state => state

def beginStopping : CommandSinkLifecycleState → CommandSinkLifecycleState
  | .closed => .closed
  | _ => .stopping

end CommandSinkLifecycleState

/-- What the environment decides about one step: a wait may time out, a call of a
port may fail with an `Exception`, which is caught, and a thread may not start or
a `BaseException` escape (`raises`). -/
inductive BoundaryMove where
  | proceed
  | timesOut
  | fails
  | raises
deriving DecidableEq, Repr

inductive WorkerName where
  | reader
  | writer
deriving DecidableEq, Repr

inductive WorkerThreadPc where
  | running
  /-- Past the last region of `_run`. -/
  | leaving
  | exited
deriving DecidableEq, Repr

/-- The lifecycle of `EventReader` and of `CommandWriter`. -/
structure WorkerLifecycle where
  thread : Option WorkerThreadPc := none
  started : Bool := false
  stopRequested : Bool := false
  stopped : Bool := false
deriving DecidableEq, Repr

namespace WorkerLifecycle

variable (worker : WorkerLifecycle)

/-- `start`; the flag says that it returned. -/
def start (threadStarts : Bool) : WorkerLifecycle × Bool :=
  if worker.started && !worker.stopped then (worker, true)
  else if worker.stopped || worker.stopRequested then (worker, false)
  else if threadStarts then ({ worker with thread := some .running, started := true }, true)
  else ({ worker with thread := none, started := false }, false)

/-- The locked region of `stop`; the flag says that `stop` returned `True` from it. -/
def requestStop : WorkerLifecycle × Bool :=
  if worker.stopped then (worker, true)
  else if worker.thread.isNone then ({ worker with stopRequested := true, stopped := true }, true)
  else ({ worker with stopRequested := true }, false)

/-- The last region of `_run`, and the end of the thread. -/
def advance : Option WorkerLifecycle :=
  match worker.thread with
  | some .running => some { worker with thread := some .leaving, stopped := true }
  | some .leaving => some { worker with thread := some .exited }
  | _ => none

end WorkerLifecycle

inductive SenderThreadPc where
  | created
  | running
  | exited
deriving DecidableEq, Repr

/-- The lifecycle of `WebSocketClientConnector`. -/
structure ConnectorLifecycle where
  senderThread : Option SenderThreadPc := none
  started : Bool := false
  terminal : Bool := false
  closing : Bool := false
  closeCompleted : Bool := false
  /-- The call that holds `_condition`. -/
  conditionOwner : Option Nat := none
deriving DecidableEq, Repr

/-- A call of `close`. -/
inductive CloseCallPc where
  | entering
  | asking
  | spawning
  | awaiting
  | ended
deriving DecidableEq, Repr

/-- A call of `run_forever`, or of `close` alone. -/
inductive BoundaryCallPc where
  | entering
  | checkingClosed
  | marking
  | beginningStart
  | starting (worker : WorkerName)
  | markingStarted (worker : WorkerName)
  | markingReady
  | unlocking
  | connecting
  | checkingConnector
  | creatingSender
  | startingSender
  /-- `WebSocketApp.run_forever` -/
  | looping
  | finalizing
  | completing (closeInProgress : Bool)
  | leaving
  /-- `run_forever` closes the boundary. -/
  | closing (pc : CloseCallPc)
  | forgetting
  | ended
  | close (pc : CloseCallPc)
deriving DecidableEq, Repr

/-- The steps of `_close_owned`. -/
inductive CloseStage where
  | drainingInbound
  | drainingReader
  | requesting (worker : WorkerName) (final : Bool)
  | awaiting (worker : WorkerName) (final : Bool)
  | shuttingInbound
  | beginningStop
  | drainingCommands
  | drainingWriter
  | drainingOutbound
  | closingConnector
  | askingConnector
  | notifyingConnector
  | closingSocket
  | checkingRun (first : Bool)
  | awaitingRun (first : Bool)
  | shuttingQueues
  | readingSender
  | joiningSender
  | checkingStarted
  | awaitingFinish
  | settingStopped
deriving DecidableEq, Repr

/-- The thread that runs `_finish_close`. -/
inductive FinishPc where
  | idle
  | owned (stage : CloseStage)
  | closing
  | markingClosed
  | completing
  | finished
deriving DecidableEq, Repr

structure ComposedStreamDockBoundary where
  commands : CommandSinkLifecycleState := .created
  reader : WorkerLifecycle := {}
  writer : WorkerLifecycle := {}
  connector : ConnectorLifecycle := {}
  /-- The call that holds `_state_lock` over several steps. -/
  stateOwner : Option Nat := none
  runStarted : Bool := false
  readerStarted : Bool := false
  writerStarted : Bool := false
  closing : Bool := false
  closed : Bool := false
  closeCompleted : Bool := false
  workersStopped : Bool := false
  connectorRunFinished : Bool := false
  finish : FinishPc := .idle
deriving DecidableEq, Repr

namespace ComposedStreamDockBoundary

variable (boundary : ComposedStreamDockBoundary)

def worker : WorkerName → WorkerLifecycle
  | .reader => boundary.reader
  | .writer => boundary.writer

def setWorker (lifecycle : WorkerLifecycle) : WorkerName → ComposedStreamDockBoundary
  | .reader => { boundary with reader := lifecycle }
  | .writer => { boundary with writer := lifecycle }

/-- `_reader_started` or `_writer_started` is set. -/
def markStarted : WorkerName → ComposedStreamDockBoundary
  | .reader => { boundary with readerStarted := true }
  | .writer => { boundary with writerStarted := true }

/-- `_condition` of the connector is released. -/
def release (connector : ConnectorLifecycle) : ComposedStreamDockBoundary :=
  { boundary with connector := { connector with conditionOwner := none } }

/-- One step of a call of `close`. -/
def advanceClose : CloseCallPc → BoundaryMove → Option (ComposedStreamDockBoundary × CloseCallPc)
  | .entering, .proceed =>
      if boundary.closeCompleted then some (boundary, .ended)
      else if boundary.closing then some (boundary, .asking)
      else some ({ boundary with closing := true }, .spawning)
  | .asking, .proceed =>
      if boundary.stateOwner.isNone then some (boundary, .awaiting) else none
  -- The caller is the lifecycle thread or the one that owns the close.
  | .asking, .timesOut =>
      if boundary.stateOwner.isNone then some (boundary, .ended) else none
  | .spawning, .proceed =>
      some ({ boundary with finish := .owned .drainingInbound }, .awaiting)
  | .spawning, .raises => some ({ boundary with closeCompleted := true }, .awaiting)
  | .awaiting, .proceed => if boundary.closeCompleted then some (boundary, .ended) else none
  | .awaiting, .timesOut => some (boundary, .ended)
  | _, _ => none

/-- Where `run_forever` goes after it has recorded the start of a worker. -/
def afterStart : WorkerName → BoundaryCallPc
  | .reader => .starting .writer
  | .writer => .markingReady

/-- The start of a worker; an error of it leaves the locked region. -/
def startWorker (name : WorkerName) (threadStarts : Bool) :
    ComposedStreamDockBoundary × BoundaryCallPc :=
  match (boundary.worker name).start threadStarts with
  | (lifecycle, true) => (boundary.setWorker lifecycle name, .markingStarted name)
  | (lifecycle, false) =>
      ({ boundary.setWorker lifecycle name with stateOwner := none }, .leaving)

/-- One step of the call at the given position of the callers. -/
def advanceCall (index : Nat) :
    BoundaryCallPc → BoundaryMove → Option (ComposedStreamDockBoundary × BoundaryCallPc)
  | .entering, .proceed =>
      if boundary.stateOwner.isSome then none
      else if boundary.runStarted then some (boundary, .ended)
      else some ({ boundary with stateOwner := some index }, .checkingClosed)
  | .checkingClosed, .proceed =>
      if boundary.closing || boundary.closed then
        some ({ boundary with stateOwner := none }, .ended)
      else some (boundary, .marking)
  | .marking, .proceed => some ({ boundary with runStarted := true }, .beginningStart)
  | .beginningStart, .proceed =>
      some ({ boundary with commands := boundary.commands.beginStarting }, .starting .reader)
  | .starting name, .proceed => some (boundary.startWorker name true)
  | .starting name, .raises => some (boundary.startWorker name false)
  | .markingStarted name, .proceed => some (boundary.markStarted name, afterStart name)
  | .markingReady, .proceed =>
      some ({ boundary with commands := boundary.commands.markReady }, .unlocking)
  | .unlocking, .proceed => some ({ boundary with stateOwner := none }, .connecting)
  | .connecting, .proceed =>
      if boundary.connector.conditionOwner.isSome then none
      else if boundary.connector.started then some (boundary, .leaving)
      else some ({ boundary with
        connector := { boundary.connector with conditionOwner := some index } },
        .checkingConnector)
  | .checkingConnector, .proceed =>
      if boundary.connector.terminal || boundary.connector.closing then
        some (boundary.release boundary.connector, .leaving)
      else some (boundary, .creatingSender)
  | .creatingSender, .proceed => some ({ boundary with
      connector := { boundary.connector with senderThread := some .created, started := true } },
      .startingSender)
  | .startingSender, .proceed =>
      some (boundary.release { boundary.connector with senderThread := some .running }, .looping)
  | .startingSender, .raises =>
      some (boundary.release { boundary.connector with senderThread := none, started := false },
        .leaving)
  | .looping, .proceed | .looping, .fails | .looping, .raises => some (boundary, .finalizing)
  | .finalizing, .proceed =>
      if boundary.connector.conditionOwner.isSome then none
      else some ({ boundary with connector := { boundary.connector with terminal := true } },
        .completing boundary.connector.closing)
  | .completing closeInProgress, .proceed =>
      some ({ boundary with connector := { boundary.connector with
        closeCompleted := boundary.connector.closeCompleted || !closeInProgress } }, .leaving)
  | .leaving, .proceed =>
      some ({ boundary with connectorRunFinished := true }, .closing .entering)
  | .closing .ended, .proceed => some (boundary, .forgetting)
  | .closing pc, move =>
      (boundary.advanceClose pc move).map fun (after, next) => (after, .closing next)
  | .forgetting, .proceed =>
      if boundary.stateOwner.isSome then none else some (boundary, .ended)
  | .close pc, move =>
      (boundary.advanceClose pc move).map fun (after, next) => (after, .close next)
  | _, _ => none

/-- Where `_close_owned` goes after a `stop` of a worker. -/
def afterStop : WorkerName → Bool → CloseStage
  | .reader, false => .shuttingInbound
  | .writer, false => .drainingOutbound
  | .reader, true => .requesting .writer true
  | .writer, true => .readingSender

def goto (stage : CloseStage) : ComposedStreamDockBoundary :=
  { boundary with finish := .owned stage }

/-- One step of `_close_owned`. -/
def advanceStage : CloseStage → BoundaryMove → Option ComposedStreamDockBoundary
  | .drainingInbound, .proceed => some (boundary.goto .drainingReader)
  | .drainingReader, .proceed => some (boundary.goto (.requesting .reader false))
  | .requesting name final, .proceed =>
      match (boundary.worker name).requestStop with
      | (lifecycle, true) => some ((boundary.setWorker lifecycle name).goto (afterStop name final))
      | (lifecycle, false) => some ((boundary.setWorker lifecycle name).goto (.awaiting name final))
  | .awaiting name final, .proceed =>
      if (boundary.worker name).thread = some .exited then
        some (boundary.goto (afterStop name final))
      else none
  | .awaiting name false, .timesOut => some (boundary.goto (afterStop name false))
  | .shuttingInbound, .proceed => some (boundary.goto .beginningStop)
  | .beginningStop, .proceed => some
      ({ boundary with commands := boundary.commands.beginStopping }.goto .drainingCommands)
  | .drainingCommands, .proceed => some (boundary.goto .drainingWriter)
  | .drainingWriter, .proceed => some (boundary.goto (.requesting .writer false))
  | .drainingOutbound, .proceed => some (boundary.goto .closingConnector)
  | .closingConnector, .proceed =>
      if boundary.connector.closeCompleted then some (boundary.goto (.checkingRun true))
      else if boundary.connector.closing then some (boundary.goto .askingConnector)
      else some ({ boundary with connector := { boundary.connector with closing := true } }.goto
        .notifyingConnector)
  | .askingConnector, .proceed =>
      if boundary.connector.conditionOwner.isSome then none
      else some (boundary.goto (.checkingRun true))
  | .notifyingConnector, .proceed =>
      if boundary.connector.conditionOwner.isSome then none
      else some (boundary.goto .closingSocket)
  | .closingSocket, .proceed =>
      if boundary.connector.conditionOwner.isSome then none
      else some ({ boundary with connector := { boundary.connector with
        terminal := boundary.connector.terminal || boundary.connector.senderThread.isNone
        closeCompleted := true } }.goto (.checkingRun true))
  | .closingSocket, .fails => some ({ boundary with
      connector := { boundary.connector with closeCompleted := true } }.goto (.checkingRun true))
  | .checkingRun first, .proceed =>
      if boundary.stateOwner.isSome then none
      else if boundary.runStarted then some (boundary.goto (.awaitingRun first))
      else some (boundary.goto .shuttingQueues)
  | .awaitingRun _, .proceed =>
      if boundary.connectorRunFinished then some (boundary.goto .shuttingQueues) else none
  | .awaitingRun first, .timesOut =>
      some (boundary.goto (if first then .checkingRun false else .shuttingQueues))
  | .shuttingQueues, .proceed => some (boundary.goto (.requesting .reader true))
  | .readingSender, .proceed =>
      some (boundary.goto
        (if boundary.connector.senderThread.isSome then .joiningSender else .checkingStarted))
  | .joiningSender, .proceed =>
      if boundary.connector.senderThread = some .exited then some (boundary.goto .checkingStarted)
      else none
  | .checkingStarted, .proceed =>
      some (boundary.goto (if boundary.runStarted then .awaitingFinish else .settingStopped))
  | .awaitingFinish, .proceed =>
      if boundary.connectorRunFinished then some (boundary.goto .settingStopped) else none
  | .settingStopped, .proceed =>
      some { boundary with workersStopped := true, finish := .closing }
  | _, .raises => some { boundary with finish := .closing }
  | _, _ => none

/-- One step of `_finish_close`. -/
def advanceFinish : FinishPc → BoundaryMove → Option ComposedStreamDockBoundary
  | .owned stage, move => boundary.advanceStage stage move
  | .closing, .proceed =>
      if boundary.stateOwner.isSome then none
      else some { boundary with closed := true, finish := .markingClosed }
  | .markingClosed, .proceed =>
      some { boundary with commands := .closed, finish := .completing }
  | .completing, .proceed =>
      some { boundary with closeCompleted := true, finish := .finished }
  | _, _ => none

end ComposedStreamDockBoundary

structure BoundaryWorld where
  boundary : ComposedStreamDockBoundary := {}
  calls : List BoundaryCallPc := []
deriving DecidableEq, Repr

inductive BoundaryLabel where
  | run
  /-- A caller of `close`, or the thread that a worker's failure starts for it. -/
  | close
  | call (index : Nat) (move : BoundaryMove)
  | finish (move : BoundaryMove)
  | worker (name : WorkerName)
  | sender
deriving DecidableEq, Repr

namespace BoundaryWorld

variable (world : BoundaryWorld)

def step : BoundaryLabel → Option BoundaryWorld
  | .run => some { world with calls := world.calls ++ [.entering] }
  | .close => some { world with calls := world.calls ++ [.close .entering] }
  | .call index move =>
      match world.calls[index]? with
      | none => none
      | some pc => (world.boundary.advanceCall index pc move).map fun (boundary, next) =>
          { boundary, calls := world.calls.set index next }
  | .finish move =>
      (world.boundary.advanceFinish world.boundary.finish move).map
        ({ world with boundary := · })
  | .worker name =>
      (world.boundary.worker name).advance.map fun lifecycle =>
        { world with boundary := world.boundary.setWorker lifecycle name }
  | .sender =>
      if world.boundary.connector.senderThread = some .running then some { world with
        boundary := { world.boundary with
          connector := { world.boundary.connector with senderThread := some .exited } } }
      else none

end BoundaryWorld

def boundarySystem : Automaton.System BoundaryWorld BoundaryLabel where
  initial world := world = {}
  step := BoundaryWorld.step

end StreamDockSdk.Boundary
