import StreamDockSdk.Runtime.Composition

namespace StreamDockSdk.Runtime

/-! # `ShutdownState`, as the runtime and its boundary fill it

A thread makes its calls of the shared state between two of its regions, one at a
time.  A call right before an event is set, or inside a locked region, is one step
with that: no snapshot reads the event or the lock.
-/

/-- The keys of the worker table and of the pending set. -/
inductive ShutdownStage where
  | workerStop (worker : RuntimeWorker)
  | boundaryRun
  | boundaryClose
  | runtimeCleanup
  | stopAccepting
  | requestStop
  | actionRelease (index : Nat)
  | pluginStop
  | boundaryCleanup
  /-- Another stage of the boundary. -/
  | boundary (stage : Nat)
deriving DecidableEq, Repr

/-- The stages that only the boundary knows. -/
def ShutdownStage.ofBoundary : ShutdownStage → Bool
  | .boundaryCleanup | .boundary _ => true
  | _ => false

inductive ShutdownCall where
  | begin
  | worker (stage : ShutdownStage) (stopped : Bool)
  | pending (stage : ShutdownStage) (active : Bool)
deriving DecidableEq, Repr

structure ShutdownState where
  /-- `signal.requested` -/
  requested : Bool := false
  workers : List (ShutdownStage × Bool) := []
  pending : List ShutdownStage := []
deriving DecidableEq, Repr

namespace ShutdownState

variable (state : ShutdownState)

def apply : ShutdownCall → ShutdownState
  | .begin => { state with requested := true }
  | .worker stage stopped => { state with
      workers := (state.workers.filter fun entry => entry.1 != stage) ++ [(stage, stopped)] }
  | .pending stage true => { state with
      pending := if stage ∈ state.pending then state.pending else state.pending ++ [stage] }
  | .pending stage false => { state with pending := state.pending.filter (· != stage) }

def applyAll (calls : List ShutdownCall) : ShutdownState :=
  calls.foldl apply state

def workersStopped : Bool := state.workers.all (·.2)

/-- The tables have nothing left to wait for. -/
def finished : Bool := state.workersStopped && state.pending.isEmpty

/-- The `complete` of `snapshot`, when shutdown was requested. -/
def snapshot (unfinishedCallbacks : Nat) : Option Bool :=
  if state.requested then some (state.finished && unfinishedCallbacks == 0) else none

end ShutdownState

inductive RuntimeThread where
  | runner (index : Nat)
  | closer (index : Nat)
  | boundaryCloser
  | boundaryRun
  | cleanup
deriving DecidableEq, Repr

/-- The calls of `run_forever` between two of its positions. -/
def runnerCalls : RunPc → RuntimeMove → RunPc → List ShutdownCall
  | .entering, _, .startingScheduler => [.worker (.workerStop .scheduler) false]
  | .starting worker, .proceed, _ => [.worker (.workerStop worker) false]
  | .checkingBoundary, _, .startingBoundary => [.worker .boundaryRun false]
  | .startingBoundary, .raises, _ | .startingBoundary, .interrupts, _ =>
      [.worker .boundaryRun true]
  | .finalizing _, _, .launchingCleanup _ => [.begin, .pending .runtimeCleanup true]
  | _, _, _ => []

/-- The calls of `_run_boundary` before it gets to a position. -/
def boundaryRunCalls : BoundaryRunPc → List ShutdownCall
  | .recording | .finishing => [.begin]
  | _ => []

/-- The stage that `_safe_cleanup` has pending at a position of `_cleanup`. -/
def CleanupPc.stage (hasOnStop : Bool) : CleanupPc → Option ShutdownStage
  | .stoppingAccepting _ => some .stopAccepting
  | .requestingStop => some .requestStop
  | .releasing next actions => if next < actions then some (.actionRelease next) else none
  | .stoppingPlugin => if hasOnStop then some .pluginStop else none
  | _ => none

/-- The call of `_safe_bool_cleanup` after the `stop` of a worker. -/
def stopCalls : CleanupPc → RuntimeMove → List ShutdownCall
  | .stopping worker, .returns result | .retrying worker, .returns result =>
      [.worker (.workerStop worker) result]
  | .stopping worker, .raises | .retrying worker, .raises => [.worker (.workerStop worker) false]
  | _, _ => []

/-- The calls of `_cleanup` between two of its positions. -/
def cleanupCalls (hasOnStop : Bool) (pc : CleanupPc) (move : RuntimeMove) (next : CleanupPc) :
    List ShutdownCall :=
  ((pc.stage hasOnStop).toList.map fun stage => .pending stage false) ++ stopCalls pc move ++
    ((next.stage hasOnStop).toList.map fun stage => .pending stage true)

/-- The calls of `_ensure_boundary_closed` up to the start of its thread. -/
def ensureCalls (runtime : ComposedStreamDockRuntime) : List ShutdownCall :=
  if runtime.boundaryCloseStarted then [.begin] else [.begin, .pending .boundaryClose true]

namespace RuntimeWorld

variable (world : RuntimeWorld)

/-- The thread that takes the step. -/
def thread : RuntimeLabel → Option RuntimeThread
  | .runner index _ => some (.runner index)
  | .close _ | .fatal _ => some (.closer world.closers.length)
  | .closer index _ => some (.closer index)
  | .boundaryCloser _ => some .boundaryCloser
  | .boundaryRun _ => some .boundaryRun
  | .cleanup _ => some .cleanup
  | .run | .share _ | .boundaryCloses | .boundaryWorkersStop => none

/-- The calls that are one step with the region. -/
def regionCalls : RuntimeLabel → List ShutdownCall
  | .closer index _ =>
      match world.closers[index]? with
      | some (.ensuring _ _) => ensureCalls world.runtime
      | _ => []
  | .boundaryCloser _ =>
      match world.runtime.boundaryCloser with
      | .closing => [.pending .boundaryClose false]
      | _ => []
  | .boundaryRun _ =>
      match world.runtime.boundaryRun with
      | .ensuring => ensureCalls world.runtime
      | .finishing => [.worker .boundaryRun true]
      | _ => []
  | .cleanup _ =>
      match world.runtime.cleanup with
      | .ensuring => ensureCalls world.runtime
      | .finishing => [.pending .runtimeCleanup false]
      | _ => []
  | _ => []

/-- The calls that the thread makes before its next region. -/
def laterCalls (after : RuntimeWorld) : RuntimeLabel → List ShutdownCall
  | .close _ | .fatal _ => [.begin]
  | .runner index move =>
      match world.runners[index]?, after.runners[index]? with
      | some pc, some next => runnerCalls pc move next
      | _, _ => []
  | .boundaryRun _ => boundaryRunCalls after.runtime.boundaryRun
  | .cleanup move =>
      cleanupCalls world.runtime.hasOnStop world.runtime.cleanup move after.runtime.cleanup
  | _ => []

/-- The step is a `stop` of the scheduler that returns `True`. -/
def stopsScheduler : RuntimeLabel → Bool
  | .cleanup (.returns true) =>
      world.runtime.cleanup = .stopping .scheduler || world.runtime.cleanup = .retrying .scheduler
  | _ => false

end RuntimeWorld

structure ShutdownWorld where
  runtime : RuntimeWorld
  shutdown : ShutdownState := {}
  /-- What each thread has still to call before its next region. -/
  outstanding : RuntimeThread → List ShutdownCall := fun _ => []
  /-- `current_active_callbacks` of the scheduler. -/
  activeCallbacks : Nat := 0
  /-- The reads of `shutdown_outcome` that are on, with the count that each has read. -/
  readers : List (Option Nat) := []
  /-- What the snapshots said of `complete`, newest first. -/
  outcomes : List (Option Bool) := []

inductive ShutdownLabel where
  | runtime (label : RuntimeLabel)
  /-- The next outstanding call of a thread. -/
  | calls (thread : RuntimeThread)
  /-- A call of the boundary, inside its `run_forever`, its `close` or its own cleanup. -/
  | boundary (call : ShutdownCall)
  | callbacks (count : Nat)
  /-- `shutdown_outcome` reads the metrics of the scheduler. -/
  | reads
  | snapshot (reader : Nat)
deriving Repr

namespace ShutdownWorld

variable (world : ShutdownWorld)

def setOutstanding (thread : RuntimeThread) (calls : List ShutdownCall) : ShutdownWorld :=
  { world with
    outstanding := fun other => if other = thread then calls else world.outstanding other }

@[simp] theorem outstanding_setOutstanding (thread other : RuntimeThread)
    (calls : List ShutdownCall) :
    (world.setOutstanding thread calls).outstanding other =
      if other = thread then calls else world.outstanding other :=
  rfl

def runtimeStep (label : RuntimeLabel) : Option ShutdownWorld :=
  match world.runtime.step label with
  | none => none
  | some after =>
      let moved := { world with
        runtime := after
        shutdown := world.shutdown.applyAll (world.runtime.regionCalls label) }
      match world.runtime.thread label with
      | none => some moved
      | some thread =>
          if world.outstanding thread = [] then
            some (moved.setOutstanding thread (world.runtime.laterCalls after label))
          else none

/-- The boundary may call the shared state. -/
def boundaryCalls : Bool :=
  world.runtime.runtime.boundaryRun = .running || world.runtime.runtime.boundaryCloser = .closing ||
    .boundaryCleanup ∈ world.shutdown.pending

/-- A call that the boundary makes. -/
def ofBoundary : ShutdownCall → Bool
  | .begin => true
  | .worker stage _ | .pending stage _ => stage.ofBoundary

def step : ShutdownLabel → Option ShutdownWorld
  | .runtime label =>
      if world.runtime.stopsScheduler label && world.activeCallbacks != 0 then none
      else world.runtimeStep label
  | .calls thread =>
      match world.outstanding thread with
      | [] => none
      | call :: rest =>
          some ({ world with shutdown := world.shutdown.apply call }.setOutstanding thread rest)
  | .boundary call =>
      if world.boundaryCalls && ofBoundary call then
        some { world with shutdown := world.shutdown.apply call }
      else none
  | .callbacks count =>
      if world.runtime.runtime.attempted .scheduler && !world.runtime.runtime.stopped .scheduler then
        some { world with activeCallbacks := count }
      else none
  | .reads => some { world with readers := world.readers ++ [some world.activeCallbacks] }
  | .snapshot reader =>
      match world.readers[reader]? with
      | some (some count) => some { world with
          readers := world.readers.set reader none
          outcomes := world.shutdown.snapshot count :: world.outcomes }
      | _ => none

end ShutdownWorld

/-- Every run of a runtime with the readers of its `shutdown_outcome`. -/
def shutdownSystem (hasOnStop : Bool) : Automaton.System ShutdownWorld ShutdownLabel where
  initial world := world = { runtime := { runtime := { hasOnStop } } }
  step := ShutdownWorld.step

end StreamDockSdk.Runtime
