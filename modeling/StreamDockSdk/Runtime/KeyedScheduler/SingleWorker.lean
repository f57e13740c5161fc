import StreamDockSdk.Runtime.KeyedScheduler.Selection
import StreamDockSdk.Runtime.SequentialScheduler

namespace StreamDockSdk.Runtime

open Messaging Automaton KeyedSerialHandlerScheduler

/-! # One producer and one worker

`KeyedWorld` leaves the replies of the dispatcher and the calls of `submit_sized`
open.  An exchange closes it: one thread starts the scheduler, one producer
submits its events in order, and the only worker calls a dispatcher that is a
state transformer.
-/

/-- A call of `submit_sized` as its producer sees it. -/
inductive Submitted (Error : Type) where
  /-- It waits for room. -/
  | waiting
  /-- It returned the completion of the work with this token. -/
  | pending (token : Nat)
  | done (terminal : Terminal Error)
  | raised (error : SubmissionError)
deriving DecidableEq, Repr

structure Exchange (State Error : Type) where
  world : KeyedWorld
  dispatcher : State
  /-- The worker's variables `result` and `error`. -/
  answer : Option (Terminal Error) := none
  /-- The events that the producer has still to submit. -/
  remaining : List SizedEvent
  completions : List (Submitted Error) := []

inductive Party where
  | starter
  | producer
  | worker
deriving DecidableEq, Repr

/-- A scheduler with one worker and the events of one producer, all of a size
that the scheduler can hold. -/
structure Workload (State Error : Type) where
  config : SchedulerConfig
  single : config.workerCount = 1
  dispatch : Dispatcher State Error
  dispatcher : State
  items : List SizedEvent
  sized : ∀ item ∈ items, 0 < item.size ∧ item.size ≤ config.pendingByteLimit

variable {State Error : Type}

namespace Submitted

def ofAdmission (byteLimit : Nat) : Admission → Submitted Error
  | .discarded => .done .discarded
  | .oversized => .done (.error (.oversized byteLimit))
  | .blocked => .waiting
  | .accepted work => .pending work.token

/-- `_finish` of the completion with the given token. -/
def finish (token : Nat) (terminal : Terminal Error) : Submitted Error → Submitted Error
  | .pending own => if own = token then .done terminal else .pending own
  | other => other

end Submitted

/-- The events that the dispatcher was called with, oldest first. -/
def KeyedWorld.dispatched (world : KeyedWorld) : List StreamDockEvent :=
  (world.history.filterMap fun
    | .dispatched work => some work.event
    | _ => none).reverse

namespace Exchange

variable (exchange : Exchange State Error)

/-- The next step of the thread that calls `start`. -/
def startLabel? : Option KeyedLabel :=
  if !exchange.world.scheduler.started then some .start
  else if exchange.world.launching = .idle then none
  else some (.launch true)

def start : Option (Exchange State Error) :=
  match exchange.startLabel? with
  | none => none
  | some label => (exchange.world.step label).map fun world => { exchange with world }

/-- The next step of the producer, which submits once `start` was called. -/
def produce : Option (Exchange State Error) :=
  let byteLimit := exchange.world.scheduler.config.pendingByteLimit
  if !exchange.world.scheduler.started then none
  else match exchange.world.blocked, exchange.remaining with
  | item :: _, _ => (exchange.world.step (.resume 0)).map fun world => { exchange with
      world
      completions := exchange.completions.dropLast ++
        [.ofAdmission byteLimit (exchange.world.scheduler.resumeSubmission item).2] }
  | [], item :: remaining => (exchange.world.step (.submit item)).map fun world => { exchange with
      world
      remaining
      completions := exchange.completions ++
        [match exchange.world.scheduler.submitSized item with
          | .ok decision => .ofAdmission byteLimit decision.2
          | .error error => .raised error] }
  | [], [] => none

/-- What the dispatcher, the observers and the clock decide about the worker's
next step; no observer of a completion raises. -/
def move (dispatch : Dispatcher State Error) : ThreadPc → ThreadMove
  | .dispatching work =>
      match (dispatch exchange.dispatcher work.event).2 with
      | .ok result => .returns result.outcome
      | .error _ => .raises
  | .observing _ _ | .discarding _ (.observing _ _) => .observed false
  | _ => .proceed

/-- The completions after the worker's next step. -/
def finished : ThreadPc → List (Submitted Error)
  | .finishing work _ =>
      match exchange.answer with
      | some terminal => exchange.completions.map (.finish work.token terminal)
      | none => exchange.completions
  | .discarding _ (.finishing (work :: _) _) =>
      exchange.completions.map (.finish work.token .discarded)
  | _ => exchange.completions

/-- The next step of the worker. -/
def serve (dispatch : Dispatcher State Error) : Option (Exchange State Error) :=
  match exchange.world.threads[0]? with
  | none => none
  | some pc =>
      (exchange.world.step (.thread 0 (exchange.move dispatch pc))).map fun world =>
        let completions := exchange.finished pc
        match pc with
        | .dispatching work =>
            let answered := dispatch exchange.dispatcher work.event
            { exchange with
              world
              dispatcher := answered.1
              answer := some (terminalOf answered.2)
              completions }
        | _ => { exchange with world, completions }

end Exchange

namespace Workload

variable (load : Workload State Error)

/-- Every interleaving of the three parties. -/
def system : System (Exchange State Error) Party where
  initial exchange := exchange = {
    world := { scheduler := { config := load.config } }
    dispatcher := load.dispatcher
    remaining := load.items }
  step exchange
    | .starter => exchange.start
    | .producer => exchange.produce
    | .worker => exchange.serve load.dispatch

/-- A step of any party that leaves a different state. -/
def Changes (before after : Exchange State Error) : Prop :=
  after ≠ before ∧ ∃ party, load.system.step before party = some after

/-- No party can change anything. -/
def Quiescent (exchange : Exchange State Error) : Prop :=
  ∀ after, ¬ load.Changes exchange after

variable {load} {before after exchange : Exchange State Error}

/-- A step of a party is a step of the scheduler's world. -/
theorem step_world {party : Party} (stepped : load.system.step before party = some after) :
    ∃ label, before.world.step label = some after.world := by
  cases party with
  | starter =>
      simp only [system, Exchange.start] at stepped
      split at stepped
      · contradiction
      · obtain ⟨world, moved, rfl⟩ := Option.map_eq_some_iff.mp stepped
        exact ⟨_, moved⟩
  | producer =>
      simp only [system, Exchange.produce] at stepped
      split at stepped
      · contradiction
      split at stepped
      · obtain ⟨world, moved, rfl⟩ := Option.map_eq_some_iff.mp stepped
        exact ⟨_, moved⟩
      · obtain ⟨world, moved, rfl⟩ := Option.map_eq_some_iff.mp stepped
        exact ⟨_, moved⟩
      · contradiction
  | worker =>
      simp only [system, Exchange.serve] at stepped
      split at stepped
      · contradiction
      · obtain ⟨world, moved, same⟩ := Option.map_eq_some_iff.mp stepped
        refine ⟨_, moved.trans ?_⟩
        rw [← same]
        split <;> rfl

/-- The scheduler of an exchange runs as in any other world. -/
theorem reachable_world (reachable : load.system.Reachable exchange) :
    (keyedSystem load.config).Reachable exchange.world := by
  refine reachable.invariant
    (motive := fun exchange => (keyedSystem load.config).Reachable exchange.world) ?_ ?_
  · rintro _ rfl
    exact .initial rfl
  · intro before party after reached stepped
    obtain ⟨label, moved⟩ := step_world stepped
    exact reached.next label moved

end Workload

end StreamDockSdk.Runtime
