import Mathlib.Logic.Function.Basic
import StreamDockSdk.Automaton.Calls
import StreamDockSdk.Automaton.History
import StreamDockSdk.Automaton.System
import StreamDockSdk.Runtime.KeyedScheduler

namespace StreamDockSdk.Runtime

open Automaton

/-! # Acknowledgement of received events by `RuntimeEventPump`

The source and the scheduler are any objects behind their ports: what they
answer, and when a dispatch ends, is part of the label.  Completions are
`_DispatchCompletion`s, which call a callback once and pass on no `Exception`
of it.  Events and their `_OwnedEvent`s are named by the order in which the
pump took ownership of them.
-/

/-- What `result()` of a terminal completion does. -/
inductive DispatchVerdict where
  | result (outcome : DispatchOutcome)
  /-- It returns an object that is no `DispatchResult`. -/
  | malformed
  | raised
deriving DecidableEq, Repr

/-- What `_record_fatal` is called with. -/
inductive FatalError where
  | source
  | notStreamDockEvent
  | submission
  | notDispatchResult
  | dispatch
  | acknowledgement
  | worker
deriving DecidableEq, Repr

/-- A completion that the scheduler returned. -/
structure Dispatch where
  verdict : Option DispatchVerdict := none
  /-- The pump's callback was added. -/
  observed : Bool := false
deriving DecidableEq, Repr

structure OwnedEvent where
  finished : Bool := false
deriving DecidableEq, Repr

inductive AcknowledgementEvent where
  | received (event : Nat) (isEvent : Bool)
  | submissionRaised (event : Nat)
  /-- The pump found a stop request and handed the event to nobody. -/
  | discarded (event : Nat)
  | completed (event : Nat)
  | taskDone (event : Nat)
deriving DecidableEq, Repr

inductive AcknowledgementOp where
  | awaitReadiness
  | checkStop
  | onReady
  | loop
  | receiveEvent
  | takeOwnership (isEvent : Bool)
  | examine (event : Nat) (isEvent : Bool)
  | countSubmission (event : Nat)
  | submit (event : Nat)
  | addDoneCallback (event : Nat)
  | onDispatchDone (event : Nat)
  | finishOwned (event : Nat) (result : Option DispatchOutcome) (error : Option FatalError)
  | taskDone (event : Nat) (fatal : Option FatalError)
  | countAcknowledgement (event : Nat) (fatal : Option FatalError)
  | countFailure (event : Nat) (fatal : Option FatalError)
  | release (event : Nat) (fatal : Option FatalError)
  | recordFatal (error : FatalError)
  | ending
deriving DecidableEq, Repr

/-- What a call into the pump's surroundings answers. -/
inductive PumpChoice where
  | proceed
  | timesOut
  | closed
  | raises
  | receives (isEvent : Bool)
  /-- The returned completion may have ended already. -/
  | returns (verdict : Option DispatchVerdict)
deriving DecidableEq, Repr

/-- How a thread goes on after a step. -/
inductive Continuation where
  | calls (ops : List AcknowledgementOp)
  /-- An exception that nothing in the thread's calls handles. -/
  | unwinds

structure AcknowledgementWorld where
  /-- The thread that `start` started. -/
  thread : Option Nat := none
  stopRequested : Bool := false
  stopped : Bool := false
  failure : Option FatalError := none
  eventsReceived : Nat := 0
  eventsAcknowledged : Nat := 0
  acknowledgementFailures : Nat := 0
  submittedToScheduler : Nat := 0
  discardedDuringShutdown : Nat := 0
  sourcePollTimeouts : Nat := 0
  sourceClosed : Nat := 0
  currentOwned : Nat := 0
  peakOwned : Nat := 0
  owned : List OwnedEvent := []
  dispatches : Nat → Option Dispatch := fun _ => none
  threads : List (List AcknowledgementOp) := []
  /-- Newest first; no code reads it. -/
  history : List AcknowledgementEvent := []

inductive AcknowledgementLabel where
  /-- `starts` is false where `thread.start` raises. -/
  | start (starts : Bool)
  | requestStop
  | complete (event : Nat) (verdict : DispatchVerdict)
  | run (thread : Nat) (choice : PumpChoice)
deriving DecidableEq, Repr

namespace AcknowledgementWorld

variable (world : AcknowledgementWorld)

def finished (event : Nat) : Bool :=
  (world.owned[event]?.getD {}).finished

def record (event : AcknowledgementEvent) : AcknowledgementWorld :=
  { world with history := event :: world.history }

/-- The predicate that `drain` waits for; it returns true when this held. -/
def drained : Bool :=
  world.stopped && world.currentOwned == 0

def start (starts : Bool) : Option AcknowledgementWorld :=
  if world.thread.isSome || world.stopped || world.stopRequested || !starts then none
  else some { world with
    thread := some world.threads.length
    threads := world.threads ++ [[.awaitReadiness]] }

def requestStop : AcknowledgementWorld :=
  { world with
    stopRequested := true
    stopped := world.stopped || world.thread.isNone }

/-- `_take_ownership` -/
def takeOwnership (isEvent : Bool) : AcknowledgementWorld :=
  { world with
    eventsReceived := world.eventsReceived + 1
    currentOwned := world.currentOwned + 1
    peakOwned := max world.peakOwned (world.currentOwned + 1)
    owned := world.owned ++ [{}]
    history := .received world.owned.length isEvent :: world.history }

/-- The dispatch ends, and the worker calls what was added to the completion. -/
def settle (event : Nat) (verdict : DispatchVerdict) (observed : Bool) : AcknowledgementWorld :=
  { world with
    dispatches := Function.update world.dispatches event
      (some { verdict := some verdict, observed := observed })
    threads := if observed then world.threads ++ [[.onDispatchDone event]] else world.threads
    history := .completed event :: world.history }

def complete (event : Nat) (verdict : DispatchVerdict) : Option AcknowledgementWorld :=
  match world.dispatches event with
  | some { verdict := none, observed } => some (world.settle event verdict observed)
  | _ => none

/-- The region of `_finish_owned` in which it has to acknowledge. -/
def finishOwned (event : Nat) (result : Option DispatchOutcome) : AcknowledgementWorld :=
  { world with
    owned := world.owned.set event { finished := true }
    discardedDuringShutdown := world.discardedDuringShutdown +
      if result = some .discardedDuringShutdown then 1 else 0 }

/-- The scheduler returns a completion. -/
def accept (event : Nat) (verdict : Option DispatchVerdict) : AcknowledgementWorld :=
  { world with
    dispatches := Function.update world.dispatches event (some { verdict })
    history := (if verdict.isSome then [.completed event] else []) ++ world.history }

def recordFatal (error : FatalError) : AcknowledgementWorld :=
  { world with failure := some error, stopRequested := true }

/-- The first step of an operation, with how its thread goes on. -/
def advance (choice : PumpChoice) :
    AcknowledgementOp → Option (AcknowledgementWorld × Continuation)
  | .awaitReadiness =>
      if world.stopRequested then some (world, .calls [.ending])
      else match choice with
        | .proceed => some (world, .calls [.checkStop])
        | .timesOut => some (world, .calls [.awaitReadiness])
        | .closed => some (world, .calls [.ending])
        | _ => none
  | .checkStop =>
      some (world, .calls [if world.stopRequested then .ending else .onReady])
  | .onReady =>
      match choice with
      | .raises => some (world, .unwinds)
      | _ => some (world, .calls [.loop])
  | .loop =>
      some (world, .calls [if world.stopRequested then .ending else .receiveEvent])
  | .receiveEvent =>
      match choice with
      | .receives isEvent => some (world, .calls [.takeOwnership isEvent])
      | .timesOut =>
          some ({ world with sourcePollTimeouts := world.sourcePollTimeouts + 1 }, .calls [.loop])
      | .closed => some ({ world with sourceClosed := world.sourceClosed + 1 }, .calls [.ending])
      | .raises => some (world, .calls [.recordFatal .source, .ending])
      | _ => none
  | .takeOwnership isEvent =>
      some (world.takeOwnership isEvent, .calls [.examine world.owned.length isEvent])
  | .examine event isEvent =>
      if !isEvent then
        some (world, .calls [.finishOwned event none (some .notStreamDockEvent), .ending])
      else if world.stopRequested then
        some (world.record (.discarded event),
          .calls [.finishOwned event (some .discardedDuringShutdown) none, .ending])
      else some (world, .calls [.countSubmission event])
  | .countSubmission event =>
      some ({ world with submittedToScheduler := world.submittedToScheduler + 1 },
        .calls [.submit event])
  | .submit event =>
      match choice with
      | .returns verdict => some (world.accept event verdict, .calls [.addDoneCallback event])
      | .raises => some (world.record (.submissionRaised event),
          .calls [.finishOwned event none (some .submission), .loop])
      | _ => none
  | .addDoneCallback event =>
      match world.dispatches event with
      | some { verdict := none, .. } => some ({ world with
          dispatches := Function.update world.dispatches event (some { observed := true }) },
          .calls [.loop])
      | _ => some (world, .calls [.onDispatchDone event, .loop])
  | .onDispatchDone event =>
      match (world.dispatches event).bind Dispatch.verdict with
      | some (.result outcome) => some (world, .calls [.finishOwned event (some outcome) none])
      | some .malformed => some (world, .calls [.finishOwned event none (some .notDispatchResult)])
      | _ => some (world, .calls [.finishOwned event none (some .dispatch)])
  | .finishOwned event result error =>
      if world.finished event then some (world, .calls [])
      else some (world.finishOwned event result, .calls [.taskDone event error])
  | .taskDone event fatal =>
      match choice with
      | .raises => some (world.record (.taskDone event),
          .calls [.countFailure event (fatal.or (some .acknowledgement))])
      | _ => some (world.record (.taskDone event), .calls [.countAcknowledgement event fatal])
  | .countAcknowledgement event fatal =>
      some ({ world with eventsAcknowledged := world.eventsAcknowledged + 1 },
        .calls [.release event fatal])
  | .countFailure event fatal =>
      some ({ world with acknowledgementFailures := world.acknowledgementFailures + 1 },
        .calls [.release event fatal])
  | .release _ fatal =>
      some ({ world with currentOwned := world.currentOwned - 1 },
        .calls (fatal.toList.map .recordFatal))
  | .recordFatal error =>
      if world.failure.isSome then some (world, .calls [])
      else match choice with
        | .raises => some (world.recordFatal error, .unwinds)
        | _ => some (world.recordFatal error, .calls [])
  | .ending => some ({ world with stopped := true }, .calls [])

/-- What an unhandled exception leaves the thread to do. -/
def unwound (index : Nat) : List AcknowledgementOp :=
  if world.thread = some index then [.recordFatal .worker, .ending] else []

def run (index : Nat) (choice : PumpChoice) : Option AcknowledgementWorld :=
  match world.threads[index]? with
  | some (op :: rest) =>
      (world.advance choice op).map fun (after, continuation) => { after with
        threads := resume world.threads index (match continuation with
          | .calls ops => ops ++ rest
          | .unwinds => world.unwound index) }
  | _ => none

def step : AcknowledgementLabel → Option AcknowledgementWorld
  | .start starts => world.start starts
  | .requestStop => some world.requestStop
  | .complete event verdict => world.complete event verdict
  | .run thread choice => world.run thread choice

end AcknowledgementWorld

/-- Every run of one pump between any source and any scheduler. -/
def acknowledgementSystem : System AcknowledgementWorld AcknowledgementLabel where
  initial world := world = {}
  step := AcknowledgementWorld.step

namespace AcknowledgementOp

/-- The event that the operation is about, until its ownership was released. -/
def event? : AcknowledgementOp → Option Nat
  | .examine event _ | .countSubmission event | .submit event | .addDoneCallback event
  | .onDispatchDone event | .finishOwned event _ _ | .taskDone event _
  | .countAcknowledgement event _ | .countFailure event _ | .release event _ => some event
  | _ => none

/-- The event has not been submitted yet. -/
def precedesDispatch (event : Nat) : AcknowledgementOp → Bool
  | .examine other _ | .countSubmission other | .submit other => other == event
  | _ => false

/-- The scheduler returned a completion for the event. -/
def followsDispatch (event : Nat) : AcknowledgementOp → Bool
  | .addDoneCallback other | .onDispatchDone other => other == event
  | _ => false

def finishes (event : Nat) : AcknowledgementOp → Bool
  | .finishOwned other _ _ => other == event
  | _ => false

def callsTaskDone (event : Nat) : AcknowledgementOp → Bool
  | .taskDone other _ => other == event
  | _ => false

/-- Nothing but the calls under way stands between the operation and `task_done`. -/
def leadsToTaskDone (event : Nat) (op : AcknowledgementOp) : Bool :=
  op.followsDispatch event || op.finishes event || op.callsTaskDone event

/-- The operation belongs to the part of `_finish_owned` that acknowledges. -/
def acknowledges : AcknowledgementOp → Bool
  | .taskDone _ _ | .countAcknowledgement _ _ | .countFailure _ _ | .release _ _ => true
  | _ => false

def releases : AcknowledgementOp → Bool
  | .release _ _ => true
  | _ => false

end AcknowledgementOp

/-- What a step leaves alone that is about no event. -/
structure Untouched (before after : AcknowledgementWorld) : Prop where
  owned : after.owned = before.owned
  dispatches : after.dispatches = before.dispatches
  eventsReceived : after.eventsReceived = before.eventsReceived
  eventsAcknowledged : after.eventsAcknowledged = before.eventsAcknowledged
  acknowledgementFailures : after.acknowledgementFailures = before.acknowledgementFailures
  currentOwned : after.currentOwned = before.currentOwned
  history : after.history = before.history

/-- What an operation does where its call ends without an exception, and the
operations that it leaves to do. -/
inductive OpAdvances (world : AcknowledgementWorld) :
    AcknowledgementOp → AcknowledgementWorld → List AcknowledgementOp → Prop
  | idle {op : AcknowledgementOp} {after : AcknowledgementWorld}
      {ops : List AcknowledgementOp} : op.event? = none → (∀ isEvent, op ≠ .takeOwnership isEvent) →
      Untouched world after → (∀ next ∈ ops, next.event? = none) → OpAdvances world op after ops
  | own (isEvent : Bool) : OpAdvances world (.takeOwnership isEvent) (world.takeOwnership isEvent)
      [.examine world.owned.length isEvent]
  | reject (event : Nat) : OpAdvances world (.examine event false) world
      [.finishOwned event none (some .notStreamDockEvent), .ending]
  | discard (event : Nat) : OpAdvances world (.examine event true) (world.record (.discarded event))
      [.finishOwned event (some .discardedDuringShutdown) none, .ending]
  | examined (event : Nat) : OpAdvances world (.examine event true) world [.countSubmission event]
  | countSubmission (event : Nat) : OpAdvances world (.countSubmission event)
      { world with submittedToScheduler := world.submittedToScheduler + 1 } [.submit event]
  | accept (event : Nat) (verdict : Option DispatchVerdict) : OpAdvances world (.submit event)
      (world.accept event verdict) [.addDoneCallback event]
  | refuse (event : Nat) : OpAdvances world (.submit event)
      (world.record (.submissionRaised event)) [.finishOwned event none (some .submission), .loop]
  | observe (event : Nat) (observed : Bool) :
      world.dispatches event = some { verdict := none, observed := observed } →
      OpAdvances world (.addDoneCallback event) { world with
        dispatches := Function.update world.dispatches event (some { observed := true }) } [.loop]
  | notify (event : Nat) : (∀ dispatch, world.dispatches event = some dispatch →
        dispatch.verdict.isSome) →
      OpAdvances world (.addDoneCallback event) world [.onDispatchDone event, .loop]
  | report (event : Nat) (result : Option DispatchOutcome) (error : Option FatalError) :
      OpAdvances world (.onDispatchDone event) world [.finishOwned event result error]
  | repeated (event : Nat) (result : Option DispatchOutcome) (error : Option FatalError) :
      world.finished event = true → OpAdvances world (.finishOwned event result error) world []
  | finish (event : Nat) (result : Option DispatchOutcome) (error : Option FatalError) :
      world.finished event = false → OpAdvances world (.finishOwned event result error)
        (world.finishOwned event result) [.taskDone event error]
  | acknowledge (event : Nat) (fatal : Option FatalError) : OpAdvances world (.taskDone event fatal)
      (world.record (.taskDone event)) [.countAcknowledgement event fatal]
  | acknowledgementFails (event : Nat) (fatal other : Option FatalError) :
      OpAdvances world (.taskDone event fatal) (world.record (.taskDone event))
        [.countFailure event other]
  | countAcknowledgement (event : Nat) (fatal : Option FatalError) :
      OpAdvances world (.countAcknowledgement event fatal)
        { world with eventsAcknowledged := world.eventsAcknowledged + 1 } [.release event fatal]
  | countFailure (event : Nat) (fatal : Option FatalError) :
      OpAdvances world (.countFailure event fatal)
        { world with acknowledgementFailures := world.acknowledgementFailures + 1 }
        [.release event fatal]
  | release (event : Nat) (fatal : Option FatalError) : OpAdvances world (.release event fatal)
      { world with currentOwned := world.currentOwned - 1 } (fatal.toList.map .recordFatal)

namespace AcknowledgementWorld

variable {world after : AcknowledgementWorld} {op : AcknowledgementOp} {choice : PumpChoice}
variable {ops : List AcknowledgementOp}

theorem advance_calls (advanced : world.advance choice op = some (after, .calls ops)) :
    OpAdvances world op after ops := by
  cases op with
  | awaitReadiness =>
      simp only [advance] at advanced
      split at advanced
      · cases advanced
        exact .idle rfl nofun ⟨rfl, rfl, rfl, rfl, rfl, rfl, rfl⟩ (by simp [AcknowledgementOp.event?])
      · split at advanced <;> cases advanced <;>
          exact .idle rfl nofun ⟨rfl, rfl, rfl, rfl, rfl, rfl, rfl⟩ (by simp [AcknowledgementOp.event?])
  | checkStop | loop =>
      cases advanced
      refine .idle rfl nofun ⟨rfl, rfl, rfl, rfl, rfl, rfl, rfl⟩ ?_
      intro next member
      rw [List.mem_singleton] at member
      rw [member]
      split <;> rfl
  | onReady =>
      simp only [advance] at advanced
      split at advanced <;> cases advanced
      exact .idle rfl nofun ⟨rfl, rfl, rfl, rfl, rfl, rfl, rfl⟩ (by simp [AcknowledgementOp.event?])
  | receiveEvent =>
      simp only [advance] at advanced
      split at advanced <;> cases advanced <;>
        exact .idle rfl nofun ⟨rfl, rfl, rfl, rfl, rfl, rfl, rfl⟩ (by simp [AcknowledgementOp.event?])
  | takeOwnership isEvent =>
      cases advanced
      exact .own isEvent
  | examine event isEvent =>
      cases isEvent with
      | false =>
          cases advanced
          exact .reject event
      | true =>
          simp only [advance, Bool.not_true, Bool.false_eq_true, if_false] at advanced
          split at advanced <;> cases advanced
          · exact .discard event
          · exact .examined event
  | countSubmission event =>
      cases advanced
      exact .countSubmission event
  | submit event =>
      simp only [advance] at advanced
      split at advanced <;> cases advanced
      · exact .accept event _
      · exact .refuse event
  | addDoneCallback event =>
      simp only [advance] at advanced
      split at advanced <;> cases advanced
      · next observed found => exact .observe event observed found
      · next ended =>
        refine .notify event fun dispatch found => ?_
        obtain ⟨_ | verdict, observed⟩ := dispatch
        · exact absurd found (ended observed)
        · rfl
  | onDispatchDone event =>
      simp only [advance] at advanced
      split at advanced <;> cases advanced <;> exact .report event _ _
  | finishOwned event result error =>
      simp only [advance] at advanced
      split at advanced <;> cases advanced
      · next finished => exact .repeated event result error finished
      · next unfinished => exact .finish event result error (by simpa using unfinished)
  | taskDone event fatal =>
      simp only [advance] at advanced
      split at advanced <;> cases advanced
      · exact .acknowledgementFails event fatal _
      · exact .acknowledge event fatal
  | countAcknowledgement event fatal =>
      cases advanced
      exact .countAcknowledgement event fatal
  | countFailure event fatal =>
      cases advanced
      exact .countFailure event fatal
  | release event fatal =>
      cases advanced
      exact .release event fatal
  | recordFatal error =>
      simp only [advance] at advanced
      split at advanced
      · cases advanced
        exact .idle rfl nofun ⟨rfl, rfl, rfl, rfl, rfl, rfl, rfl⟩ (by simp)
      · split at advanced <;> cases advanced
        exact .idle rfl nofun ⟨rfl, rfl, rfl, rfl, rfl, rfl, rfl⟩ (by simp)
  | ending =>
      cases advanced
      exact .idle rfl nofun ⟨rfl, rfl, rfl, rfl, rfl, rfl, rfl⟩ (by simp)

/-- Only the callers of user code can fail, and they are about no event. -/
theorem advance_unwinds (advanced : world.advance choice op = some (after, .unwinds)) :
    op.event? = none ∧ Untouched world after := by
  cases op with
  | onReady =>
      simp only [advance] at advanced
      split at advanced <;> cases advanced
      exact ⟨rfl, rfl, rfl, rfl, rfl, rfl, rfl, rfl⟩
  | recordFatal error =>
      simp only [advance] at advanced
      split at advanced
      · cases advanced
      · split at advanced <;> cases advanced
        exact ⟨rfl, rfl, rfl, rfl, rfl, rfl, rfl, rfl⟩
  | _ =>
      simp only [advance] at advanced
      repeat' split at advanced
      all_goals cases advanced

end AcknowledgementWorld

end StreamDockSdk.Runtime
