import StreamDockSdk.Runtime.KeyedScheduler

namespace StreamDockSdk.Runtime

/-! # `SequentialHandlerScheduler`

The reference scheduler calls the dispatcher inside `submit`.  A dispatcher is a
state transformer: what a call does besides returning or raising is the change
of its own state.
-/

structure DispatchResult (Error : Type) where
  outcome : DispatchOutcome
  error : Option Error := none
deriving DecidableEq, Repr

/-- What a call raises: an `Exception`, or another `BaseException`. -/
inductive Raised (Error : Type) where
  | exception (error : Error)
  | baseException (error : Error)
deriving DecidableEq, Repr

/-- The error of a completion: the exception itself, a `RuntimeWorkerError` of
the scheduler's callback, or the `ValueError` of an event above the byte limit. -/
inductive CompletionError (Error : Type) where
  | raised (error : Error)
  | runtimeWorkerError (cause : Error)
  | oversized (limit : Nat)
deriving DecidableEq, Repr

/-- How a completion ends. -/
abbrev Terminal (Error : Type) := Except (CompletionError Error) (DispatchResult Error)

/-- `dispatch` of a `RuntimeEventDispatcher` whose state is a `State`. -/
abbrev Dispatcher (State Error : Type) :=
  State → StreamDockEvent → State × Except (Raised Error) (DispatchResult Error)

variable {State Error : Type}

/-- The `error` that both schedulers keep of a raising callback. -/
def Raised.callbackError : Raised Error → CompletionError Error
  | .exception error => .raised error
  | .baseException error => .runtimeWorkerError error

/-- `DispatchResult(DispatchOutcome.DISCARDED_DURING_SHUTDOWN)` as an end. -/
def Terminal.discarded : Terminal Error :=
  .ok { outcome := .discardedDuringShutdown }

/-- The end of the completion of a call that returned or raised. -/
def terminalOf (answer : Except (Raised Error) (DispatchResult Error)) : Terminal Error :=
  answer.mapError Raised.callbackError

structure SequentialHandlerScheduler where
  started : Bool := false
  accepting : Bool := true
  stopped : Bool := false
  accepted : Nat := 0
  completed : Nat := 0
  currentActiveCallbacks : Nat := 0
  peakActiveCallbacks : Nat := 0
  activeContexts : Nat := 0
  barriersProcessed : Nat := 0
  callbackFailures : Nat := 0
  discardedDuringShutdown : Nat := 0
  activeToken : Nat := 0
deriving DecidableEq, Repr

/-- What one call of `submit` leaves behind: the objects after it, the events that
it dispatched and the end of the completion that it returns. -/
structure Submission (State Error : Type) where
  scheduler : SequentialHandlerScheduler
  dispatcher : State
  dispatched : List StreamDockEvent
  completion : Terminal Error

namespace SequentialHandlerScheduler

variable (scheduler : SequentialHandlerScheduler)

def start : Except SubmissionError SequentialHandlerScheduler :=
  if scheduler.started && !scheduler.stopped then .ok scheduler
  else if !scheduler.accepting || scheduler.stopped then .error .handlerSchedulerLifecycleError
  else .ok { scheduler with started := true }

/-- `stop_accepting` -/
def stopAccepting : SequentialHandlerScheduler :=
  { scheduler with
    accepting := false
    stopped := scheduler.stopped || scheduler.currentActiveCallbacks == 0 }

/-- The locked region before the call of the dispatcher. -/
def enter (event : StreamDockEvent) : SequentialHandlerScheduler :=
  { scheduler with
    accepted := scheduler.accepted + 1
    currentActiveCallbacks := 1
    activeToken := scheduler.activeToken + 1
    peakActiveCallbacks := max scheduler.peakActiveCallbacks 1
    activeContexts := if !isGlobalBarrier event && event.actionEvent?.isSome then 1 else 0 }

/-- The locked region after the call; `outcome` is that of its result, if it has one. -/
def leave (event : StreamDockEvent) (outcome : Option DispatchOutcome) :
    SequentialHandlerScheduler :=
  { scheduler with
    completed := scheduler.completed + 1
    barriersProcessed := scheduler.barriersProcessed + if isGlobalBarrier event then 1 else 0
    callbackFailures := scheduler.callbackFailures + if outcome = some .callbackFailed then 1 else 0
    currentActiveCallbacks := 0
    activeContexts := 0
    stopped := scheduler.stopped || !scheduler.accepting }

/-- `submit`, called by one thread at a time. -/
def submit (dispatch : Dispatcher State Error) (dispatcher : State) (event : StreamDockEvent) :
    Except SubmissionError (Submission State Error) :=
  if !scheduler.accepting then .ok {
    scheduler :=
      { scheduler with discardedDuringShutdown := scheduler.discardedDuringShutdown + 1 }
    dispatcher
    dispatched := []
    completion := .discarded }
  else if !scheduler.started then .error .handlerSchedulerLifecycleError
  else
    let called := scheduler.enter event
    match dispatch dispatcher event with
    | (dispatcher, .ok result) => .ok {
        scheduler := called.leave event (some result.outcome)
        dispatcher
        dispatched := [event]
        completion := terminalOf (.ok result) }
    | (dispatcher, .error raised) => .ok {
        scheduler := called.stopAccepting.leave event none
        dispatcher
        dispatched := [event]
        completion := terminalOf (.error raised) }

end SequentialHandlerScheduler

/-- A producer that keeps the completions of its calls of `submit`. -/
structure SequentialRun (State Error : Type) where
  scheduler : SequentialHandlerScheduler
  dispatcher : State
  dispatched : List StreamDockEvent := []
  completions : List (Terminal Error) := []

namespace SequentialRun

def submit (dispatch : Dispatcher State Error) (run : SequentialRun State Error)
    (event : StreamDockEvent) : Except SubmissionError (SequentialRun State Error) := do
  let submission ← run.scheduler.submit dispatch run.dispatcher event
  return {
    scheduler := submission.scheduler
    dispatcher := submission.dispatcher
    dispatched := run.dispatched ++ submission.dispatched
    completions := run.completions ++ [submission.completion] }

def submitAll (dispatch : Dispatcher State Error) :
    SequentialRun State Error → List StreamDockEvent →
      Except SubmissionError (SequentialRun State Error)
  | run, [] => .ok run
  | run, event :: events => do submitAll dispatch (← run.submit dispatch event) events

/-- A new scheduler is started and the events are submitted in order. -/
def ofEvents (dispatch : Dispatcher State Error) (dispatcher : State)
    (events : List StreamDockEvent) : Except SubmissionError (SequentialRun State Error) := do
  let scheduler ← SequentialHandlerScheduler.start {}
  submitAll dispatch { scheduler, dispatcher } events

end SequentialRun

/-! ## Serving events in order

What a scheduler is for, without its own state: the events are given to the
dispatcher in order until a call raises, and those after it are discarded.
-/

structure Service (State Error : Type) where
  serving : Bool := true
  dispatcher : State
  served : List StreamDockEvent := []

namespace Service

variable (dispatch : Dispatcher State Error) (service : Service State Error)

/-- The end of the completion of the next event. -/
def answer (event : StreamDockEvent) : Terminal Error :=
  if service.serving then terminalOf (dispatch service.dispatcher event).2 else .discarded

def serve (event : StreamDockEvent) : Service State Error :=
  if service.serving then {
    serving := (dispatch service.dispatcher event).2.toBool
    dispatcher := (dispatch service.dispatcher event).1
    served := service.served ++ [event] }
  else service

/-- The service after the events. -/
def after (events : List StreamDockEvent) : Service State Error :=
  events.foldl (serve dispatch) service

/-- The ends of the completions of the events. -/
def answers : Service State Error → List StreamDockEvent → List (Terminal Error)
  | _, [] => []
  | service, event :: events =>
      service.answer dispatch event :: answers (service.serve dispatch event) events

variable {dispatch service}

theorem serve_serving {event : StreamDockEvent} (serving : service.serving = true) :
    service.serve dispatch event = {
      serving := (dispatch service.dispatcher event).2.toBool
      dispatcher := (dispatch service.dispatcher event).1
      served := service.served ++ [event] } := by
  simp [serve, serving]

theorem serve_closed {event : StreamDockEvent} (closed : service.serving = false) :
    service.serve dispatch event = service := by
  simp [serve, closed]

theorem answer_closed {event : StreamDockEvent} (closed : service.serving = false) :
    service.answer dispatch event = .discarded := by
  simp [answer, closed]

theorem after_closed {events : List StreamDockEvent} (closed : service.serving = false) :
    service.after dispatch events = service := by
  induction events with
  | nil => rfl
  | cons event events ih =>
      rw [after, List.foldl_cons, serve_closed closed]
      exact ih

theorem after_append (first second : List StreamDockEvent) :
    service.after dispatch (first ++ second) = (service.after dispatch first).after dispatch second :=
  List.foldl_append

@[simp] theorem length_answers (events : List StreamDockEvent) :
    (service.answers dispatch events).length = events.length := by
  induction events generalizing service with
  | nil => rfl
  | cons event events ih => simp [answers, ih]

theorem getElem?_answers (events : List StreamDockEvent) (index : Nat) :
    (service.answers dispatch events)[index]? =
      events[index]?.map ((service.after dispatch (events.take index)).answer dispatch) := by
  induction events generalizing service index with
  | nil => simp [answers]
  | cons event events ih =>
      cases index with
      | zero => rfl
      | succ index => simpa [answers, after] using ih index

theorem served_prefix (events : List StreamDockEvent) :
    service.served <+: (service.after dispatch events).served := by
  induction events generalizing service with
  | nil => exact List.prefix_rfl
  | cons event events ih =>
      refine List.IsPrefix.trans ?_ (@ih (service.serve dispatch event))
      unfold serve
      split
      · exact List.prefix_append ..
      · exact List.prefix_rfl

theorem answer_serving {event : StreamDockEvent} (serving : service.serving = true) :
    service.answer dispatch event = terminalOf (dispatch service.dispatcher event).2 := by
  simp [answer, serving]

/-- The event after which the service is closed ends with the error. -/
theorem serve_error {event : StreamDockEvent} {error : CompletionError Error}
    (failed : service.answer dispatch event = .error error) :
    (service.serve dispatch event).serving = false := by
  cases serving : service.serving with
  | false => rw [serve_closed serving, serving]
  | true =>
      rw [answer_serving serving] at failed
      rw [serve_serving serving]
      cases answered : (dispatch service.dispatcher event).2 with
      | error raised => rfl
      | ok result => simp [answered, terminalOf, Except.mapError] at failed

/-- Every event after one that ended with an error is discarded. -/
theorem answers_after_error {events : List StreamDockEvent} {failing later : Nat}
    {error : CompletionError Error}
    (failed : (service.answers dispatch events)[failing]? = some (.error error))
    (order : failing < later) (bound : later < events.length) :
    (service.answers dispatch events)[later]? = some .discarded := by
  rw [getElem?_answers, List.getElem?_eq_getElem (order.trans bound), Option.map_some,
    Option.some.injEq] at failed
  have closed : (service.after dispatch (events.take (failing + 1))).serving = false := by
    rw [List.take_succ_eq_append_getElem (order.trans bound), after_append]
    exact serve_error failed
  have still : (service.after dispatch (events.take later)).serving = false := by
    obtain ⟨gap, rfl⟩ := Nat.exists_eq_add_of_le order
    rw [List.take_add, after_append, after_closed closed]
    exact closed
  rw [getElem?_answers, List.getElem?_eq_getElem bound, Option.map_some, answer_closed still]

end Service

/-- The run has come as far as the service. -/
structure SequentialRun.Follows (run : SequentialRun State Error) (service : Service State Error) :
    Prop where
  started : run.scheduler.started = true
  accepting : run.scheduler.accepting = service.serving
  dispatcher : run.dispatcher = service.dispatcher
  dispatched : run.dispatched = service.served

namespace SequentialRun

variable {dispatch : Dispatcher State Error} {run : SequentialRun State Error}
  {service : Service State Error}

variable (dispatch) in
theorem Follows.submit (follows : run.Follows service) (event : StreamDockEvent) :
    ∃ next, run.submit dispatch event = .ok next ∧ next.Follows (service.serve dispatch event) ∧
      next.completions = run.completions ++ [service.answer dispatch event] := by
  obtain ⟨started, accepting, dispatcher, dispatched⟩ := follows
  cases serving : service.serving with
  | false =>
      rw [serving] at accepting
      rw [Service.serve_closed serving, Service.answer_closed serving]
      simp only [SequentialRun.submit, SequentialHandlerScheduler.submit, accepting]
      exact ⟨_, rfl, ⟨started, serving.symm, dispatcher, by simpa using dispatched⟩,
        rfl⟩
  | true =>
      rw [serving] at accepting
      rw [Service.serve_serving serving, Service.answer_serving serving, ← dispatcher, ← dispatched]
      simp only [SequentialRun.submit, SequentialHandlerScheduler.submit, accepting, started]
      obtain ⟨after, answered⟩ : ∃ after, after = dispatch run.dispatcher event := ⟨_, rfl⟩
      rw [← answered]
      obtain ⟨state, result | result⟩ := after
      · exact ⟨_, rfl, ⟨started, rfl, rfl, rfl⟩, rfl⟩
      · exact ⟨_, rfl, ⟨started, accepting, rfl, rfl⟩, rfl⟩

variable (dispatch) in
theorem Follows.submitAll (follows : run.Follows service) (events : List StreamDockEvent) :
    ∃ finish, run.submitAll dispatch events = .ok finish ∧
      finish.Follows (service.after dispatch events) ∧
      finish.completions = run.completions ++ service.answers dispatch events := by
  induction events generalizing run service with
  | nil => exact ⟨run, rfl, follows, (List.append_nil _).symm⟩
  | cons event events ih =>
      obtain ⟨next, submitted, onward, ended⟩ := follows.submit dispatch event
      obtain ⟨finish, rest, final, all⟩ := ih onward
      refine ⟨finish, ?_, final, ?_⟩
      · simp only [SequentialRun.submitAll, submitted]
        exact rest
      · rw [all, ended, Service.answers, List.append_assoc]
        rfl

/-- `SequentialHandlerScheduler` serves the events in order. -/
theorem ofEvents_serves (dispatch : Dispatcher State Error) (dispatcher : State)
    (events : List StreamDockEvent) :
    ∃ finish, ofEvents dispatch dispatcher events = .ok finish ∧
      finish.dispatcher = (Service.after dispatch { dispatcher } events).dispatcher ∧
      finish.dispatched = (Service.after dispatch { dispatcher } events).served ∧
      finish.completions = Service.answers dispatch { dispatcher } events := by
  have begun : @Follows _ Error { scheduler := { started := true }, dispatcher } { dispatcher } :=
    ⟨rfl, rfl, rfl, rfl⟩
  obtain ⟨finish, run, final, ended⟩ := begun.submitAll dispatch events
  exact ⟨finish, run, final.dispatcher, final.dispatched, ended⟩

end SequentialRun

end StreamDockSdk.Runtime
