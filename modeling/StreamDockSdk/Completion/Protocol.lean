import StreamDockSdk.Completion
import StreamDockSdk.Automaton.System
import StreamDockSdk.Automaton.Calls

namespace StreamDockSdk

/-! # Calls on the handles of commands

Any number of handles share a control, and `_track_async_update` makes futures
that delegate `cancel` to the command whose completion they observe.  Each call
runs on a thread of its own; one step is at most one region under a lock.
-/

inductive CompletionOp where
  /-- `path` holds the delegating controls whose `cancel` waits for this one. -/
  | cancel (control : Nat) (path : List Nat)
  /-- `cancel` on the control has its result, which the controls of `path` return in turn. -/
  | returns (control : Nat) (path : List Nat) (result : Bool)
  | startSend (control : Nat)
  | expire (control : Nat)
  | finish (control : Nat) (error : Outcome)
  | publish (control : Nat)
  | addDoneCallback (command tracker : Nat)
  /-- The callback `finished` of `_track_async_update`. -/
  | finished (command tracker : Nat)
deriving DecidableEq, Repr

inductive CompletionEvent where
  /-- A call of `cancel` on the thread takes the control. -/
  | cancelled (thread control : Nat)
  /-- What `cancel` on the control returns. -/
  | returned (thread control : Nat) (result : Bool)
  | startSend (control clock : Nat) (result : Bool)
  /-- `won` is false where the call raises `InvalidStateError`. -/
  | finish (control clock : Nat) (error : Outcome) (won : Bool)
  /-- `won` is false where the call is silent. -/
  | expire (control clock : Nat) (won : Bool)
  | completed (control : Nat) (outcome : Outcome)
  /-- The underlying future refuses its outcome. -/
  | refused (control : Nat)
  | observed (handle : Nat) (outcome : Outcome)
deriving DecidableEq, Repr

structure CompletionWorld where
  clock : Nat := 0
  futures : List CommandFuture := []
  /-- The control of each handle. -/
  handles : List Nat := []
  /-- The delegating controls with the command that each tracks. -/
  trackers : List (Nat × Nat) := []
  /-- The registered callbacks, as command and tracker. -/
  callbacks : List (Nat × Nat) := []
  threads : List (List CompletionOp) := []
  /-- Newest first. -/
  history : List CompletionEvent := []

/-- The state and the calls that one step of a call leaves behind. -/
structure CompletionAdvance where
  futures : List CommandFuture
  callbacks : List (Nat × Nat)
  calls : List CompletionOp := []
  events : List CompletionEvent := []

inductive CompletionLabel where
  | tick
  | create (deadline : Option Nat)
  | share (handle : Nat)
  | track (handle : Nat)
  | cancel (handle : Nat)
  | startSend (handle : Nat)
  | expire (handle : Nat)
  | finish (handle : Nat) (error : Outcome)
  | observe (handle : Nat)
  | run (thread : Nat)
deriving DecidableEq, Repr

namespace CompletionWorld

variable (world : CompletionWorld)

def unchanged : CompletionAdvance :=
  { futures := world.futures, callbacks := world.callbacks }

/-- `_finish`; the event says how the call ended. -/
def finish (control : Nat) (completion : CommandFuture) (error : Outcome)
    (event : Bool → CompletionEvent) : CompletionAdvance :=
  match completion.finish world.clock error with
  | none => { world.unchanged with events := [event false] }
  | some (completion, _) => { world.unchanged with
      futures := world.futures.set control completion
      calls := [.publish control]
      events := [event true] }

/-- The first step of a call of the thread on a control. -/
def advance (thread : Nat) (completion : CommandFuture) :
    CompletionOp → Option CompletionAdvance
  | .cancel control path =>
      match completion.cancel with
      | .refused => some { world.unchanged with calls := [.returns control path false] }
      | .delegated command => some { world.unchanged with
          calls := [.cancel command (control :: path)] }
      | .cancelled completion => some { world.unchanged with
          futures := world.futures.set control completion
          calls := [.publish control, .returns control path true]
          events := [.cancelled thread control] }
  | .returns control path result =>
      some { world.unchanged with
        -- `return delegate()` of the call that waits
        calls := match path with
          | [] => []
          | tracker :: rest => [.returns tracker rest result]
        events := [.returned thread control result] }
  | .startSend control =>
      match completion.startSend world.clock with
      | .refused => some { world.unchanged with events := [.startSend control world.clock false] }
      | .expires => some { world.unchanged with
          calls := [.expire control]
          events := [.startSend control world.clock false] }
      | .started completion => some { world.unchanged with
          futures := world.futures.set control completion
          events := [.startSend control world.clock true] }
  | .expire control =>
      some (world.finish control completion (some .deadlineExceeded)
        (.expire control world.clock))
  | .finish control error =>
      some (world.finish control completion error (.finish control world.clock error))
  | .publish control =>
      match completion.publish with
      | none => some { world.unchanged with events := [.refused control] }
      | some completion => some { world.unchanged with
          futures := world.futures.set control completion
          calls := (world.callbacks.filter fun callback => callback.1 == control).map
            fun callback => .finished callback.1 callback.2
          events := completion.future.toList.map (.completed control) }
  | .addDoneCallback command tracker =>
      if completion.done then some { world.unchanged with calls := [.finished command tracker] }
      else some { world.unchanged with callbacks := world.callbacks ++ [(command, tracker)] }
  | .finished _ tracker =>
      match completion.future with
      | none => none
      | some error => some { world.unchanged with calls := [.finish tracker error] }

/-- The control whose state the call looks at. -/
def subject : CompletionOp → Nat
  | .cancel control _ | .returns control _ _ | .startSend control | .expire control | .finish control _
  | .publish control => control
  | .addDoneCallback command _ | .finished command _ => command

def run (index : Nat) : Option CompletionWorld :=
  match world.threads[index]? with
  | some (call :: rest) =>
      match world.futures[subject call]? with
      | none => none
      | some completion =>
          (world.advance index completion call).map fun next => { world with
            futures := next.futures
            callbacks := next.callbacks
            threads := Automaton.resume world.threads index (next.calls ++ rest)
            history := next.events ++ world.history }
  | _ => none

/-- A thread of its own begins a call on a handle. -/
def call (handle : Nat) (op : Nat → CompletionOp) : Option CompletionWorld :=
  world.handles[handle]?.map fun control =>
    { world with threads := world.threads ++ [[op control]] }

def step : CompletionLabel → Option CompletionWorld
  | .tick => some { world with clock := world.clock + 1 }
  | .create deadline => some { world with
      futures := world.futures ++ [{ deadline }]
      handles := world.handles ++ [world.futures.length] }
  | .share handle =>
      world.handles[handle]?.map fun control =>
        { world with handles := world.handles ++ [control] }
  | .track handle =>
      world.handles[handle]?.map fun command => { world with
        futures := world.futures ++ [{ delegate := some command }]
        handles := world.handles ++ [world.futures.length]
        trackers := world.trackers ++ [(world.futures.length, command)]
        threads := world.threads ++ [[.addDoneCallback command world.futures.length]] }
  | .cancel handle => world.call handle fun control => .cancel control []
  | .startSend handle => world.call handle .startSend
  | .expire handle => world.call handle .expire
  | .finish handle error => world.call handle fun control => .finish control error
  | .observe handle =>
      match world.handles[handle]? with
      | none => none
      | some control =>
          match world.futures[control]? with
          | none => none
          | some completion =>
              completion.future.map fun outcome =>
                { world with history := .observed handle outcome :: world.history }
  | .run thread => world.run thread

/-- No call but `cancel` and the callback is made on a delegating future. -/
def delegates : CompletionLabel → Bool
  | .startSend handle | .expire handle | .finish handle _ =>
      match world.handles[handle]? with
      | none => true
      | some control => world.trackers.all fun link => link.1 != control
  | _ => true

end CompletionWorld

/-- Every run of calls on handles. -/
def completionSystem : Automaton.System CompletionWorld CompletionLabel where
  initial world := world = {}
  step := CompletionWorld.step

end StreamDockSdk
