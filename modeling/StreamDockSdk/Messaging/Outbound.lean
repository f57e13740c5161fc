import Mathlib.Logic.Function.Basic
import StreamDockSdk.Completion

namespace StreamDockSdk.Messaging

/-! # `OutboundCommandQueue`

Entries and completions are named by the order in which they were made.  Every
function on the queue is one region under its condition's lock.
-/

structure OutboundConfig (Command Key : Type) where
  queueLimit : Nat
  coalesceCommands : Bool
  byteLimit : Nat
  /-- `retained_size`, which may stop counting above the limit that it is given. -/
  retainedSize : Command → Nat → Nat
  coalescingKey : Command → Option Key

structure QueuedCommand (Command : Type) where
  command : Command
  completion : Nat
  size : Nat
  deadline : Option Nat
  /-- Which accepted submission the command came with; no code reads it. -/
  number : Nat
deriving DecidableEq, Inhabited

structure CommandSubmission (Command : Type) where
  command : Command
  completion : Nat
deriving DecidableEq

/-- What `send_async` raises. -/
inductive SubmissionError where
  | closed
  | oversized
  | full
  /-- The deadline watcher could not be started. -/
  | unwatched
deriving DecidableEq, Repr

structure OutboundCommandQueue (Command : Type) where
  entries : List (QueuedCommand Command) := []
  queue : List Nat := []
  queued : Nat → Option Nat := fun _ => none
  deadlines : List (Nat × Nat) := []
  deadlineThread : Option Nat := none
  accepting : Bool := true
  peakDepth : Nat := 0
  submitted : Nat := 0
  enqueued : Nat := 0
  coalesced : Nat := 0
  dequeued : Nat := 0
  rejectedFull : Nat := 0
  rejectedAfterShutdown : Nat := 0
  discardedDuringShutdown : Nat := 0
  currentBytes : Nat := 0
  peakBytes : Nat := 0
  rejectedOversized : Nat := 0

variable {Command Key : Type}

/-- `min(deadlines.items(), key=lambda item: item[1])`: the first of the least. -/
def earliest : List (Nat × Nat) → Option (Nat × Nat)
  | [] => none
  | item :: rest =>
      match earliest rest with
      | none => some item
      | some other => some (if item.2 ≤ other.2 then item else other)

namespace OutboundCommandQueue

variable [Inhabited Command] (queue : OutboundCommandQueue Command)

def entry (identity : Nat) : QueuedCommand Command :=
  queue.entries[identity]?.getD default

def last? : Option (QueuedCommand Command) :=
  queue.queue.getLast?.map queue.entry

/-- `_coalesce` from a state of the completions: the queue whose last entry has the
command, and the completion that the new handle shares. -/
def coalesce [BEq Key] (config : OutboundConfig Command Key) (futures : List CommandFuture)
    (command : Command) (size number : Nat) : Option (OutboundCommandQueue Command × Nat) := do
  guard config.coalesceCommands
  let identity ← queue.queue.getLast?
  let queued := queue.entry identity
  guard queued.deadline.isNone
  let key ← config.coalescingKey command
  guard (some key == config.coalescingKey queued.command)
  let replacementBytes := queue.currentBytes - queued.size + size
  guard (replacementBytes ≤ config.byteLimit)
  let completion ← futures[queued.completion]?
  guard completion.terminal.isNone
  some ({ queue with
    entries := queue.entries.set identity { queued with command, size, number }
    currentBytes := replacementBytes
    peakBytes := max queue.peakBytes replacementBytes }, queued.completion)

/-- The entry enters the queue and the index. -/
def append (queued : QueuedCommand Command) : OutboundCommandQueue Command :=
  { queue with
    entries := queue.entries ++ [queued]
    queue := queue.queue ++ [queue.entries.length]
    queued := Function.update queue.queued queued.completion (some queue.entries.length) }

/-- `_deadlines.pop(completion, None)`. -/
def popDeadline (completion : Nat) : List (Nat × Nat) :=
  queue.deadlines.filter fun item => item.1 != completion

/-- What the `except` branch of a failed thread start undoes. -/
def withdraw (completion identity : Nat) : OutboundCommandQueue Command :=
  { queue with
    deadlineThread := none
    deadlines := queue.popDeadline completion
    queued := Function.update queue.queued completion none
    queue := queue.queue.erase identity }

/-- The counters of an entry that stays. -/
def count (size : Nat) : OutboundCommandQueue Command :=
  { queue with
    currentBytes := queue.currentBytes + size
    peakBytes := max queue.peakBytes (queue.currentBytes + size)
    enqueued := queue.enqueued + 1
    peakDepth := max queue.peakDepth queue.queue.length }

end OutboundCommandQueue

/-- An accepted submission, with what stood in the queue when it came. -/
structure Acceptance (Command : Type) where
  command : Command
  deadline : Option Nat
  size : Nat
  completion : Nat
  last : Option (QueuedCommand Command)
  lastTerminal : Bool
  bytes : Nat
deriving DecidableEq

inductive DepartureKind where
  | received
  | finished
  | discarded
deriving DecidableEq, Repr

/-- An entry as it was when it left the queue. -/
structure Departure (Command : Type) where
  kind : DepartureKind
  queued : QueuedCommand Command
deriving DecidableEq

/-- The queue with the completions of its commands.  No code reads the last
three fields. -/
structure CommandState (Command : Type) where
  clock : Nat := 0
  futures : List CommandFuture := []
  queue : OutboundCommandQueue Command := {}
  accepted : List (Acceptance Command) := []
  departures : List (Departure Command) := []
  /-- Where `cancel` returned true. -/
  cancelled : List Nat := []

inductive CommandOp where
  | cancel (completion : Nat)
  | startSend (completion : Nat)
  /-- A call whose caller passes over the `InvalidStateError` of `_finish`. -/
  | finish (completion : Nat) (error : Outcome)
  | publish (completion : Nat)
  | commandFinished (completion : Nat)
  /-- The other callbacks of the completion. -/
  | observe (completion : Nat)
  | watchDeadlines
  | stopAccepting
  /-- The wait of `shutdown`. -/
  | drain
  | discardQueue
deriving DecidableEq, Repr

/-- `_expire`. -/
abbrev CommandOp.expire (completion : Nat) : CommandOp :=
  .finish completion (some .deadlineExceeded)

/-- What `shutdown` does with a command that it removed. -/
abbrev CommandOp.discard (completion : Nat) : CommandOp :=
  .finish completion (some .queueClosed)

/-- How an operation goes on that can end in more than one way. -/
inductive Choice where
  | proceed
  | timesOut
  /-- A callback raises a `BaseException`. -/
  | raises
deriving DecidableEq, Repr

/-- What a call of `send_async` leaves behind. -/
structure Sent (Command : Type) where
  state : CommandState Command
  result : Except SubmissionError Nat
  /-- The call starts the watcher. -/
  watcher : Bool := false

namespace CommandState

variable [Inhabited Command] (state : CommandState Command)

/-- The state of a completion; one that nobody has made yet is fresh. -/
def future (completion : Nat) : CommandFuture :=
  state.futures[completion]?.getD {}

def update (completion : Nat) (future : CommandFuture) : CommandState Command :=
  { state with futures := state.futures.set completion future }

/-- The record of an accepted submission. -/
def acceptance (command : Command) (deadline : Option Nat) (size completion : Nat) :
    Acceptance Command where
  command := command
  deadline := deadline
  size := size
  completion := completion
  last := state.queue.last?
  lastTerminal := state.queue.last?.any fun queued => (state.future queued.completion).terminal.isSome
  bytes := state.queue.currentBytes

/-- The region of `send_async`.  A watcher that it starts is called `thread`, and
`starts` tells whether it can be started. -/
def sendAsync [BEq Key] (config : OutboundConfig Command Key) (command : Command)
    (deadline : Option Nat) (starts : Bool) (thread : Nat) : Sent Command :=
  let queue := { state.queue with submitted := state.queue.submitted + 1 }
  if !queue.accepting then
    { state := { state with
        queue := { queue with rejectedAfterShutdown := queue.rejectedAfterShutdown + 1 } }
      result := .error .closed }
  else
    let size := config.retainedSize command config.byteLimit
    let number := state.accepted.length
    if config.byteLimit < size then
      { state := { state with queue := { queue with rejectedOversized := queue.rejectedOversized + 1 } }
        result := .error .oversized }
    else
      match if deadline.isNone then queue.coalesce config state.futures command size number else none with
      | some (queue, completion) =>
          { state := { state with
              queue := { queue with coalesced := queue.coalesced + 1 }
              accepted := state.accepted ++ [state.acceptance command deadline size completion] }
            result := .ok completion }
      | none =>
          if config.queueLimit ≤ queue.queue.length || config.byteLimit < queue.currentBytes + size then
            { state := { state with queue := { queue with rejectedFull := queue.rejectedFull + 1 } }
              result := .error .full }
          else
            let completion := state.futures.length
            let identity := queue.entries.length
            let queue := queue.append { command, completion, size, deadline, number }
            let accepted := state.accepted ++ [state.acceptance command deadline size completion]
            let futures := state.futures ++ [({ deadline := deadline } : CommandFuture)]
            let state := { state with futures }
            match deadline with
            | none =>
                { state := { state with queue := queue.count size, accepted }
                  result := .ok completion }
            | some deadline =>
                let queue := { queue with deadlines := queue.deadlines ++ [(completion, deadline)] }
                if queue.deadlineThread.isSome then
                  { state := { state with queue := queue.count size, accepted }
                    result := .ok completion }
                else if starts then
                  { state := { state with
                      queue := { queue with deadlineThread := some thread }.count size
                      accepted }
                    result := .ok completion
                    watcher := true }
                else
                  { state := { state with queue := queue.withdraw completion identity }
                    result := .error .unwatched }

/-- The region of `receive` in which the queue is not empty. -/
def receive : Option (CommandState Command × CommandSubmission Command) :=
  match state.queue.queue with
  | [] => none
  | identity :: rest =>
      let queued := state.queue.entry identity
      some ({ state with
        queue := { state.queue with
          queue := rest
          queued := Function.update state.queue.queued queued.completion none
          currentBytes := state.queue.currentBytes - queued.size
          dequeued := state.queue.dequeued + 1 }
        departures := state.departures ++ [⟨.received, queued⟩] },
        ⟨queued.command, queued.completion⟩)

def commandFinished (completion : Nat) : CommandState Command :=
  let queue := { state.queue with deadlines := state.queue.popDeadline completion }
  match queue.queued completion with
  | none => { state with queue }
  | some identity =>
      let queued := queue.entry identity
      { state with
        queue := { queue with
          queued := Function.update queue.queued completion none
          queue := queue.queue.erase identity
          currentBytes := queue.currentBytes - queued.size }
        departures := state.departures ++ [⟨.finished, queued⟩] }

/-- The completions of the queued commands. -/
def completions : List Nat :=
  state.queue.queue.map fun identity => (state.queue.entry identity).completion

/-- The region in which `shutdown` empties the queue. -/
def discardQueue : CommandState Command :=
  { state with
    queue := { state.queue with
      discardedDuringShutdown := state.queue.discardedDuringShutdown + state.queue.queue.length
      queue := []
      queued := fun completion =>
        if completion ∈ state.completions then none else state.queue.queued completion
      currentBytes := 0 }
    departures := state.departures ++
      state.queue.queue.map fun identity => ⟨.discarded, state.queue.entry identity⟩ }

/-- The first step of an operation, with the operations that it leaves to do. -/
def advance (choice : Choice) : CommandOp → Option (CommandState Command × List CommandOp)
  | .cancel completion =>
      match (state.future completion).cancel with
      | .refused => some (state, [])
      | .delegated command => some (state, [.cancel command])
      | .cancelled future => some ({ state.update completion future with
          cancelled := completion :: state.cancelled }, [.publish completion])
  | .startSend completion =>
      match (state.future completion).startSend state.clock with
      | .refused => some (state, [])
      | .expires => some (state, [.expire completion])
      | .started future => some (state.update completion future, [])
  | .finish completion error =>
      match (state.future completion).finish state.clock error with
      | none => some (state, [])
      | some (future, _) => some (state.update completion future, [.publish completion])
  | .publish completion =>
      match (state.future completion).publish with
      | none => some (state, [])
      | some future => some (state.update completion future, [.commandFinished completion])
  | .commandFinished completion => some (state.commandFinished completion, [.observe completion])
  | .observe _ => some (state, [])
  | .watchDeadlines =>
      match earliest state.queue.deadlines with
      | none => some ({ state with queue := { state.queue with deadlineThread := none } }, [])
      | some (completion, deadline) =>
          if state.clock < deadline then none
          else some ({ state with
            queue := { state.queue with deadlines := state.queue.popDeadline completion } },
            [.expire completion, .watchDeadlines])
  | .stopAccepting =>
      some ({ state with queue := { state.queue with accepting := false } }, [])
  | .drain =>
      match choice with
      | .timesOut => if state.queue.queue.isEmpty then none else some (state, [.discardQueue])
      | _ => if state.queue.queue.isEmpty then some (state, []) else none
  | .discardQueue => some (state.discardQueue, state.completions.map .discard)

end CommandState

end StreamDockSdk.Messaging
