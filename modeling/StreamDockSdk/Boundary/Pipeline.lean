import Mathlib.Logic.Function.Basic
import StreamDockSdk.Automaton.Calls
import StreamDockSdk.Automaton.System
import StreamDockSdk.Messaging.Writer
import StreamDockSdk.Transport.Queues
import StreamDockSdk.Transport.Websocket

namespace StreamDockSdk.Boundary

open Automaton Messaging Transport

/-! # The outbound half of `ComposedStreamDockBoundary`

The command queue, the writer, the raw queue and the connector, with the calls
of `close` on each of them and on the boundary.  The worker of the writer is the
first thread and the sender the second; they go on to their next point when the
calls that they made are over.  Everything else runs on threads of its own,
also where an observer calls it.  `_fail_pending_locked` lets other threads run
between two of its completions, though it holds the writer's lock.
-/

structure PipelineConfig (Command Key Payload : Type) where
  outbound : OutboundConfig Command Key
  encode : Command → Payload
  raw : TransportQueueConfig (OutboundFrame Payload)

/-- How a worker's call into its surroundings ends. -/
inductive Turn where
  | proceed
  | timesOut
  /-- It raises an `Exception`. -/
  | fails
  /-- The encoder raises a `BaseException`. -/
  | crashes
deriving DecidableEq, Repr

inductive PipelineOp where
  | command (op : CommandOp)
  | terminateReceipt (completion : Nat)
  /-- `_finish_receipt`, which passes over the `InvalidStateError`. -/
  | finishReceipt (completion : Nat) (error : Outcome)
  | completeReceipt (completion : Nat) (error : Outcome)
  /-- The callback that `RawOutboundQueue.submit` adds to an accepted frame. -/
  | discardFrame (completion : Nat)
  /-- `_abort_deadline_send`. -/
  | abortSend (completion : Nat)
  /-- Its call of the socket's `abort`. -/
  | abortSocket (completion : Nat)
  /-- The loop of `_fail_pending_locked`. -/
  | failPending (completions : List Nat)
  | stopWriter (fromWorker : Bool)
  | joinWriter
  /-- What `stop` returns after its join timed out. -/
  | checkWriter
  | stopReturned
  | drainCommands
  | drainWriter
  | shutdownReturned
  | stopRaw
  | drainRaw
  /-- The wait of `RawOutboundQueue.shutdown`. -/
  | shutdownRaw
  | discardRaw
  | rejectFrames (completions : List Nat)
  | closeConnector (fromSender : Bool)
  /-- The region of `_close_owned` that requests the drain. -/
  | requestDrain (fromSender : Bool)
  | awaitDrain
  | giveUp
  | endClose
  /-- The region with which `_handle_disconnect` and `_abort_transport` begin. -/
  | disconnect
  | discardInFlight (error : CommandError)
  | discardFrames (error : CommandError)
  | disconnectHandled
  | endRun
  | joinSender
  | boundaryClosed
deriving DecidableEq, Repr

/-- The fields from `offered` on are read by no code. -/
structure PipelineState (Command Payload : Type) where
  commands : CommandState Command := {}
  writer : CommandWriter Command Payload := {}
  receipts : Nat → TransportReceipt := fun _ => {}
  /-- The completions that call `_terminate_receipt`. -/
  terminates : List Nat := []
  raw : BoundedTransportQueue (OutboundFrame Payload) := {}
  connector : WebSocketClientConnector Payload := {}
  closing : Bool := false
  /-- The frames that the raw queue accepted, in order. -/
  offered : List Nat := []
  /-- The frames whose payload was passed to the websocket's `send`, in order. -/
  passed : List (OutboundFrame Payload) := []
  /-- Where `send` returned normally. -/
  returned : List Nat := []
  /-- The receipts in the order in which they were finished. -/
  finished : List Nat := []
  stopReturned : Bool := false
  shutdownReturned : Bool := false
  disconnectHandled : Bool := false
  closed : Bool := false

/-- What `_reject_item` finishes the receipt with. -/
def rejectionError : TransportQueueError → CommandError
  | .closed => .queueClosed
  | .tooLarge => .tooLarge
  | .full => .queueFull

/-- The calls with which the connection is given up. -/
def disconnectOps : List PipelineOp :=
  [.disconnect, .stopRaw, .discardInFlight .disconnected, .discardFrames .disconnected]

/-- The part of `_close_owned` from the command queue on. -/
def closeOps : List PipelineOp :=
  [.command .stopAccepting, .drainCommands, .drainWriter, .stopWriter false,
    .command .stopAccepting, .command .drain, .shutdownReturned,
    .stopRaw, .drainRaw, .closeConnector false, .stopRaw, .shutdownRaw,
    .stopWriter false, .joinSender, .boundaryClosed]

namespace PipelineState

variable {Command Payload : Type} (state : PipelineState Command Payload)

def writerAt (point : WriterPoint Command Payload) : PipelineState Command Payload :=
  { state with writer := { state.writer with point } }

def senderAt (point : SenderPoint Payload) : PipelineState Command Payload :=
  { state with connector := { state.connector with point } }

def setReceipt (completion : Nat) (receipt : TransportReceipt) : PipelineState Command Payload :=
  { state with receipts := Function.update state.receipts completion receipt }

def received (completion : Nat) : Bool := (state.receipts completion).done.isSome

/-- The callbacks that `TransportReceipt._finish` calls. -/
def receiptCallbacks (completion : Nat) (error : Outcome) : List PipelineOp :=
  (if (state.receipts completion).completes then [.completeReceipt completion error] else []) ++
    if (state.receipts completion).discards && error.isSome then [.discardFrame completion] else []

def recordFinish (completion : Nat) (receipt : TransportReceipt) : PipelineState Command Payload :=
  { state.setReceipt completion receipt with finished := state.finished ++ [completion] }

/-- `TransportReceipt._finish`; `none` is its `InvalidStateError`. -/
def finishReceipt (completion : Nat) (error : Outcome) :
    Option (PipelineState Command Payload × List PipelineOp) :=
  ((state.receipts completion).finish error).map fun receipt =>
    (state.recordFinish completion receipt, state.receiptCallbacks completion error)

variable [Inhabited Command]

def isDone (completion : Nat) : Bool := (state.commands.future completion).done

/-- The error with which a terminal command terminates its receipt. -/
def termination (completion : Nat) : Option CommandError :=
  match (state.commands.future completion).future with
  | some (some .cancelled) => some .cancelled
  | some (some .deadlineExceeded) => some .deadlineExceeded
  | _ => none

variable {Key : Type} (config : PipelineConfig Command Key Payload)

/-- How `_process` goes on after a look of the raw queue's `submit`. -/
def submitted (frame : OutboundFrame Payload) (limit : Option Nat)
    (outcome : BoundedTransportQueue (OutboundFrame Payload) × SubmitDecision) :
    PipelineState Command Payload × List PipelineOp :=
  let state := { state with raw := outcome.1 }
  match outcome.2 with
  | .rejected error =>
      match state.finishReceipt frame.completion (some (rejectionError error)) with
      | none => (state.writerAt (.failed frame .invalid), [])
      | some (state, callbacks) => (state.writerAt (.refused frame), callbacks)
  | .cancelled => (state.writerAt (.refused frame), [])
  | .waits => (state.writerAt (.waiting frame limit), [])
  | .accepted =>
      ({ state.writerAt (.offered frame) with offered := state.offered ++ [frame.completion] }, [])

/-- The time limit of a `submit` is over. -/
def limitPassed (limit : Option Nat) : Bool := limit.any fun limit => decide (limit ≤ state.commands.clock)

/-- The next region of the writer's thread, with the calls that it makes. -/
def writerStep (turn : Turn) : Option (PipelineState Command Payload × List PipelineOp) :=
  match state.writer.point with
  | .created | .exited | .dead => none
  | .receiving =>
      match turn, state.commands.receive with
      | .proceed, some (commands, submission) =>
          some ({ state with commands }.writerAt (.received submission), [])
      | .proceed, none =>
          if state.commands.queue.accepting then none else some (state.writerAt .closed, [])
      | .timesOut, none =>
          if state.commands.queue.accepting then some (state.writerAt .idling, []) else none
      | _, _ => none
  | .idling => some ({ state with writer := { state.writer with
      sourceIdle := true
      point := if state.writer.stopRequested then .exiting else .receiving } }, [])
  | .closed => some ({ state with writer := { state.writer with
      sourceIdle := true
      point := .exiting } }, [])
  | .received submission => some ({ state with writer := { state.writer with
      sourceIdle := false
      inFlight := some submission.completion
      point := .beginning submission } }, [])
  | .beginning submission =>
      if state.isDone submission.completion then
        some (state.writerAt (.leaving submission.completion), [])
      else match turn with
        | .proceed => some (state.writerAt
            (.encoded ⟨config.encode submission.command, submission.completion⟩), [])
        | .fails => some (state.writerAt (.failing submission.completion), [])
        | .crashes => some (state.writerAt (.crashed submission.completion), [])
        | .timesOut => none
  | .failing completion => some (state.writerAt (.leaving completion),
      [.command (.finish completion (some .encoding))])
  | .encoded frame =>
      if state.isDone frame.completion then some (state.writerAt (.leaving frame.completion), [])
      else some (state.writerAt (.registering frame), [])
  | .registering frame => some ({ state.setReceipt frame.completion { completes := true } with
      writer := { state.writer with
        pending := state.writer.pending ++ [frame.completion]
        point := .attaching frame } }, [])
  | .attaching frame =>
      if state.isDone frame.completion then
        some (state.writerAt (.checking frame), [.terminateReceipt frame.completion])
      else some ({ state.writerAt (.checking frame) with
        terminates := frame.completion :: state.terminates }, [])
  | .checking frame =>
      if state.received frame.completion then some (state.writerAt (.leaving frame.completion), [])
      else some (state.writerAt (.timing frame), [])
  | .timing frame =>
      match (state.commands.future frame.completion).deadline with
      | none => some (state.writerAt (.claiming frame none), [])
      | some deadline =>
          if deadline ≤ state.commands.clock then
            some (state.writerAt (.expired frame), [.command (.expire frame.completion)])
          else some (state.writerAt (.claiming frame (some (deadline - state.commands.clock))), [])
  | .expired frame =>
      match (state.commands.future frame.completion).future with
      | some outcome => some (state.writerAt (.leaving frame.completion),
          [.finishReceipt frame.completion outcome])
      | none => some (state.writerAt (.failed frame .timeout), [])
  | .claiming frame timeout =>
      match (state.receipts frame.completion).claim with
      | none => some (state.writerAt (.failed frame .invalid), [])
      | some receipt => some ((state.setReceipt frame.completion receipt).writerAt
          (.offering frame (timeout.map (state.commands.clock + ·))), [])
  | .offering frame limit => some (state.submitted frame limit (state.raw.submit config.raw frame
      (state.received frame.completion) (state.limitPassed limit)))
  | .waiting frame limit =>
      match state.raw.resubmit config.raw frame (state.received frame.completion)
          (state.limitPassed limit) with
      | (_, .waits) => none
      | outcome => some (state.submitted frame limit outcome)
  | .offered frame =>
      let after := state.writerAt (.leaving frame.completion)
      match (state.receipts frame.completion).done with
      | some (some _) => some (after, [.discardFrame frame.completion])
      | some none => some (after, [])
      | none => some (after.setReceipt frame.completion
          { state.receipts frame.completion with discards := true }, [])
  | .refused frame => some (state.writerAt (.leaving frame.completion),
      [.finishReceipt frame.completion (some .rejected)])
  | .failed frame error =>
      if (state.termination frame.completion).isSome then
        some (state.writerAt (.leaving frame.completion), [])
      else some (state.writerAt (.leaving frame.completion),
        [.finishReceipt frame.completion (some error)])
  | .leaving _ => some ({ state with writer := { state.writer with
      inFlight := none
      point := .receiving } }, [])
  | .crashed completion => some (state.writerAt .dropping,
      [.command (.finish completion (some .worker))])
  | .dropping => some ({ state with writer := { state.writer with
      inFlight := none
      point := .ending } }, [])
  | .ending => some ({ state with writer := { state.writer with
      stopRequested := true
      point := .exiting } }, [])
  | .exiting =>
      if state.writer.stopRequested then
        some (state.writerAt .stopping, [.failPending state.writer.pending])
      else some ({ state with writer := { state.writer with
        stopped := true
        sourceIdle := true
        inFlight := none
        point := .exited } }, [])
  | .stopping => some ({ state with writer := { state.writer with
      stopped := true
      sourceIdle := true
      inFlight := none
      point := .exited } }, [])

/-- The next region of the sender's thread, with the calls that it makes. -/
def senderStep (turn : Turn) : Option (PipelineState Command Payload × List PipelineOp) :=
  let connector := state.connector
  match connector.point with
  | .created | .exited => none
  | .waiting =>
      if connector.connected then some (state.senderAt .receiving, [])
      else if connector.stopRequested || connector.drainRequested then
        some (state.senderAt .exiting, [])
      else none
  | .receiving =>
      match turn, state.raw.receive with
      | .proceed, some (raw, frame) => some ({ state with raw }.senderAt (.holding frame), [])
      | .proceed, none =>
          if state.raw.accepting then none else some (state.senderAt .closed, [])
      | .timesOut, none =>
          if state.raw.accepting then some (state.senderAt (.idling state.offered.length), [])
          else none
      | _, _ => none
  | .idling _ => some ({ state with connector := { connector.markDrained with
      point := if connector.stopRequested || connector.drainRequested then .exiting
        else .waiting } }, [])
  | .closed => some ({ state with connector := { connector.markDrained with point := .exiting } }, [])
  | .holding frame => some ({ state with connector := { connector with
      inFlight := some frame.completion
      point := if connector.connected && !connector.stopRequested then .guarding frame
        else .unsent frame } }, [])
  | .unsent frame => some (state.senderAt (.clearing frame false),
      [.finishReceipt frame.completion (some .disconnected)])
  | .guarding frame =>
      if state.received frame.completion then some (state.senderAt (.clearing frame true), [])
      else some (state.senderAt (.beginning frame), [])
  | .beginning frame =>
      match (state.commands.future frame.completion).startSend state.commands.clock with
      | .refused => some (state.senderAt (.clearing frame true), [])
      | .expires => some (state.senderAt (.clearing frame true),
          [.command (.expire frame.completion)])
      | .started future => some ({ state with
          commands := state.commands.update frame.completion future }.senderAt (.sending frame), [])
  | .sending frame => some ({ state.senderAt (.awaiting frame) with
      passed := state.passed ++ [frame] }, [])
  | .awaiting frame =>
      match turn with
      | .proceed => some ({ state.senderAt (.sent frame) with
          returned := state.returned ++ [frame.completion] }, [])
      | .fails => some (state.senderAt (.failed frame), [])
      | _ => none
  | .sent frame => some (state.senderAt (.clearing frame true), [.finishReceipt frame.completion none])
  | .failed frame => some (state.senderAt (.dropping frame),
      [.finishReceipt frame.completion (some .send)])
  | .dropping frame => some ({ state with
      connector := { connector.clearInFlight frame.completion with point := .exiting } },
      disconnectOps)
  | .clearing frame keepRunning => some ({ state with
      connector := { connector.clearInFlight frame.completion with
        point := if keepRunning then .waiting else .exiting } }, [])
  | .exiting => some ({ state with connector := { connector with
      senderStopped := true
      point := .exited } }, [])

/-- The first region of a call, with the calls that it leaves to make. -/
def advance (choice : Choice) :
    PipelineOp → Option (PipelineState Command Payload × List PipelineOp)
  | .command (.finish completion error) =>
      match (state.commands.future completion).finish state.commands.clock error with
      | none => some (state, [])
      | some (future, abort) => some (
          { state with commands := state.commands.update completion future },
          (if abort then [.abortSend completion] else []) ++ [.command (.publish completion)])
  | .command (.commandFinished completion) => some (
      { state with commands := state.commands.commandFinished completion },
      .command (.observe completion) ::
        if completion ∈ state.terminates then
          [.terminateReceipt completion, .command (.observe completion)]
        else [])
  | .command op => (state.commands.advance choice op).map fun (commands, calls) =>
      ({ state with commands }, calls.map .command)
  | .terminateReceipt completion =>
      match state.termination completion with
      | none => some (state, [])
      | some error => some (state, [.finishReceipt completion (some error)])
  | .finishReceipt completion error => some ((state.finishReceipt completion error).getD (state, []))
  | .completeReceipt completion error =>
      if completion ∈ state.writer.pending then
        some ({ state with writer := state.writer.popPending completion },
          [.command (.finish completion error)])
      else some (state, [])
  | .discardFrame completion => some ({ state with
      raw := state.raw.discard fun frame => frame.completion == completion }, [])
  | .abortSend completion =>
      if state.connector.inFlight = some completion then
        some ({ state with connector := state.connector.disconnect }, [.abortSocket completion])
      else some (state, [])
  | .abortSocket _ => some (state, [])
  | .failPending [] => some (state, [])
  | .failPending (completion :: rest) => some (
      { state with writer := state.writer.popPending completion },
      [.command (.finish completion (some .writerStopped)), .failPending rest])
  | .stopWriter fromWorker =>
      let returns : List PipelineOp := if fromWorker then [] else [.stopReturned]
      if state.writer.stopped then some (state, .failPending state.writer.pending :: returns)
      else if state.writer.started then
        some ({ state with writer := { state.writer with stopRequested := true } },
          .command .stopAccepting :: if fromWorker then [] else [.joinWriter])
      else some ({ state with writer := { state.writer with
        stopRequested := true
        stopped := true
        sourceIdle := true } }, returns)
  | .joinWriter =>
      if state.writer.point.isOver then some (state, [.stopReturned])
      else if choice = .timesOut then some (state, [.stopRaw, .checkWriter])
      else none
  | .checkWriter => some (state, if state.writer.point.isOver then [.stopReturned] else [])
  | .stopReturned => some ({ state with stopReturned := true }, [])
  | .drainCommands =>
      if state.commands.queue.queue.isEmpty || choice = .timesOut then some (state, []) else none
  | .drainWriter =>
      if !state.writer.started || state.writer.isDrained || choice = .timesOut then some (state, [])
      else none
  | .shutdownReturned => some ({ state with shutdownReturned := true }, [])
  | .stopRaw => some ({ state with raw := state.raw.stopAccepting }, [])
  | .drainRaw => if state.raw.queue.isEmpty || choice = .timesOut then some (state, []) else none
  | .shutdownRaw =>
      if state.raw.queue.isEmpty then some (state, [])
      else if choice = .timesOut then some (state, [.discardRaw])
      else none
  | .discardRaw => some ({ state with raw := state.raw.clear },
      [.rejectFrames (state.raw.items.map (·.completion))])
  | .rejectFrames [] => some (state, [])
  | .rejectFrames (completion :: rest) =>
      match state.finishReceipt completion (some .queueClosed) with
      | none => some (state, [])
      | some (state, callbacks) => some (state, callbacks ++ [.rejectFrames rest])
  | .closeConnector fromSender =>
      if state.connector.closing then some (state, [])
      else some ({ state with connector := { state.connector with closing := true } },
        [.stopRaw, .requestDrain fromSender])
  | .requestDrain fromSender => some (
      { state with connector := { state.connector with drainRequested := true } },
      if state.connector.started && !fromSender && state.connector.connected then [.awaitDrain]
      else [.giveUp, .endClose])
  | .awaitDrain =>
      if state.connector.outboundDrained then some (state, [.endClose])
      else if state.connector.senderStopped || choice = .timesOut then
        some (state, [.giveUp, .endClose])
      else none
  | .giveUp => some ({ state with connector := state.connector.disconnect },
      [.discardInFlight .connectorClosed, .discardFrames .connectorClosed])
  | .endClose =>
      if state.connector.started then some (state, [])
      else some ({ state with connector := { state.connector with
        terminal := true
        stopRequested := true
        senderStopped := true } }, [])
  | .disconnect => some ({ state with connector := state.connector.disconnect }, [])
  | .discardInFlight error =>
      match state.connector.inFlight with
      | none => some (state, [])
      | some completion => some (state, [.finishReceipt completion (some error)])
  | .discardFrames error =>
      match state.raw.receive with
      | none => some (state, [])
      | some (raw, frame) => some ({ state with raw },
          [.finishReceipt frame.completion (some error), .discardFrames error])
  | .disconnectHandled => some ({ state with disconnectHandled := true }, [])
  | .endRun => some ({ state with connector := { state.connector.disconnect with terminal := true } }, [])
  | .joinSender =>
      match state.connector.point with
      | .created | .exited => some (state, [])
      | _ => none
  | .boundaryClosed => some ({ state with closed := true }, [])

end PipelineState

inductive PipelineLabel (Command : Type) where
  | tick
  /-- `starts` is false where the watcher's thread cannot be started. -/
  | sendAsync (command : Command) (deadline : Option Nat) (starts : Bool)
  | cancel (completion : Nat)
  | startWriter
  | writer (turn : Turn)
  /-- `run_forever` up to the websocket's own loop. -/
  | startSender
  | sender (turn : Turn)
  /-- `_on_open`. -/
  | opened
  /-- `_on_close`. -/
  | disconnect
  /-- `_finalize_run`. -/
  | finalize
  | closeConnector (fromSender : Bool)
  | stopWriter (fromWorker : Bool)
  | stopAccepting
  | shutdown
  | shutdownRaw
  | closeBoundary
  | run (thread : Nat) (choice : Choice)
deriving DecidableEq, Repr

structure PipelineWorld (Command Payload : Type) where
  state : PipelineState Command Payload := {}
  threads : List (List PipelineOp) := [[], []]

namespace PipelineWorld

variable {Command Key Payload : Type} [Inhabited Command] [BEq Key]
variable (config : PipelineConfig Command Key Payload) (world : PipelineWorld Command Payload)

/-- A thread of its own begins with calls. -/
def call (stack : List PipelineOp) : PipelineWorld Command Payload :=
  { world with threads := world.threads ++ [stack] }

/-- A worker's thread makes its next step when it has no call left to make. -/
def work (index : Nat) (next : Option (PipelineState Command Payload × List PipelineOp)) :
    Option (PipelineWorld Command Payload) :=
  if world.threads[index]? = some [] then
    next.map fun (state, calls) => ⟨state, Automaton.resume world.threads index calls⟩
  else none

/-- Where a `BaseException` of an observer takes the thread. -/
def unwound (index : Nat) : PipelineState Command Payload :=
  if index = 0 then world.state.writerAt world.state.writer.point.unwound
  else if index = 1 then world.state.senderAt .exiting
  else world.state

def run (index : Nat) (choice : Choice) : Option (PipelineWorld Command Payload) :=
  match world.threads[index]? with
  | some (op :: rest) =>
      match choice, op with
      | .raises, .command (.observe _) =>
          some ⟨world.unwound index, Automaton.resume world.threads index []⟩
      | .raises, _ => none
      | choice, op =>
          (world.state.advance choice op).map fun (state, calls) =>
            ⟨state, Automaton.resume world.threads index (calls ++ rest)⟩
  | _ => none

def sendAsync (command : Command) (deadline : Option Nat) (starts : Bool) :
    PipelineWorld Command Payload :=
  let sent := world.state.commands.sendAsync config.outbound command deadline starts
    world.threads.length
  { state := { world.state with commands := sent.state }
    threads := if sent.watcher then world.threads ++ [[.command .watchDeadlines]] else world.threads }

def step : PipelineLabel Command → Option (PipelineWorld Command Payload)
  | .tick => some { world with state := { world.state with
      commands := { world.state.commands with clock := world.state.commands.clock + 1 } } }
  | .sendAsync command deadline starts => some (world.sendAsync config command deadline starts)
  | .cancel completion =>
      if completion < world.state.commands.futures.length then
        some (world.call [.command (.cancel completion)])
      else none
  | .startWriter =>
      let writer := world.state.writer
      if writer.started || writer.stopped || writer.stopRequested then none
      else some { world with state := world.state.writerAt .receiving }
  | .writer turn => world.work 0 (world.state.writerStep config turn)
  | .startSender =>
      let connector := world.state.connector
      if connector.started || connector.terminal || connector.closing then none
      else some { world with state := world.state.senderAt .waiting }
  | .sender turn => world.work 1 (world.state.senderStep turn)
  | .opened =>
      let connector := world.state.connector
      if !connector.started then none
      else if connector.closing || connector.stopRequested || connector.terminal then some world
      else some { world with state := { world.state with
        connector := { connector with connected := true } } }
  | .disconnect => if world.state.connector.started then some (world.call disconnectOps) else none
  | .finalize =>
      if world.state.connector.started then
        some (world.call (disconnectOps ++ [.disconnectHandled, .endRun]))
      else none
  | .closeConnector fromSender => some (world.call [.closeConnector fromSender])
  | .stopWriter fromWorker => some (world.call [.stopWriter fromWorker])
  | .stopAccepting => some (world.call [.command .stopAccepting])
  | .shutdown => some (world.call [.command .stopAccepting, .command .drain, .shutdownReturned])
  | .shutdownRaw => some (world.call [.stopRaw, .shutdownRaw])
  | .closeBoundary =>
      if world.state.closing then none
      else some ({ world with state := { world.state with closing := true } }.call closeOps)
  | .run thread choice => world.run thread choice

end PipelineWorld

variable {Command Key Payload : Type} [Inhabited Command] [BEq Key]

/-- Every run of the outbound components of a boundary. -/
def pipelineSystem (config : PipelineConfig Command Key Payload) :
    Automaton.System (PipelineWorld Command Payload) (PipelineLabel Command) where
  initial world := world = {}
  step := PipelineWorld.step config

end StreamDockSdk.Boundary
