import StreamDockSdk.Boundary.Pipeline
import StreamDockSdk.Messaging.Outbound.Transition

namespace StreamDockSdk.Boundary

open Automaton Messaging Transport

variable {Command Key Payload : Type} [Inhabited Command]

namespace PipelineState

variable (config : PipelineConfig Command Key Payload) (state : PipelineState Command Payload)

/-- The frame that the writer makes for a submission. -/
def frameOf (submission : CommandSubmission Command) : OutboundFrame Payload :=
  ⟨config.encode submission.command, submission.completion⟩

/-- The writer's thread goes to its next point and changes nothing else. -/
inductive WriterPasses : WriterPoint Command Payload → WriterPoint Command Payload → Prop
  | closed : state.commands.receive = none → state.commands.queue.accepting = false →
      WriterPasses .receiving .closed
  | idling : state.commands.receive = none → state.commands.queue.accepting = true →
      WriterPasses .receiving .idling
  | skips (submission : CommandSubmission Command) : state.isDone submission.completion = true →
      WriterPasses (.beginning submission) (.leaving submission.completion)
  | encodes (submission : CommandSubmission Command) : state.isDone submission.completion = false →
      WriterPasses (.beginning submission) (.encoded (frameOf config submission))
  | fails (submission : CommandSubmission Command) :
      WriterPasses (.beginning submission) (.failing submission.completion)
  | crashes (submission : CommandSubmission Command) :
      WriterPasses (.beginning submission) (.crashed submission.completion)
  | abandons (frame : OutboundFrame Payload) : state.isDone frame.completion = true →
      WriterPasses (.encoded frame) (.leaving frame.completion)
  | registers (frame : OutboundFrame Payload) : state.isDone frame.completion = false →
      WriterPasses (.encoded frame) (.registering frame)
  | terminated (frame : OutboundFrame Payload) : state.received frame.completion = true →
      WriterPasses (.checking frame) (.leaving frame.completion)
  | times (frame : OutboundFrame Payload) : state.received frame.completion = false →
      WriterPasses (.checking frame) (.timing frame)
  | unlimited (frame : OutboundFrame Payload) :
      (state.commands.future frame.completion).deadline = none →
      WriterPasses (.timing frame) (.claiming frame none)
  | limited (frame : OutboundFrame Payload) (deadline : Nat) :
      (state.commands.future frame.completion).deadline = some deadline →
      WriterPasses (.timing frame) (.claiming frame (some (deadline - state.commands.clock)))
  | unpublished (frame : OutboundFrame Payload) :
      WriterPasses (.expired frame) (.failed frame .timeout)
  | unclaimed (frame : OutboundFrame Payload) (timeout : Option Nat) :
      (state.receipts frame.completion).claim = none →
      WriterPasses (.claiming frame timeout) (.failed frame .invalid)
  | excused (frame : OutboundFrame Payload) (error : CommandError) :
      (state.termination frame.completion).isSome = true →
      WriterPasses (.failed frame error) (.leaving frame.completion)

/-- The writer's thread is inside the `submit` of the raw queue. -/
inductive Submits (frame : OutboundFrame Payload) (limit : Option Nat) :
    WriterPoint Command Payload → Prop
  | offering : Submits frame limit (.offering frame limit)
  | waiting : Submits frame limit (.waiting frame limit)

/-- Everything that the writer's next region can do. -/
inductive WriterMoves : PipelineState Command Payload → List PipelineOp → Prop
  | passes (next : WriterPoint Command Payload) : state.WriterPasses config state.writer.point next →
      WriterMoves (state.writerAt next) []
  | receives (commands : CommandState Command) (submission : CommandSubmission Command) :
      state.writer.point = .receiving → state.commands.receive = some (commands, submission) →
      WriterMoves ({ state with commands }.writerAt (.received submission)) []
  | polls : state.writer.point = .idling →
      WriterMoves { state with writer := { state.writer with
        sourceIdle := true
        point := if state.writer.stopRequested then .exiting else .receiving } } []
  | ends : state.writer.point = .closed →
      WriterMoves { state with writer := { state.writer with
        sourceIdle := true
        point := .exiting } } []
  | begins (submission : CommandSubmission Command) : state.writer.point = .received submission →
      WriterMoves { state with writer := { state.writer with
        sourceIdle := false
        inFlight := some submission.completion
        point := .beginning submission } } []
  | fails (completion : Nat) : state.writer.point = .failing completion →
      WriterMoves (state.writerAt (.leaving completion))
        [.command (.finish completion (some .encoding))]
  | registers (frame : OutboundFrame Payload) : state.writer.point = .registering frame →
      WriterMoves { state.setReceipt frame.completion { completes := true } with
        writer := { state.writer with
          pending := state.writer.pending ++ [frame.completion]
          point := .attaching frame } } []
  | attachesLate (frame : OutboundFrame Payload) : state.writer.point = .attaching frame →
      state.isDone frame.completion = true →
      WriterMoves (state.writerAt (.checking frame)) [.terminateReceipt frame.completion]
  | attaches (frame : OutboundFrame Payload) : state.writer.point = .attaching frame →
      state.isDone frame.completion = false →
      WriterMoves { state.writerAt (.checking frame) with
        terminates := frame.completion :: state.terminates } []
  | expires (frame : OutboundFrame Payload) (deadline : Nat) : state.writer.point = .timing frame →
      (state.commands.future frame.completion).deadline = some deadline →
      deadline ≤ state.commands.clock →
      WriterMoves (state.writerAt (.expired frame)) [.command (.expire frame.completion)]
  | terminates (frame : OutboundFrame Payload) (outcome : Outcome) :
      state.writer.point = .expired frame →
      (state.commands.future frame.completion).future = some outcome →
      WriterMoves (state.writerAt (.leaving frame.completion))
        [.finishReceipt frame.completion outcome]
  | claims (frame : OutboundFrame Payload) (timeout : Option Nat) (receipt : TransportReceipt) :
      state.writer.point = .claiming frame timeout →
      (state.receipts frame.completion).claim = some receipt →
      WriterMoves ((state.setReceipt frame.completion receipt).writerAt
        (.offering frame (timeout.map (state.commands.clock + ·)))) []
  | rejects (frame : OutboundFrame Payload) (limit : Option Nat)
      (raw : BoundedTransportQueue (OutboundFrame Payload)) (error : TransportQueueError)
      (receipt : TransportReceipt) : Submits frame limit state.writer.point →
      state.raw.Attempts frame raw (.rejected error) →
      (state.receipts frame.completion).finish (some (rejectionError error)) = some receipt →
      WriterMoves ({ state with raw }.recordFinish frame.completion receipt |>.writerAt (.refused frame))
        (state.receiptCallbacks frame.completion (some (rejectionError error)))
  | rejectsLate (frame : OutboundFrame Payload) (limit : Option Nat)
      (raw : BoundedTransportQueue (OutboundFrame Payload)) (error : TransportQueueError) :
      Submits frame limit state.writer.point → state.raw.Attempts frame raw (.rejected error) →
      (state.receipts frame.completion).done.isSome = true →
      WriterMoves ({ state with raw }.writerAt (.failed frame .invalid)) []
  | cancels (frame : OutboundFrame Payload) (limit : Option Nat)
      (raw : BoundedTransportQueue (OutboundFrame Payload)) :
      Submits frame limit state.writer.point → state.raw.Attempts frame raw .cancelled →
      WriterMoves ({ state with raw }.writerAt (.refused frame)) []
  | waits (frame : OutboundFrame Payload) (limit : Option Nat)
      (raw : BoundedTransportQueue (OutboundFrame Payload)) :
      Submits frame limit state.writer.point → state.raw.Attempts frame raw .waits →
      WriterMoves ({ state with raw }.writerAt (.waiting frame limit)) []
  | offers (frame : OutboundFrame Payload) (limit : Option Nat)
      (raw : BoundedTransportQueue (OutboundFrame Payload)) :
      Submits frame limit state.writer.point → state.raw.Attempts frame raw .accepted →
      WriterMoves { { state with raw }.writerAt (.offered frame) with
        offered := state.offered ++ [frame.completion] } []
  | discards (frame : OutboundFrame Payload) (error : CommandError) :
      state.writer.point = .offered frame →
      (state.receipts frame.completion).done = some (some error) →
      WriterMoves (state.writerAt (.leaving frame.completion)) [.discardFrame frame.completion]
  | keeps (frame : OutboundFrame Payload) : state.writer.point = .offered frame →
      (state.receipts frame.completion).done = some none →
      WriterMoves (state.writerAt (.leaving frame.completion)) []
  | watches (frame : OutboundFrame Payload) : state.writer.point = .offered frame →
      (state.receipts frame.completion).done = none →
      WriterMoves ((state.writerAt (.leaving frame.completion)).setReceipt frame.completion
        { state.receipts frame.completion with discards := true }) []
  | refuses (frame : OutboundFrame Payload) : state.writer.point = .refused frame →
      WriterMoves (state.writerAt (.leaving frame.completion))
        [.finishReceipt frame.completion (some .rejected)]
  | reports (frame : OutboundFrame Payload) (error : CommandError) :
      state.writer.point = .failed frame error →
      WriterMoves (state.writerAt (.leaving frame.completion))
        [.finishReceipt frame.completion (some error)]
  | leaves (completion : Nat) : state.writer.point = .leaving completion →
      WriterMoves { state with writer := { state.writer with
        inFlight := none
        point := .receiving } } []
  | crashes (completion : Nat) : state.writer.point = .crashed completion →
      WriterMoves (state.writerAt .dropping) [.command (.finish completion (some .worker))]
  | drops : state.writer.point = .dropping →
      WriterMoves { state with writer := { state.writer with
        inFlight := none
        point := .ending } } []
  | requests : state.writer.point = .ending →
      WriterMoves { state with writer := { state.writer with
        stopRequested := true
        point := .exiting } } []
  | stops : state.writer.point = .exiting → state.writer.stopRequested = true →
      WriterMoves (state.writerAt .stopping) [.failPending state.writer.pending]
  | exits : (state.writer.point = .exiting ∧ state.writer.stopRequested = false) ∨
        state.writer.point = .stopping →
      WriterMoves { state with writer := { state.writer with
        stopped := true
        sourceIdle := true
        inFlight := none
        point := .exited } } []

/-- The sender's thread goes to its next point and changes nothing else. -/
inductive SenderPasses : SenderPoint Payload → SenderPoint Payload → Prop
  | connected : state.connector.connected = true → SenderPasses .waiting .receiving
  | unconnected : (state.connector.stopRequested || state.connector.drainRequested) = true →
      SenderPasses .waiting .exiting
  | closed : state.raw.receive = none → state.raw.accepting = false →
      SenderPasses .receiving .closed
  | idling : state.raw.receive = none → state.raw.accepting = true →
      SenderPasses .receiving (.idling state.offered.length)
  | terminated (frame : OutboundFrame Payload) : state.received frame.completion = true →
      SenderPasses (.guarding frame) (.clearing frame true)
  | begins (frame : OutboundFrame Payload) : state.received frame.completion = false →
      SenderPasses (.guarding frame) (.beginning frame)
  | refused (frame : OutboundFrame Payload) :
      (state.commands.future frame.completion).terminal.isSome = true →
      SenderPasses (.beginning frame) (.clearing frame true)
  | fails (frame : OutboundFrame Payload) : SenderPasses (.awaiting frame) (.failed frame)

/-- Everything that the sender's next region can do. -/
inductive SenderMoves : PipelineState Command Payload → List PipelineOp → Prop
  | passes (next : SenderPoint Payload) : state.SenderPasses state.connector.point next →
      SenderMoves (state.senderAt next) []
  | receives (raw : BoundedTransportQueue (OutboundFrame Payload)) (frame : OutboundFrame Payload) :
      state.connector.point = .receiving → state.raw.receive = some (raw, frame) →
      SenderMoves ({ state with raw }.senderAt (.holding frame)) []
  | polls (offered : Nat) : state.connector.point = .idling offered →
      SenderMoves { state with connector := { state.connector.markDrained with
        point := if state.connector.stopRequested || state.connector.drainRequested then .exiting
          else .waiting } } []
  | ends : state.connector.point = .closed →
      SenderMoves { state with connector := { state.connector.markDrained with
        point := .exiting } } []
  | takes (frame : OutboundFrame Payload) : state.connector.point = .holding frame →
      SenderMoves { state with connector := { state.connector with
        inFlight := some frame.completion
        point := if state.connector.connected && !state.connector.stopRequested then .guarding frame
          else .unsent frame } } []
  | unsent (frame : OutboundFrame Payload) : state.connector.point = .unsent frame →
      SenderMoves (state.senderAt (.clearing frame false))
        [.finishReceipt frame.completion (some .disconnected)]
  | expires (frame : OutboundFrame Payload) : state.connector.point = .beginning frame →
      (state.commands.future frame.completion).startSend state.commands.clock = .expires →
      SenderMoves (state.senderAt (.clearing frame true))
        [.command (.expire frame.completion)]
  | starts (frame : OutboundFrame Payload) (future : CommandFuture) :
      state.connector.point = .beginning frame →
      (state.commands.future frame.completion).startSend state.commands.clock = .started future →
      SenderMoves ({ state with
        commands := state.commands.update frame.completion future }.senderAt (.sending frame)) []
  | sends (frame : OutboundFrame Payload) : state.connector.point = .sending frame →
      SenderMoves { state.senderAt (.awaiting frame) with passed := state.passed ++ [frame] } []
  | returns (frame : OutboundFrame Payload) : state.connector.point = .awaiting frame →
      SenderMoves { state.senderAt (.sent frame) with
        returned := state.returned ++ [frame.completion] } []
  | finishes (frame : OutboundFrame Payload) : state.connector.point = .sent frame →
      SenderMoves (state.senderAt (.clearing frame true)) [.finishReceipt frame.completion none]
  | fails (frame : OutboundFrame Payload) : state.connector.point = .failed frame →
      SenderMoves (state.senderAt (.dropping frame)) [.finishReceipt frame.completion (some .send)]
  | aborts (frame : OutboundFrame Payload) : state.connector.point = .dropping frame →
      SenderMoves { state with connector :=
        { state.connector.clearInFlight frame.completion with point := .exiting } } disconnectOps
  | clears (frame : OutboundFrame Payload) (keepRunning : Bool) :
      state.connector.point = .clearing frame keepRunning →
      SenderMoves { state with connector := { state.connector.clearInFlight frame.completion with
        point := if keepRunning then .waiting else .exiting } } []
  | exits : state.connector.point = .exiting →
      SenderMoves { state with connector := { state.connector with
        senderStopped := true
        point := .exited } } []

/-- Everything that the first region of a call can do. -/
inductive OpMoves (choice : Choice) :
    PipelineOp → PipelineState Command Payload → List PipelineOp → Prop
  | command (op : CommandOp) (commands : CommandState Command) (calls : List CommandOp) :
      (∀ completion, op ≠ .commandFinished completion) → state.commands.Moves op commands calls →
      (op = .drain → calls = [] → state.commands.queue.queue = []) →
      OpMoves choice (.command op) { state with commands } (calls.map .command)
  | expires (completion : Nat) (error : Outcome) (commands : CommandState Command) :
      state.commands.Moves (.finish completion error) commands [.publish completion] →
      (state.commands.future completion).abort = true →
      (state.commands.future completion).recorded state.commands.clock error =
        some .deadlineExceeded →
      OpMoves choice (.command (.finish completion error)) { state with commands }
        [.abortSend completion, .command (.publish completion)]
  | announces (completion : Nat) :
      OpMoves choice (.command (.commandFinished completion))
        { state with commands := state.commands.commandFinished completion }
        (.command (.observe completion) ::
          if completion ∈ state.terminates then
            [.terminateReceipt completion, .command (.observe completion)]
          else [])
  | spares (completion : Nat) : state.termination completion = none →
      OpMoves choice (.terminateReceipt completion) state []
  | terminates (completion : Nat) (error : CommandError) :
      state.termination completion = some error →
      OpMoves choice (.terminateReceipt completion) state [.finishReceipt completion (some error)]
  | finishesLate (completion : Nat) (error : Outcome) : state.received completion = true →
      OpMoves choice (.finishReceipt completion error) state []
  | finishes (completion : Nat) (error : Outcome) (receipt : TransportReceipt) :
      (state.receipts completion).finish error = some receipt →
      OpMoves choice (.finishReceipt completion error) (state.recordFinish completion receipt)
        (state.receiptCallbacks completion error)
  | completesLate (completion : Nat) (error : Outcome) : completion ∉ state.writer.pending →
      OpMoves choice (.completeReceipt completion error) state []
  | completes (completion : Nat) (error : Outcome) : completion ∈ state.writer.pending →
      OpMoves choice (.completeReceipt completion error)
        { state with writer := state.writer.popPending completion }
        [.command (.finish completion error)]
  | discards (completion : Nat) :
      OpMoves choice (.discardFrame completion)
        { state with raw := state.raw.discard fun frame => frame.completion == completion } []
  | abortsLate (completion : Nat) : OpMoves choice (.abortSend completion) state []
  | aborts (completion : Nat) : state.connector.inFlight = some completion →
      OpMoves choice (.abortSend completion)
        { state with connector := state.connector.disconnect } [.abortSocket completion]
  | abortsSocket (completion : Nat) : OpMoves choice (.abortSocket completion) state []
  | failedPending : OpMoves choice (.failPending []) state []
  | failsPending (completion : Nat) (rest : List Nat) :
      OpMoves choice (.failPending (completion :: rest))
        { state with writer := state.writer.popPending completion }
        [.command (.finish completion (some .writerStopped)), .failPending rest]
  | stopsLate (fromWorker : Bool) : state.writer.stopped = true →
      OpMoves choice (.stopWriter fromWorker) state
        (.failPending state.writer.pending :: if fromWorker then [] else [.stopReturned])
  | stops (fromWorker : Bool) : state.writer.stopped = false → state.writer.started = true →
      OpMoves choice (.stopWriter fromWorker)
        { state with writer := { state.writer with stopRequested := true } }
        (.command .stopAccepting :: if fromWorker then [] else [.joinWriter])
  | stopsUnstarted (fromWorker : Bool) : state.writer.stopped = false →
      state.writer.started = false →
      OpMoves choice (.stopWriter fromWorker)
        { state with writer := { state.writer with
          stopRequested := true, stopped := true, sourceIdle := true } }
        (if fromWorker then [] else [.stopReturned])
  | joins : state.writer.point.isOver = true →
      OpMoves choice .joinWriter state [.stopReturned]
  | joinTimesOut : state.writer.point.isOver = false →
      OpMoves choice .joinWriter state [.stopRaw, .checkWriter]
  | checksOver : state.writer.point.isOver = true → OpMoves choice .checkWriter state [.stopReturned]
  | checksAlive : state.writer.point.isOver = false → OpMoves choice .checkWriter state []
  | stopReturns : OpMoves choice .stopReturned { state with stopReturned := true } []
  | commandsDrained : state.commands.queue.queue = [] ∨ choice = .timesOut →
      OpMoves choice .drainCommands state []
  | writerDrained : state.writer.started = false ∨ state.writer.isDrained = true ∨
      choice = .timesOut → OpMoves choice .drainWriter state []
  | shutdownReturns : OpMoves choice .shutdownReturned { state with shutdownReturned := true } []
  | stopsRaw : OpMoves choice .stopRaw { state with raw := state.raw.stopAccepting } []
  | rawDrained : OpMoves choice .drainRaw state []
  | rawShut : OpMoves choice .shutdownRaw state []
  | rawTimesOut : choice = .timesOut → OpMoves choice .shutdownRaw state [.discardRaw]
  | discardsRaw : OpMoves choice .discardRaw { state with raw := state.raw.clear }
      [.rejectFrames (state.raw.items.map (·.completion))]
  | rejected : OpMoves choice (.rejectFrames []) state []
  | rejectsLate (completion : Nat) (rest : List Nat) : state.received completion = true →
      OpMoves choice (.rejectFrames (completion :: rest)) state []
  | rejects (completion : Nat) (rest : List Nat) (receipt : TransportReceipt) :
      (state.receipts completion).finish (some .queueClosed) = some receipt →
      OpMoves choice (.rejectFrames (completion :: rest)) (state.recordFinish completion receipt)
        (state.receiptCallbacks completion (some .queueClosed) ++ [.rejectFrames rest])
  | closesLate (fromSender : Bool) : state.connector.closing = true →
      OpMoves choice (.closeConnector fromSender) state []
  | closes (fromSender : Bool) : state.connector.closing = false →
      OpMoves choice (.closeConnector fromSender)
        { state with connector := { state.connector with closing := true } }
        [.stopRaw, .requestDrain fromSender]
  | requests (fromSender : Bool) (pushed : List PipelineOp) :
      pushed = [.awaitDrain] ∨ pushed = [.giveUp, .endClose] →
      OpMoves choice (.requestDrain fromSender)
        { state with connector := { state.connector with drainRequested := true } } pushed
  | drained : state.connector.outboundDrained = true →
      OpMoves choice .awaitDrain state [.endClose]
  | undrained : state.connector.senderStopped = true ∨ choice = .timesOut →
      OpMoves choice .awaitDrain state [.giveUp, .endClose]
  | givesUp : OpMoves choice .giveUp { state with connector := state.connector.disconnect }
      [.discardInFlight .connectorClosed, .discardFrames .connectorClosed]
  | closed : state.connector.started = true → OpMoves choice .endClose state []
  | closesUnstarted : state.connector.started = false →
      OpMoves choice .endClose { state with connector := { state.connector with
        terminal := true, stopRequested := true, senderStopped := true } } []
  | disconnects : OpMoves choice .disconnect
      { state with connector := state.connector.disconnect } []
  | nothingInFlight (error : CommandError) : state.connector.inFlight = none →
      OpMoves choice (.discardInFlight error) state []
  | discardsInFlight (error : CommandError) (completion : Nat) :
      state.connector.inFlight = some completion →
      OpMoves choice (.discardInFlight error) state [.finishReceipt completion (some error)]
  | nothingQueued (error : CommandError) : state.raw.receive = none →
      OpMoves choice (.discardFrames error) state []
  | discardsFrame (error : CommandError) (raw : BoundedTransportQueue (OutboundFrame Payload))
      (frame : OutboundFrame Payload) : state.raw.receive = some (raw, frame) →
      OpMoves choice (.discardFrames error) { state with raw }
        [.finishReceipt frame.completion (some error), .discardFrames error]
  | handled : OpMoves choice .disconnectHandled { state with disconnectHandled := true } []
  | endsRun : OpMoves choice .endRun
      { state with connector := { state.connector.disconnect with terminal := true } } []
  | joinsSender : state.connector.point = .created ∨ state.connector.point = .exited →
      OpMoves choice .joinSender state []
  | boundaryClosed : OpMoves choice .boundaryClosed { state with closed := true } []

variable {config state} {after : PipelineState Command Payload} {pushed : List PipelineOp}

omit [Inhabited Command] in
theorem finishReceipt_some {completion : Nat} {error : Outcome}
    (finished : state.finishReceipt completion error = some (after, pushed)) :
    ∃ receipt, (state.receipts completion).finish error = some receipt ∧
      after = state.recordFinish completion receipt ∧
      pushed = state.receiptCallbacks completion error := by
  obtain ⟨receipt, done, same⟩ := Option.map_eq_some_iff.mp finished
  cases same
  exact ⟨receipt, done, rfl, rfl⟩

omit [Inhabited Command] in
theorem finishReceipt_none {completion : Nat} {error : Outcome}
    (refused : state.finishReceipt completion error = none) : state.received completion = true :=
  TransportReceipt.finish_none (Option.map_eq_none_iff.mp refused)

theorem submitted_moves {frame : OutboundFrame Payload} {limit : Option Nat}
    (submits : Submits frame limit state.writer.point)
    {outcome : BoundedTransportQueue (OutboundFrame Payload) × SubmitDecision}
    (attempts : state.raw.Attempts frame outcome.1 outcome.2) :
    state.WriterMoves config (state.submitted frame limit outcome).1
      (state.submitted frame limit outcome).2 := by
  obtain ⟨raw, decision⟩ := outcome
  cases decision with
  | rejected error =>
      simp only [submitted]
      split
      · next refused =>
        have late : state.received frame.completion = true :=
          TransportReceipt.finish_none (Option.map_eq_none_iff.mp refused)
        exact .rejectsLate frame limit raw error submits attempts late
      · next after callbacks finished =>
        obtain ⟨receipt, done, rfl, rfl⟩ := finishReceipt_some finished
        exact .rejects frame limit raw error receipt submits attempts done
  | cancelled => exact .cancels frame limit raw submits attempts
  | waits => exact .waits frame limit raw submits attempts
  | accepted => exact .offers frame limit raw submits attempts

section Writer

variable {turn : Turn}

attribute [local simp] writerStep

theorem receiving_moves (point : state.writer.point = .receiving)
    (stepped : state.writerStep config turn = some (after, pushed)) :
    state.WriterMoves config after pushed := by
  simp only [writerStep, point] at stepped
  split at stepped
  · next commands submission received =>
    cases stepped
    exact .receives commands submission point received
  · next empty =>
    split at stepped
    · contradiction
    · next shut =>
      cases stepped
      exact .passes .closed (point ▸ .closed empty (by simpa using shut))
  · next empty =>
    split at stepped
    · next accepts =>
      cases stepped
      exact .passes .idling (point ▸ .idling empty accepts)
    · contradiction
  · contradiction

theorem beginning_moves {submission : CommandSubmission Command}
    (point : state.writer.point = .beginning submission)
    (stepped : state.writerStep config turn = some (after, pushed)) :
    state.WriterMoves config after pushed := by
  simp only [writerStep, point] at stepped
  split at stepped
  · next done =>
    cases stepped
    exact .passes _ (point ▸ .skips submission done)
  · next pending =>
    rw [Bool.not_eq_true] at pending
    cases turn with
    | proceed =>
        cases stepped
        exact .passes _ (point ▸ .encodes submission pending)
    | fails =>
        cases stepped
        exact .passes _ (point ▸ .fails submission)
    | crashes =>
        cases stepped
        exact .passes _ (point ▸ .crashes submission)
    | timesOut => contradiction

theorem encoded_moves {frame : OutboundFrame Payload} (point : state.writer.point = .encoded frame)
    (stepped : state.writerStep config turn = some (after, pushed)) :
    state.WriterMoves config after pushed := by
  simp only [writerStep, point] at stepped
  split at stepped
  · next done =>
    cases stepped
    exact .passes _ (point ▸ .abandons frame done)
  · next pending =>
    rw [Bool.not_eq_true] at pending
    cases stepped
    exact .passes _ (point ▸ .registers frame pending)

theorem attaching_moves {frame : OutboundFrame Payload}
    (point : state.writer.point = .attaching frame)
    (stepped : state.writerStep config turn = some (after, pushed)) :
    state.WriterMoves config after pushed := by
  simp only [writerStep, point] at stepped
  split at stepped
  · next done =>
    cases stepped
    exact .attachesLate frame point done
  · next pending =>
    rw [Bool.not_eq_true] at pending
    cases stepped
    exact .attaches frame point pending

theorem checking_moves {frame : OutboundFrame Payload} (point : state.writer.point = .checking frame)
    (stepped : state.writerStep config turn = some (after, pushed)) :
    state.WriterMoves config after pushed := by
  simp only [writerStep, point] at stepped
  split at stepped
  · next done =>
    cases stepped
    exact .passes _ (point ▸ .terminated frame done)
  · next pending =>
    rw [Bool.not_eq_true] at pending
    cases stepped
    exact .passes _ (point ▸ .times frame pending)

theorem timing_moves {frame : OutboundFrame Payload} (point : state.writer.point = .timing frame)
    (stepped : state.writerStep config turn = some (after, pushed)) :
    state.WriterMoves config after pushed := by
  simp only [writerStep, point] at stepped
  split at stepped
  · next unlimited =>
    cases stepped
    exact .passes _ (point ▸ .unlimited frame unlimited)
  · next deadline limited =>
    split at stepped
    · next passed =>
      cases stepped
      exact .expires frame deadline point limited passed
    · cases stepped
      exact .passes _ (point ▸ .limited frame deadline limited)

theorem expired_moves {frame : OutboundFrame Payload} (point : state.writer.point = .expired frame)
    (stepped : state.writerStep config turn = some (after, pushed)) :
    state.WriterMoves config after pushed := by
  simp only [writerStep, point] at stepped
  split at stepped
  · next outcome published =>
    cases stepped
    exact .terminates frame outcome point published
  · cases stepped
    exact .passes _ (point ▸ .unpublished frame)

theorem claiming_moves {frame : OutboundFrame Payload} {timeout : Option Nat}
    (point : state.writer.point = .claiming frame timeout)
    (stepped : state.writerStep config turn = some (after, pushed)) :
    state.WriterMoves config after pushed := by
  simp only [writerStep, point] at stepped
  split at stepped
  · next refused =>
    cases stepped
    exact .passes _ (point ▸ .unclaimed frame timeout refused)
  · next receipt claimed =>
    cases stepped
    exact .claims frame timeout receipt point claimed

theorem offering_moves {frame : OutboundFrame Payload} {limit : Option Nat}
    (point : state.writer.point = .offering frame limit)
    (stepped : state.writerStep config turn = some (after, pushed)) :
    state.WriterMoves config after pushed := by
  simp only [writerStep, point] at stepped
  have submits : Submits frame limit state.writer.point := point ▸ .offering
  have moves : state.WriterMoves config _ _ := submitted_moves submits
    (state.raw.submit_attempts config.raw frame (state.received frame.completion)
      (state.limitPassed limit))
  rw [Option.some.inj stepped] at moves
  exact moves

theorem waiting_moves {frame : OutboundFrame Payload} {limit : Option Nat}
    (point : state.writer.point = .waiting frame limit)
    (stepped : state.writerStep config turn = some (after, pushed)) :
    state.WriterMoves config after pushed := by
  simp only [writerStep, point] at stepped
  split at stepped
  · contradiction
  · have submits : Submits frame limit state.writer.point := point ▸ .waiting
    have moves : state.WriterMoves config _ _ := submitted_moves submits
      (state.raw.resubmit_attempts config.raw frame (state.received frame.completion)
        (state.limitPassed limit))
    rw [Option.some.inj stepped] at moves
    exact moves

theorem offered_moves {frame : OutboundFrame Payload} (point : state.writer.point = .offered frame)
    (stepped : state.writerStep config turn = some (after, pushed)) :
    state.WriterMoves config after pushed := by
  simp only [writerStep, point] at stepped
  split at stepped
  · next error done =>
    cases stepped
    exact .discards frame error point done
  · next done =>
    cases stepped
    exact .keeps frame point done
  · next pending =>
    cases stepped
    exact .watches frame point pending

theorem failed_moves {frame : OutboundFrame Payload} {error : CommandError}
    (point : state.writer.point = .failed frame error)
    (stepped : state.writerStep config turn = some (after, pushed)) :
    state.WriterMoves config after pushed := by
  simp only [writerStep, point] at stepped
  split at stepped
  · next terminated =>
    cases stepped
    exact .passes _ (point ▸ .excused frame error terminated)
  · cases stepped
    exact .reports frame error point

theorem exiting_moves (point : state.writer.point = .exiting)
    (stepped : state.writerStep config turn = some (after, pushed)) :
    state.WriterMoves config after pushed := by
  simp only [writerStep, point] at stepped
  split at stepped
  · next requested =>
    cases stepped
    exact .stops point requested
  · next unrequested =>
    cases stepped
    exact .exits (.inl ⟨point, by simpa using unrequested⟩)

theorem writerStep_moves (stepped : state.writerStep config turn = some (after, pushed)) :
    state.WriterMoves config after pushed := by
  cases point : state.writer.point with
  | created | exited | dead =>
      simp only [writerStep, point] at stepped
      contradiction
  | closed | received | failing | registering | idling | refused | leaving | crashed | dropping
  | ending | stopping =>
      simp only [writerStep, point] at stepped
      cases stepped
      first
        | exact .ends point
        | exact .begins _ point
        | exact .fails _ point
        | exact .registers _ point
        | exact .polls point
        | exact .refuses _ point
        | exact .leaves _ point
        | exact .crashes _ point
        | exact .drops point
        | exact .requests point
        | exact .exits (.inr point)
  | receiving => exact receiving_moves point stepped
  | beginning submission => exact beginning_moves point stepped
  | encoded frame => exact encoded_moves point stepped
  | attaching frame => exact attaching_moves point stepped
  | checking frame => exact checking_moves point stepped
  | timing frame => exact timing_moves point stepped
  | expired frame => exact expired_moves point stepped
  | claiming frame timeout => exact claiming_moves point stepped
  | offering frame limit => exact offering_moves point stepped
  | waiting frame limit => exact waiting_moves point stepped
  | offered frame => exact offered_moves point stepped
  | failed frame error => exact failed_moves point stepped
  | exiting => exact exiting_moves point stepped

end Writer

omit [Inhabited Command] in
theorem senderStep_moves {turn : Turn} (stepped : state.senderStep turn = some (after, pushed)) :
    state.SenderMoves after pushed := by
  unfold senderStep at stepped
  dsimp only at stepped
  split at stepped
  case h_1 | h_2 => contradiction
  case h_3 point =>
    split at stepped
    · next connected =>
      cases stepped
      exact .passes _ (point ▸ .connected connected)
    · split at stepped
      · next requested =>
        cases stepped
        exact .passes _ (point ▸ .unconnected requested)
      · contradiction
  case h_4 point =>
    split at stepped
    · next raw frame received =>
      cases stepped
      exact .receives raw frame point received
    · next empty =>
      split at stepped
      · contradiction
      · next shut =>
        cases stepped
        exact .passes _ (point ▸ .closed empty (by simpa using shut))
    · next empty =>
      split at stepped
      · next accepts =>
        cases stepped
        exact .passes _ (point ▸ .idling empty accepts)
      · contradiction
    · contradiction
  case h_5 offered point =>
    cases stepped
    exact .polls offered point
  case h_6 point =>
    cases stepped
    exact .ends point
  case h_7 frame point =>
    cases stepped
    exact .takes frame point
  case h_8 frame point =>
    cases stepped
    exact .unsent frame point
  case h_9 frame point =>
    split at stepped
    · next done =>
      cases stepped
      exact .passes _ (point ▸ .terminated frame done)
    · next pending =>
      rw [Bool.not_eq_true] at pending
      cases stepped
      exact .passes _ (point ▸ .begins frame pending)
  case h_10 frame point =>
    split at stepped
    · next decided =>
      cases stepped
      exact .passes _ (point ▸ .refused frame (CommandFuture.startSend_refused decided))
    · next decided =>
      cases stepped
      exact .expires frame point decided
    · next future decided =>
      cases stepped
      exact .starts frame future point decided
  case h_11 frame point =>
    cases stepped
    exact .sends frame point
  case h_12 frame point =>
    cases turn with
    | proceed =>
        cases stepped
        exact .returns frame point
    | fails =>
        cases stepped
        exact .passes _ (point ▸ .fails frame)
    | timesOut | crashes => contradiction
  case h_13 frame point =>
    cases stepped
    exact .finishes frame point
  case h_14 frame point =>
    cases stepped
    exact .fails frame point
  case h_15 frame point =>
    cases stepped
    exact .aborts frame point
  case h_16 frame keepRunning point =>
    cases stepped
    exact .clears frame keepRunning point
  case h_17 point =>
    cases stepped
    exact .exits point

section Ops

attribute [local simp] advance

variable {choice : Choice} {completion : Nat} {error : Outcome}

theorem finish_moves
    (advanced : state.advance choice (.command (.finish completion error)) = some (after, pushed)) :
    state.OpMoves choice (.command (.finish completion error)) after pushed := by
  simp only [advance] at advanced
  split at advanced
  · next lost =>
    cases advanced
    exact .command _ _ [] (by simp) (.finishLost completion error (CommandFuture.finish_lost lost))
      (by simp)
  · next future abort won =>
    obtain ⟨undecided, rfl, hooked⟩ := CommandFuture.finish_won won
    cases advanced
    have moves := CommandState.Moves.finishWon completion error undecided
    cases abort with
    | false => exact .command _ _ [.publish completion] (by simp) moves (by simp)
    | true =>
        simp only [Bool.true_eq, Bool.and_eq_true, decide_eq_true_eq] at hooked
        exact .expires completion error _ moves hooked.1 hooked.2

theorem command_moves {op : CommandOp}
    (advanced : state.advance choice (.command op) = some (after, pushed)) :
    state.OpMoves choice (.command op) after pushed := by
  unfold advance at advanced
  split at advanced
  case h_1 completion error same =>
    cases same
    exact finish_moves advanced
  case h_2 completion same =>
    cases same
    cases advanced
    exact .announces completion
  case h_3 op _ other same =>
    cases same
    obtain ⟨⟨commands, calls⟩, moved, same⟩ := Option.map_eq_some_iff.mp advanced
    cases same
    refine .command op commands calls other (CommandState.advance_cases moved) ?_
    rintro rfl rfl
    exact CommandState.advance_drain moved
  all_goals contradiction

theorem terminateReceipt_moves
    (advanced : state.advance choice (.terminateReceipt completion) = some (after, pushed)) :
    state.OpMoves choice (.terminateReceipt completion) after pushed := by
  simp only [advance] at advanced
  split at advanced
  · next none_found =>
    cases advanced
    exact .spares completion none_found
  · next error found =>
    cases advanced
    exact .terminates completion error found

theorem finishReceipt_moves
    (advanced : state.advance choice (.finishReceipt completion error) = some (after, pushed)) :
    state.OpMoves choice (.finishReceipt completion error) after pushed := by
  simp only [advance] at advanced
  cases finished : state.finishReceipt completion error with
  | none =>
      rw [finished] at advanced
      cases advanced
      exact .finishesLate completion error (finishReceipt_none finished)
  | some outcome =>
      obtain ⟨next, callbacks⟩ := outcome
      rw [finished] at advanced
      cases advanced
      obtain ⟨receipt, done, rfl, rfl⟩ := finishReceipt_some finished
      exact .finishes completion error receipt done

theorem completeReceipt_moves
    (advanced : state.advance choice (.completeReceipt completion error) = some (after, pushed)) :
    state.OpMoves choice (.completeReceipt completion error) after pushed := by
  simp only [advance] at advanced
  split at advanced
  · next member =>
    cases advanced
    exact .completes completion error member
  · next absent =>
    cases advanced
    exact .completesLate completion error absent

theorem abortSend_moves
    (advanced : state.advance choice (.abortSend completion) = some (after, pushed)) :
    state.OpMoves choice (.abortSend completion) after pushed := by
  simp only [advance] at advanced
  split at advanced
  · next flying =>
    cases advanced
    exact .aborts completion flying
  · cases advanced
    exact .abortsLate completion

theorem failPending_moves {completions : List Nat}
    (advanced : state.advance choice (.failPending completions) = some (after, pushed)) :
    state.OpMoves choice (.failPending completions) after pushed := by
  cases completions with
  | nil =>
      cases advanced
      exact .failedPending
  | cons completion rest =>
      cases advanced
      exact .failsPending completion rest

theorem stopWriter_moves {fromWorker : Bool}
    (advanced : state.advance choice (.stopWriter fromWorker) = some (after, pushed)) :
    state.OpMoves choice (.stopWriter fromWorker) after pushed := by
  simp only [advance] at advanced
  split at advanced
  · next stopped =>
    cases advanced
    exact .stopsLate fromWorker stopped
  · next running =>
    rw [Bool.not_eq_true] at running
    split at advanced
    · next started =>
      cases advanced
      exact .stops fromWorker running started
    · next unstarted =>
      rw [Bool.not_eq_true] at unstarted
      cases advanced
      exact .stopsUnstarted fromWorker running unstarted

theorem joinWriter_moves (advanced : state.advance choice .joinWriter = some (after, pushed)) :
    state.OpMoves choice .joinWriter after pushed := by
  simp only [advance] at advanced
  split at advanced
  · next isOver =>
    cases advanced
    exact .joins isOver
  · next alive =>
    split at advanced
    · cases advanced
      exact .joinTimesOut (by simpa using alive)
    · contradiction

theorem checkWriter_moves (advanced : state.advance choice .checkWriter = some (after, pushed)) :
    state.OpMoves choice .checkWriter after pushed := by
  simp only [advance] at advanced
  cases isOver : state.writer.point.isOver with
  | true =>
      rw [isOver] at advanced
      cases advanced
      exact .checksOver isOver
  | false =>
      rw [isOver] at advanced
      cases advanced
      exact .checksAlive isOver

theorem drainCommands_moves (advanced : state.advance choice .drainCommands = some (after, pushed)) :
    state.OpMoves choice .drainCommands after pushed := by
  simp only [advance] at advanced
  split at advanced
  · next passes =>
    cases advanced
    exact .commandsDrained (by simpa using passes)
  · contradiction

theorem drainWriter_moves (advanced : state.advance choice .drainWriter = some (after, pushed)) :
    state.OpMoves choice .drainWriter after pushed := by
  simp only [advance] at advanced
  split at advanced
  · next passes =>
    cases advanced
    simp only [Bool.or_eq_true, Bool.not_eq_true', decide_eq_true_eq, or_assoc] at passes
    exact .writerDrained passes
  · contradiction

theorem drainRaw_moves (advanced : state.advance choice .drainRaw = some (after, pushed)) :
    state.OpMoves choice .drainRaw after pushed := by
  simp only [advance] at advanced
  split at advanced
  · cases advanced
    exact .rawDrained
  · contradiction

theorem shutdownRaw_moves (advanced : state.advance choice .shutdownRaw = some (after, pushed)) :
    state.OpMoves choice .shutdownRaw after pushed := by
  simp only [advance] at advanced
  split at advanced
  · cases advanced
    exact .rawShut
  · split at advanced
    · next out =>
      cases advanced
      exact .rawTimesOut out
    · contradiction

theorem rejectFrames_moves {completions : List Nat}
    (advanced : state.advance choice (.rejectFrames completions) = some (after, pushed)) :
    state.OpMoves choice (.rejectFrames completions) after pushed := by
  cases completions with
  | nil =>
      cases advanced
      exact .rejected
  | cons completion rest =>
      simp only [advance] at advanced
      split at advanced
      · next refused =>
        cases advanced
        exact .rejectsLate completion rest (finishReceipt_none refused)
      · next finished =>
        cases advanced
        obtain ⟨receipt, done, rfl, rfl⟩ := finishReceipt_some finished
        exact .rejects completion rest receipt done

theorem closeConnector_moves {fromSender : Bool}
    (advanced : state.advance choice (.closeConnector fromSender) = some (after, pushed)) :
    state.OpMoves choice (.closeConnector fromSender) after pushed := by
  simp only [advance] at advanced
  split at advanced
  · next closing =>
    cases advanced
    exact .closesLate fromSender closing
  · next opened =>
    rw [Bool.not_eq_true] at opened
    cases advanced
    exact .closes fromSender opened

theorem requestDrain_moves {fromSender : Bool}
    (advanced : state.advance choice (.requestDrain fromSender) = some (after, pushed)) :
    state.OpMoves choice (.requestDrain fromSender) after pushed := by
  cases advanced
  refine .requests fromSender _ ?_
  split
  · exact .inl rfl
  · exact .inr rfl

theorem awaitDrain_moves (advanced : state.advance choice .awaitDrain = some (after, pushed)) :
    state.OpMoves choice .awaitDrain after pushed := by
  simp only [advance] at advanced
  split at advanced
  · next drained =>
    cases advanced
    exact .drained drained
  · split at advanced
    · next ended =>
      cases advanced
      exact .undrained (by simpa using ended)
    · contradiction

theorem endClose_moves (advanced : state.advance choice .endClose = some (after, pushed)) :
    state.OpMoves choice .endClose after pushed := by
  simp only [advance] at advanced
  split at advanced
  · next started =>
    cases advanced
    exact .closed started
  · next unstarted =>
    rw [Bool.not_eq_true] at unstarted
    cases advanced
    exact .closesUnstarted unstarted

theorem discardInFlight_moves {error : CommandError}
    (advanced : state.advance choice (.discardInFlight error) = some (after, pushed)) :
    state.OpMoves choice (.discardInFlight error) after pushed := by
  simp only [advance] at advanced
  split at advanced
  · next none_flying =>
    cases advanced
    exact .nothingInFlight error none_flying
  · next completion flying =>
    cases advanced
    exact .discardsInFlight error completion flying

theorem discardFrames_moves {error : CommandError}
    (advanced : state.advance choice (.discardFrames error) = some (after, pushed)) :
    state.OpMoves choice (.discardFrames error) after pushed := by
  simp only [advance] at advanced
  split at advanced
  · next empty =>
    cases advanced
    exact .nothingQueued error empty
  · next raw frame received =>
    cases advanced
    exact .discardsFrame error raw frame received

theorem joinSender_moves (advanced : state.advance choice .joinSender = some (after, pushed)) :
    state.OpMoves choice .joinSender after pushed := by
  simp only [advance] at advanced
  split at advanced
  · next created =>
    cases advanced
    exact .joinsSender (.inl created)
  · next exited =>
    cases advanced
    exact .joinsSender (.inr exited)
  · contradiction

theorem advance_moves {op : PipelineOp}
    (advanced : state.advance choice op = some (after, pushed)) :
    state.OpMoves choice op after pushed := by
  cases op with
  | command op => exact command_moves advanced
  | terminateReceipt completion => exact terminateReceipt_moves advanced
  | finishReceipt completion error => exact finishReceipt_moves advanced
  | completeReceipt completion error => exact completeReceipt_moves advanced
  | discardFrame completion =>
      cases advanced
      exact .discards completion
  | abortSend completion => exact abortSend_moves advanced
  | abortSocket completion =>
      cases advanced
      exact .abortsSocket completion
  | failPending completions => exact failPending_moves advanced
  | stopWriter fromWorker => exact stopWriter_moves advanced
  | joinWriter => exact joinWriter_moves advanced
  | checkWriter => exact checkWriter_moves advanced
  | stopReturned =>
      cases advanced
      exact .stopReturns
  | drainCommands => exact drainCommands_moves advanced
  | drainWriter => exact drainWriter_moves advanced
  | shutdownReturned =>
      cases advanced
      exact .shutdownReturns
  | stopRaw =>
      cases advanced
      exact .stopsRaw
  | drainRaw => exact drainRaw_moves advanced
  | shutdownRaw => exact shutdownRaw_moves advanced
  | discardRaw =>
      cases advanced
      exact .discardsRaw
  | rejectFrames completions => exact rejectFrames_moves advanced
  | closeConnector fromSender => exact closeConnector_moves advanced
  | requestDrain fromSender => exact requestDrain_moves advanced
  | awaitDrain => exact awaitDrain_moves advanced
  | giveUp =>
      cases advanced
      exact .givesUp
  | endClose => exact endClose_moves advanced
  | disconnect =>
      cases advanced
      exact .disconnects
  | discardInFlight error => exact discardInFlight_moves advanced
  | discardFrames error => exact discardFrames_moves advanced
  | disconnectHandled =>
      cases advanced
      exact .handled
  | endRun =>
      cases advanced
      exact .endsRun
  | joinSender => exact joinSender_moves advanced
  | boundaryClosed =>
      cases advanced
      exact .boundaryClosed

end Ops

end PipelineState

end StreamDockSdk.Boundary
