import StreamDockSdk.Boundary.Pipeline.Coverage

namespace StreamDockSdk.Boundary

open Automaton Messaging Transport

variable {Command Key Payload : Type} [Inhabited Command]

/-- The completion of the command whose receipt the writer has yet to register. -/
def unregistered : WriterPoint Command Payload → Option Nat
  | .received submission | .beginning submission => some submission.completion
  | .encoded frame | .registering frame => some frame.completion
  | _ => none

/-- The completion of the frame that the writer submits, or that it reports on. -/
def submitting : WriterPoint Command Payload → Option Nat
  | .attaching frame | .checking frame | .timing frame | .expired frame | .claiming frame _
  | .offering frame _ | .waiting frame _ | .offered frame | .refused frame
  | .failed frame _ => some frame.completion
  | _ => none

/-- The completion of the frame that the sender took and has not yet let go. -/
def sending : SenderPoint Payload → Option Nat
  | .holding frame | .unsent frame | .guarding frame | .beginning frame | .sending frame
  | .awaiting frame | .sent frame | .failed frame | .dropping frame
  | .clearing frame _ => some frame.completion
  | _ => none

/-- The completions whose receipts the call may finish. -/
def PipelineOp.receipts : PipelineOp → List Nat
  | .terminateReceipt completion | .finishReceipt completion _ => [completion]
  | .rejectFrames completions => completions
  | _ => []

namespace PipelineState

variable {config : PipelineConfig Command Key Payload}
variable {state after : PipelineState Command Payload} {gone pushed : List PipelineOp}
variable {completion : Nat}

/-- The state names a receipt that somebody may finish. -/
inductive Names (state : PipelineState Command Payload) (completion : Nat) : Prop
  | writer : submitting state.writer.point = some completion → Names state completion
  | sender : sending state.connector.point = some completion → Names state completion
  | inFlight : state.connector.inFlight = some completion → Names state completion
  | queued (frame : OutboundFrame Payload) : frame ∈ state.raw.items →
      frame.completion = completion → Names state completion
  | attached : completion ∈ state.terminates → Names state completion

/-- What a step does to the receipts. -/
inductive Marks (state : PipelineState Command Payload) (gone : List PipelineOp) :
    PipelineState Command Payload → Prop
  | keeps (after : PipelineState Command Payload) :
      (∀ completion, (after.receipts completion).done = (state.receipts completion).done ∧
        (after.receipts completion).completes = (state.receipts completion).completes) →
      after.finished = state.finished → Marks state gone after
  | registers (after : PipelineState Command Payload) (frame : OutboundFrame Payload) :
      state.writer.point = .registering frame → after.writer.point = .attaching frame →
      after.receipts = Function.update state.receipts frame.completion { completes := true } →
      after.finished = state.finished → Marks state gone after
  | finishes (after : PipelineState Command Payload) (completion : Nat) (error : Outcome) :
      (submitting state.writer.point = some completion ∨ ∃ op ∈ gone, completion ∈ op.receipts) →
      (state.receipts completion).done = none →
      after.receipts = Function.update state.receipts completion
        { state.receipts completion with done := some error } →
      after.finished = state.finished ++ [completion] → Marks state gone after

omit [Inhabited Command] in
theorem Marks.same (gone : List PipelineOp) (receipts : after.receipts = state.receipts)
    (finished : after.finished = state.finished) : state.Marks gone after :=
  .keeps after (fun _ => by rw [receipts]; exact ⟨rfl, rfl⟩) finished

omit [Inhabited Command] in
theorem Marks.updates (gone : List PipelineOp) {receipt : TransportReceipt}
    (receipts : after.receipts = Function.update state.receipts completion receipt)
    (done : receipt.done = (state.receipts completion).done)
    (completes : receipt.completes = (state.receipts completion).completes)
    (finished : after.finished = state.finished) : state.Marks gone after := by
  refine .keeps after (fun other => ?_) finished
  rw [receipts]
  by_cases own : other = completion
  · subst own
    rw [Function.update_self]
    exact ⟨done, completes⟩
  · rw [Function.update_of_ne own]
    exact ⟨rfl, rfl⟩

omit [Inhabited Command] in
theorem Submits.submitting {frame : OutboundFrame Payload} {limit : Option Nat}
    {point : WriterPoint Command Payload} (submits : Submits frame limit point) :
    submitting point = some frame.completion := by
  cases submits <;> rfl

theorem WriterMoves.marked (moves : state.WriterMoves config after pushed) :
    state.Marks gone after := by
  cases moves with
  | registers frame point => exact .registers _ frame point rfl rfl rfl
  | claims frame timeout receipt _ claimed =>
      obtain ⟨_, rfl⟩ := TransportReceipt.claim_some claimed
      exact .updates gone rfl rfl rfl rfl
  | rejects frame limit raw error receipt submits _ finished =>
      obtain ⟨undone, rfl⟩ := TransportReceipt.finish_some finished
      exact .finishes _ frame.completion (some (rejectionError error)) (.inl submits.submitting) undone
        rfl rfl
  | watches frame => exact .updates gone rfl rfl rfl rfl
  | _ => exact .same gone rfl rfl

theorem OpMoves.marked {choice : Choice} {op : PipelineOp}
    (moves : state.OpMoves choice op after pushed) : state.Marks [op] after := by
  cases moves with
  | finishes target error receipt finished =>
      obtain ⟨undone, rfl⟩ := TransportReceipt.finish_some finished
      exact .finishes _ target error (.inr ⟨_, List.mem_singleton.mpr rfl, List.mem_singleton.mpr rfl⟩)
        undone rfl rfl
  | rejects target rest receipt finished =>
      obtain ⟨undone, rfl⟩ := TransportReceipt.finish_some finished
      exact .finishes _ target (some .queueClosed)
        (.inr ⟨_, List.mem_singleton.mpr rfl, List.mem_cons_self⟩) undone rfl rfl
  | _ => exact .same _ rfl rfl

variable {label : PipelineLabel Command}

theorem Changes.marked [BEq Key] (changes : state.Changes config label gone after pushed) :
    state.Marks gone after := by
  cases changes with
  | writer turn after pushed moves => exact moves.marked
  | sender turn after pushed moves => exact .same _ (by cases moves <;> rfl) (by cases moves <;> rfl)
  | run index choice op after pushed _ moves => exact moves.marked
  | raises index gone after same => rcases same with rfl | rfl | rfl <;> exact .same _ rfl rfl
  | _ => exact .same _ rfl rfl

/-- A completion that is named was named before, or its receipt is new. -/
def Named (state after : PipelineState Command Payload) (completion : Nat) : Prop :=
  state.Names completion ∨ (after.receipts completion).completes = true

theorem WriterPasses.submitting {point next : WriterPoint Command Payload}
    (passes : state.WriterPasses config point next) (here : submitting next = some completion) :
    submitting point = some completion := by
  cases passes <;> first | exact here | contradiction

omit [Inhabited Command] in
theorem Names.of_writer (names : after.Names completion) (connector : after.connector = state.connector)
    (items : after.raw.items = state.raw.items) (terminates : after.terminates = state.terminates)
    (point : submitting after.writer.point = some completion → state.Named after completion) :
    state.Named after completion := by
  cases names with
  | writer here => exact point here
  | sender here => exact .inl (.sender (connector ▸ here))
  | inFlight here => exact .inl (.inFlight (connector ▸ here))
  | queued frame member own => exact .inl (.queued frame (items ▸ member) own)
  | attached member => exact .inl (.attached (terminates ▸ member))

theorem WriterMoves.names (moves : state.WriterMoves config after pushed)
    (names : after.Names completion) : state.Named after completion := by
  have stays (frame : OutboundFrame Payload) (here : submitting state.writer.point = some frame.completion)
      (point : submitting after.writer.point = some frame.completion)
      (named : submitting after.writer.point = some completion) : state.Named after completion := by
    rw [point] at named
    exact .inl (.writer (here.trans named))
  cases moves with
  | passes next passes =>
      exact names.of_writer rfl rfl rfl fun here => .inl (.writer (passes.submitting here))
  | polls =>
      refine names.of_writer rfl rfl rfl fun here => ?_
      dsimp only at here
      split at here <;> contradiction
  | registers frame point =>
      refine names.of_writer rfl rfl rfl fun here => .inr ?_
      rw [← Option.some.inj here]
      show (Function.update state.receipts frame.completion { completes := true }
        frame.completion).completes = true
      rw [Function.update_self]
  | attachesLate frame point | expires frame _ point =>
      refine names.of_writer rfl rfl rfl (stays frame ?_ rfl)
      rw [point]
      rfl
  | claims frame timeout receipt point =>
      refine names.of_writer rfl rfl rfl (stays frame ?_ rfl)
      rw [point]
      rfl
  | attaches frame point =>
      have here : submitting state.writer.point = some frame.completion := by
        rw [point]
        rfl
      cases names with
      | writer named => exact stays frame here rfl named
      | attached member =>
          rcases List.mem_cons.mp member with rfl | before
          · exact .inl (.writer here)
          · exact .inl (.attached before)
      | sender named => exact .inl (.sender named)
      | inFlight named => exact .inl (.inFlight named)
      | queued frame member own => exact .inl (.queued frame member own)
  | rejects frame limit raw error receipt submits attempts
  | rejectsLate frame limit raw error submits attempts =>
      exact names.of_writer rfl (attempts.items.trans (if_neg nofun)) rfl
        (stays frame submits.submitting rfl)
  | cancels frame limit raw submits attempts | waits frame limit raw submits attempts =>
      exact names.of_writer rfl (attempts.items.trans (if_neg nofun)) rfl
        (stays frame submits.submitting rfl)
  | offers frame limit raw submits attempts =>
      cases names with
      | writer named => exact stays frame submits.submitting rfl named
      | queued other member own =>
          have items : raw.items = state.raw.items ++ [frame] := attempts.items.trans (if_pos rfl)
          have appended : other ∈ state.raw.items ++ [frame] := items ▸ member
          rcases List.mem_append.mp appended with before | last
          · exact .inl (.queued other before own)
          · rw [List.mem_singleton.mp last] at own
            exact .inl (.writer (own ▸ submits.submitting))
      | attached member => exact .inl (.attached member)
      | sender named => exact .inl (.sender named)
      | inFlight named => exact .inl (.inFlight named)
  | _ => exact names.of_writer rfl rfl rfl nofun

omit [Inhabited Command] in
theorem SenderPasses.sending {point next : SenderPoint Payload}
    (passes : state.SenderPasses point next) (here : sending next = some completion) :
    sending point = some completion := by
  cases passes <;> exact here

omit [Inhabited Command] in
theorem Names.of_sender (names : after.Names completion) (writer : after.writer = state.writer)
    (items : ∀ frame ∈ after.raw.items, frame ∈ state.raw.items)
    (terminates : after.terminates = state.terminates)
    (point : sending after.connector.point = some completion → state.Names completion)
    (inFlight : after.connector.inFlight = some completion → state.Names completion) :
    state.Names completion := by
  cases names with
  | writer here => exact .writer (writer ▸ here)
  | sender here => exact point here
  | inFlight here => exact inFlight here
  | queued frame member own => exact .queued frame (items frame member) own
  | attached member => exact .attached (terminates ▸ member)

theorem inFlight_of_clear {connector : WebSocketClientConnector Payload} {cleared : Nat}
    (here : (connector.clearInFlight cleared).inFlight = some completion) :
    connector.inFlight = some completion := by
  unfold WebSocketClientConnector.clearInFlight at here
  split at here
  · contradiction
  · exact here

omit [Inhabited Command] in
theorem SenderMoves.names (moves : state.SenderMoves after pushed) (names : after.Names completion) :
    state.Names completion := by
  have stays (frame : OutboundFrame Payload) (here : sending state.connector.point = some frame.completion)
      (point : sending after.connector.point = some frame.completion)
      (named : sending after.connector.point = some completion) : state.Names completion := by
    rw [point] at named
    exact .sender (here.trans named)
  have kept {next : Option Nat} (same : next = state.connector.inFlight)
      (named : next = some completion) : state.Names completion := .inFlight (same ▸ named)
  cases moves with
  | passes next passes =>
      exact names.of_sender rfl (fun _ => id) rfl (fun here => .sender (passes.sending here)) (kept rfl)
  | receives raw frame point received =>
      have line := (BoundedTransportQueue.receive_some received).1
      refine names.of_sender rfl (fun other member => ?_) rfl (fun here => ?_) (kept rfl)
      · rw [line]
        exact List.mem_cons_of_mem _ member
      · refine .queued frame ?_ (Option.some.inj here)
        rw [line]
        exact List.mem_cons_self
  | polls =>
      refine names.of_sender rfl (fun _ => id) rfl (fun here => ?_) (kept ?_)
      · dsimp only at here
        split at here <;> contradiction
      · unfold WebSocketClientConnector.markDrained
        split <;> rfl
  | ends =>
      refine names.of_sender rfl (fun _ => id) rfl nofun (kept ?_)
      unfold WebSocketClientConnector.markDrained
      split <;> rfl
  | takes frame point =>
      have here : sending state.connector.point = some frame.completion := by
        rw [point]
        rfl
      refine names.of_sender rfl (fun _ => id) rfl (fun named => ?_) (fun named => ?_)
      · dsimp only at named
        split at named <;> exact .sender (here.trans named)
      · exact .sender (here.trans named)
  | unsent frame point | expires frame point | sends frame point | returns frame point
  | finishes frame point | fails frame point =>
      refine names.of_sender rfl (fun _ => id) rfl (stays frame ?_ rfl) (kept rfl)
      rw [point]
      rfl
  | starts frame future point =>
      refine names.of_sender rfl (fun _ => id) rfl (stays frame ?_ rfl) (kept rfl)
      rw [point]
      rfl
  | aborts frame point =>
      exact names.of_sender rfl (fun _ => id) rfl nofun fun here => .inFlight (inFlight_of_clear here)
  | clears frame keepRunning point =>
      refine names.of_sender rfl (fun _ => id) rfl (fun here => ?_)
        fun here => .inFlight (inFlight_of_clear here)
      dsimp only at here
      split at here <;> contradiction
  | exits => exact names.of_sender rfl (fun _ => id) rfl nofun (kept rfl)

theorem OpMoves.names {choice : Choice} {op : PipelineOp}
    (moves : state.OpMoves choice op after pushed) (names : after.Names completion) :
    state.Names completion := by
  have drops (next : PipelineState Command Payload) (within : next.Names completion)
      (writer : next.writer.point = state.writer.point) (point : next.connector.point = state.connector.point)
      (inFlight : next.connector.inFlight = state.connector.inFlight)
      (terminates : next.terminates = state.terminates)
      (items : ∀ frame ∈ next.raw.items, frame ∈ state.raw.items) : state.Names completion := by
    cases within with
    | writer here => exact .writer (writer ▸ here)
    | sender here => exact .sender (point ▸ here)
    | inFlight here => exact .inFlight (inFlight ▸ here)
    | queued frame member own => exact .queued frame (items frame member) own
    | attached member => exact .attached (terminates ▸ member)
  cases moves with
  | discards target =>
      exact drops _ names rfl rfl rfl rfl fun frame member =>
        (BoundedTransportQueue.items_discard_sublist _).mem member
  | discardsRaw => exact drops _ names rfl rfl rfl rfl nofun
  | discardsFrame error raw frame received =>
      refine drops _ names rfl rfl rfl rfl fun other member => ?_
      rw [(BoundedTransportQueue.receive_some received).1]
      exact List.mem_cons_of_mem _ member
  | _ => exact drops _ names rfl rfl rfl rfl fun _ => id

variable {op : PipelineOp}

omit [Inhabited Command] in
theorem receiptCallbacks_receipts {target : Nat} {error : Outcome}
    (made : op ∈ state.receiptCallbacks target error) : op.receipts = [] := by
  unfold receiptCallbacks at made
  rcases List.mem_append.mp made with member | member
  · split at member
    · rw [List.mem_singleton.mp member]
      rfl
    · contradiction
  · split at member
    · rw [List.mem_singleton.mp member]
      rfl
    · contradiction

theorem disconnectOps_receipts (made : op ∈ disconnectOps) : op.receipts = [] := by
  revert op
  decide

/-- The calls that a worker makes finish receipts that the state names. -/
theorem WriterMoves.receipts (moves : state.WriterMoves config after pushed) (made : op ∈ pushed)
    (member : completion ∈ op.receipts) : state.Names completion := by
  have own (frame : OutboundFrame Payload) (here : submitting state.writer.point = some frame.completion)
      (listed : completion ∈ [frame.completion]) : state.Names completion :=
    List.mem_singleton.mp listed ▸ .writer here
  cases moves with
  | attachesLate frame point =>
      rw [List.mem_singleton.mp made] at member
      exact own frame (by rw [point]; rfl) member
  | terminates frame outcome point =>
      rw [List.mem_singleton.mp made] at member
      exact own frame (by rw [point]; rfl) member
  | refuses frame point | reports frame _ point =>
      rw [List.mem_singleton.mp made] at member
      exact own frame (by rw [point]; rfl) member
  | rejects =>
      rw [receiptCallbacks_receipts made] at member
      contradiction
  | fails | expires | discards | crashes | stops =>
      rw [List.mem_singleton.mp made] at member
      contradiction
  | _ => contradiction

omit [Inhabited Command] in
theorem SenderMoves.receipts (moves : state.SenderMoves after pushed) (made : op ∈ pushed)
    (member : completion ∈ op.receipts) : state.Names completion := by
  have own (frame : OutboundFrame Payload) (here : sending state.connector.point = some frame.completion)
      (listed : completion ∈ [frame.completion]) : state.Names completion :=
    List.mem_singleton.mp listed ▸ .sender here
  cases moves with
  | unsent frame point | finishes frame point | fails frame point =>
      rw [List.mem_singleton.mp made] at member
      exact own frame (by rw [point]; rfl) member
  | expires =>
      rw [List.mem_singleton.mp made] at member
      contradiction
  | aborts =>
      rw [disconnectOps_receipts made] at member
      contradiction
  | _ => contradiction

theorem OpMoves.receipts {choice : Choice} {call : PipelineOp}
    (moves : state.OpMoves choice call after pushed) (made : op ∈ pushed)
    (member : completion ∈ op.receipts) : state.Names completion ∨ completion ∈ call.receipts := by
  cases moves with
  | command call commands calls =>
      obtain ⟨issued, _, rfl⟩ := List.mem_map.mp made
      contradiction
  | announces target =>
      rcases List.mem_cons.mp made with rfl | later
      · contradiction
      · split at later
        · next attached =>
          rcases List.mem_cons.mp later with rfl | last
          · exact .inl (List.mem_singleton.mp member ▸ .attached attached)
          · rw [List.mem_singleton.mp last] at member
            contradiction
        · contradiction
  | terminates target error =>
      rw [List.mem_singleton.mp made] at member
      exact .inr member
  | finishes target error =>
      rw [receiptCallbacks_receipts made] at member
      contradiction
  | discardsRaw =>
      rw [List.mem_singleton.mp made] at member
      obtain ⟨frame, within, own⟩ := List.mem_map.mp member
      exact .inl (.queued frame within own)
  | rejects target rest =>
      rcases List.mem_append.mp made with callback | last
      · rw [receiptCallbacks_receipts callback] at member
        contradiction
      · rw [List.mem_singleton.mp last] at member
        exact .inr (List.mem_cons_of_mem target member)
  | discardsInFlight error target inFlight =>
      rw [List.mem_singleton.mp made] at member
      exact .inl (List.mem_singleton.mp member ▸ .inFlight inFlight)
  | discardsFrame error raw frame received =>
      rcases List.mem_cons.mp made with rfl | last
      · refine .inl (.queued frame ?_ (List.mem_singleton.mp member).symm)
        rw [(BoundedTransportQueue.receive_some received).1]
        exact List.mem_cons_self
      · rw [List.mem_singleton.mp last] at member
        contradiction
  | _ => grind [PipelineOp.receipts]

theorem WriterPasses.unregistered {point next : WriterPoint Command Payload}
    (passes : state.WriterPasses config point next) (here : unregistered next = some completion) :
    unregistered point = some completion := by
  cases passes <;> first | exact here | contradiction

/-- The writer has a command without a receipt from where it receives it. -/
theorem WriterMoves.unregistered (moves : state.WriterMoves config after pushed)
    (here : unregistered after.writer.point = some completion) :
    unregistered state.writer.point = some completion ∨
      ∃ commands submission, state.commands.receive = some (commands, submission) ∧
        after.commands = commands ∧ submission.completion = completion := by
  cases moves with
  | passes next passes => exact .inl (passes.unregistered here)
  | receives commands submission _ received =>
      exact .inr ⟨commands, submission, received, rfl, Option.some.inj here⟩
  | polls =>
      dsimp only at here
      split at here <;> contradiction
  | begins submission point =>
      rw [point]
      exact .inl here
  | _ => contradiction

variable [BEq Key]

theorem Changes.receipts (changes : state.Changes config label gone after pushed)
    (made : op ∈ pushed) (member : completion ∈ op.receipts) :
    state.Names completion ∨ ∃ call ∈ gone, completion ∈ call.receipts := by
  cases changes with
  | called label stack entry => cases entry <;> grind [PipelineOp.receipts, disconnectOps_receipts]
  | closes =>
      have inert : ∀ op ∈ closeOps, op.receipts = [] := by decide
      rw [inert op made] at member
      contradiction
  | writer turn after pushed moves => exact .inl (moves.receipts made member)
  | sender turn after pushed moves => exact .inl (moves.receipts made member)
  | run index choice call after pushed _ moves =>
      exact (moves.receipts made member).imp_right fun own => ⟨call, List.mem_singleton.mpr rfl, own⟩
  | sends => grind [PipelineOp.receipts]
  | _ => contradiction

theorem Changes.names (changes : state.Changes config label gone after pushed)
    (names : after.Names completion) : state.Named after completion := by
  cases changes with
  | writer turn after pushed moves => exact moves.names names
  | sender turn after pushed moves => exact .inl (moves.names names)
  | run index choice op after pushed _ moves => exact .inl (moves.names names)
  | startsWriter => exact names.of_writer rfl rfl rfl nofun
  | startsSender => exact .inl (names.of_sender rfl (fun _ => id) rfl nofun fun here => .inFlight here)
  | raises index gone after same =>
      rcases same with rfl | rfl | rfl
      · exact .inl names
      · refine names.of_writer rfl rfl rfl fun here => ?_
        have unwound : submitting state.writer.point.unwound = some completion := here
        generalize state.writer.point = point at unwound
        cases point <;> contradiction
      · exact .inl (names.of_sender rfl (fun _ => id) rfl nofun fun here => .inFlight here)
  | _ =>
      cases names with
      | writer here => exact .inl (.writer here)
      | sender here => exact .inl (.sender here)
      | inFlight here => exact .inl (.inFlight here)
      | queued frame member own => exact .inl (.queued frame member own)
      | attached member => exact .inl (.attached member)

/-- Each receipt belongs to a frame that was made for a command that the queue
handed out, and is finished at most once. -/
structure Receipted (state : PipelineState Command Payload) (running : PipelineOp → Prop) : Prop where
  fresh : ∀ completion, unregistered state.writer.point = some completion →
    (state.receipts completion).completes = false
  handed : ∀ completion, (state.receipts completion).completes = true →
    completion ∈ state.commands.handedOut.map (·.completion)
  named : ∀ completion, state.Names completion → (state.receipts completion).completes = true
  called : ∀ op completion, running op → completion ∈ op.receipts →
    (state.receipts completion).completes = true
  done : ∀ completion, state.received completion = true →
    (state.receipts completion).completes = true
  logged : ∀ completion, state.received completion = true ↔ completion ∈ state.finished
  once : state.finished.Nodup

theorem Changes.unregistered (changes : state.Changes config label gone after pushed)
    (here : unregistered after.writer.point = some completion) :
    unregistered state.writer.point = some completion ∨
      ∃ commands submission, state.commands.receive = some (commands, submission) ∧
        after.commands = commands ∧ submission.completion = completion := by
  cases changes with
  | writer turn after pushed moves => exact moves.unregistered here
  | sender turn after pushed moves =>
      have same : after.writer = state.writer := by cases moves <;> rfl
      exact .inl (same ▸ here)
  | run index choice op after pushed _ moves => exact .inl (moves.point ▸ here)
  | raises index gone after same =>
      rcases same with rfl | rfl | rfl
      · exact .inl here
      · have unwound : Boundary.unregistered state.writer.point.unwound = some completion := here
        generalize state.writer.point = point at unwound
        cases point <;> contradiction
      · exact .inl here
  | startsWriter => contradiction
  | _ => exact .inl here

variable {running later : PipelineOp → Prop}

omit [Inhabited Command] [BEq Key] in
theorem Lined.registering (lined : state.Lined config) {frame : OutboundFrame Payload}
    (point : state.writer.point = .registering frame) :
    frame.completion ∈ state.commands.handedOut.map (·.completion) := by
  have member : frame ∈ state.line config := by
    simp [line, writerHand, point]
  obtain ⟨queued, within, rfl⟩ := List.mem_map.mp (lined.mem member)
  exact List.mem_map_of_mem within

omit [Inhabited Command] [BEq Key] in
theorem Receipted.completes (receipted : state.Receipted running) (lined : state.Lined config)
    (marks : state.Marks gone after) :
    (∀ completion, (state.receipts completion).completes = true →
      (after.receipts completion).completes = true) ∧
    ∀ completion, (after.receipts completion).completes = true →
      completion ∈ state.commands.handedOut.map (·.completion) := by
  cases marks with
  | keeps kept _ =>
      exact ⟨fun target holds => (kept target).2.trans holds,
        fun target holds => receipted.handed target ((kept target).2.symm.trans holds)⟩
  | registers frame point _ receipts _ =>
      refine ⟨fun target holds => ?_, fun target holds => ?_⟩
      · rw [receipts]
        by_cases own : target = frame.completion
        · rw [own, Function.update_self]
        · rwa [Function.update_of_ne own]
      · rw [receipts] at holds
        by_cases own : target = frame.completion
        · exact own ▸ lined.registering point
        · rw [Function.update_of_ne own] at holds
          exact receipted.handed target holds
  | finishes finished error _ _ receipts _ =>
      have same (target : Nat) :
          (after.receipts target).completes = (state.receipts target).completes := by
        rw [receipts]
        by_cases own : target = finished
        · subst own
          rw [Function.update_self]
        · rw [Function.update_of_ne own]
      exact ⟨fun target holds => (same target).trans holds,
        fun target holds => receipted.handed target ((same target).symm.trans holds)⟩

omit [Inhabited Command] in
/-- A receipt that is finished stays so. -/
theorem Receipted.received (receipted : state.Receipted running) (marks : state.Marks gone after)
    (done : state.received completion = true) : after.received completion = true := by
  unfold PipelineState.received at done ⊢
  cases marks with
  | keeps kept _ => rwa [(kept completion).1]
  | registers frame point _ receipts _ =>
      have fresh := receipted.fresh frame.completion (by rw [point]; rfl)
      have other : completion ≠ frame.completion := by
        rintro rfl
        rw [receipted.done _ done] at fresh
        contradiction
      rwa [receipts, Function.update_of_ne other]
  | finishes finished error _ undone receipts _ =>
      have other : completion ≠ finished := by
        rintro rfl
        rw [undone] at done
        contradiction
      rwa [receipts, Function.update_of_ne other]

theorem Receipted.fresh_changes (receipted : state.Receipted running)
    (sound : state.commands.Sound config.outbound) (lined : state.Lined config)
    (changes : state.Changes config label gone after pushed)
    (here : Boundary.unregistered after.writer.point = some completion) :
    (after.receipts completion).completes = false := by
  obtain ⟨_, handed⟩ := receipted.completes lined changes.marked
  rcases changes.unregistered here with before | ⟨commands, submission, received, rfl, rfl⟩
  · have fresh := receipted.fresh completion before
    cases changes.marked with
    | keeps kept _ => exact (kept completion).2.trans fresh
    | registers frame _ point =>
        rw [point] at here
        contradiction
    | finishes finished error _ _ receipts _ =>
        rw [receipts]
        by_cases own : completion = finished
        · subst own
          rwa [Function.update_self]
        · rwa [Function.update_of_ne own]
  · -- The queue hands out every command once.
    rw [Bool.eq_false_iff]
    intro holds
    obtain ⟨queued, grown, rfl⟩ := CommandState.handedOut_receive received
    have once := (sound.turns changes.turns).handedOut_nodup
    rw [grown, List.map_append] at once
    exact (List.nodup_append.mp once).2.2 _ (handed _ holds) _ (List.mem_singleton.mpr rfl) rfl

theorem Receipted.changes (receipted : state.Receipted running)
    (sound : state.commands.Sound config.outbound) (lined : state.Lined config)
    (changes : state.Changes config label gone after pushed) (called : ∀ op ∈ gone, running op)
    (shifts : Shifts gone pushed running later) : after.Receipted later := by
  have marks := changes.marked
  obtain ⟨completes, handed⟩ := receipted.completes lined marks
  have grown := sound.handedOut_turns changes.turns
  have finishing {target : Nat} (source : submitting state.writer.point = some target ∨
      ∃ op ∈ gone, target ∈ op.receipts) : (state.receipts target).completes = true := by
    rcases source with here | ⟨op, member, within⟩
    · exact receipted.named target (.writer here)
    · exact receipted.called op target (called op member) within
  constructor
  · exact fun target here => receipted.fresh_changes sound lined changes here
  · exact fun target holds => (grown.map _).subset (handed target holds)
  · intro target names
    rcases changes.names names with before | holds
    · exact completes target (receipted.named target before)
    · exact holds
  · intro op target running within
    rcases shifts.came op running with before | made
    · exact completes target (receipted.called op target before within)
    · rcases changes.receipts made within with names | source
      · exact completes target (receipted.named target names)
      · exact completes target (finishing (.inr source))
  · intro target done
    by_cases before : state.received target = true
    · exact completes target (receipted.done target before)
    · cases marks with
      | keeps kept _ =>
          unfold PipelineState.received at before done
          rw [(kept target).1] at done
          exact absurd done before
      | registers frame _ _ receipts _ =>
          unfold PipelineState.received at before done
          rw [receipts] at done ⊢
          by_cases own : target = frame.completion
          · rw [own, Function.update_self]
          · rw [Function.update_of_ne own] at done
            exact absurd done before
      | finishes finished error source _ receipts _ =>
          by_cases own : target = finished
          · exact completes target (own ▸ finishing source)
          · unfold PipelineState.received at before done
            rw [receipts, Function.update_of_ne own] at done
            exact absurd done before
  · intro target
    cases marks with
    | keeps kept same =>
        have unchanged : after.received target = state.received target := by
          unfold PipelineState.received
          rw [(kept target).1]
        rw [same, ← receipted.logged, unchanged]
    | registers frame point _ receipts same =>
        rw [same, ← receipted.logged]
        unfold PipelineState.received
        rw [receipts]
        by_cases own : target = frame.completion
        · have fresh := receipted.fresh frame.completion (by rw [point]; rfl)
          have undone : ¬ state.received frame.completion = true := fun done => by
            rw [receipted.done _ done] at fresh
            contradiction
          rw [own, Function.update_self]
          exact ⟨nofun, fun done => absurd done undone⟩
        · rw [Function.update_of_ne own]
    | finishes finished error _ _ receipts same =>
        rw [same, List.mem_append, List.mem_singleton, ← receipted.logged]
        unfold PipelineState.received
        rw [receipts]
        by_cases own : target = finished
        · rw [own, Function.update_self]
          exact ⟨fun _ => .inr rfl, fun _ => rfl⟩
        · rw [Function.update_of_ne own]
          exact ⟨.inl, fun either => either.resolve_right own⟩
  · cases marks with
    | keeps _ same => exact same ▸ receipted.once
    | registers _ _ _ _ same => exact same ▸ receipted.once
    | finishes finished error _ undone _ same =>
        have new : finished ∉ state.finished := fun member => by
          have done := (receipted.logged finished).mpr member
          unfold PipelineState.received at done
          rw [undone] at done
          contradiction
        rw [same]
        exact List.nodup_append.mpr ⟨receipted.once, by simp,
          fun _ member _ last equal => new (List.mem_singleton.mp last ▸ equal ▸ member)⟩

end PipelineState

namespace PipelineWorld

variable [BEq Key] {config : PipelineConfig Command Key Payload}
variable {world : PipelineWorld Command Payload}
variable {allowed : PipelineWorld Command Payload → PipelineLabel Command → Prop}

theorem reachable_receipted (reachable : (pipelineSystem config).ReachableBy allowed world) :
    world.state.Receipted (Running world.threads) := by
  refine reachableBy_invariant reachable
    (fun world => world.state.commands.Sound config.outbound ∧ world.state.Lined config)
    (fun _ reached => ⟨reachable_sound reached, reachable_lined reached⟩) ?_ ?_
  · intro running idle
    refine ⟨nofun, nofun, fun completion names => ?_, fun op completion run => absurd run (idle op),
      nofun, ?_, List.nodup_nil⟩
    · cases names <;> contradiction
    · exact fun completion => ⟨nofun, nofun⟩
  · intro before label gone state pushed later known _ changes called shifts receipted
    exact receipted.changes known.1 known.2 changes called shifts

end PipelineWorld

end StreamDockSdk.Boundary
