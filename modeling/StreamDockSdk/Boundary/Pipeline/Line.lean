import StreamDockSdk.Boundary.Pipeline.Commands

namespace StreamDockSdk.Boundary

open Automaton Messaging Transport

variable {Command Key Payload : Type} [Inhabited Command]

/-- The frame that the writer has taken out of the command queue and not yet put
into the raw queue. -/
def writerHand (config : PipelineConfig Command Key Payload) :
    WriterPoint Command Payload → List (OutboundFrame Payload)
  | .received submission | .beginning submission => [PipelineState.frameOf config submission]
  | .encoded frame | .registering frame | .attaching frame | .checking frame | .timing frame
  | .claiming frame _ | .offering frame _ | .waiting frame _ => [frame]
  | _ => []

/-- The frame that the sender has taken out of the raw queue and may still pass on. -/
def senderHand : SenderPoint Payload → List (OutboundFrame Payload)
  | .holding frame | .guarding frame | .beginning frame | .sending frame => [frame]
  | _ => []

namespace PipelineState

variable (config : PipelineConfig Command Key Payload) (state : PipelineState Command Payload)

/-- What was passed to `send`, followed by what is on its way there. -/
def line : List (OutboundFrame Payload) :=
  state.passed ++ (senderHand state.connector.point ++
    (state.raw.items ++ writerHand config state.writer.point))

/-- The frames of the commands that the queue handed out. -/
def handed : List (OutboundFrame Payload) :=
  state.commands.handedOut.map fun queued => frameOf config ⟨queued.command, queued.completion⟩

def Lined : Prop := (state.line config).Sublist (state.handed config)

variable {config state} {after : PipelineState Command Payload} {pushed : List PipelineOp}

omit [Inhabited Command] in
/-- Frames may drop out of the line. -/
theorem Lined.shrink (lined : state.Lined config) (passed : after.passed = state.passed)
    (sender : (senderHand after.connector.point).Sublist (senderHand state.connector.point))
    (items : after.raw.items.Sublist state.raw.items)
    (writer : (writerHand config after.writer.point).Sublist
      (writerHand config state.writer.point))
    (handed : after.commands.handedOut = state.commands.handedOut) : after.Lined config := by
  have shorter : (after.line config).Sublist (state.line config) := by
    rw [line, line, passed]
    exact (List.Sublist.refl _).append (sender.append (items.append writer))
  have same : after.handed config = state.handed config := by
    rw [PipelineState.handed, PipelineState.handed, handed]
  rw [Lined, same]
  exact shorter.trans lined

omit [Inhabited Command] in
/-- A frame may go from one place in the line to the next. -/
theorem Lined.hand_on (lined : state.Lined config) (same : after.line config = state.line config)
    (commands : after.commands.handedOut = state.commands.handedOut) : after.Lined config := by
  rw [Lined, same, handed, commands]
  exact lined

theorem WriterPasses.hand {point next : WriterPoint Command Payload}
    (passes : state.WriterPasses config point next) :
    (writerHand config next).Sublist (writerHand config point) := by
  cases passes with
  | encodes | registers | times | unlimited | limited => exact .refl _
  | _ => exact List.nil_sublist _

omit [Inhabited Command] in
theorem SenderPasses.hand {point next : SenderPoint Payload}
    (passes : state.SenderPasses point next) :
    (senderHand next).Sublist (senderHand point) := by
  cases passes with
  | begins => exact .refl _
  | _ => exact List.nil_sublist _

omit [Inhabited Command] in
theorem Submits.hand {frame : OutboundFrame Payload} {limit : Option Nat}
    {point : WriterPoint Command Payload} (submits : Submits frame limit point) :
    writerHand config point = [frame] := by
  cases submits <;> rfl

theorem Lined.writer (lined : state.Lined config) (moves : state.WriterMoves config after pushed) :
    after.Lined config := by
  have drops (next : PipelineState Command Payload) (passed : next.passed = state.passed)
      (connector : next.connector = state.connector) (items : next.raw.items = state.raw.items)
      (commands : next.commands = state.commands)
      (hand : (writerHand config next.writer.point).Sublist
        (writerHand config state.writer.point)) : next.Lined config :=
    lined.shrink passed (connector ▸ .refl _) (items ▸ .refl _) hand (by rw [commands])
  cases moves with
  | passes next passes => exact drops _ rfl rfl rfl rfl passes.hand
  | receives commands submission point received =>
      obtain ⟨queued, grown, rfl⟩ := CommandState.handedOut_receive received
      have handed_on : PipelineState.handed config
          ({ state with commands }.writerAt (.received ⟨queued.command, queued.completion⟩)) =
          state.handed config ++ [frameOf config ⟨queued.command, queued.completion⟩] := by
        show List.map _ commands.handedOut = _
        rw [grown, List.map_append]
        rfl
      have extended : line config
          ({ state with commands }.writerAt (.received ⟨queued.command, queued.completion⟩)) =
          state.line config ++ [frameOf config ⟨queued.command, queued.completion⟩] := by
        simp [line, writerAt, writerHand, point, List.append_assoc]
      rw [Lined, handed_on, extended]
      exact List.Sublist.append lined (.refl _)
  | polls point =>
      refine drops _ rfl rfl rfl rfl ?_
      dsimp only
      split <;> exact List.nil_sublist _
  | begins submission point => exact drops _ rfl rfl rfl rfl (by rw [point]; exact .refl _)
  | registers frame point | attachesLate frame point | attaches frame point =>
      exact drops _ rfl rfl rfl rfl (by rw [point]; exact .refl _)
  | claims frame timeout receipt point =>
      exact drops _ rfl rfl rfl rfl (by rw [point]; exact .refl _)
  | waits frame limit raw submits attempts =>
      exact drops _ rfl rfl (attempts.items.trans (if_neg nofun)) rfl
        (by rw [submits.hand]; exact .refl _)
  | rejects frame limit raw error receipt submits attempts =>
      exact drops _ rfl rfl (attempts.items.trans (if_neg nofun)) rfl (List.nil_sublist _)
  | rejectsLate frame limit raw error submits attempts =>
      exact drops _ rfl rfl (attempts.items.trans (if_neg nofun)) rfl (List.nil_sublist _)
  | cancels frame limit raw submits attempts =>
      exact drops _ rfl rfl (attempts.items.trans (if_neg nofun)) rfl (List.nil_sublist _)
  | offers frame limit raw submits attempts =>
      have items : raw.items = state.raw.items ++ [frame] := attempts.items.trans (if_pos rfl)
      refine lined.hand_on ?_ rfl
      rw [line, line, submits.hand]
      simp [writerAt, writerHand, items]
  | _ => exact drops _ rfl rfl rfl rfl (List.nil_sublist _)

omit [Inhabited Command] in
theorem Lined.sender (lined : state.Lined config) (moves : state.SenderMoves after pushed) :
    after.Lined config := by
  have drops (next : PipelineState Command Payload) (passed : next.passed = state.passed)
      (writer : next.writer = state.writer) (items : next.raw.items = state.raw.items)
      (commands : next.commands.handedOut = state.commands.handedOut)
      (hand : (senderHand next.connector.point).Sublist (senderHand state.connector.point)) :
      next.Lined config :=
    lined.shrink passed hand (items ▸ .refl _) (writer ▸ .refl _) commands
  cases moves with
  | passes next passes => exact drops _ rfl rfl rfl rfl passes.hand
  | receives raw frame point received =>
      have items := (BoundedTransportQueue.receive_some received).1
      refine lined.hand_on ?_ rfl
      simp [line, senderAt, senderHand, point, items]
  | polls offered point =>
      refine drops _ rfl rfl rfl rfl ?_
      dsimp only
      split <;> exact List.nil_sublist _
  | takes frame point =>
      refine drops _ rfl rfl rfl rfl ?_
      rw [point]
      dsimp only
      split
      · exact .refl _
      · exact List.nil_sublist _
  | starts frame future point => exact drops _ rfl rfl rfl rfl (by rw [point]; exact .refl _)
  | sends frame point =>
      refine lined.hand_on ?_ rfl
      simp [line, senderAt, senderHand, point]
  | clears frame keepRunning point =>
      refine drops _ rfl rfl rfl rfl ?_
      dsimp only
      split <;> exact List.nil_sublist _
  | _ => exact drops _ rfl rfl rfl rfl (List.nil_sublist _)

theorem Lined.op {choice : Choice} {op : PipelineOp} (lined : state.Lined config)
    (moves : state.OpMoves choice op after pushed) : after.Lined config := by
  have drops (next : PipelineState Command Payload) (passed : next.passed = state.passed)
      (writer : next.writer.point = state.writer.point)
      (connector : next.connector.point = state.connector.point)
      (items : next.raw.items.Sublist state.raw.items)
      (commands : next.commands.handedOut = state.commands.handedOut) : next.Lined config :=
    lined.shrink passed (connector ▸ .refl _) items (writer ▸ .refl _) commands
  cases moves with
  | command op commands calls _ moves =>
      exact drops _ rfl rfl rfl (.refl _) (CommandState.handedOut_moves moves)
  | expires completion error commands moves =>
      exact drops _ rfl rfl rfl (.refl _) (CommandState.handedOut_moves moves)
  | announces completion =>
      exact drops _ rfl rfl rfl (.refl _)
        (CommandState.handedOut_moves (.commandFinished completion))
  | discards completion =>
      exact drops _ rfl rfl rfl (BoundedTransportQueue.items_discard_sublist _) rfl
  | discardsRaw => exact drops _ rfl rfl rfl (List.nil_sublist _) rfl
  | discardsFrame error raw frame received =>
      have items := (BoundedTransportQueue.receive_some received).1
      exact drops _ rfl rfl rfl (items ▸ List.sublist_cons_self frame raw.items) rfl
  | _ => exact drops _ rfl rfl rfl (.refl _) rfl

omit [Inhabited Command] in
theorem Lined.raises (lined : state.Lined config)
    (same : after = state ∨ after = state.writerAt state.writer.point.unwound ∨
      after = state.senderAt .exiting) : after.Lined config := by
  rcases same with rfl | rfl | rfl
  · exact lined
  · refine lined.shrink rfl (.refl _) (.refl _) ?_ rfl
    show (writerHand config state.writer.point.unwound).Sublist _
    cases state.writer.point <;> exact List.nil_sublist _
  · exact lined.shrink rfl (List.nil_sublist _) (.refl _) (.refl _) rfl

variable [BEq Key] {label : PipelineLabel Command} {gone : List PipelineOp}

theorem Lined.changes (lined : state.Lined config)
    (sound : state.commands.Sound config.outbound)
    (changes : state.Changes config label gone after pushed) : after.Lined config := by
  cases changes with
  | sends command deadline starts thread sent sends =>
      exact lined.hand_on rfl (CommandState.handedOut_sends sound sends)
  | startsWriter => exact lined.shrink rfl (.refl _) (.refl _) (List.nil_sublist _) rfl
  | startsSender => exact lined.shrink rfl (List.nil_sublist _) (.refl _) (.refl _) rfl
  | ticks | called | closes | opens | opensLate => exact lined.hand_on rfl rfl
  | writer turn after pushed moves => exact lined.writer moves
  | sender turn after pushed moves => exact lined.sender moves
  | run index choice op after pushed _ moves => exact lined.op moves
  | raises index gone after same => exact lined.raises same

end PipelineState

namespace PipelineWorld

variable [BEq Key] {config : PipelineConfig Command Key Payload}
variable {world : PipelineWorld Command Payload}
variable {allowed : PipelineWorld Command Payload → PipelineLabel Command → Prop}

theorem reachable_lined (reachable : (pipelineSystem config).ReachableBy allowed world) :
    world.state.Lined config := by
  refine reachableBy_invariant (motive := fun state _ => state.Lined config) reachable
    (fun world => world.state.commands.Sound config.outbound) (fun _ => reachable_sound)
    (fun _ _ => .refl _) ?_
  intro before label gone state pushed later sound _ changes _ _ lined
  exact lined.changes sound changes

end PipelineWorld

end StreamDockSdk.Boundary
