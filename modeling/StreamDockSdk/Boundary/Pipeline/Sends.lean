import StreamDockSdk.Boundary.Pipeline.Line

namespace StreamDockSdk.Boundary

open Automaton Messaging Transport

variable {Command Key Payload : Type} [Inhabited Command]

namespace PipelineOp

/-- The completion that the call cancels. -/
def cancels : PipelineOp → Option Nat
  | .command (.cancel completion) => some completion
  | _ => none

/-- The completion that the call ends without an exception. -/
def succeeds : PipelineOp → Option Nat
  | .finishReceipt completion none | .completeReceipt completion none
  | .command (.finish completion none) => some completion
  | _ => none

end PipelineOp

namespace PipelineState

variable {config : PipelineConfig Command Key Payload}
variable {state after : PipelineState Command Payload} {pushed : List PipelineOp}
variable {op : PipelineOp} {completion : Nat}

omit [Inhabited Command] in
theorem receiptCallbacks_cancels {error : Outcome}
    (made : op ∈ state.receiptCallbacks completion error) : op.cancels = none := by
  unfold receiptCallbacks at made
  grind [PipelineOp.cancels]

theorem WriterMoves.none_cancels (moves : state.WriterMoves config after pushed)
    (made : op ∈ pushed) : op.cancels = none := by
  cases moves with
  | rejects => exact receiptCallbacks_cancels made
  | _ => grind [PipelineOp.cancels]

omit [Inhabited Command] in
theorem SenderMoves.none_cancels (moves : state.SenderMoves after pushed) (made : op ∈ pushed) :
    op.cancels = none := by
  cases moves with
  | aborts => grind [disconnectOps, PipelineOp.cancels]
  | _ => grind [PipelineOp.cancels]

theorem OpMoves.cancels {choice : Choice} {call : PipelineOp}
    (moves : state.OpMoves choice call after pushed) (made : op ∈ pushed)
    (cancels : op.cancels = some completion) :
    ∃ command, (state.commands.future command).delegate = some completion := by
  cases moves with
  | command call commands calls _ moves =>
      obtain ⟨issued, member, rfl⟩ := List.mem_map.mp made
      cases moves with
      | discardQueue =>
          obtain ⟨discarded, _, rfl⟩ := List.mem_map.mp member
          contradiction
      | _ => grind [PipelineOp.cancels]
  | finishes | rejects => grind [receiptCallbacks_cancels, PipelineOp.cancels]
  | _ => grind [PipelineOp.cancels]

omit [Inhabited Command] in
theorem entry_cancels {label : PipelineLabel Command} (entry : Entry state label pushed)
    (made : op ∈ pushed) (cancels : op.cancels = some completion) :
    completion < state.commands.futures.length := by
  cases entry with
  | disconnect | finalize => grind [PipelineOp.cancels, disconnectOps]
  | _ => grind [PipelineOp.cancels]

variable [BEq Key] {label : PipelineLabel Command} {gone : List PipelineOp}

theorem Changes.cancels (changes : state.Changes config label gone after pushed)
    (made : op ∈ pushed) (cancels : op.cancels = some completion) :
    completion < state.commands.futures.length ∨
      ∃ command, (state.commands.future command).delegate = some completion := by
  cases changes with
  | called label stack entry => exact .inl (entry_cancels entry made cancels)
  | writer turn after pushed moves =>
      rw [moves.none_cancels made] at cancels
      contradiction
  | sender turn after pushed moves =>
      rw [moves.none_cancels made] at cancels
      contradiction
  | run index choice call after pushed _ moves => exact .inr (moves.cancels made cancels)
  | closes =>
      have inert : ∀ op ∈ closeOps, op.cancels = none := by decide
      rw [inert op made] at cancels
      contradiction
  | _ => grind [PipelineOp.cancels]

/-- What is cancelled is never passed to `send`. -/
structure Excludes (state : PipelineState Command Payload) (running : PipelineOp → Prop) : Prop where
  cancelled : ∀ completion ∈ state.commands.cancelled,
    (state.commands.future completion).terminal = some (some .cancelled) ∧
      (state.commands.future completion).sending = false
  passed : ∀ frame ∈ state.passed, (state.commands.future frame.completion).sending = true
  sending : ∀ frame, state.connector.point = .sending frame →
    (state.commands.future frame.completion).sending = true
  own : ∀ completion, (state.commands.future completion).delegate = none
  known : ∀ op completion, running op → op.cancels = some completion →
    completion < state.commands.futures.length

/-- The frames of the line belong to completions that exist. -/
theorem Lined.known (lined : state.Lined config) (sound : state.commands.Sound config.outbound)
    {frame : OutboundFrame Payload} (member : frame ∈ state.line config) :
    frame.completion < state.commands.futures.length := by
  obtain ⟨queued, within, rfl⟩ := List.mem_map.mp (lined.subset member)
  exact sound.handedOut_known within

/-- Steps of other threads leave the sender where it is, unless they start or end it. -/
theorem OpMoves.beside {choice : Choice} {call : PipelineOp}
    (moves : state.OpMoves choice call after pushed) : after.passed = state.passed ∧
      after.returned = state.returned ∧ after.connector.point = state.connector.point := by
  cases moves <;> exact ⟨rfl, rfl, rfl⟩

omit [BEq Key] in
theorem WriterMoves.beside (moves : state.WriterMoves config after pushed) :
    after.passed = state.passed ∧ after.returned = state.returned ∧
      after.connector = state.connector := by
  cases moves <;> exact ⟨rfl, rfl, rfl⟩

theorem Changes.beside (changes : state.Changes config label gone after pushed) :
    state.SenderMoves after pushed ∨ (after.passed = state.passed ∧
      after.returned = state.returned ∧ (after.connector.point = state.connector.point ∨
        after.connector.point = .waiting ∨ after.connector.point = .exiting)) := by
  cases changes with
  | sender turn after pushed moves => exact .inl moves
  | startsSender => exact .inr ⟨rfl, rfl, .inr (.inl rfl)⟩
  | writer turn after pushed moves =>
      obtain ⟨passed, returned, connector⟩ := moves.beside
      exact .inr ⟨passed, returned, .inl (by rw [connector])⟩
  | run index choice op after pushed _ moves =>
      obtain ⟨passed, returned, point⟩ := moves.beside
      exact .inr ⟨passed, returned, .inl point⟩
  | raises index gone after same =>
      rcases same with rfl | rfl | rfl
      · exact .inr ⟨rfl, rfl, .inl rfl⟩
      · exact .inr ⟨rfl, rfl, .inl rfl⟩
      · exact .inr ⟨rfl, rfl, .inr (.inr rfl)⟩
  | _ => exact .inr ⟨rfl, rfl, .inl rfl⟩

theorem Excludes.changes {running later : PipelineOp → Prop} (excludes : state.Excludes running)
    (sound : state.commands.Sound config.outbound) (lined : state.Lined config)
    (changes : state.Changes config label gone after pushed) (called : ∀ op ∈ gone, running op)
    (shifts : Shifts gone pushed running later) : after.Excludes later := by
  have advances := sound.advances changes.turns
  have grown := changes.turns.length
  constructor
  · intro completion member
    rcases sound.cancels changes.turns member with before | ⟨calling, decided⟩
    · obtain ⟨terminal, unsent⟩ := excludes.cancelled completion before
      exact ⟨(advances completion).terminal _ terminal,
        (advances completion).unsent (by rw [terminal]; rfl) unsent⟩
    · rcases calling with member | ⟨_, other⟩
      · exact decided (excludes.known _ completion (called _ member) rfl)
      · contradiction
  · intro frame member
    rcases changes.beside with moves | ⟨passed, _, _⟩
    · cases moves with
      | sends sent point =>
          rcases List.mem_append.mp member with before | last
          · exact (advances _).sending (excludes.passed frame before)
          · rw [List.mem_singleton.mp last]
            exact (advances _).sending (excludes.sending sent point)
      | _ => exact (advances _).sending (excludes.passed frame member)
    · exact (advances _).sending (excludes.passed frame (passed ▸ member))
  · intro frame point
    rcases changes.beside with moves | ⟨_, _, same | ended | ended⟩
    · cases moves with
      | starts begun future at_point started =>
          have same : begun = frame := by simpa [senderAt] using point
          subst same
          obtain ⟨_, _, rfl⟩ := CommandFuture.startSend_started started
          have within : begun ∈ state.line config := by simp [line, senderHand, at_point]
          have made := lined.known sound within
          show (CommandState.future _ begun.completion).sending = true
          rw [CommandState.future_of_set rfl, if_pos ⟨rfl, made⟩]
      | passes next passes =>
          have same : next = .sending frame := point
          subst same
          generalize state.connector.point = current at passes
          cases passes
      | polls | takes | clears =>
          dsimp only at point
          split at point <;> contradiction
      | _ => contradiction
    · exact (advances _).sending (excludes.sending frame (same ▸ point))
    · rw [ended] at point
      contradiction
    · rw [ended] at point
      contradiction
  · exact fun completion => (advances completion).delegate (excludes.own completion)
  · intro op completion running cancels
    rcases shifts.came op running with before | made
    · exact Nat.lt_of_lt_of_le (excludes.known op completion before cancels) grown
    · rcases changes.cancels made cancels with bound | ⟨command, delegated⟩
      · exact Nat.lt_of_lt_of_le bound grown
      · rw [excludes.own] at delegated
        contradiction

/-- Only what `send` returned from ends without an exception. -/
structure Truthful (state : PipelineState Command Payload) (running : PipelineOp → Prop) : Prop where
  returned : ∀ completion ∈ state.returned, ∃ frame ∈ state.passed, frame.completion = completion
  awaiting : ∀ frame, state.connector.point = .awaiting frame → frame ∈ state.passed
  sent : ∀ frame, state.connector.point = .sent frame → frame.completion ∈ state.returned
  ending : ∀ op completion, running op → op.succeeds = some completion →
    completion ∈ state.returned
  decided : ∀ completion, (state.commands.future completion).terminal = some none →
    completion ∈ state.returned
  published : ∀ completion, (state.commands.future completion).future = some none →
    completion ∈ state.returned
  receipts : ∀ completion, (state.receipts completion).done = some none →
    completion ∈ state.returned

omit [Inhabited Command] [BEq Key] in
theorem receiptCallbacks_succeeds {error : CommandError}
    (made : op ∈ state.receiptCallbacks completion (some error)) : op.succeeds = none := by
  unfold receiptCallbacks at made
  grind [PipelineOp.succeeds]

omit [BEq Key] in
theorem WriterMoves.succeeds (moves : state.WriterMoves config after pushed) (made : op ∈ pushed)
    (succeeds : op.succeeds = some completion) :
    (state.commands.future completion).future = some none := by
  cases moves with
  | rejects =>
      rw [receiptCallbacks_succeeds made] at succeeds
      contradiction
  | terminates frame outcome _ published =>
      rw [List.mem_singleton.mp made] at succeeds
      cases outcome with
      | none =>
          cases succeeds
          exact published
      | some error => contradiction
  | _ => grind [PipelineOp.succeeds]

omit [Inhabited Command] in
omit [BEq Key] in
theorem SenderMoves.succeeds (moves : state.SenderMoves after pushed) (made : op ∈ pushed)
    (succeeds : op.succeeds = some completion) :
    ∃ frame, state.connector.point = .sent frame ∧ frame.completion = completion := by
  cases moves with
  | finishes frame point =>
      rw [List.mem_singleton.mp made] at succeeds
      cases succeeds
      exact ⟨frame, point, rfl⟩
  | aborts => grind [disconnectOps, PipelineOp.succeeds]
  | _ => grind [PipelineOp.succeeds]

omit [BEq Key] in
theorem OpMoves.succeeds {choice : Choice} {call : PipelineOp}
    (moves : state.OpMoves choice call after pushed) (made : op ∈ pushed)
    (succeeds : op.succeeds = some completion) : call.succeeds = some completion := by
  cases moves with
  | command call commands calls _ moves =>
      obtain ⟨issued, member, rfl⟩ := List.mem_map.mp made
      cases moves with
      | discardQueue =>
          obtain ⟨discarded, _, rfl⟩ := List.mem_map.mp member
          contradiction
      | _ => grind [PipelineOp.succeeds]
  | finishes target error =>
      unfold receiptCallbacks at made
      cases error <;> grind [PipelineOp.succeeds]
  | rejects => grind [receiptCallbacks_succeeds, PipelineOp.succeeds]
  | completes target error => cases error <;> grind [PipelineOp.succeeds]
  | _ => grind [PipelineOp.succeeds]

theorem Changes.succeeds (changes : state.Changes config label gone after pushed)
    (made : op ∈ pushed) (succeeds : op.succeeds = some completion) :
    (state.commands.future completion).future = some none ∨
      (∃ frame, state.connector.point = .sent frame ∧ frame.completion = completion) ∨
      ∃ call ∈ gone, call.succeeds = some completion := by
  cases changes with
  | called label stack entry => cases entry <;> grind [PipelineOp.succeeds, disconnectOps]
  | writer turn after pushed moves => exact .inl (moves.succeeds made succeeds)
  | sender turn after pushed moves => exact .inr (.inl (moves.succeeds made succeeds))
  | run index choice call after pushed _ moves =>
      exact .inr (.inr ⟨call, List.mem_singleton.mpr rfl, moves.succeeds made succeeds⟩)
  | closes =>
      have inert : ∀ op ∈ closeOps, op.succeeds = none := by decide
      rw [inert op made] at succeeds
      contradiction
  | _ => grind [PipelineOp.succeeds]

omit [Inhabited Command] [BEq Key] in
theorem done_of_update {receipts next : Nat → TransportReceipt} {target : Nat}
    {receipt : TransportReceipt} {outcome : Outcome}
    (same : next = Function.update receipts target receipt)
    (done : (next completion).done = some outcome) :
    (receipts completion).done = some outcome ∨
      (completion = target ∧ receipt.done = some outcome) := by
  rw [same] at done
  by_cases own : completion = target
  · subst own
    rw [Function.update_self] at done
    exact .inr ⟨rfl, done⟩
  · rw [Function.update_of_ne own] at done
    exact .inl done

omit [BEq Key] in
theorem WriterMoves.done (moves : state.WriterMoves config after pushed)
    (done : (after.receipts completion).done = some none) :
    (state.receipts completion).done = some none := by
  cases moves with
  | rejects frame limit raw error receipt _ _ finished =>
      obtain ⟨_, rfl⟩ := TransportReceipt.finish_some finished
      rcases done_of_update rfl done with before | ⟨_, impossible⟩
      · exact before
      · simp at impossible
  | registers frame =>
      rcases done_of_update rfl done with before | ⟨_, impossible⟩
      · exact before
      · simp at impossible
  | claims frame timeout receipt _ claimed =>
      obtain ⟨_, rfl⟩ := TransportReceipt.claim_some claimed
      rcases done_of_update rfl done with before | ⟨rfl, same⟩
      · exact before
      · exact same
  | watches frame =>
      rcases done_of_update rfl done with before | ⟨rfl, same⟩
      · exact before
      · exact same
  | _ => exact done

omit [BEq Key] in
theorem OpMoves.done {choice : Choice} {call : PipelineOp}
    (moves : state.OpMoves choice call after pushed)
    (done : (after.receipts completion).done = some none) :
    (state.receipts completion).done = some none ∨ call.succeeds = some completion := by
  cases moves with
  | finishes target error receipt finished =>
      obtain ⟨_, rfl⟩ := TransportReceipt.finish_some finished
      rcases done_of_update rfl done with before | ⟨rfl, same⟩
      · exact .inl before
      · cases same
        exact .inr rfl
  | rejects target rest receipt finished =>
      obtain ⟨_, rfl⟩ := TransportReceipt.finish_some finished
      rcases done_of_update rfl done with before | ⟨_, impossible⟩
      · exact .inl before
      · simp at impossible
  | _ => exact .inl done

theorem Changes.done (changes : state.Changes config label gone after pushed)
    (done : (after.receipts completion).done = some none) :
    (state.receipts completion).done = some none ∨
      ∃ call ∈ gone, call.succeeds = some completion := by
  cases changes with
  | writer turn after pushed moves => exact .inl (moves.done done)
  | sender turn after pushed moves =>
      have same : after.receipts = state.receipts := by cases moves <;> rfl
      exact .inl (same ▸ done)
  | run index choice call after pushed _ moves =>
      exact (moves.done done).imp_right fun succeeds => ⟨call, List.mem_singleton.mpr rfl, succeeds⟩
  | raises index gone after same =>
      rcases same with rfl | rfl | rfl <;> exact .inl done
  | _ => exact .inl done

/-- A step leaves what was passed on and what returned, or adds one frame to either. -/
theorem Truthful.sends {running : PipelineOp → Prop} (truthful : state.Truthful running)
    (changes : state.Changes config label gone after pushed) :
    (∀ completion ∈ state.returned, completion ∈ after.returned) ∧
      (∀ completion ∈ after.returned, ∃ frame ∈ after.passed, frame.completion = completion) ∧
      (∀ frame, after.connector.point = .awaiting frame → frame ∈ after.passed) ∧
      ∀ frame, after.connector.point = .sent frame → frame.completion ∈ after.returned := by
  have same (passed : after.passed = state.passed) (returned : after.returned = state.returned)
      (awaiting : ∀ frame, after.connector.point = .awaiting frame →
        state.connector.point = .awaiting frame)
      (sent : ∀ frame, after.connector.point = .sent frame →
        state.connector.point = .sent frame) :
      (∀ completion ∈ state.returned, completion ∈ after.returned) ∧
        (∀ completion ∈ after.returned, ∃ frame ∈ after.passed, frame.completion = completion) ∧
        (∀ frame, after.connector.point = .awaiting frame → frame ∈ after.passed) ∧
        ∀ frame, after.connector.point = .sent frame → frame.completion ∈ after.returned := by
    rw [passed, returned]
    exact ⟨fun _ => id, truthful.returned, fun frame point => truthful.awaiting frame (awaiting frame point),
      fun frame point => truthful.sent frame (sent frame point)⟩
  rcases changes.beside with moves | ⟨passed, returned, point⟩
  · cases moves with
    | sends sent point =>
        refine ⟨fun _ => id, ?_, ?_, nofun⟩
        · intro completion member
          obtain ⟨frame, within, own⟩ := truthful.returned completion member
          exact ⟨frame, List.mem_append_left _ within, own⟩
        · intro frame at_point
          cases at_point
          exact List.mem_append_right _ (List.mem_singleton.mpr rfl)
    | returns sent point =>
        refine ⟨fun _ => List.mem_append_left _, ?_, nofun, ?_⟩
        · intro completion member
          rcases List.mem_append.mp member with before | last
          · exact truthful.returned completion before
          · exact ⟨sent, truthful.awaiting sent point, (List.mem_singleton.mp last).symm⟩
        · intro frame at_point
          cases at_point
          exact List.mem_append_right _ (List.mem_singleton.mpr rfl)
    | passes next passes =>
        refine same rfl rfl (fun frame at_point => ?_) (fun frame at_point => ?_)
        all_goals
          have reached : next = _ := at_point
          subst reached
          generalize state.connector.point = current at passes
          cases passes
    | polls | takes | clears =>
        refine same rfl rfl (fun frame at_point => ?_) (fun frame at_point => ?_)
        all_goals
          dsimp only at at_point
          split at at_point <;> contradiction
    | _ => exact same rfl rfl nofun nofun
  · refine same passed returned (fun frame at_point => ?_) (fun frame at_point => ?_)
    all_goals
      rcases point with kept | ended | ended
      · exact kept ▸ at_point
      · rw [ended] at at_point
        contradiction
      · rw [ended] at at_point
        contradiction

theorem Truthful.changes {running later : PipelineOp → Prop} (truthful : state.Truthful running)
    (sound : state.commands.Sound config.outbound)
    (changes : state.Changes config label gone after pushed) (called : ∀ op ∈ gone, running op)
    (shifts : Shifts gone pushed running later) : after.Truthful later := by
  obtain ⟨grows, returned, awaiting, sent⟩ := truthful.sends changes
  constructor
  · exact returned
  · exact awaiting
  · exact sent
  · intro op completion running succeeds
    rcases shifts.came op running with before | made
    · exact grows _ (truthful.ending op completion before succeeds)
    · rcases changes.succeeds made succeeds with published | ⟨frame, point, rfl⟩ | ⟨call, member, same⟩
      · exact grows _ (truthful.published completion published)
      · exact grows _ (truthful.sent frame point)
      · exact grows _ (truthful.ending call completion (called call member) same)
  · intro completion decided
    rcases sound.decides changes.turns decided with before | ⟨op, calls, calling, _, decides⟩
    · exact grows _ (truthful.decided completion before)
    · cases decides with
      | cancel _ impossible => contradiction
      | finish error same recorded =>
          subst same
          have success : error = none := CommandFuture.recorded_eq_none recorded.symm
          subst success
          rcases calling with member | ⟨_, other⟩
          · exact grows _ (truthful.ending _ completion (called _ member) rfl)
          · contradiction
  · intro completion published
    rcases sound.publishes changes.turns published with before | decided
    · exact grows _ (truthful.published completion before)
    · exact grows _ (truthful.decided completion decided)
  · intro completion done
    rcases changes.done done with before | ⟨call, member, succeeds⟩
    · exact grows _ (truthful.receipts completion before)
    · exact grows _ (truthful.ending call completion (called call member) succeeds)

end PipelineState

end StreamDockSdk.Boundary
