import StreamDockSdk.Boundary.Pipeline.Safety

namespace StreamDockSdk.Boundary

open Automaton Messaging Transport

variable {Command Key Payload : Type} [Inhabited Command]

/-- The frame that the sender put in flight and may still send. -/
def heldFrame : SenderPoint Payload → Option Nat
  | .guarding frame | .beginning frame | .sending frame | .awaiting frame => some frame.completion
  | _ => none

/-- The frame whose send the sender has claimed. -/
def claimedFrame : SenderPoint Payload → Option Nat
  | .sending frame | .awaiting frame => some frame.completion
  | _ => none

/-- The frame whose `send` has started and has not returned. -/
def writtenFrame : SenderPoint Payload → Option Nat
  | .awaiting frame => some frame.completion
  | _ => none

/-- The calls that the sender makes between two of its regions are over at these points. -/
def betweenCalls : SenderPoint Payload → Bool
  | .dropping _ | .clearing _ _ | .exiting => false
  | _ => true

/-- The completion whose deadline a call gives the connection up for. -/
def PipelineOp.hooks : PipelineOp → Option Nat
  | .abortSend completion | .abortSocket completion => some completion
  | _ => none

namespace PipelineState

variable (state : PipelineState Command Payload)

/-- The completion for which a call of the hook takes effect. -/
def aborted : PipelineOp → Option Nat
  | .abortSend completion =>
      if state.connector.inFlight = some completion then some completion else none
  | .abortSocket completion => some completion
  | _ => none

/-- A call that ends a command goes on to the hook though its frame, still in
flight, is not being written. -/
def overdue : PipelineOp → Bool
  | .command (.finish completion error) =>
      let future := state.commands.future completion
      future.terminal.isNone && future.abort &&
        decide (future.recorded state.commands.clock error = some .deadlineExceeded) &&
        decide (state.connector.inFlight = some completion) &&
        decide (writtenFrame state.connector.point ≠ some completion)
  | _ => false

end PipelineState

namespace PipelineWorld

variable (world : PipelineWorld Command Payload)

/-- The call that a thread makes next. -/
def nextCall (index : Nat) : Option PipelineOp :=
  world.threads[index]?.bind List.head?

/-- The completion for whose deadline a step gives the connection up. -/
def aborting : PipelineLabel Command → Option Nat
  | .run index _ => (world.nextCall index).bind world.state.aborted
  | _ => none

/-- No step gives the connection up for a deadline but inside the send of its frame. -/
def AbortsInWrite [BEq Key] (config : PipelineConfig Command Key Payload) : Prop :=
  ∀ label after completion, world.step config label = some after →
    world.aborting label = some completion →
    writtenFrame world.state.connector.point = some completion

/-- A step decides no deadline outside the send of its frame, and leaves no send
whose deadline is being acted on. -/
def timely : PipelineLabel Command → Bool
  | .run index _ => !(world.nextCall index).any world.state.overdue
  | .sender _ => (writtenFrame world.state.connector.point).all fun completion =>
      world.threads.all fun stack => stack.all fun op => decide (op.hooks ≠ some completion)
  | _ => true

end PipelineWorld

namespace PipelineState

variable {config : PipelineConfig Command Key Payload}
variable {state after : PipelineState Command Payload} {gone pushed : List PipelineOp}
variable {completion : Nat}

omit [Inhabited Command] in
theorem SenderMoves.between_calls (moves : state.SenderMoves after pushed)
    (between : betweenCalls after.connector.point = true) : pushed = [] := by
  cases moves with
  | unsent | expires | finishes | fails | aborts => contradiction
  | _ => rfl

theorem claimed_held {point : SenderPoint Payload} (claimed : claimedFrame point = some completion) :
    heldFrame point = some completion := by
  cases point with
  | sending | awaiting => exact claimed
  | _ => contradiction

omit [Inhabited Command] in
/-- The sender leaves the frame in flight, puts a new one there or clears it. -/
theorem SenderMoves.inFlight (moves : state.SenderMoves after pushed) :
    after.connector.inFlight = state.connector.inFlight ∨ after.connector.inFlight = none ∨
      ∃ frame, state.connector.point = .holding frame ∧
        after.connector.inFlight = some frame.completion := by
  have marked : state.connector.markDrained.inFlight = state.connector.inFlight := by
    unfold WebSocketClientConnector.markDrained
    split <;> rfl
  have cleared (frame : OutboundFrame Payload) :
      (state.connector.clearInFlight frame.completion).inFlight = state.connector.inFlight ∨
        (state.connector.clearInFlight frame.completion).inFlight = none := by
    unfold WebSocketClientConnector.clearInFlight
    split
    · exact .inr rfl
    · exact .inl rfl
  cases moves with
  | polls | ends => exact .inl marked
  | takes frame point => exact .inr (.inr ⟨frame, point, rfl⟩)
  | aborts frame => exact (cleared frame).imp_right .inl
  | clears frame => exact (cleared frame).imp_right .inl
  | _ => exact .inl rfl

/-- Calls leave the frame in flight there. -/
theorem OpMoves.inFlight {choice : Choice} {op : PipelineOp}
    (moves : state.OpMoves choice op after pushed) :
    after.connector.inFlight = state.connector.inFlight := by
  cases moves <;> rfl

section

omit [Inhabited Command]

theorem SenderMoves.held (moves : state.SenderMoves after pushed)
    (holds : ∀ completion, heldFrame state.connector.point = some completion →
      state.connector.inFlight = some completion)
    (held : heldFrame after.connector.point = some completion) :
    after.connector.inFlight = some completion := by
  have stays {point next : SenderPoint Payload} (passes : state.SenderPasses point next)
      (held : heldFrame next = some completion) : heldFrame point = some completion := by
    cases passes with
    | begins => exact held
    | _ => contradiction
  cases moves with
  | passes next passes => exact holds completion (stays passes held)
  | takes frame point =>
      dsimp only at held ⊢
      split at held
      · exact held
      · contradiction
  | polls | clears =>
      dsimp only at held
      split at held <;> contradiction
  | starts frame future point | sends frame point =>
      refine holds completion ?_
      rw [point]
      exact held
  | _ => contradiction

/-- The sender leaves a claimed send only by way of the `send` itself. -/
theorem SenderMoves.leaves (moves : state.SenderMoves after pushed)
    (claimed : claimedFrame state.connector.point = some completion) :
    claimedFrame after.connector.point = some completion ∨
      ∃ frame, state.connector.point = .awaiting frame ∧ frame.completion = completion := by
  cases moves with
  | passes next passes =>
      generalize at_point : state.connector.point = current at passes claimed
      cases passes with
      | fails frame => exact .inr ⟨frame, rfl, by simpa [claimedFrame] using claimed⟩
      | _ => contradiction
  | sends frame point =>
      rw [point] at claimed
      exact .inl claimed
  | returns frame point =>
      rw [point] at claimed
      exact .inr ⟨frame, point, by simpa [claimedFrame] using claimed⟩
  | receives raw frame point | polls offered point | ends point | takes frame point
  | unsent frame point | expires frame point | starts frame future point | finishes frame point
  | fails frame point | aborts frame point | clears frame keepRunning point | exits point =>
      rw [point] at claimed
      contradiction

/-- The sender's next step takes it out of the `send`. -/
theorem SenderMoves.ends_write (moves : state.SenderMoves after pushed)
    (written : writtenFrame state.connector.point = some completion) :
    after.connector.inFlight = state.connector.inFlight ∧
      writtenFrame after.connector.point = none := by
  cases moves with
  | passes next passes =>
      refine ⟨rfl, ?_⟩
      show writtenFrame next = none
      generalize state.connector.point = current at passes written
      cases passes with
      | fails => rfl
      | _ => contradiction
  | returns => exact ⟨rfl, rfl⟩
  | receives raw frame point | polls offered point | ends point | takes frame point
  | unsent frame point | expires frame point | starts frame future point | sends frame point
  | finishes frame point | fails frame point | aborts frame point | clears frame keepRunning point
  | exits point =>
      rw [point] at written
      contradiction

theorem SenderMoves.passed (moves : state.SenderMoves after pushed) {frame : OutboundFrame Payload}
    (member : frame ∈ state.passed) : frame ∈ after.passed := by
  cases moves with
  | sends => exact List.mem_append_left _ member
  | _ => exact member

end

/-- Only a claim of its send gives a command the hook. -/
theorem moves_abort {commands : CommandState Command} {op : CommandOp} {calls : List CommandOp}
    (moves : state.commands.Moves op commands calls) (other : op ≠ .startSend completion)
    (hooked : (commands.future completion).abort = true) :
    (state.commands.future completion).abort = true := by
  have changed {next : CommandState Command} {target : Nat} {future : CommandFuture}
      (set : next.futures = state.commands.futures.set target future)
      (hooked : (next.future completion).abort = true) :
      (state.commands.future completion).abort = true ∨
        (completion = target ∧ future.abort = true) := by
    rw [CommandState.future_of_set set] at hooked
    split at hooked
    · next own => exact .inr ⟨own.1, hooked⟩
    · exact .inl hooked
  cases moves with
  | cancelWon target | published target =>
      rcases changed rfl hooked with before | ⟨rfl, same⟩
      · exact before
      · exact same
  | finishWon target =>
      rcases changed rfl hooked with before | ⟨rfl, impossible⟩
      · exact before
      · contradiction
  | sendStarted target =>
      rcases changed rfl hooked with before | ⟨rfl, _⟩
      · exact before
      · exact absurd rfl other
  | commandFinished target =>
      have futures : (state.commands.commandFinished target).futures = state.commands.futures := by
        cases found : state.commands.queue.queued target with
        | none => rw [CommandState.commandFinished_absent found]
        | some identity => rw [CommandState.commandFinished_queued found]
      simp only [CommandState.future, futures] at hooked
      exact hooked
  | _ => exact hooked

variable [BEq Key] {label : PipelineLabel Command}

/-- A step gives a command the hook only where the sender claims its send. -/
theorem Changes.abort (changes : state.Changes config label gone after pushed)
    (sound : state.commands.Sound config.outbound)
    (unclaimed : .command (.startSend completion) ∉ gone)
    (hooked : (after.commands.future completion).abort = true) :
    (state.commands.future completion).abort = true ∨
      claimedFrame after.connector.point = some completion := by
  cases changes with
  | sends command deadline starts thread sent sends =>
      rcases CommandState.sends_future sound sends completion with same | ⟨limit, made, _⟩
      · exact .inl (same ▸ hooked)
      · rw [show (CommandState.future _ completion) = _ from made] at hooked
        contradiction
  | writer turn after pushed moves =>
      rcases moves.commands with same | ⟨submission, received⟩
      · exact .inl (same ▸ hooked)
      · obtain ⟨_, _, _, _, same⟩ := CommandState.receive_eq_some received
        exact .inl (by rw [same] at hooked; exact hooked)
  | sender turn after pushed moves =>
      cases moves with
      | starts frame future point started =>
          by_cases own : completion = frame.completion
          · exact .inr (congrArg some own.symm)
          · rw [show CommandState.future _ completion = _ from
              CommandState.future_of_set rfl, if_neg fun same => own same.1] at hooked
            exact .inl hooked
      | _ => exact .inl hooked
  | run index choice op after pushed _ moves =>
      cases moves with
      | command op commands calls _ moves =>
          refine .inl (moves_abort moves ?_ hooked)
          rintro rfl
          exact unclaimed (List.mem_singleton.mpr rfl)
      | expires target error commands moves => exact .inl (moves_abort moves nofun hooked)
      | announces target => exact .inl (moves_abort (.commandFinished target) nofun hooked)
      | _ => exact .inl hooked
  | raises index gone after same =>
      rcases same with rfl | rfl | rfl <;> exact .inl hooked
  | _ => exact .inl hooked

omit [Inhabited Command] in
omit [BEq Key] in
theorem receiptCallbacks_unclaimed {error : Outcome} {target : Nat} :
    .command (.startSend completion) ∉ state.receiptCallbacks target error := by
  unfold receiptCallbacks
  grind

/-- No call claims a send. -/
theorem Changes.unclaimed (changes : state.Changes config label gone after pushed) :
    .command (.startSend completion) ∉ pushed := by
  intro made
  cases changes with
  | called label stack entry => cases entry <;> simp [disconnectOps] at made
  | closes =>
      have none_claims : ∀ op ∈ closeOps, op ≠ .command (.startSend completion) := by
        simp [closeOps]
      exact none_claims _ made rfl
  | writer turn after pushed moves =>
      cases moves with
      | rejects => exact receiptCallbacks_unclaimed made
      | _ => grind
  | sender turn after pushed moves =>
      cases moves with
      | aborts => simp [disconnectOps] at made
      | _ => grind
  | run index choice op after pushed _ moves =>
      cases moves with
      | command op commands calls _ moves =>
          obtain ⟨issued, member, same⟩ := List.mem_map.mp made
          cases same
          cases moves with
          | discardQueue =>
              obtain ⟨discarded, _, same⟩ := List.mem_map.mp member
              contradiction
          | _ => grind
      | finishes | rejects => grind [receiptCallbacks_unclaimed]
      | _ => grind
  | _ => grind

omit [Inhabited Command] [BEq Key] in
theorem receiptCallbacks_hooks {error : Outcome} {target : Nat} {op : PipelineOp}
    (made : op ∈ state.receiptCallbacks target error) : op.hooks = none := by
  unfold receiptCallbacks at made
  grind [PipelineOp.hooks]

/-- A hook is called by the step that ends its command, and aborts the socket by
itself. -/
theorem Changes.hooks (changes : state.Changes config label gone after pushed) :
    (∀ op ∈ pushed, op.hooks = none) ∨
      (∃ completion, pushed = [.abortSocket completion] ∧ gone = [.abortSend completion] ∧
        state.connector.inFlight = some completion) ∨
      ∃ completion error, pushed = [.abortSend completion, .command (.publish completion)] ∧
        gone = [.command (.finish completion error)] ∧
        (state.commands.future completion).terminal = none ∧
        (state.commands.future completion).abort = true ∧
        (state.commands.future completion).recorded state.commands.clock error =
          some .deadlineExceeded := by
  cases changes with
  | called label stack entry => cases entry <;> exact .inl (by simp [disconnectOps, PipelineOp.hooks])
  | closes => exact .inl (by decide)
  | writer turn after pushed moves =>
      cases moves with
      | rejects => exact .inl fun _ => receiptCallbacks_hooks
      | _ => exact .inl (by simp [PipelineOp.hooks])
  | sender turn after pushed moves =>
      cases moves with
      | aborts => exact .inl (by decide)
      | _ => exact .inl (by simp [PipelineOp.hooks])
  | run index choice call after pushed _ moves =>
      cases moves with
      | command call commands calls _ moves =>
          refine .inl fun op made => ?_
          obtain ⟨issued, _, rfl⟩ := List.mem_map.mp made
          rfl
      | expires completion error commands moves hooked recorded =>
          cases moves with
          | finishWon _ _ undecided =>
              exact .inr (.inr ⟨completion, error, rfl, rfl, undecided, hooked, recorded⟩)
      | aborts completion flying => exact .inr (.inl ⟨completion, rfl, rfl, flying⟩)
      | finishes => exact .inl fun _ => receiptCallbacks_hooks
      | rejects =>
          refine .inl fun op made => ?_
          rcases List.mem_append.mp made with callback | last
          · exact receiptCallbacks_hooks callback
          · rw [List.mem_singleton.mp last]
            rfl
      | announces | stopsLate | stops | stopsUnstarted =>
          refine .inl fun op made => ?_
          grind [PipelineOp.hooks]
      | requests fromSender calls which =>
          rcases which with rfl | rfl <;> exact .inl (by simp [PipelineOp.hooks])
      | _ => exact .inl (by simp [PipelineOp.hooks])
  | sends => exact .inl fun op made => by grind [PipelineOp.hooks]
  | _ => exact .inl (by simp)

end PipelineState

namespace PipelineWorld

variable [BEq Key] {config : PipelineConfig Command Key Payload}
variable {world after : PipelineWorld Command Payload} {label : PipelineLabel Command}

/-- The sender's thread has no call to make while the sender is between its calls. -/
def SenderIdle (world : PipelineWorld Command Payload) : Prop :=
  betweenCalls world.state.connector.point = true → world.threads[1]? = some []

/-- Where the sender stays, or goes from a point without a frame in hand to another. -/
def SenderStays (before after : SenderPoint Payload) : Prop :=
  after = before ∨ (heldFrame before = none ∧ heldFrame after = none)

theorem SenderStays.claimed {before after : SenderPoint Payload} (stays : SenderStays before after) :
    claimedFrame after = claimedFrame before := by
  have none_claimed {point : SenderPoint Payload} (held : heldFrame point = none) :
      claimedFrame point = none := by
    cases point with
    | sending | awaiting => contradiction
    | _ => rfl
  rcases stays with rfl | ⟨first, last⟩
  · rfl
  · rw [none_claimed first, none_claimed last]

theorem SenderStays.written {before after : SenderPoint Payload} (stays : SenderStays before after) :
    writtenFrame after = writtenFrame before := by
  have none_written {point : SenderPoint Payload} (held : heldFrame point = none) :
      writtenFrame point = none := by
    cases point with
    | awaiting => contradiction
    | _ => rfl
  rcases stays with rfl | ⟨first, last⟩
  · rfl
  · rw [none_written first, none_written last]

theorem SenderStays.held {before after : SenderPoint Payload} (stays : SenderStays before after) :
    heldFrame after = heldFrame before := by
  rcases stays with rfl | ⟨first, last⟩
  · rfl
  · rw [first, last]

/-- What a step of another thread leaves of the sender's work. -/
structure Beside (world after : PipelineWorld Command Payload) : Prop where
  passed : after.state.passed = world.state.passed
  inFlight : after.state.connector.inFlight = world.state.connector.inFlight
  stays : SenderStays world.state.connector.point after.state.connector.point
  idle : after.SenderIdle

theorem step_sender {turn : Turn} (stepped : world.step config (.sender turn) = some after) :
    ∃ pushed, world.threads[1]? = some [] ∧ world.state.SenderMoves after.state pushed ∧
      after.threads = resume world.threads 1 pushed := by
  obtain ⟨state, pushed, idle, moved, rfl⟩ := work_steps stepped
  exact ⟨pushed, idle, PipelineState.senderStep_moves moved, rfl⟩

omit [BEq Key] in
theorem resume_other {threads : List (List PipelineOp)} {index : Nat} {stack next : List PipelineOp}
    (found : threads[index]? = some stack) (other : index ≠ 1) :
    (resume threads index next)[1]? = threads[1]? := by
  rw [resume, getElem?_set_found found, if_neg (Ne.symm other)]

theorem changes_beside {state : PipelineState Command Payload} {gone pushed : List PipelineOp}
    (changes : world.state.Changes config label gone state pushed)
    (other : ∀ turn, label ≠ .sender turn) (spared : ∀ index, label ≠ .run index .raises) :
    state.passed = world.state.passed ∧
      state.connector.inFlight = world.state.connector.inFlight ∧
      (state.connector.point = world.state.connector.point ∨
        world.state.connector.point = .created ∧ state.connector.point = .waiting) := by
  cases changes with
  | startsSender unstarted =>
      refine ⟨rfl, rfl, .inr ⟨?_, rfl⟩⟩
      unfold WebSocketClientConnector.started at unstarted
      split at unstarted
      · assumption
      · contradiction
  | writer turn after pushed moves =>
      obtain ⟨passed, _, connector⟩ := moves.beside
      exact ⟨passed, by rw [connector], .inl (by rw [connector])⟩
  | sender turn => exact absurd rfl (other turn)
  | run index choice op after pushed _ moves =>
      exact ⟨moves.beside.1, moves.inFlight, .inl moves.beside.2.2⟩
  | raises index => exact absurd rfl (spared index)
  | _ => exact ⟨rfl, rfl, .inl rfl⟩

omit [Inhabited Command] in
/-- A sender that an exception ends had no frame in hand. -/
theorem unwound_beside {index : Nat} {op : PipelineOp} {rest : List PipelineOp}
    (idle : world.SenderIdle) (found : world.threads[index]? = some (op :: rest)) :
    world.Beside ⟨world.unwound index, resume world.threads index []⟩ := by
  by_cases own : index = 1
  · subst own
    have calling : betweenCalls world.state.connector.point = false := by
      by_contra between
      rw [Bool.not_eq_false] at between
      have none_left := idle between
      rw [found] at none_left
      simp at none_left
    refine ⟨rfl, rfl, .inr ⟨?_, rfl⟩, nofun⟩
    cases point : world.state.connector.point with
    | guarding | beginning | sending | awaiting =>
        rw [point] at calling
        contradiction
    | _ => rfl
  · have same : (world.unwound index).connector = world.state.connector ∧
        (world.unwound index).passed = world.state.passed := by
      unfold unwound
      rw [if_neg own]
      split <;> exact ⟨rfl, rfl⟩
    refine ⟨same.2, by rw [same.1], .inl (by rw [same.1]), fun between => ?_⟩
    exact (resume_other found own).trans (idle (same.1 ▸ between))

theorem step_beside (idle : world.SenderIdle) (stepped : world.step config label = some after)
    (other : ∀ turn, label ≠ .sender turn) : world.Beside after := by
  by_cases raising : ∃ index, label = .run index .raises
  · obtain ⟨index, rfl⟩ := raising
    obtain ⟨completion, rest, found, rfl⟩ := run_raises stepped
    exact unwound_beside idle found
  have spared (index : Nat) (same : label = .run index .raises) : False := raising ⟨index, same⟩
  have quiet {state : PipelineState Command Payload} {threads : List (List PipelineOp)}
      {gone pushed : List PipelineOp} (changes : world.state.Changes config label gone state pushed)
      (kept : world.threads[1]? = some [] → threads[1]? = some []) :
      world.Beside ⟨state, threads⟩ := by
    obtain ⟨passed, inFlight, point⟩ := changes_beside changes other spared
    rcases point with same | ⟨created, waiting⟩
    · exact ⟨passed, inFlight, .inl same, fun between => kept (idle (same ▸ between))⟩
    · refine ⟨passed, inFlight, .inr ⟨by rw [created]; rfl, by rw [waiting]; rfl⟩, fun _ => ?_⟩
      exact kept (idle (by rw [created]; rfl))
  cases step_steps stepped with
  | plain _ state changes => exact quiet changes id
  | spawns _ state stack changes =>
      refine quiet changes fun empty => ?_
      exact (List.getElem?_append_left (List.getElem?_eq_some_iff.mp empty).1).trans empty
  | writer turn state pushed free moves =>
      exact quiet (.writer turn state pushed moves)
        fun empty => (resume_other free (by decide)).trans empty
  | sender turn => exact absurd rfl (other turn)
  | run index choice op rest state pushed returns found moves =>
      refine quiet (.run index choice op state pushed returns moves) fun empty => ?_
      refine (resume_other found ?_).trans empty
      rintro rfl
      rw [found] at empty
      simp at empty
  | raises index => exact absurd rfl (spared index)

theorem SenderIdle.step (idle : world.SenderIdle) (stepped : world.step config label = some after) :
    after.SenderIdle := by
  by_cases sends : ∃ turn, label = .sender turn
  · obtain ⟨turn, rfl⟩ := sends
    obtain ⟨pushed, free, moves, threads⟩ := step_sender stepped
    intro between
    rw [threads, moves.between_calls between]
    exact (getElem?_set_found free 1).trans (if_pos rfl)
  · exact (step_beside idle stepped fun turn same => sends ⟨turn, same⟩).idle

variable {allowed : PipelineWorld Command Payload → PipelineLabel Command → Prop}

theorem reachable_senderIdle (reachable : (pipelineSystem config).ReachableBy allowed world) :
    world.SenderIdle := by
  refine System.ReachableBy.invariant reachable ?_ ?_
  · rintro first rfl
    exact fun _ => rfl
  · exact fun before label after _ idle stepped => idle.step stepped

end PipelineWorld

/-- The hook of a command is called for the frame in flight at most. -/
structure PipelineState.Hooked (state : PipelineState Command Payload) (running : PipelineOp → Prop) :
    Prop where
  held : ∀ completion, heldFrame state.connector.point = some completion →
    state.connector.inFlight = some completion
  begun : ∀ completion, (state.commands.future completion).abort = true →
    completion ∈ state.passed.map (·.completion) ∨
      claimedFrame state.connector.point = some completion
  unclaimed : ∀ completion, ¬ running (.command (.startSend completion))

namespace PipelineWorld

variable [BEq Key] {config : PipelineConfig Command Key Payload}
variable {world after : PipelineWorld Command Payload} {label : PipelineLabel Command}

/-- What is known of a world before any of its steps. -/
structure Known (config : PipelineConfig Command Key Payload)
    (world : PipelineWorld Command Payload) : Prop where
  sound : world.state.commands.Sound config.outbound
  lined : world.state.Lined config
  truthful : world.state.Truthful (Running world.threads)
  idle : world.SenderIdle

theorem passed_stays (known : world.Known config) (stepped : world.step config label = some after)
    {completion : Nat} (passed : completion ∈ world.state.passed.map (·.completion)) :
    completion ∈ after.state.passed.map (·.completion) := by
  by_cases sends : ∃ turn, label = .sender turn
  · obtain ⟨turn, rfl⟩ := sends
    obtain ⟨_, _, moves, _⟩ := step_sender stepped
    obtain ⟨frame, member, own⟩ := List.mem_map.mp passed
    exact List.mem_map.mpr ⟨frame, moves.passed member, own⟩
  · rw [(step_beside known.idle stepped fun turn same => sends ⟨turn, same⟩).passed]
    exact passed

theorem step_hooked (hooked : world.state.Hooked (Running world.threads))
    (known : world.Known config) (stepped : world.step config label = some after) :
    after.state.Hooked (Running after.threads) := by
  obtain ⟨gone, pushed, changes, called, shifts⟩ := (step_steps stepped).changes
  have beside (other : ¬ ∃ turn, label = .sender turn) : world.Beside after :=
    step_beside known.idle stepped fun turn same => other ⟨turn, same⟩
  constructor
  · intro completion held
    by_cases sends : ∃ turn, label = .sender turn
    · obtain ⟨turn, rfl⟩ := sends
      obtain ⟨_, _, moves, _⟩ := step_sender stepped
      exact moves.held hooked.held held
    · rw [(beside sends).inFlight]
      exact hooked.held completion ((beside sends).stays.held ▸ held)
  · intro completion abort
    have unclaimed : .command (.startSend completion) ∉ gone :=
      fun member => hooked.unclaimed completion (called _ member)
    rcases changes.abort known.sound unclaimed abort with before | claimed
    · rcases hooked.begun completion before with passed | claimed
      · exact .inl (passed_stays known stepped passed)
      · by_cases sends : ∃ turn, label = .sender turn
        · obtain ⟨turn, rfl⟩ := sends
          obtain ⟨_, _, moves, _⟩ := step_sender stepped
          rcases moves.leaves claimed with still | ⟨frame, awaiting, rfl⟩
          · exact .inr still
          · refine .inl (passed_stays known stepped (List.mem_map_of_mem ?_))
            exact known.truthful.awaiting frame awaiting
        · exact .inr ((beside sends).stays.claimed ▸ claimed)
    · exact .inr claimed
  · intro completion running
    rcases shifts.came _ running with before | made
    · exact hooked.unclaimed completion before
    · exact changes.unclaimed made

variable {allowed : PipelineWorld Command Payload → PipelineLabel Command → Prop}

theorem reachable_known (reachable : (pipelineSystem config).ReachableBy allowed world) :
    world.Known config :=
  ⟨reachable_sound reachable, reachable_lined reachable, reachable_truthful reachable,
    reachable_senderIdle reachable⟩

theorem reachable_hooked (reachable : (pipelineSystem config).ReachableBy allowed world) :
    world.state.Hooked (Running world.threads) := by
  refine System.ReachableBy.invariant_along
    (motive := fun world => world.state.Hooked (Running world.threads)) reachable (Known config)
    (fun _ => reachable_known) ?_ ?_
  · rintro first rfl
    exact ⟨nofun, fun completion abort => by simp [CommandState.future] at abort,
      fun completion => not_running_idle (by simp)⟩
  · exact fun before label after _ known hooked stepped => step_hooked hooked known stepped

/-- What a step does, with the call that it runs. -/
theorem step_calls (stepped : world.step config label = some after) : ∃ gone pushed,
    world.state.Changes config label gone after.state pushed ∧
      (∀ op ∈ gone, Running world.threads op) ∧
      Shifts gone pushed (Running world.threads) (Running after.threads) ∧
      ∀ op, gone = [op] → ∃ index choice, label = .run index choice ∧
        world.nextCall index = some op := by
  cases step_steps stepped with
  | plain _ state changes => exact ⟨[], [], changes, nofun, .refl _, nofun⟩
  | spawns _ state stack changes =>
      exact ⟨[], stack, changes, nofun, shifts_append _ stack, nofun⟩
  | writer turn state pushed idle moves =>
      exact ⟨[], pushed, .writer turn state pushed moves, nofun, shifts_work idle, nofun⟩
  | sender turn state pushed idle moves =>
      exact ⟨[], pushed, .sender turn state pushed moves, nofun, shifts_work idle, nofun⟩
  | run index choice call rest state pushed returns found moves =>
      refine ⟨[call], pushed, .run index choice call state pushed returns moves, ?_,
        shifts_resume found, ?_⟩
      · intro op member
        rw [List.mem_singleton.mp member]
        exact .of_thread found List.mem_cons_self
      · rintro op same
        cases same
        exact ⟨index, choice, rfl, by simp [nextCall, found]⟩
  | raises index completion rest found =>
      refine ⟨_, [], .raises index _ _ (unwound_cases index),
        fun op member => .of_thread found member, shifts_unwind found, ?_⟩
      rintro op same
      cases same
      exact ⟨index, .raises, rfl, by simp [nextCall, found]⟩

/-- A frame that the sender holds was not passed to `send`. -/
theorem Known.fresh (known : world.Known config) {frame : OutboundFrame Payload}
    (point : world.state.connector.point = .holding frame) :
    frame.completion ∉ world.state.passed.map (·.completion) := by
  have completions : (world.state.handed config).map (·.completion) =
      world.state.commands.handedOut.map (·.completion) := by
    rw [PipelineState.handed, List.map_map]
    rfl
  have apart : ((world.state.line config).map (·.completion)).Nodup := by
    refine List.Nodup.sublist (known.lined.map _) ?_
    rw [completions]
    exact known.sound.handedOut_nodup
  rw [PipelineState.line, List.map_append, List.nodup_append] at apart
  intro passed
  refine apart.2.2 _ passed frame.completion ?_ rfl
  simp [point, senderHand]

end PipelineWorld

/-- What the hook of a command still finds when it looks for the frame in flight. -/
structure PipelineState.HooksInWrite (state : PipelineState Command Payload)
    (running : PipelineOp → Prop) : Prop where
  decided : ∀ completion, running (.abortSend completion) →
    writtenFrame state.connector.point = some completion ∨
      (completion ∈ state.passed.map (·.completion) ∧ state.connector.inFlight ≠ some completion)
  taken : ∀ completion, running (.abortSocket completion) →
    writtenFrame state.connector.point = some completion

namespace PipelineWorld

variable [BEq Key] {config : PipelineConfig Command Key Payload}
variable {world after : PipelineWorld Command Payload} {label : PipelineLabel Command}

/-- In a timely step the sender stays in a send whose deadline is being acted on. -/
theorem written_stays (known : world.Known config) (timely : world.timely label = true)
    (stepped : world.step config label = some after) {op : PipelineOp} {completion : Nat}
    (running : Running world.threads op) (hooks : op.hooks = some completion)
    (written : writtenFrame world.state.connector.point = some completion) :
    writtenFrame after.state.connector.point = some completion := by
  by_cases sends : ∃ turn, label = .sender turn
  · obtain ⟨turn, rfl⟩ := sends
    obtain ⟨stack, member, within⟩ := running
    simp only [PipelineWorld.timely, written, Option.all_some, List.all_eq_true, decide_eq_true_eq] at timely
    exact absurd hooks (timely stack member op within)
  · rw [(step_beside known.idle stepped fun turn same => sends ⟨turn, same⟩).stays.written]
    exact written

/-- A frame that was passed on is not put in flight again. -/
theorem passed_unheld (known : world.Known config) (stepped : world.step config label = some after)
    {completion : Nat} (passed : completion ∈ world.state.passed.map (·.completion))
    (absent : world.state.connector.inFlight ≠ some completion) :
    after.state.connector.inFlight ≠ some completion := by
  by_cases sends : ∃ turn, label = .sender turn
  · obtain ⟨turn, rfl⟩ := sends
    obtain ⟨_, _, moves, _⟩ := step_sender stepped
    rcases moves.inFlight with same | cleared | ⟨frame, point, taken⟩
    · rwa [same]
    · rw [cleared]
      simp
    · rw [taken]
      intro same
      cases same
      exact known.fresh point passed
  · rwa [(step_beside known.idle stepped fun turn same => sends ⟨turn, same⟩).inFlight]

theorem step_hooksInWrite (hooks : world.state.HooksInWrite (Running world.threads))
    (known : world.Known config) (hooked : world.state.Hooked (Running world.threads))
    (timely : world.timely label = true) (stepped : world.step config label = some after) :
    after.state.HooksInWrite (Running after.threads) := by
  obtain ⟨gone, pushed, changes, called, shifts, calls⟩ := step_calls stepped
  have stays {op : PipelineOp} {completion : Nat} (running : Running world.threads op)
      (same : op.hooks = some completion) :=
    written_stays known timely stepped running same
  have beside {op : PipelineOp} (ran : gone = [op]) : world.Beside after := by
    obtain ⟨index, choice, rfl, _⟩ := calls op ran
    exact step_beside known.idle stepped nofun
  constructor
  · intro completion running
    rcases shifts.came _ running with before | made
    · rcases hooks.decided completion before with written | ⟨passed, absent⟩
      · exact .inl (stays before rfl written)
      · exact .inr ⟨passed_stays known stepped passed, passed_unheld known stepped passed absent⟩
    · rcases changes.hooks with none_hook | ⟨_, rfl, _⟩ | ⟨target, error, rfl, ran, undecided, abort, recorded⟩
      · exact absurd (none_hook _ made) nofun
      · simp at made
      · obtain rfl : completion = target := by simpa using made
        obtain ⟨index, choice, rfl, next⟩ := calls _ ran
        by_cases written : writtenFrame world.state.connector.point = some completion
        · exact .inl ((beside ran).stays.written ▸ written)
        have absent : world.state.connector.inFlight ≠ some completion := by
          intro flying
          simp [PipelineWorld.timely, next, PipelineState.overdue, undecided, abort, recorded, flying,
            written] at timely
        rcases hooked.begun completion abort with passed | claimed
        · exact .inr ⟨passed_stays known stepped passed, (beside ran).inFlight ▸ absent⟩
        · exact absurd (hooked.held completion (PipelineState.claimed_held claimed)) absent
  · intro completion running
    rcases shifts.came _ running with before | made
    · exact stays before rfl (hooks.taken completion before)
    · rcases changes.hooks with none_hook | ⟨target, rfl, ran, flying⟩ | ⟨_, _, rfl, _⟩
      · exact absurd (none_hook _ made) nofun
      · obtain rfl : completion = target := by simpa using made
        have before : Running world.threads (.abortSend completion) := called _ (by simp [ran])
        rcases hooks.decided completion before with written | ⟨_, absent⟩
        · exact (beside ran).stays.written ▸ written
        · exact absurd flying absent
      · simp at made

omit [Inhabited Command] in
theorem HooksInWrite.aborts {completion : Nat}
    (hooks : world.state.HooksInWrite (Running world.threads))
    (aborting : world.aborting label = some completion) :
    writtenFrame world.state.connector.point = some completion := by
  cases label with
  | run index choice =>
      obtain ⟨op, next, aborted⟩ := Option.bind_eq_some_iff.mp aborting
      obtain ⟨stack, found, first⟩ := Option.bind_eq_some_iff.mp next
      have running : Running world.threads op := .of_thread found (List.mem_of_head? first)
      cases op with
      | abortSend target =>
          simp only [PipelineState.aborted] at aborted
          split at aborted
          · next flying =>
            cases aborted
            exact (hooks.decided completion running).resolve_right fun absent => absent.2 flying
          · contradiction
      | abortSocket target =>
          cases aborted
          exact hooks.taken completion running
      | _ => contradiction
  | _ => contradiction

/-- Where all steps are timely, deadlines give the connection up only inside the send
of their own frame. -/
theorem reachable_hooksInWrite
    (reachable : (pipelineSystem config).ReachableBy
      (fun world label => world.timely label = true) world) :
    world.state.HooksInWrite (Running world.threads) := by
  refine System.ReachableBy.invariant_along
    (motive := fun world => world.state.HooksInWrite (Running world.threads)) reachable
    (fun world => world.Known config ∧ world.state.Hooked (Running world.threads))
    (fun _ reached => ⟨reachable_known reached, reachable_hooked reached⟩) ?_ ?_
  · rintro first rfl
    exact ⟨fun _ running => absurd running (not_running_idle (by simp)),
      fun _ running => absurd running (not_running_idle (by simp))⟩
  · intro before label after timely known hooks stepped
    exact step_hooksInWrite hooks known.1 known.2 timely stepped

/-- The calls of a hook are the next of their thread. -/
theorem reachable_hooksFirst {allowed : PipelineWorld Command Payload → PipelineLabel Command → Prop}
    (reachable : (pipelineSystem config).ReachableBy allowed world) :
    Behind world.threads fun op => op.hooks = none := by
  refine System.ReachableBy.invariant
    (motive := fun world => Behind world.threads fun op => op.hooks = none) reachable ?_ ?_
  · rintro first rfl
    simp [Behind]
  · intro before label after _ first stepped
    refine (step_steps stepped).behind first fun gone pushed changes => ?_
    rcases changes.hooks with none_hook | ⟨_, rfl, _⟩ | ⟨_, _, rfl, _⟩
    · exact fun op member => none_hook op (List.mem_of_mem_tail member)
    · nofun
    · intro op member
      rw [List.mem_singleton.mp member]
      rfl

/-- A hook that is called outside the send of its frame gives the connection up. -/
theorem hook_violates {index completion : Nat} {op : PipelineOp} {rest : List PipelineOp}
    (found : world.threads[index]? = some (op :: rest))
    (aborted : world.state.aborted op = some completion)
    (unwritten : writtenFrame world.state.connector.point ≠ some completion) :
    ¬ world.AbortsInWrite config := by
  intro claimed
  have enabled : ∃ after, world.step config (.run index .proceed) = some after := by
    simp only [step, run, found]
    cases op with
    | abortSend target =>
        simp only [PipelineState.advance]
        split <;> exact ⟨_, rfl⟩
    | abortSocket target => exact ⟨_, rfl⟩
    | _ => contradiction
  obtain ⟨after, stepped⟩ := enabled
  refine unwritten (claimed _ after completion stepped ?_)
  simp [aborting, nextCall, found, aborted]

/-- The call that ends an overdue command goes on to its hook. -/
theorem overdue_hooks {index : Nat} {choice : Choice} {op : PipelineOp} {rest : List PipelineOp}
    (found : world.threads[index]? = some (op :: rest)) (overdue : world.state.overdue op = true)
    (stepped : world.step config (.run index choice) = some after) : ¬ after.AbortsInWrite config := by
  cases op with
  | command call =>
      cases call with
      | finish completion error =>
          simp only [PipelineState.overdue, Bool.and_eq_true, Option.isNone_iff_eq_none,
            decide_eq_true_eq] at overdue
          obtain ⟨⟨⟨⟨undecided, abort⟩, recorded⟩, flying⟩, unwritten⟩ := overdue
          have advanced : ∃ commands, world.state.advance choice (.command (.finish completion error)) =
              some ({ world.state with commands },
                [.abortSend completion, .command (.publish completion)]) := by
            simp [PipelineState.advance, CommandFuture.finish, undecided, abort, recorded]
          obtain ⟨commands, advanced⟩ := advanced
          have ran : after = ⟨{ world.state with commands }, resume world.threads index
              (.abortSend completion :: .command (.publish completion) :: rest)⟩ := by
            simp only [step, run, found] at stepped
            cases choice with
            | raises => contradiction
            | _ =>
                simp only [advanced, Option.map_some, Option.some.injEq] at stepped
                exact stepped.symm
          subst ran
          refine hook_violates ((getElem?_set_found found index).trans (if_pos rfl)) ?_ unwritten
          exact if_pos flying
      | _ => contradiction
  | _ => contradiction

theorem returns_violates {turn : Turn} (reachable : (pipelineSystem config).Reachable world)
    (untimely : world.timely (.sender turn) = false)
    (stepped : world.step config (.sender turn) = some after) : ¬ after.AbortsInWrite config := by
  have first := reachable_hooksFirst reachable
  have hooked := reachable_hooked reachable
  obtain ⟨pushed, free, moves, threads⟩ := step_sender stepped
  cases written : writtenFrame world.state.connector.point with
  | none => simp [timely, written] at untimely
  | some completion =>
      simp only [timely, written, Option.all_some, List.all_eq_false, List.all_eq_true,
        decide_eq_true_eq, not_forall, not_not, exists_prop] at untimely
      obtain ⟨stack, member, op, within, hooks⟩ := untimely
      obtain ⟨index, found⟩ := List.getElem?_of_mem member
      have other : index ≠ 1 := by
        rintro rfl
        rw [free] at found
        cases found
        contradiction
      cases stack with
      | nil => contradiction
      | cons head rest =>
          have own : op = head := by
            rcases List.mem_cons.mp within with same | late
            · exact same
            · rw [first _ member op late] at hooks
              contradiction
          subst own
          have flying : world.state.connector.inFlight = some completion := by
            refine hooked.held completion ?_
            cases point : world.state.connector.point with
            | awaiting => rwa [point] at written
            | _ => simp [point, writtenFrame] at written
          obtain ⟨kept, ended⟩ := moves.ends_write written
          have still : after.threads[index]? = some (op :: rest) := by
            rw [threads, resume, getElem?_set_found free, if_neg other]
            exact found
          have unwritten : writtenFrame after.state.connector.point ≠ some completion := by simp [ended]
          refine hook_violates still ?_ unwritten
          cases op with
          | abortSend target =>
              cases hooks
              exact if_pos (kept.trans flying)
          | abortSocket target => exact hooks
          | _ => contradiction

/-- Deadlines give the connection up only inside the send of their own frame in the
runs whose steps are all timely; a step that is not timely leads to one that gives it
up elsewhere. -/
theorem deadline_aborts_write (config : PipelineConfig Command Key Payload) :
    (∀ world, (pipelineSystem config).ReachableBy (fun world label => world.timely label = true) world →
      world.AbortsInWrite config) ∧
    ∀ world label after, (pipelineSystem config).Reachable world →
      world.step config label = some after → world.timely label = false →
        ¬ after.AbortsInWrite config := by
  refine ⟨fun world reachable label after completion _ aborting => ?_, ?_⟩
  · exact HooksInWrite.aborts (reachable_hooksInWrite reachable) aborting
  · intro world label after reachable stepped untimely
    cases label with
    | run index choice =>
        cases next : world.nextCall index with
        | none => simp [timely, next] at untimely
        | some op =>
            simp only [timely, next, Option.any_some, Bool.not_eq_false'] at untimely
            obtain ⟨stack, found, head⟩ := Option.bind_eq_some_iff.mp next
            obtain ⟨rest, rfl⟩ := List.head?_eq_some_iff.mp head
            exact overdue_hooks found untimely stepped
    | sender turn => exact returns_violates reachable untimely stepped
    | _ => simp [timely] at untimely

end PipelineWorld

open PipelineWorld

/-- The sender is inside the `send` of a command with a deadline. -/
def writingLabels : List (PipelineLabel (Nat × Nat)) :=
  ([.startWriter, .startSender, .opened, .sendAsync (1, 3) (some 1) true] : List (PipelineLabel (Nat × Nat))) ++ writes 11 ++ sends 6

/-- The watcher has ended the command. -/
def interruptedWorld : PipelineWorld (Nat × Nat) (Nat × Nat) :=
  (((pipelineSystem pairPipeline).restrict timely).exec {} (writingLabels ++ [.tick] ++ runs 2 2)).get
    (by decide +kernel)

theorem interruptedWorld_reachable : (pipelineSystem pairPipeline).ReachableBy
    (fun world label => world.timely label = true) interruptedWorld := by
  have reachable : ((pipelineSystem pairPipeline).restrict timely).Reachable interruptedWorld :=
    System.Reachable.exec (.initial rfl) (Option.some_get _).symm
  exact reachable.restricted

/-- The `send` has returned, and the deadline passes before the command ends. -/
def lateWorld : PipelineWorld (Nat × Nat) (Nat × Nat) :=
  ((pipelineSystem pairPipeline).exec {} (writingLabels ++ sends 2 ++ ([.tick] : List (PipelineLabel (Nat × Nat))) ++ runs 1 2)).get
    (by decide +kernel)

theorem lateWorld_reachable : (pipelineSystem pairPipeline).Reachable lateWorld :=
  System.Reachable.exec (.initial rfl) (Option.some_get _).symm

/-- The sender ends the command of the frame that it has sent. -/
def endedWorld : PipelineWorld (Nat × Nat) (Nat × Nat) :=
  ((pipelineSystem pairPipeline).step lateWorld (.run 1 .proceed)).get (by decide +kernel)

theorem deadline_aborts_write_run :
    (interruptedWorld.AbortsInWrite pairPipeline ∧
      interruptedWorld.aborting (.run 2 .proceed) = some 0) ∧
      ¬ endedWorld.AbortsInWrite pairPipeline :=
  ⟨⟨(deadline_aborts_write pairPipeline).1 interruptedWorld interruptedWorld_reachable,
      by decide +kernel⟩,
    (deadline_aborts_write pairPipeline).2 lateWorld (.run 1 .proceed) endedWorld
      lateWorld_reachable (Option.some_get _).symm (by decide +kernel)⟩

/-- A frame whose `send` returned normally has the connection given up. -/
theorem abort_after_write_happens :
    ¬ ∀ world, (pipelineSystem pairPipeline).Reachable world → world.AbortsInWrite pairPipeline := by
  intro claimed
  have reachable : (pipelineSystem pairPipeline).Reachable endedWorld :=
    lateWorld_reachable.next (.run 1 .proceed) (Option.some_get _).symm
  have enabled : (endedWorld.step pairPipeline (.run 1 .proceed)).isSome = true := by decide +kernel
  obtain ⟨after, stepped⟩ := Option.isSome_iff_exists.mp enabled
  have returned : endedWorld.state.returned = [0] ∧
      writtenFrame endedWorld.state.connector.point = none := by decide +kernel
  have written := claimed endedWorld reachable (.run 1 .proceed) after 0 stepped (by decide +kernel)
  rw [returned.2] at written
  contradiction

end StreamDockSdk.Boundary
