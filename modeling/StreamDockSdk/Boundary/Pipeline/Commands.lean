import StreamDockSdk.Boundary.Pipeline.Steps
import StreamDockSdk.Messaging.Outbound.Turns

namespace StreamDockSdk.Boundary

open Automaton Messaging Transport

variable {Command Key Payload : Type} [Inhabited Command]
variable {config : PipelineConfig Command Key Payload}

namespace PipelineState

variable {state after : PipelineState Command Payload} {label : PipelineLabel Command}
variable {gone pushed : List PipelineOp}

theorem SenderMoves.commands (moves : state.SenderMoves after pushed) :
    after.commands = state.commands ∨ ∃ completion,
      state.commands.Moves (.startSend completion) after.commands [] := by
  cases moves with
  | starts frame future _ started =>
      obtain ⟨undecided, _, rfl⟩ := CommandFuture.startSend_started started
      exact .inr ⟨frame.completion, .sendStarted frame.completion undecided⟩
  | _ => exact .inl rfl

theorem WriterMoves.commands (moves : state.WriterMoves config after pushed) :
    after.commands = state.commands ∨ ∃ submission,
      state.commands.receive = some (after.commands, submission) := by
  cases moves with
  | receives commands submission _ received => exact .inr ⟨submission, received⟩
  | _ => exact .inl rfl

theorem OpMoves.commands {choice : Choice} {op : PipelineOp}
    (moves : state.OpMoves choice op after pushed) : after.commands = state.commands ∨
      ∃ call calls, op = .command call ∧ state.commands.Moves call after.commands calls := by
  cases moves with
  | command call commands calls _ moves => exact .inr ⟨call, calls, rfl, moves⟩
  | expires completion error commands moves => exact .inr ⟨_, _, rfl, moves⟩
  | announces completion => exact .inr ⟨_, _, rfl, .commandFinished completion⟩
  | _ => exact .inl rfl

variable [BEq Key]

/-- The calls on completions whose first region a step may run. -/
def Calls (gone : List PipelineOp) (op : CommandOp) : Prop :=
  .command op ∈ gone ∨ ∃ completion, op = .startSend completion

theorem Changes.turns (changes : state.Changes config label gone after pushed) :
    state.commands.Turns config.outbound (Calls gone) after.commands := by
  have kept {next : CommandState Command} (same : next = state.commands) :
      state.commands.Turns config.outbound (Calls gone) next := same ▸ .keeps
  cases changes with
  | ticks => exact .ticks
  | sends command deadline starts thread sent sends =>
      exact .sends command deadline thread sent sends
  | called | closes | startsWriter | startsSender | opens | opensLate => exact .keeps
  | writer turn after pushed moves =>
      rcases moves.commands with same | ⟨submission, received⟩
      · exact kept same
      · exact .receives _ submission received
  | sender turn after pushed moves =>
      rcases moves.commands with same | ⟨completion, started⟩
      · exact kept same
      · exact .moves _ _ _ (.inr ⟨completion, rfl⟩) started
  | run index choice op after pushed _ moves =>
      rcases moves.commands with same | ⟨call, calls, rfl, moved⟩
      · exact kept same
      · exact .moves call _ calls (.inl (List.mem_singleton.mpr rfl)) moved
  | raises index gone after same =>
      rcases same with rfl | rfl | rfl <;> exact .keeps

end PipelineState

namespace PipelineWorld

variable [BEq Key] {world : PipelineWorld Command Payload}
variable {allowed : PipelineWorld Command Payload → PipelineLabel Command → Prop}

theorem reachable_sound (reachable : (pipelineSystem config).ReachableBy allowed world) :
    world.state.commands.Sound config.outbound := by
  refine reachableBy_invariant (motive := fun state _ => state.commands.Sound config.outbound)
    reachable (fun _ => True) (fun _ _ => trivial) ?_ ?_
  · intro running _
    refine ⟨?_, ?_, ⟨rfl, by simp, by simp, by simp, by simp⟩⟩
    · exact ⟨by simp, by simp, by simp, by simp, by simp, rfl, Nat.zero_le _, Nat.zero_le _⟩
    · exact ⟨by simp [CommandState.departed, CommandState.admitted], by simp⟩
  · intro before label gone state pushed later _ _ changes _ _ sound
    exact sound.turns changes.turns

end PipelineWorld

end StreamDockSdk.Boundary
