import StreamDockSdk.Boundary.Pipeline.Counters
import StreamDockSdk.Boundary.Pipeline.Safety

namespace StreamDockSdk.Boundary

open Automaton Messaging Transport

variable {Command Key Payload : Type} [Inhabited Command]

/-- The completion of the command that the worker deals with. -/
def completionAt : WriterPoint Command Payload → Option Nat
  | .received submission | .beginning submission => some submission.completion
  | .failing completion | .leaving completion | .crashed completion => some completion
  | .encoded frame | .registering frame | .attaching frame | .checking frame | .timing frame
  | .expired frame | .claiming frame _ | .offering frame _ | .waiting frame _ | .offered frame
  | .refused frame | .failed frame _ => some frame.completion
  | _ => none

omit [Inhabited Command] in
theorem completionAt_unwound {point : WriterPoint Command Payload} {completion : Nat}
    (here : completionAt point.unwound = some completion) :
    completionAt point = some completion := by
  cases point <;> exact here

namespace PipelineState

variable {config : PipelineConfig Command Key Payload}
variable {state after : PipelineState Command Payload} {gone pushed : List PipelineOp}
variable {completion : Nat} {completions : List Nat}

theorem WriterPasses.completionAt {point next : WriterPoint Command Payload}
    (passes : state.WriterPasses config point next)
    (here : completionAt next = some completion) : completionAt point = some completion := by
  cases passes <;> exact here

theorem WriterMoves.completionAt (moves : state.WriterMoves config after pushed)
    (here : completionAt after.writer.point = some completion) :
    completionAt state.writer.point = some completion ∨
      ∃ commands submission, state.commands.receive = some (commands, submission) ∧
        after.commands = commands ∧ submission.completion = completion := by
  cases moves with
  | passes next passes => exact .inl (passes.completionAt here)
  | receives commands submission _ received =>
      exact .inr ⟨commands, submission, received, rfl, Option.some.inj here⟩
  | polls =>
      dsimp only at here
      split at here <;> contradiction
  | begins submission point | registers frame point | attachesLate frame point
  | attaches frame point | expires frame deadline point | terminates frame outcome point
  | claims frame timeout receipt point | discards frame error point | keeps frame point
  | watches frame point | refuses frame point | reports frame error point
  | fails target point =>
      rw [point]
      exact .inl here
  | rejects frame limit raw error receipt submits | rejectsLate frame limit raw error submits
  | cancels frame limit raw submits | waits frame limit raw submits
  | offers frame limit raw submits =>
      generalize state.writer.point = current at submits
      cases submits <;> exact .inl here
  | _ => contradiction

theorem WriterMoves.pending_known (moves : state.WriterMoves config after pushed)
    (member : completion ∈ after.writer.pending) : completion ∈ state.writer.pending ∨
      Boundary.completionAt state.writer.point = some completion := by
  cases moves with
  | registers frame point =>
      rcases List.mem_append.mp member with before | new
      · exact .inl before
      · rw [point, List.mem_singleton.mp new]
        exact .inr rfl
  | _ => exact .inl member

theorem OpMoves.pending_subset {choice : Choice} {op : PipelineOp}
    (moves : state.OpMoves choice op after pushed) (member : completion ∈ after.writer.pending) :
    completion ∈ state.writer.pending := by
  cases moves with
  | completes | failsPending => exact List.mem_of_mem_filter member
  | _ => exact member

theorem WriterMoves.failing (moves : state.WriterMoves config after pushed)
    (made : .failPending completions ∈ pushed) : completions = state.writer.pending := by
  cases moves with
  | rejects => grind [receiptCallbacks]
  | _ => grind

theorem OpMoves.failing {choice : Choice} {op : PipelineOp}
    (moves : state.OpMoves choice op after pushed) (made : .failPending completions ∈ pushed) :
    completions = state.writer.pending ∨ ∃ completion, op = .failPending (completion :: completions) := by
  cases moves with
  | finishes | rejects => grind [receiptCallbacks]
  | failsPending target rest =>
      have same : completions = rest := by simpa using made
      exact .inr ⟨target, by rw [same]⟩
  | _ => grind

theorem WriterMoves.finishing {error : Outcome} (moves : state.WriterMoves config after pushed)
    (made : .command (.finish completion error) ∈ pushed) :
    error ≠ none ∧ Boundary.completionAt state.writer.point = some completion := by
  cases moves with
  | rejects => grind [receiptCallbacks]
  | fails target point | crashes target point | expires target deadline point =>
      rw [point]
      cases List.mem_singleton.mp made
      exact ⟨nofun, rfl⟩
  | _ => grind

/-- Only `_complete_receipt` goes on to finish a command without an error. -/
theorem OpMoves.finishing {choice : Choice} {op : PipelineOp} {error : Outcome}
    (moves : state.OpMoves choice op after pushed)
    (made : .command (.finish completion error) ∈ pushed) :
    error ≠ none ∨ op.finishes = true := by
  cases moves with
  | command call commands calls _ moves =>
      obtain ⟨issued, member, same⟩ := List.mem_map.mp made
      cases same
      cases moves with
      | discardQueue =>
          obtain ⟨_, _, same⟩ := List.mem_map.mp member
          cases same
          exact .inl nofun
      | _ => grind
  | finishes | rejects => grind [receiptCallbacks]
  | _ => grind [PipelineOp.finishes]

theorem OpMoves.completing {choice : Choice} {op : PipelineOp} {error : Outcome}
    (moves : state.OpMoves choice op after pushed) (finishes : op.finishes = true)
    (made : .command (.finish completion error) ∈ pushed) :
    completion ∈ state.writer.pending ∨ ∃ rest, op = .failPending (completion :: rest) := by
  cases moves with
  | completes target error member =>
      cases List.mem_singleton.mp made
      exact .inl member
  | failsPending target rest =>
      have same : completion = target := by
        simp only [List.mem_cons, PipelineOp.command.injEq, CommandOp.finish.injEq] at made
        grind
      exact .inr ⟨rest, by rw [same]⟩
  | _ => contradiction

omit [Inhabited Command] in
theorem SenderMoves.finishing {error : Outcome} (moves : state.SenderMoves after pushed)
    (made : .command (.finish completion error) ∈ pushed) : error ≠ none := by
  cases moves with
  | aborts => simp [disconnectOps] at made
  | _ => grind

variable [BEq Key] {label : PipelineLabel Command} {running later : PipelineOp → Prop}

theorem Changes.finishing (changes : state.Changes config label gone after pushed)
    (made : .command (.finish completion none) ∈ pushed) : ∃ op ∈ gone, op.finishes = true := by
  cases changes with
  | called label stack entry => cases entry <;> simp [disconnectOps] at made
  | closes => simp [closeOps] at made
  | writer turn after pushed moves => exact absurd rfl (moves.finishing made).1
  | sender turn after pushed moves => exact absurd rfl (moves.finishing made)
  | run index choice op after pushed _ moves =>
      exact ⟨op, List.mem_singleton_self op, (moves.finishing made).resolve_left (by simp)⟩
  | _ => grind

theorem Changes.failing (changes : state.Changes config label gone after pushed)
    (made : .failPending completions ∈ pushed) : completions = state.writer.pending ∨
      ∃ completion, .failPending (completion :: completions) ∈ gone := by
  cases changes with
  | called label stack entry => cases entry <;> simp [disconnectOps] at made
  | closes => simp [closeOps] at made
  | writer turn after pushed moves => exact .inl (moves.failing made)
  | sender turn after pushed moves =>
      cases moves with
      | aborts => simp [disconnectOps] at made
      | _ => grind
  | run index choice op after pushed _ moves =>
      rcases moves.failing made with whole | ⟨completion, rfl⟩
      · exact .inl whole
      · exact .inr ⟨completion, List.mem_singleton_self _⟩
  | _ => grind

/-- The commands that the writer deals with exist. -/
structure Handles (state : PipelineState Command Payload) (running : PipelineOp → Prop) : Prop where
  inHand : ∀ completion, Boundary.completionAt state.writer.point = some completion →
    completion < state.commands.futures.length
  pending : ∀ completion ∈ state.writer.pending, completion < state.commands.futures.length
  failing : ∀ completions, running (.failPending completions) → ∀ completion ∈ completions,
    completion < state.commands.futures.length

theorem Handles.changes (handles : state.Handles running)
    (sound : state.commands.Sound config.outbound)
    (changes : state.Changes config label gone after pushed)
    (called : ∀ op ∈ gone, running op) (shifts : Shifts gone pushed running later) :
    after.Handles later := by
  have grown := changes.turns.length
  have kept {completion : Nat} (made : completion < state.commands.futures.length) :
      completion < after.commands.futures.length := Nat.lt_of_lt_of_le made grown
  constructor
  · intro completion here
    cases changes with
    | writer turn after pushed moves =>
        rcases moves.completionAt here with before | ⟨commands, submission, received, same, rfl⟩
        · exact kept (handles.inHand completion before)
        · have turned : state.commands.Turns config.outbound (Calls []) commands :=
            .receives commands submission received
          obtain ⟨identity, rest, _, rfl, rfl⟩ := CommandState.receive_eq_some received
          rw [same]
          exact (sound.turns turned).departed_known
            (List.mem_append_right _ (List.mem_singleton.mpr rfl))
    | run index choice op after pushed _ moves =>
        exact kept (handles.inHand completion (moves.point ▸ here))
    | sender turn after pushed moves =>
        have same : after.writer = state.writer := by cases moves <;> rfl
        exact kept (handles.inHand completion (same ▸ here))
    | raises index gone after same =>
        rcases same with rfl | rfl | rfl
        · exact kept (handles.inHand completion here)
        · exact kept (handles.inHand completion (completionAt_unwound here))
        · exact kept (handles.inHand completion here)
    | startsWriter => contradiction
    | _ => exact kept (handles.inHand completion here)
  · intro completion member
    cases changes with
    | writer turn after pushed moves =>
        rcases moves.pending_known member with before | here
        · exact kept (handles.pending completion before)
        · exact kept (handles.inHand completion here)
    | run index choice op after pushed _ moves =>
        exact kept (handles.pending completion (moves.pending_subset member))
    | sender turn after pushed moves =>
        have same : after.writer = state.writer := by cases moves <;> rfl
        exact kept (handles.pending completion (same ▸ member))
    | raises index gone after same =>
        have same : after.writer.pending = state.writer.pending := by
          rcases same with rfl | rfl | rfl <;> rfl
        exact kept (handles.pending completion (same ▸ member))
    | _ => exact kept (handles.pending completion member)
  · intro completions runs completion member
    rcases shifts.came _ runs with before | made
    · exact kept (handles.failing completions before completion member)
    · rcases changes.failing made with rfl | ⟨first, member_gone⟩
      · exact kept (handles.pending completion member)
      · exact kept (handles.failing _ (called _ member_gone) completion
          (List.mem_cons_of_mem first member))

end PipelineState

namespace PipelineWorld

variable [BEq Key] {config : PipelineConfig Command Key Payload}
variable {world : PipelineWorld Command Payload}
variable {allowed : PipelineWorld Command Payload → PipelineLabel Command → Prop}

theorem reachable_handles (reachable : (pipelineSystem config).ReachableBy allowed world) :
    world.state.Handles (Running world.threads) := by
  refine reachableBy_invariant reachable
    (fun world => world.state.commands.Sound config.outbound) (fun _ => reachable_sound) ?_ ?_
  · exact fun running idle => ⟨nofun, nofun, fun completions runs => absurd runs (idle _)⟩
  · intro before label gone state pushed later sound _ changes called shifts handles
    exact handles.changes sound changes called shifts

end PipelineWorld

namespace WriterOp

variable {own : Bool} {op : PipelineOp}

@[simp] theorem op?_made : (made own op).op? = some op := by
  unfold made
  split
  · cases own <;> rfl
  · rfl

theorem ops_made (calls : List PipelineOp) : (calls.map (made own)).filterMap op? = calls := by
  rw [List.filterMap_map]
  exact (List.filterMap_congr fun op _ => op?_made).trans List.filterMap_some

theorem ops_call (calls : List PipelineOp) : (calls.map call).filterMap op? = calls := by
  rw [List.filterMap_map]
  exact List.filterMap_some

theorem count_not_made {completion : Nat} {error : Outcome} :
    count completion error ≠ made own op := by
  unfold made
  split
  · cases own <;> nofun
  · nofun

theorem finishCompletion_made {completion : Nat} {error : Outcome}
    (same : finishCompletion completion error = made own op) :
    own = true ∧ op = .command (.finish completion error) := by
  unfold made at same
  split at same
  · cases own with
    | false => cases same
    | true =>
        cases same
        exact ⟨rfl, rfl⟩
  · cases same

end WriterOp

namespace PipelineWorld

variable [BEq Key] {config : PipelineConfig Command Key Payload}
variable {world : PipelineWorld Command Payload}

theorem step_run {index : Nat} {choice : Choice} {op : PipelineOp} {rest : List PipelineOp}
    (found : world.threads[index]? = some (op :: rest)) (returns : choice ≠ .raises) :
    world.step config (.run index choice) = (world.state.advance choice op).map
      fun (state, calls) => ⟨state, resume world.threads index (calls ++ rest)⟩ := by
  simp only [step, run, found]
  cases choice with
  | raises => exact absurd rfl returns
  | proceed | timesOut => rfl

end PipelineWorld

namespace CountedWorld

variable [BEq Key] {config : PipelineConfig Command Key Payload}
variable {world after : CountedWorld Command Payload} {label : PipelineLabel Command}

omit [Inhabited Command] in
theorem pipeline_thread {index : Nat} {stack : List WriterOp}
    (found : world.threads[index]? = some stack) :
    world.pipeline.threads[index]? = some (stack.filterMap WriterOp.op?) := by
  simp only [pipeline, List.getElem?_map, found, Option.map_some]

/-- Everything that a step can do. -/
inductive Steps (config : PipelineConfig Command Key Payload)
    (world : CountedWorld Command Payload) :
    PipelineLabel Command → CountedWorld Command Payload → Prop
  | begins (label : PipelineLabel Command) (state : PipelineState Command Payload)
      (added : List (List PipelineOp)) (stack : List PipelineOp) :
      added = [] ∧ stack = [] ∨ added = [stack] →
      world.state.Changes config label [] state stack →
      PipelineWorld.step config world.pipeline label =
        some ⟨state, world.pipeline.threads ++ added⟩ →
      Steps config world label { world with
        state, threads := world.threads ++ added.map (List.map .call) }
  | works (label : PipelineLabel Command) (index : Nat) (own : Bool)
      (state : PipelineState Command Payload) (pushed : List PipelineOp) :
      world.threads[index]? = some [] → world.state.Changes config label [] state pushed →
      (own = true → ∀ completion error, .command (.finish completion error) ∈ pushed →
        error ≠ none ∧ completionAt world.state.writer.point = some completion) →
      (own = false → ∀ completion, .command (.finish completion none) ∉ pushed) →
      PipelineWorld.step config world.pipeline label =
        some ⟨state, resume world.pipeline.threads index pushed⟩ →
      Steps config world label { world with
        state, threads := resume world.threads index (pushed.map (.made own)) }
  | runs (index : Nat) (choice : Choice) (op : PipelineOp) (rest : List WriterOp)
      (state : PipelineState Command Payload) (pushed : List PipelineOp) : choice ≠ .raises →
      world.threads[index]? = some (.call op :: rest) →
      world.state.advance choice op = some (state, pushed) →
      Steps config world (.run index choice) { world with
        state, threads := resume world.threads index (pushed.map (.made op.finishes) ++ rest) }
  | raises (index completion : Nat) (rest : List WriterOp) :
      world.threads[index]? = some (.call (.command (.observe completion)) :: rest) →
      Steps config world (.run index .raises) { world with
        state := world.pipeline.unwound index, threads := resume world.threads index [] }
  | loses (index : Nat) (choice : Choice) (completion : Nat) (error : Outcome)
      (rest : List WriterOp) : choice ≠ .raises →
      world.threads[index]? = some (.finishCompletion completion error :: rest) →
      (world.state.commands.future completion).finish world.state.commands.clock error = none →
      Steps config world (.run index choice)
        { world with threads := resume world.threads index rest }
  | wins (index : Nat) (choice : Choice) (completion : Nat) (error : Outcome)
      (rest : List WriterOp) (future : CommandFuture) (abort : Bool) : choice ≠ .raises →
      world.threads[index]? = some (.finishCompletion completion error :: rest) →
      (world.state.commands.future completion).finish world.state.commands.clock error =
        some (future, abort) →
      Steps config world (.run index choice) {
        state := { world.state with commands := world.state.commands.update completion future }
        counters := { world.counters with finishes :=
          ⟨completion, error, (world.state.commands.future completion).recorded
            world.state.commands.clock error⟩ :: world.counters.finishes }
        threads := resume world.threads index
          ((if abort then [.call (.abortSend completion)] else []) ++
            .call (.command (.publish completion)) :: .count completion error :: rest) }
  | counts (index : Nat) (choice : Choice) (completion : Nat) (error : Outcome)
      (rest : List WriterOp) : choice ≠ .raises →
      world.threads[index]? = some (.count completion error :: rest) →
      Steps config world (.run index choice) { world with
        counters := world.counters.count completion error
        threads := resume world.threads index rest }

theorem run_steps {index : Nat} {choice : Choice} (stepped : world.run index choice = some after) :
    world.Steps config (.run index choice) after := by
  unfold run at stepped
  split at stepped
  · next op rest found =>
    split at stepped
    · cases stepped
      exact .raises index _ rest found
    · contradiction
    · next returns _ =>
      obtain ⟨⟨state, pushed⟩, advanced, rfl⟩ := Option.map_eq_some_iff.mp stepped
      exact .runs index choice op rest state pushed returns found advanced
  · next completion error rest found =>
    split at stepped
    · contradiction
    · next returns =>
      split at stepped
      · next lost =>
        cases stepped
        exact .loses index choice completion error rest returns found lost
      · next future abort won =>
        cases stepped
        exact .wins index choice completion error rest future abort returns found won
  · next completion error rest found =>
    split at stepped
    · contradiction
    · next returns =>
      cases stepped
      exact .counts index choice completion error rest returns found
  · contradiction

omit [Inhabited Command] in
theorem work_some {index : Nat} {own : Bool}
    {next : Option (PipelineState Command Payload × List PipelineOp)}
    (worked : world.work index own next = some after) :
    ∃ state pushed, world.threads[index]? = some [] ∧ next = some (state, pushed) ∧
      after = { world with
        state, threads := resume world.threads index (pushed.map (.made own)) } := by
  unfold work at worked
  split at worked
  · next idle =>
    obtain ⟨⟨state, pushed⟩, moved, rfl⟩ := Option.map_eq_some_iff.mp worked
    exact ⟨state, pushed, idle, moved, rfl⟩
  · contradiction

/-- Where a thread begins. -/
theorem begin_steps (plain : ∀ turn index choice, label ≠ .writer turn ∧ label ≠ .sender turn ∧
      label ≠ .run index choice)
    (stepped : (PipelineWorld.step config world.pipeline label).map (fun begun =>
      ({ world with
        state := begun.state
        threads := world.threads ++
          (begun.threads.drop world.threads.length).map (List.map .call) } :
        CountedWorld Command Payload)) = some after) : world.Steps config label after := by
  obtain ⟨begun, moved, rfl⟩ := Option.map_eq_some_iff.mp stepped
  have length : world.pipeline.threads.length = world.threads.length := List.length_map _
  have steps := PipelineWorld.step_steps moved
  cases steps with
  | plain _ state changes =>
      have same : world.pipeline.threads ++ [] = world.pipeline.threads := List.append_nil _
      rw [List.drop_eq_nil_of_le (Nat.le_of_eq length)]
      exact .begins label state [] [] (.inl ⟨rfl, rfl⟩) changes (same.symm ▸ moved)
  | spawns _ state stack changes =>
      rw [← length, List.drop_left]
      exact .begins label state [stack] stack (.inr rfl) changes moved
  | writer turn => exact absurd rfl (plain turn 0 .proceed).1
  | sender turn => exact absurd rfl (plain turn 0 .proceed).2.1
  | run index choice => exact absurd rfl (plain .proceed index choice).2.2
  | raises index => exact absurd rfl (plain .proceed index .raises).2.2

theorem step_steps (stepped : world.step config label = some after) :
    world.Steps config label after := by
  cases label with
  | writer turn =>
      obtain ⟨state, pushed, idle, moved, rfl⟩ := work_some stepped
      have moves := PipelineState.writerStep_moves moved
      refine .works _ 0 _ state pushed idle (.writer turn state pushed moves)
        (fun _ _ _ made => moves.finishing made)
        (fun _ _ made => (moves.finishing made).1 rfl) ?_
      have found : world.pipeline.threads[0]? = some [] := pipeline_thread idle
      show PipelineWorld.work _ 0 _ = _
      rw [PipelineWorld.work, if_pos found]
      exact congrArg (Option.map _) moved
  | sender turn =>
      obtain ⟨state, pushed, idle, moved, rfl⟩ := work_some stepped
      have moves := PipelineState.senderStep_moves moved
      refine .works _ 1 _ state pushed idle (.sender turn state pushed moves) nofun
        (fun _ _ made => moves.finishing made rfl) ?_
      have found : world.pipeline.threads[1]? = some [] := pipeline_thread idle
      show PipelineWorld.work _ 1 _ = _
      rw [PipelineWorld.work, if_pos found]
      exact congrArg (Option.map _) moved
  | run index choice => exact run_steps stepped
  | tick | sendAsync command deadline starts | cancel completion | startWriter | startSender
  | opened | disconnect | finalize | closeConnector fromSender | stopWriter fromWorker
  | stopAccepting | shutdown | shutdownRaw | closeBoundary =>
      exact begin_steps (fun _ _ _ => ⟨nofun, nofun, nofun⟩) stepped

omit [Inhabited Command] in
theorem pipeline_resumed {state : PipelineState Command Payload} {counters : WriterCounters}
    {index : Nat} {stack : List WriterOp} :
    ({ state, counters, threads := resume world.threads index stack } :
      CountedWorld Command Payload).pipeline =
      ⟨state, resume world.pipeline.threads index (stack.filterMap WriterOp.op?)⟩ :=
  congrArg (PipelineWorld.mk state) List.map_set

/-- A step is one of the pipeline, or leaves the pipeline as it is. -/
theorem Steps.pipeline (steps : world.Steps config label after) :
    after.pipeline = world.pipeline ∨
      PipelineWorld.step config world.pipeline label = some after.pipeline := by
  cases steps with
  | begins _ state added stack _ _ moved =>
      refine .inr (moved.trans (congrArg some ?_))
      simp only [CountedWorld.pipeline, List.map_append, List.map_map, PipelineWorld.mk.injEq,
        true_and, List.append_cancel_left_eq]
      exact (List.map_congr_left fun stack _ => WriterOp.ops_call stack).trans (List.map_id _) |>.symm
  | works _ index own state pushed idle _ _ _ moved =>
      refine .inr (moved.trans (congrArg some ?_))
      rw [pipeline_resumed, WriterOp.ops_made]
  | runs index choice op rest state pushed returns found advanced =>
      refine .inr ?_
      rw [PipelineWorld.step_run (pipeline_thread found) returns]
      show Option.map _ (world.state.advance choice op) = _
      rw [advanced, pipeline_resumed, List.filterMap_append, WriterOp.ops_made]
      rfl
  | raises index completion rest found =>
      refine .inr ?_
      have thread := pipeline_thread found
      simp only [PipelineWorld.step, PipelineWorld.run, thread, List.filterMap_cons,
        WriterOp.op?]
      rw [pipeline_resumed]
      rfl
  | loses index choice completion error rest returns found lost =>
      refine .inr ?_
      rw [PipelineWorld.step_run (pipeline_thread found) returns]
      show Option.map _ (world.state.advance choice (.command (.finish completion error))) = _
      rw [PipelineState.advance, lost, pipeline_resumed]
      rfl
  | wins index choice completion error rest future abort returns found won =>
      refine .inr ?_
      rw [PipelineWorld.step_run (pipeline_thread found) returns]
      show Option.map _ (world.state.advance choice (.command (.finish completion error))) = _
      rw [PipelineState.advance, won, pipeline_resumed]
      cases abort <;> rfl
  | counts index choice completion error rest returns found =>
      refine .inl ?_
      rw [pipeline_resumed]
      refine congrArg (PipelineWorld.mk world.state) ?_
      refine List.ext_getElem? fun other => ?_
      rw [resume, getElem?_set_found (pipeline_thread found)]
      split
      · next same =>
        rw [same]
        exact (pipeline_thread found).symm
      · rfl

/-- Where the calls that a step makes come from. -/
structure Ordered (world : CountedWorld Command Payload) : Prop where
  plain : ∀ completion, ¬Running world.threads (.call (.command (.finish completion none)))
  known : ∀ completion error, Running world.threads (.finishCompletion completion error) →
    completion < world.state.commands.futures.length
  announced : ∀ completion error, Running world.threads (.count completion error) →
    ∃ finish ∈ world.counters.finishes, finish.completion = completion ∧ finish.error = error

omit [Inhabited Command] in
theorem running_op {op : WriterOp} {call : PipelineOp} (running : Running world.threads op)
    (same : op.op? = some call) : Running world.pipeline.threads call := by
  obtain ⟨stack, member, within⟩ := running
  exact ⟨_, List.mem_map_of_mem member, List.mem_filterMap.mpr ⟨op, within, same⟩⟩

theorem call_of_made {own : Bool} {op call : PipelineOp} (same : .call call = WriterOp.made own op) :
    op = call := by
  have ops := congrArg WriterOp.op? same
  rw [WriterOp.op?_made] at ops
  exact (Option.some.inj ops).symm

omit [Inhabited Command] in
theorem Ordered.begins (ordered : world.Ordered) {state : PipelineState Command Payload}
    {added : List (List PipelineOp)} {stack : List PipelineOp}
    (fresh : added = [] ∧ stack = [] ∨ added = [stack])
    (plain : ∀ completion, .command (.finish completion none) ∉ stack)
    (grown : world.state.commands.futures.length ≤ state.commands.futures.length) :
    Ordered { world with
      state, threads := world.threads ++ added.map (List.map WriterOp.call) } := by
  have came {op : WriterOp} (running : Running (world.threads ++ added.map (List.map .call)) op) :
      Running world.threads op ∨ op ∈ stack.map WriterOp.call := by
    rcases fresh with ⟨rfl, rfl⟩ | rfl
    · rw [List.map_nil, List.append_nil] at running
      exact .inl running
    · exact (running_append _ _).mp running
  constructor
  · intro completion running
    rcases came running with before | made
    · exact ordered.plain completion before
    · obtain ⟨op, member, same⟩ := List.mem_map.mp made
      cases same
      exact plain completion member
  · intro completion error running
    rcases came running with before | made
    · exact Nat.lt_of_lt_of_le (ordered.known completion error before) grown
    · simp at made
  · intro completion error running
    rcases came running with before | made
    · exact ordered.announced completion error before
    · simp at made

omit [Inhabited Command] in
/-- The calls of a step take the place of one that was made, or of none. -/
theorem Ordered.makes (ordered : world.Ordered) (gone : List WriterOp) (own : Bool)
    (pushed : List PipelineOp) {state : PipelineState Command Payload} {index : Nat}
    {rest : List WriterOp} (found : world.threads[index]? = some (gone ++ rest))
    (plain : own = false → ∀ completion, .command (.finish completion none) ∉ pushed)
    (known : own = true → ∀ completion error, .command (.finish completion error) ∈ pushed →
      completion < world.state.commands.futures.length)
    (grown : world.state.commands.futures.length ≤ state.commands.futures.length) :
    Ordered { world with
      state, threads := resume world.threads index (pushed.map (.made own) ++ rest) } := by
  have came {op : WriterOp}
      (running : Running (resume world.threads index (pushed.map (.made own) ++ rest)) op) :
      Running world.threads op ∨ ∃ call ∈ pushed, op = .made own call := by
    obtain ⟨stack, member, within⟩ := running
    rcases List.mem_or_eq_of_mem_set member with kept | rfl
    · exact .inl ⟨stack, kept, within⟩
    · rcases List.mem_append.mp within with made | later
      · obtain ⟨call, member, same⟩ := List.mem_map.mp made
        exact .inr ⟨call, member, same.symm⟩
      · exact .inl (.of_thread found (List.mem_append_right gone later))
  constructor
  · intro completion running
    rcases came running with before | ⟨call, member, same⟩
    · exact ordered.plain completion before
    · cases call_of_made same
      cases own with
      | false => exact plain rfl completion member
      | true => cases same
  · intro completion error running
    rcases came running with before | ⟨call, member, same⟩
    · exact Nat.lt_of_lt_of_le (ordered.known completion error before) grown
    · obtain ⟨rfl, rfl⟩ := WriterOp.finishCompletion_made same
      exact Nat.lt_of_lt_of_le (known rfl completion error member) grown
  · intro completion error running
    rcases came running with before | ⟨call, member, same⟩
    · exact ordered.announced completion error before
    · exact absurd same WriterOp.count_not_made

theorem count_finishes (counters : WriterCounters) (completion : Nat) (error : Outcome) :
    (counters.count completion error).finishes = counters.finishes := by
  unfold WriterCounters.count
  split <;> rfl

/-- The completions only go on, and none is forgotten. -/
theorem Steps.turns (steps : world.Steps config label after)
    (sound : world.state.commands.Sound config.outbound) :
    (∀ completion, CommandState.Advances (world.state.commands.future completion)
      (after.state.commands.future completion)) ∧
      world.state.commands.futures.length ≤ after.state.commands.futures.length := by
  rcases steps.pipeline with same | moved
  · have state : after.state = world.state := congrArg PipelineWorld.state same
    rw [state]
    exact ⟨fun _ => .refl _, Nat.le_refl _⟩
  · obtain ⟨gone, pushed, changes, _, _⟩ := (PipelineWorld.step_steps moved).changes
    exact ⟨sound.advances changes.turns, changes.turns.length⟩

omit [Inhabited Command] in
theorem Ordered.unwinds (ordered : world.Ordered) {state : PipelineState Command Payload}
    (index : Nat)
    (grown : world.state.commands.futures.length ≤ state.commands.futures.length) :
    Ordered { world with state, threads := resume world.threads index [] } where
  plain completion running := ordered.plain completion running.of_unwound
  known completion error running :=
    Nat.lt_of_lt_of_le (ordered.known completion error running.of_unwound) grown
  announced completion error running := ordered.announced completion error running.of_unwound

theorem Ordered.step (ordered : world.Ordered) (steps : world.Steps config label after)
    (sound : world.state.commands.Sound config.outbound)
    (handles : world.state.Handles (Running world.pipeline.threads)) : after.Ordered := by
  have grown := (steps.turns sound).2
  cases steps with
  | begins _ state added stack fresh changes _ =>
      refine ordered.begins fresh (fun completion made => ?_) grown
      obtain ⟨op, member, _⟩ := changes.finishing made
      contradiction
  | works _ index own state pushed idle changes known plain moved =>
      rw [← List.append_nil (pushed.map _)]
      refine ordered.makes [] own pushed idle plain (fun own completion error made => ?_) grown
      exact handles.inHand completion (known own completion error made).2
  | runs index choice op rest state pushed returns found advanced =>
      have moves := PipelineState.advance_moves advanced
      have running : Running world.pipeline.threads op :=
        running_op (.of_thread found List.mem_cons_self) rfl
      refine ordered.makes [.call op] op.finishes pushed found (fun own completion made => ?_)
        (fun own completion error made => ?_) grown
      · rcases moves.finishing made with failed | finishes
        · exact failed rfl
        · rw [own] at finishes
          contradiction
      · rcases moves.completing own made with pending | ⟨later, rfl⟩
        · exact handles.pending completion pending
        · exact handles.failing _ running completion List.mem_cons_self
  | raises index completion rest found => exact ordered.unwinds index grown
  | loses index choice completion error rest returns found lost =>
      exact ordered.makes [.finishCompletion completion error] false [] found (fun _ _ => nofun) nofun
        grown
  | wins index choice completion error rest future abort returns found won =>
      have came {op : WriterOp} (running : Running (resume world.threads index
          ((if abort then [.call (.abortSend completion)] else []) ++
            .call (.command (.publish completion)) :: .count completion error :: rest)) op) :
          Running world.threads op ∨ op = .call (.abortSend completion) ∨
            op = .call (.command (.publish completion)) ∨ op = .count completion error := by
        obtain ⟨stack, member, within⟩ := running
        rcases List.mem_or_eq_of_mem_set member with kept | rfl
        · exact .inl ⟨stack, kept, within⟩
        · cases abort <;> simp only [if_true, Bool.false_eq_true, if_false, List.mem_append,
            List.mem_cons, List.not_mem_nil, or_false, false_or] at within
          · rcases within with same | same | later
            · exact .inr (.inr (.inl same))
            · exact .inr (.inr (.inr same))
            · exact .inl (.of_thread found (List.mem_cons_of_mem _ later))
          · rcases within with same | same | same | later
            · exact .inr (.inl same)
            · exact .inr (.inr (.inl same))
            · exact .inr (.inr (.inr same))
            · exact .inl (.of_thread found (List.mem_cons_of_mem _ later))
      constructor
      · intro target running
        rcases came running with before | same | same | same
        · exact ordered.plain target before
        all_goals cases same
      · intro target outcome running
        rcases came running with before | same | same | same
        · exact Nat.lt_of_lt_of_le (ordered.known target outcome before) grown
        all_goals cases same
      · intro target outcome running
        rcases came running with before | same | same | same
        · obtain ⟨finish, member, equal⟩ := ordered.announced target outcome before
          exact ⟨finish, List.mem_cons_of_mem _ member, equal⟩
        · cases same
        · cases same
        · cases same
          exact ⟨_, List.mem_cons_self, rfl, rfl⟩
  | counts index choice completion error rest returns found =>
      have kept := ordered.makes [.count completion error] false [] found (fun _ _ => nofun) nofun grown
      refine ⟨kept.plain, kept.known, fun target outcome running => ?_⟩
      rw [count_finishes]
      exact kept.announced target outcome running

/-- What the writer's calls of `_finish` recorded. -/
structure Ended (world : CountedWorld Command Payload) : Prop where
  recorded : ∀ finish ∈ world.counters.finishes,
    (world.state.commands.future finish.completion).terminal = some finish.recorded
  once : (world.counters.finishes.map (·.completion)).Nodup
  successes : ∀ completion,
    (world.state.commands.future completion).terminal = some none →
    completion ∈ world.counters.finishes.map (·.completion)
  weaker : ∀ finish ∈ world.counters.finishes, finish.recorded = none → finish.error = none

omit [Inhabited Command] in
/-- A step that is no call of the writer's `_finish` ends no command without an error. -/
theorem Ended.keeps (ended : world.Ended)
    (advances : ∀ completion, CommandState.Advances (world.state.commands.future completion)
      (after.state.commands.future completion))
    (finishes : after.counters.finishes = world.counters.finishes)
    (decides : ∀ completion, (after.state.commands.future completion).terminal = some none →
      (world.state.commands.future completion).terminal = some none) : after.Ended where
  recorded finish member := (advances finish.completion).terminal _
    (ended.recorded finish (finishes ▸ member))
  once := by
    rw [finishes]
    exact ended.once
  successes completion decided := by
    rw [finishes]
    exact ended.successes completion (decides completion decided)
  weaker finish member := ended.weaker finish (finishes ▸ member)

/-- A change by other calls than a finish without an error decides on no success. -/
theorem changes_decides {state : PipelineState Command Payload} {gone pushed : List PipelineOp}
    (sound : world.state.commands.Sound config.outbound)
    (changes : world.state.Changes config label gone state pushed)
    (plain : ∀ completion, .command (.finish completion none) ∉ gone) {completion : Nat}
    (decided : (state.commands.future completion).terminal = some none) :
    (world.state.commands.future completion).terminal = some none := by
  rcases sound.decides changes.turns decided with before | ⟨op, calls, calling, _, decides⟩
  · exact before
  · cases decides with
    | cancel _ impossible => cases impossible
    | finish error same recorded =>
        subst same
        rw [CommandFuture.recorded_eq_none recorded.symm] at calling
        rcases calling with member | ⟨_, impossible⟩
        · exact absurd member (plain completion)
        · cases impossible

omit [Inhabited Command] in
/-- A call of the writer that ends the command. -/
theorem Ended.wins (ended : world.Ended) {completion : Nat} {error : Outcome}
    {future : CommandFuture} {abort : Bool} {threads : List (List WriterOp)}
    (made : completion < world.state.commands.futures.length)
    (won : (world.state.commands.future completion).finish world.state.commands.clock error =
      some (future, abort)) :
    Ended {
      state := { world.state with commands := world.state.commands.update completion future }
      counters := { world.counters with finishes :=
        ⟨completion, error, (world.state.commands.future completion).recorded
          world.state.commands.clock error⟩ :: world.counters.finishes }
      threads } := by
  obtain ⟨undecided, same, -⟩ := CommandFuture.finish_won won
  have fresh : completion ∉ world.counters.finishes.map (·.completion) := by
    intro member
    obtain ⟨finish, member, same⟩ := List.mem_map.mp member
    have decided := ended.recorded finish member
    rw [show finish.completion = completion from same, undecided] at decided
    cases decided
  have updated (other : Nat) : (world.state.commands.update completion future).future other =
      if other = completion ∧ completion < world.state.commands.futures.length then future
      else world.state.commands.future other := CommandState.future_of_set rfl
  constructor
  · intro finish member
    show (CommandState.future _ finish.completion).terminal = _
    rcases List.mem_cons.mp member with rfl | before
    · rw [updated, if_pos ⟨rfl, made⟩, same]
    · have other : finish.completion ≠ completion := fun same =>
        fresh (same ▸ List.mem_map_of_mem before)
      rw [updated, if_neg fun own => other own.1]
      exact ended.recorded finish before
  · exact List.nodup_cons.mpr ⟨fresh, ended.once⟩
  · intro target decided
    rw [List.map_cons, List.mem_cons]
    by_cases own : target = completion
    · exact .inl own
    · refine .inr (ended.successes target ?_)
      have decided : (CommandState.future _ target).terminal = some none := decided
      rwa [updated, if_neg fun same => own same.1] at decided
  · intro finish member
    rcases List.mem_cons.mp member with rfl | before
    · exact CommandFuture.recorded_eq_none
    · exact ended.weaker finish before

theorem Ended.step (ended : world.Ended) (ordered : world.Ordered)
    (steps : world.Steps config label after)
    (sound : world.state.commands.Sound config.outbound) : after.Ended := by
  have advances := (steps.turns sound).1
  cases steps with
  | begins _ state added stack fresh changes _ =>
      exact ended.keeps advances rfl fun _ => changes_decides sound changes fun _ => nofun
  | works _ index own state pushed idle changes known plain moved =>
      exact ended.keeps advances rfl fun _ => changes_decides sound changes fun _ => nofun
  | runs index choice op rest state pushed returns found advanced =>
      have changes : world.state.Changes config (.run index choice) [op] state pushed :=
        .run index choice op state pushed returns (PipelineState.advance_moves advanced)
      refine ended.keeps advances rfl fun _ => changes_decides sound changes fun completion member => ?_
      rw [← List.mem_singleton.mp member] at found
      exact ordered.plain completion (.of_thread found List.mem_cons_self)
  | raises index completion rest found =>
      have same : (world.pipeline.unwound index).commands = world.state.commands := by
        rcases world.pipeline.unwound_cases index with same | same | same <;>
          rw [same] <;> rfl
      refine ended.keeps advances rfl fun completion decided => ?_
      rw [show (CountedWorld.state _).commands = _ from same] at decided
      exact decided
  | loses index choice completion error rest returns found lost =>
      exact ended.keeps advances rfl fun _ => id
  | wins index choice completion error rest future abort returns found won =>
      exact ended.wins (ordered.known completion error (.of_thread found List.mem_cons_self)) won
  | counts index choice completion error rest returns found =>
      exact ended.keeps advances (count_finishes _ _ _) fun _ => id

/-- Whether the region is still to be run in which a counter is raised. -/
def counting (success : Bool) : WriterOp → Bool
  | .count _ error => error.isNone == success
  | _ => false

/-- The counts that are still to be made. -/
def outstanding (success : Bool) (threads : List (List WriterOp)) : Nat :=
  weight (List.countP (counting success)) threads

/-- What the writer ended is counted, or is about to be. -/
structure Tallied (world : CountedWorld Command Payload) : Prop where
  completed : world.counters.completed + outstanding true world.threads =
    world.counters.finishes.countP fun finish => finish.error.isNone
  failures : world.counters.completionFailures + outstanding false world.threads =
    world.counters.finishes.countP fun finish => !finish.error.isNone
  listed : ∀ completion ∈ world.counters.completions,
    ∃ finish ∈ world.counters.finishes, finish.completion = completion ∧ finish.error = none

theorem outstanding_resume (success : Bool) (gone rest pushed : List WriterOp)
    {threads : List (List WriterOp)} {index : Nat} (found : threads[index]? = some (gone ++ rest)) :
    outstanding success (resume threads index (pushed ++ rest)) +
        gone.countP (counting success) =
      outstanding success threads + pushed.countP (counting success) := by
  have moved := weight_set (List.countP (counting success)) (pushed ++ rest) found
  rw [List.countP_append, List.countP_append] at moved
  unfold outstanding resume
  omega

theorem counting_made {success own : Bool} (pushed : List PipelineOp) :
    (pushed.map (WriterOp.made own)).countP (counting success) = 0 := by
  rw [List.countP_eq_zero]
  intro op member
  obtain ⟨call, -, rfl⟩ := List.mem_map.mp member
  unfold WriterOp.made
  split
  · cases own <;> exact Bool.false_ne_true
  · exact Bool.false_ne_true

omit [Inhabited Command] in
/-- A step that finishes and counts nothing. -/
theorem Tallied.keeps (tallied : world.Tallied) (counters : after.counters = world.counters)
    (same : ∀ success, outstanding success after.threads = outstanding success world.threads) :
    after.Tallied := by
  obtain ⟨completed, failures, listed⟩ := tallied
  constructor
  · rw [counters, same]
    exact completed
  · rw [counters, same]
    exact failures
  · rw [counters]
    exact listed

omit [Inhabited Command] in
theorem Tallied.wins (tallied : world.Tallied) {state : PipelineState Command Payload}
    {index completion : Nat} {error recorded : Outcome} {rest : List WriterOp} {abort : Bool}
    (found : world.threads[index]? = some (.finishCompletion completion error :: rest)) :
    Tallied {
      state
      counters := { world.counters with
        finishes := ⟨completion, error, recorded⟩ :: world.counters.finishes }
      threads := resume world.threads index
        ((if abort then [.call (.abortSend completion)] else []) ++
          .call (.command (.publish completion)) :: .count completion error :: rest) } := by
  obtain ⟨completed, failures, listed⟩ := tallied
  have moved (success : Bool) := outstanding_resume success [.finishCompletion completion error] rest
    ((if abort then [.call (.abortSend completion)] else []) ++
      [.call (.command (.publish completion)), .count completion error]) found
  simp only [List.append_assoc, List.cons_append, List.nil_append, List.countP_append,
    List.countP_cons, List.countP_nil, counting, Bool.false_eq_true, if_false, Nat.add_zero]
    at moved
  have silent (success : Bool) : (if abort then [WriterOp.call (.abortSend completion)]
      else []).countP (counting success) = 0 := by
    cases abort <;> rfl
  simp only [silent, Nat.zero_add] at moved
  constructor
  · have raised := moved true
    show world.counters.completed + outstanding true (resume _ _ _) = _
    rw [List.countP_cons]
    cases error <;> simp_all
    omega
  · have raised := moved false
    show world.counters.completionFailures + outstanding false (resume _ _ _) = _
    rw [List.countP_cons]
    cases error <;> simp_all
    omega
  · intro target member
    obtain ⟨finish, known, same⟩ := listed target member
    exact ⟨finish, List.mem_cons_of_mem _ known, same⟩

omit [Inhabited Command] in
theorem Tallied.counts (tallied : world.Tallied) (ordered : world.Ordered) {index completion : Nat}
    {error : Outcome} {rest : List WriterOp}
    (found : world.threads[index]? = some (.count completion error :: rest)) :
    Tallied { world with
      counters := world.counters.count completion error
      threads := resume world.threads index rest } := by
  obtain ⟨completed, failures, listed⟩ := tallied
  have moved (success : Bool) := outstanding_resume success [.count completion error] rest [] found
  simp only [List.nil_append, List.countP_cons, List.countP_nil, counting, Nat.zero_add,
    Nat.add_zero] at moved
  have first := moved true
  have second := moved false
  unfold WriterCounters.count
  cases error with
  | none =>
      simp only [Option.isNone_none, BEq.rfl, if_true] at first second
      constructor
      · refine Eq.trans ?_ completed
        show world.counters.completed + 1 + outstanding true (resume _ _ _) = _
        omega
      · refine Eq.trans ?_ failures
        show world.counters.completionFailures + outstanding false (resume _ _ _) = _
        simp at second
        omega
      · intro target member
        rcases List.mem_cons.mp member with rfl | before
        · exact ordered.announced target none (.of_thread found List.mem_cons_self)
        · exact listed target before
  | some failure =>
      constructor
      · refine Eq.trans ?_ completed
        show world.counters.completed + outstanding true (resume _ _ _) = _
        simp at first
        omega
      · refine Eq.trans ?_ failures
        show world.counters.completionFailures + 1 + outstanding false (resume _ _ _) = _
        simp at second
        omega
      · exact listed

theorem Tallied.step (tallied : world.Tallied) (ordered : world.Ordered)
    (timely : world.Timely label) (steps : world.Steps config label after) : after.Tallied := by
  cases steps with
  | begins _ state added stack fresh changes _ =>
      refine tallied.keeps rfl fun success => ?_
      have idle : weight (List.countP (counting success)) (added.map (List.map WriterOp.call)) =
          0 := by
        refine weight_eq_zero fun stack member => ?_
        obtain ⟨calls, -, rfl⟩ := List.mem_map.mp member
        rw [List.countP_eq_zero]
        intro op member
        obtain ⟨call, -, rfl⟩ := List.mem_map.mp member
        exact Bool.false_ne_true
      show weight _ (world.threads ++ _) = _
      rw [weight_append, idle]
      rfl
  | works _ index own state pushed idle changes known plain moved =>
      refine tallied.keeps rfl fun success => ?_
      have same := outstanding_resume success [] [] (pushed.map (WriterOp.made own)) idle
      rw [counting_made, List.append_nil] at same
      exact same
  | runs index choice op rest state pushed returns found advanced =>
      refine tallied.keeps rfl fun success => ?_
      have same := outstanding_resume success [.call op] rest
        (pushed.map (WriterOp.made op.finishes)) found
      rw [counting_made] at same
      exact same
  | raises index completion rest found =>
      refine tallied.keeps rfl fun success => ?_
      have moved := weight_set (List.countP (counting success)) [] found
      have none_waits : (WriterOp.call (.command (.observe completion)) :: rest).countP
          (counting success) = 0 := by
        rw [List.countP_eq_zero]
        intro op member counts
        cases op with
        | count target error => exact timely _ found target error member
        | call _ | finishCompletion _ _ => cases counts
      rw [none_waits] at moved
      exact moved
  | loses index choice completion error rest returns found lost =>
      refine tallied.keeps rfl fun success => ?_
      exact outstanding_resume success [.finishCompletion completion error] rest [] found
  | wins index choice completion error rest future abort returns found won =>
      exact tallied.wins found
  | counts index choice completion error rest returns found => exact tallied.counts ordered found

/-- A thread goes on to publish the outcome, and after that to count it. -/
def Publishing (threads : List (List WriterOp)) (completion : Nat) (error : Outcome) : Prop :=
  ∃ stack ∈ threads, ∃ above below,
    stack = above ++ .call (.command (.publish completion)) :: below ∧
      .count completion error ∈ below

def Published (world : CountedWorld Command Payload) : Prop :=
  ∀ finish ∈ world.counters.finishes,
    (world.state.commands.future finish.completion).future.isSome = true ∨
      Publishing world.threads finish.completion finish.error

theorem Publishing.resume {threads : List (List WriterOp)} {index completion : Nat}
    {error : Outcome} {op : WriterOp} {rest : List WriterOp}
    (publishing : Publishing threads completion error) (pushed : List WriterOp)
    (found : threads[index]? = some (op :: rest)) :
    Publishing (resume threads index (pushed ++ rest)) completion error ∨
      op = .call (.command (.publish completion)) := by
  obtain ⟨stack, member, above, below, same, counts⟩ := publishing
  obtain ⟨position, located⟩ := List.getElem?_of_mem member
  have moved : (Automaton.resume threads index (pushed ++ rest))[position]? = _ :=
    getElem?_set_found found position
  by_cases own : position = index
  · subst own
    cases located.symm.trans found
    rw [if_pos rfl] at moved
    cases above with
    | nil => exact .inr (List.cons.inj same).1
    | cons head above =>
        refine .inl ⟨pushed ++ rest, List.mem_of_getElem? moved, pushed ++ above, below, ?_, counts⟩
        rw [List.append_assoc]
        exact congrArg (pushed ++ ·) (List.cons.inj same).2
  · rw [if_neg own, located] at moved
    exact .inl ⟨stack, List.mem_of_getElem? moved, above, below, same, counts⟩

/-- A thread without calls has nothing to publish. -/
theorem Publishing.elsewhere {threads : List (List WriterOp)} {index completion : Nat}
    {error : Outcome} {stack new : List WriterOp}
    (publishing : Publishing threads completion error) (found : threads[index]? = some stack)
    (none_counts : .count completion error ∉ stack) :
    Publishing (Automaton.resume threads index new) completion error := by
  obtain ⟨other, member, above, below, same, counts⟩ := publishing
  obtain ⟨position, located⟩ := List.getElem?_of_mem member
  refine ⟨other, List.mem_of_getElem? (i := position) ?_, above, below, same, counts⟩
  rw [Automaton.resume, getElem?_set_found found, if_neg, located]
  rintro rfl
  cases located.symm.trans found
  exact none_counts (same ▸ List.mem_append_right _ (List.mem_cons_of_mem _ counts))

theorem Published.step (published : world.Published) (ended : world.Ended)
    (timely : world.Timely label) (steps : world.Steps config label after)
    (sound : world.state.commands.Sound config.outbound) : after.Published := by
  have advances := (steps.turns sound).1
  have kept {completion : Nat}
      (before : (world.state.commands.future completion).future.isSome = true) :
      (after.state.commands.future completion).future.isSome = true := by
    obtain ⟨outcome, same⟩ := Option.isSome_iff_exists.mp before
    rw [(advances completion).future outcome same]
    rfl
  intro finish member
  cases steps with
  | begins _ state added stack fresh changes _ =>
      refine (published finish member).imp kept fun publishing => ?_
      obtain ⟨other, there, calls⟩ := publishing
      exact ⟨other, List.mem_append_left _ there, calls⟩
  | works _ index own state pushed idle changes known plain moved =>
      exact (published finish member).imp kept fun publishing => publishing.elsewhere idle nofun
  | runs index choice op rest state pushed returns found advanced =>
      rcases published finish member with before | publishing
      · exact .inl (kept before)
      · rcases publishing.resume (pushed.map (.made op.finishes)) found with
          stays | same
        · exact .inr stays
        · cases same
          have changes : world.state.Changes config (.run index choice) [_] state pushed :=
            .run index choice _ state pushed returns (PipelineState.advance_moves advanced)
          have spared : (PipelineLabel.run index choice : PipelineLabel Command).spares = true := by
            cases choice <;> first | rfl | exact absurd rfl returns
          exact .inl (changes.published spared List.mem_cons_self (ended.recorded finish member))
  | raises index completion rest found =>
      exact (published finish member).imp kept fun publishing =>
        publishing.elsewhere found (timely _ found _ _)
  | loses index choice completion error rest returns found lost =>
      refine (published finish member).imp kept fun publishing => ?_
      exact (publishing.resume [] found).resolve_right nofun
  | wins index choice completion error rest future abort returns found won =>
      rcases List.mem_cons.mp member with rfl | before
      · refine .inr ⟨_, List.mem_of_getElem? ((getElem?_set_found found index).trans (if_pos rfl)),
          if abort then [.call (.abortSend completion)] else [], .count completion error :: rest,
          rfl, List.mem_cons_self⟩
      · refine (published finish before).imp kept fun publishing => ?_
        have resumed := publishing.resume ((if abort then [.call (.abortSend completion)] else []) ++
          [.call (.command (.publish completion)), .count completion error]) found
        rw [List.append_assoc] at resumed
        exact resumed.resolve_right nofun
  | counts index choice completion error rest returns found =>
      rw [count_finishes] at member
      refine (published finish member).imp kept fun publishing => ?_
      exact (publishing.resume [] found).resolve_right nofun

/-- What the writer finishes without an error is recorded so. -/
def Punctual (world : CountedWorld Command Payload) : Prop :=
  ∀ finish ∈ world.counters.finishes, finish.error = none → finish.recorded = none

theorem Punctual.step (punctual : world.Punctual) (timely : world.Timely label)
    (steps : world.Steps config label after) : after.Punctual := by
  intro finish member success
  cases steps with
  | wins index choice completion error rest future abort returns found won =>
      rcases List.mem_cons.mp member with rfl | before
      · cases success
        have undecided := (CommandFuture.finish_won won).1
        have early : (world.state.commands.future completion).deadlinePassed
            world.state.commands.clock = false := by
          cases choice with
          | raises => exact absurd rfl returns
          | proceed | timesOut => exact timely completion rest found undecided
        show CommandFuture.recorded _ _ none = none
        rw [CommandFuture.recorded, early]
        rfl
      · exact punctual finish before success
  | counts index choice completion error rest returns found =>
      rw [count_finishes] at member
      exact punctual finish member success
  | _ => exact punctual finish member success

variable {allowed : CountedWorld Command Payload → PipelineLabel Command → Prop}

theorem reachable_pipeline (reachable : (countedSystem config).ReachableBy allowed world) :
    (pipelineSystem config).Reachable world.pipeline := by
  refine reachable.invariant
    (motive := fun world => (pipelineSystem config).Reachable world.pipeline) ?_ ?_
  · rintro first rfl
    exact .initial rfl
  · intro before label after _ reached stepped
    rcases (step_steps stepped).pipeline with same | moved
    · rw [same]
      exact reached
    · exact reached.next label moved

theorem reachable_ordered (reachable : (countedSystem config).ReachableBy allowed world) :
    world.Ordered := by
  refine reachable.invariant_along (fun world => (pipelineSystem config).Reachable world.pipeline)
    (fun _ => reachable_pipeline) ?_ ?_
  · rintro first rfl
    exact ⟨fun _ => not_running_idle (by simp),
      fun _ _ running => absurd running (not_running_idle (by simp)),
      fun _ _ running => absurd running (not_running_idle (by simp))⟩
  · intro before label after _ base ordered stepped
    exact ordered.step (step_steps stepped) (PipelineWorld.reachable_sound base)
      (PipelineWorld.reachable_handles base)

theorem reachable_ended (reachable : (countedSystem config).ReachableBy allowed world) :
    world.Ended := by
  refine reachable.invariant_along
    (fun world => (pipelineSystem config).Reachable world.pipeline ∧ world.Ordered)
    (fun _ reached => ⟨reachable_pipeline reached, reachable_ordered reached⟩) ?_ ?_
  · rintro first rfl
    exact ⟨nofun, List.nodup_nil, by simp [CommandState.future], nofun⟩
  · intro before label after _ known ended stepped
    exact ended.step known.2 (step_steps stepped) (PipelineWorld.reachable_sound known.1)

/-- What holds in runs that finish in time. -/
structure Accounted (world : CountedWorld Command Payload) : Prop where
  tallied : world.Tallied
  published : world.Published
  punctual : world.Punctual

theorem reachable_accounted (reachable : (countedSystem config).ReachableBy Timely world) :
    world.Accounted := by
  refine reachable.invariant_along (fun world =>
      (pipelineSystem config).Reachable world.pipeline ∧ world.Ordered ∧ world.Ended)
    (fun _ reached => ⟨reachable_pipeline reached, reachable_ordered reached,
      reachable_ended reached⟩) ?_ ?_
  · rintro first rfl
    exact ⟨⟨rfl, rfl, nofun⟩, nofun, nofun⟩
  · intro before label after timely known accounted stepped
    have steps := step_steps stepped
    have sound := PipelineWorld.reachable_sound known.1
    exact ⟨accounted.tallied.step known.2.1 timely steps,
      accounted.published.step known.2.2 timely steps sound, accounted.punctual.step timely steps⟩

omit [Inhabited Command] in
theorem Quiescent.outstanding (quiescent : world.Quiescent) (success : Bool) :
    outstanding success world.threads = 0 := by
  refine weight_eq_zero fun stack member => ?_
  rw [List.countP_eq_zero]
  intro op within counts
  cases op with
  | count completion error => exact (quiescent stack member completion error).2 within
  | call _ | finishCompletion _ _ => cases counts

omit [Inhabited Command] in
theorem Quiescent.published (quiescent : world.Quiescent) (published : world.Published)
    (ended : world.Ended) (records : world.state.Records (Running world.pipeline.threads))
    {finish : WriterFinish} (member : finish ∈ world.counters.finishes) :
    (world.state.commands.future finish.completion).future = some finish.recorded := by
  rcases published finish member with done | ⟨stack, there, above, below, rfl, counts⟩
  · obtain ⟨outcome, same⟩ := Option.isSome_iff_exists.mp done
    have decided := records.recorded finish.completion outcome same
    rw [ended.recorded finish member] at decided
    rw [same, Option.some.inj decided]
  · refine absurd ?_ (quiescent _ there finish.completion finish.error).2
    exact List.mem_append_right _ (List.mem_cons_of_mem _ counts)

omit [Inhabited Command] in
/-- As many commands have the property as calls of `_finish` have it. -/
theorem Ended.length_filter (ended : world.Ended) {property : Nat → Bool}
    {selected : WriterFinish → Bool}
    (same : ∀ completion, (completion < world.state.commands.futures.length ∧
      property completion = true) ↔ ∃ finish ∈ world.counters.finishes,
        selected finish = true ∧ finish.completion = completion) :
    ((List.range world.state.commands.futures.length).filter property).length =
      world.counters.finishes.countP selected := by
  rw [List.countP_eq_length_filter, ← List.length_map fun finish : WriterFinish => finish.completion]
  refine List.Perm.length_eq ((List.perm_ext_iff_of_nodup (List.nodup_range.filter _) ?_).mpr ?_)
  · exact ended.once.sublist (List.filter_sublist.map _)
  · intro completion
    rw [List.mem_filter, List.mem_range, same, List.mem_map]
    simp only [List.mem_filter, and_assoc]

/-- Where no call of `_finish_completion` is under way, the counters are the numbers of
commands that ended without an exception, and that the writer ended with one. -/
theorem writer_counters_agree
    (reachable : (countedSystem config).ReachableBy Timely world)
    (quiescent : world.Quiescent) : world.CountersAgree := by
  have ended := reachable_ended reachable
  obtain ⟨tallied, published, punctual⟩ := reachable_accounted reachable
  have records := PipelineWorld.reachable_records (reachable_pipeline reachable)
  have outcome {finish : WriterFinish} (member : finish ∈ world.counters.finishes) :=
    quiescent.published published ended records member
  have known {finish : WriterFinish} (member : finish ∈ world.counters.finishes) :
      finish.completion < world.state.commands.futures.length :=
    CommandState.known_of_decided (ended.recorded finish member)
  have success {completion : Nat}
      (done : (world.state.commands.future completion).future = some none) :
      ∃ finish ∈ world.counters.finishes, finish.completion = completion :=
    List.mem_map.mp (ended.successes completion (records.recorded completion none done))
  constructor
  · have counted := tallied.completed
    rw [quiescent.outstanding, Nat.add_zero] at counted
    rw [counted, succeeded]
    refine (ended.length_filter fun completion => ⟨?_, ?_⟩).symm
    · rintro ⟨-, done⟩
      have done := of_decide_eq_true done
      obtain ⟨finish, member, rfl⟩ := success done
      refine ⟨finish, member, ?_, rfl⟩
      rw [ended.weaker finish member (Option.some.inj ((outcome member).symm.trans done))]
      rfl
    · rintro ⟨finish, member, passed, rfl⟩
      refine ⟨known member, decide_eq_true ?_⟩
      rw [outcome member, punctual finish member (Option.isNone_iff_eq_none.mp passed)]
  · have counted := tallied.failures
    rw [quiescent.outstanding, Nat.add_zero] at counted
    rw [counted, failedByWriter]
    refine (ended.length_filter fun completion => ⟨?_, ?_⟩).symm
    · rintro ⟨-, both⟩
      rw [Bool.and_eq_true, List.any_eq_true] at both
      obtain ⟨⟨finish, member, same⟩, failed⟩ := both
      obtain rfl : finish.completion = completion := by simpa using same
      refine ⟨finish, member, ?_, rfl⟩
      rw [outcome member, Option.any_some] at failed
      cases passed : finish.error with
      | none =>
          rw [punctual finish member passed] at failed
          cases failed
      | some error => rfl
    · rintro ⟨finish, member, failed, rfl⟩
      refine ⟨known member, ?_⟩
      rw [Bool.and_eq_true, List.any_eq_true, outcome member, Option.any_some]
      refine ⟨⟨finish, member, by simp⟩, ?_⟩
      cases recorded : finish.recorded with
      | none =>
          rw [ended.weaker finish member recorded] at failed
          cases failed
      | some error => rfl
  · intro completion member
    exact success (of_decide_eq_true (List.mem_filter.mp member).2)
  · intro completion member
    obtain ⟨finish, there, rfl, passed⟩ := tallied.listed completion member
    rw [outcome there, punctual finish there passed]
    nofun

/-- A check on steps that only lets a timely one pass. -/
def timely? (world : CountedWorld Command Payload) : PipelineLabel Command → Bool
  | .run _ .raises => false
  | .run index _ =>
      match world.threads[index]? with
      | some (.finishCompletion completion none :: _) =>
          !(world.state.commands.future completion).deadlinePassed world.state.commands.clock
      | _ => true
  | _ => true

omit [Inhabited Command] in
theorem timely_of_check {label : PipelineLabel Command} (passes : world.timely? label = true) :
    world.Timely label := by
  have early {index : Nat} {choice : Choice} (returns : choice ≠ .raises)
      (passes : world.timely? (.run index choice) = true) (completion : Nat)
      (rest : List WriterOp)
      (found : world.threads[index]? = some (.finishCompletion completion none :: rest)) :
      (world.state.commands.future completion).deadlinePassed world.state.commands.clock =
        false := by
    cases choice with
    | raises => exact absurd rfl returns
    | proceed | timesOut => simpa [timely?, found] using passes
  cases label with
  | run index choice =>
      cases choice with
      | raises => cases passes
      | proceed | timesOut =>
          exact fun completion rest found _ => early (by decide) passes completion rest found
  | _ => trivial

end CountedWorld

open CountedWorld

/-- The command is sent, and its deadline comes while the send is in progress if `late`. -/
def countedRun (late : Bool) : List (PipelineLabel (Nat × Nat)) :=
  ([.startWriter, .startSender, .opened, .sendAsync (1, 3) (some 1) true] : List (PipelineLabel (Nat × Nat))) ++ writes 12 ++ sends 8 ++
    (if late then [.tick] else []) ++ runs 1 (if late then 12 else 9)

def timelyCounted : CountedWorld (Nat × Nat) (Nat × Nat) :=
  (((countedSystem pairPipeline).restrict timely?).exec {} (countedRun false)).get
    (by decide +kernel)

theorem timelyCounted_reachable :
    (countedSystem pairPipeline).ReachableBy Timely timelyCounted := by
  have reachable : ((countedSystem pairPipeline).restrict timely?).Reachable timelyCounted :=
    System.Reachable.exec (.initial rfl) (Option.some_get _).symm
  exact reachable.restricted.weaken fun _ _ => timely_of_check

theorem writer_counters_agree_run :
    timelyCounted.CountersAgree ∧ timelyCounted.counters.completed = 1 := by
  have threads : timelyCounted.threads = [[], [], [.call (.command .watchDeadlines)]] := by
    decide +kernel
  refine ⟨writer_counters_agree timelyCounted_reachable ?_, by decide +kernel⟩
  rw [Quiescent, threads]
  simp

def lateCounted : CountedWorld (Nat × Nat) (Nat × Nat) :=
  ((countedSystem pairPipeline).exec {} (countedRun true)).get (by decide +kernel)

theorem late_success_counted : (countedSystem pairPipeline).Reachable lateCounted ∧
    lateCounted.Quiescent ∧ ¬lateCounted.CountersAgree := by
  have threads : lateCounted.threads = [[], [], [.call (.command .watchDeadlines)]] := by
    decide +kernel
  refine ⟨System.Reachable.exec (.initial rfl) (Option.some_get _).symm, ?_, fun agree => ?_⟩
  · rw [Quiescent, threads]
    simp
  · exact agree.timely 0 (by decide +kernel) (by decide +kernel)

end StreamDockSdk.Boundary
