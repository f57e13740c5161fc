import StreamDockSdk.Boundary.Pipeline.Transition

namespace StreamDockSdk.Boundary

open Automaton Messaging Transport

variable {Command Key Payload : Type} [Inhabited Command] [BEq Key]
variable {config : PipelineConfig Command Key Payload}

/-- The calls with which a thread begins. -/
inductive Entry (state : PipelineState Command Payload) :
    PipelineLabel Command → List PipelineOp → Prop
  | cancel (completion : Nat) : completion < state.commands.futures.length →
      Entry state (.cancel completion) [.command (.cancel completion)]
  | disconnect : state.connector.started = true → Entry state .disconnect disconnectOps
  | finalize : state.connector.started = true →
      Entry state .finalize (disconnectOps ++ [.disconnectHandled, .endRun])
  | closeConnector (fromSender : Bool) :
      Entry state (.closeConnector fromSender) [.closeConnector fromSender]
  | stopWriter (fromWorker : Bool) : Entry state (.stopWriter fromWorker) [.stopWriter fromWorker]
  | stopAccepting : Entry state .stopAccepting [.command .stopAccepting]
  | shutdown : Entry state .shutdown [.command .stopAccepting, .command .drain, .shutdownReturned]
  | shutdownRaw : Entry state .shutdownRaw [.stopRaw, .shutdownRaw]

namespace PipelineState

/-- Everything that a step does to the state, with the calls that it takes off a
thread and the calls that it leaves there. -/
inductive Changes (config : PipelineConfig Command Key Payload)
    (state : PipelineState Command Payload) :
    PipelineLabel Command → List PipelineOp → PipelineState Command Payload → List PipelineOp → Prop
  | ticks : Changes config state .tick [] { state with
      commands := { state.commands with clock := state.commands.clock + 1 } } []
  | sends (command : Command) (deadline : Option Nat) (starts : Bool) (thread : Nat)
      (sent : Sent Command) : state.commands.Sends config.outbound command deadline thread sent →
      (state.commands.queue.accepting = false →
        ∃ closed oversized full, sent.state = state.commands.refuse closed oversized full) →
      Changes config state (.sendAsync command deadline starts) []
        { state with commands := sent.state }
        (if sent.watcher then [.command .watchDeadlines] else [])
  | called (label : PipelineLabel Command) (stack : List PipelineOp) : Entry state label stack →
      Changes config state label [] state stack
  | closes : state.closing = false →
      Changes config state .closeBoundary [] { state with closing := true } closeOps
  | startsWriter : state.writer.started = false → state.writer.stopped = false →
      state.writer.stopRequested = false →
      Changes config state .startWriter [] (state.writerAt .receiving) []
  | startsSender : state.connector.started = false → state.connector.terminal = false →
      state.connector.closing = false →
      Changes config state .startSender [] (state.senderAt .waiting) []
  | opens : state.connector.started = true → state.connector.stopRequested = false →
      Changes config state .opened []
        { state with connector := { state.connector with connected := true } } []
  | opensLate : Changes config state .opened [] state []
  | writer (turn : Turn) (after : PipelineState Command Payload) (pushed : List PipelineOp) :
      state.WriterMoves config after pushed → Changes config state (.writer turn) [] after pushed
  | sender (turn : Turn) (after : PipelineState Command Payload) (pushed : List PipelineOp) :
      state.SenderMoves after pushed → Changes config state (.sender turn) [] after pushed
  | run (index : Nat) (choice : Choice) (op : PipelineOp) (after : PipelineState Command Payload)
      (pushed : List PipelineOp) : choice ≠ .raises → state.OpMoves choice op after pushed →
      Changes config state (.run index choice) [op] after pushed
  | raises (index : Nat) (gone : List PipelineOp) (after : PipelineState Command Payload) :
      (after = state ∨ after = state.writerAt state.writer.point.unwound ∨
        after = state.senderAt .exiting) →
      Changes config state (.run index .raises) gone after []

end PipelineState

namespace PipelineWorld

/-- Everything that a step of the pipeline can do. -/
inductive Steps (config : PipelineConfig Command Key Payload)
    (world : PipelineWorld Command Payload) :
    PipelineLabel Command → PipelineWorld Command Payload → Prop
  | plain (label : PipelineLabel Command) (after : PipelineState Command Payload) :
      world.state.Changes config label [] after [] → Steps config world label ⟨after, world.threads⟩
  | spawns (label : PipelineLabel Command) (after : PipelineState Command Payload)
      (stack : List PipelineOp) : world.state.Changes config label [] after stack →
      Steps config world label ⟨after, world.threads ++ [stack]⟩
  | writer (turn : Turn) (after : PipelineState Command Payload) (pushed : List PipelineOp) :
      world.threads[0]? = some [] → world.state.WriterMoves config after pushed →
      Steps config world (.writer turn) ⟨after, resume world.threads 0 pushed⟩
  | sender (turn : Turn) (after : PipelineState Command Payload) (pushed : List PipelineOp) :
      world.threads[1]? = some [] → world.state.SenderMoves after pushed →
      Steps config world (.sender turn) ⟨after, resume world.threads 1 pushed⟩
  | run (index : Nat) (choice : Choice) (op : PipelineOp) (rest : List PipelineOp)
      (after : PipelineState Command Payload) (pushed : List PipelineOp) : choice ≠ .raises →
      world.threads[index]? = some (op :: rest) → world.state.OpMoves choice op after pushed →
      Steps config world (.run index choice) ⟨after, resume world.threads index (pushed ++ rest)⟩
  | raises (index completion : Nat) (rest : List PipelineOp) :
      world.threads[index]? = some (.command (.observe completion) :: rest) →
      Steps config world (.run index .raises) ⟨world.unwound index, resume world.threads index []⟩

variable {world after : PipelineWorld Command Payload} {label : PipelineLabel Command}

omit [Inhabited Command] in
theorem work_steps {index : Nat} {next : Option (PipelineState Command Payload × List PipelineOp)}
    (worked : world.work index next = some after) :
    ∃ state pushed, world.threads[index]? = some [] ∧ next = some (state, pushed) ∧
      after = ⟨state, resume world.threads index pushed⟩ := by
  unfold work at worked
  split at worked
  · next idle =>
    obtain ⟨⟨state, pushed⟩, moved, rfl⟩ := Option.map_eq_some_iff.mp worked
    exact ⟨state, pushed, idle, moved, rfl⟩
  · contradiction

theorem sendAsync_steps (command : Command) (deadline : Option Nat) (starts : Bool) :
    world.Steps config (.sendAsync command deadline starts)
      (world.sendAsync config command deadline starts) := by
  have sends : world.state.commands.Sends config.outbound command deadline world.threads.length _ :=
    CommandState.sendAsync_cases config.outbound command deadline starts world.threads.length
  have changes : world.state.Changes config (.sendAsync command deadline starts) [] _ _ :=
    .sends command deadline starts world.threads.length _ sends fun shut =>
      ⟨_, _, _, CommandState.sendAsync_closed config.outbound command deadline starts _ shut⟩
  unfold sendAsync
  cases watched : (world.state.commands.sendAsync config.outbound command deadline starts
    world.threads.length).watcher with
  | false =>
      rw [watched] at changes
      simp only [watched, Bool.false_eq_true, if_false]
      exact .plain _ _ changes
  | true =>
      rw [watched] at changes
      simp only [watched, if_true]
      exact .spawns _ _ [.command .watchDeadlines] changes

theorem run_steps {index : Nat} {choice : Choice} (stepped : world.run index choice = some after) :
    world.Steps config (.run index choice) after := by
  unfold run at stepped
  split at stepped
  · next op rest found =>
    split at stepped
    · cases stepped
      exact .raises index _ rest found
    · contradiction
    · next returns _ =>
      obtain ⟨⟨state, pushed⟩, advanced, rfl⟩ := Option.map_eq_some_iff.mp stepped
      exact .run index choice op rest state pushed returns found (PipelineState.advance_moves advanced)
  · contradiction

theorem step_steps (stepped : world.step config label = some after) :
    world.Steps config label after := by
  cases label with
  | tick =>
      cases stepped
      exact .plain _ _ .ticks
  | sendAsync command deadline starts =>
      cases stepped
      exact sendAsync_steps command deadline starts
  | cancel completion =>
      simp only [step] at stepped
      split at stepped
      · next made =>
        cases stepped
        exact .spawns _ _ _ (.called _ _ (.cancel completion made))
      · contradiction
  | startWriter =>
      simp only [step] at stepped
      split at stepped
      · contradiction
      · next free =>
        cases stepped
        simp only [Bool.or_eq_true, not_or, Bool.not_eq_true] at free
        exact .plain _ _ (.startsWriter free.1.1 free.1.2 free.2)
  | writer turn =>
      obtain ⟨state, pushed, idle, moved, rfl⟩ := work_steps stepped
      exact .writer turn state pushed idle (PipelineState.writerStep_moves moved)
  | startSender =>
      simp only [step] at stepped
      split at stepped
      · contradiction
      · next free =>
        cases stepped
        simp only [Bool.or_eq_true, not_or, Bool.not_eq_true] at free
        exact .plain _ _ (.startsSender free.1.1 free.1.2 free.2)
  | sender turn =>
      obtain ⟨state, pushed, idle, moved, rfl⟩ := work_steps stepped
      exact .sender turn state pushed idle (PipelineState.senderStep_moves moved)
  | opened =>
      simp only [step] at stepped
      split at stepped
      · contradiction
      · next started =>
        split at stepped
        · cases stepped
          exact .plain _ _ .opensLate
        · next free =>
          cases stepped
          simp only [Bool.or_eq_true, not_or, Bool.not_eq_true] at free
          exact .plain _ _ (.opens (by simpa using started) free.1.2)
  | disconnect =>
      simp only [step] at stepped
      split at stepped
      · next started =>
        cases stepped
        exact .spawns _ _ _ (.called _ _ (.disconnect started))
      · contradiction
  | finalize =>
      simp only [step] at stepped
      split at stepped
      · next started =>
        cases stepped
        exact .spawns _ _ _ (.called _ _ (.finalize started))
      · contradiction
  | closeConnector fromSender =>
      cases stepped
      exact .spawns _ _ _ (.called _ _ (.closeConnector fromSender))
  | stopWriter fromWorker =>
      cases stepped
      exact .spawns _ _ _ (.called _ _ (.stopWriter fromWorker))
  | stopAccepting =>
      cases stepped
      exact .spawns _ _ _ (.called _ _ .stopAccepting)
  | shutdown =>
      cases stepped
      exact .spawns _ _ _ (.called _ _ .shutdown)
  | shutdownRaw =>
      cases stepped
      exact .spawns _ _ _ (.called _ _ .shutdownRaw)
  | closeBoundary =>
      simp only [step] at stepped
      split at stepped
      · contradiction
      · next opened =>
        rw [Bool.not_eq_true] at opened
        cases stepped
        exact .spawns _ _ _ (.closes opened)
  | run index choice => exact run_steps stepped

omit [Inhabited Command] in
theorem unwound_cases (index : Nat) : world.unwound index = world.state ∨
    world.unwound index = world.state.writerAt world.state.writer.point.unwound ∨
    world.unwound index = world.state.senderAt .exiting := by
  unfold unwound
  split
  · exact .inr (.inl rfl)
  · split
    · exact .inr (.inr rfl)
    · exact .inl rfl

theorem run_raises {index : Nat} (stepped : world.run index .raises = some after) :
    ∃ completion rest, world.threads[index]? = some (.command (.observe completion) :: rest) ∧
      after = ⟨world.unwound index, resume world.threads index []⟩ := by
  unfold run at stepped
  split at stepped
  · next op rest found =>
    split at stepped
    · next completion _ =>
      cases stepped
      exact ⟨completion, rest, found, rfl⟩
    · contradiction
    · next returns _ => exact absurd rfl returns
  · contradiction

theorem run_returns {index : Nat} {choice : Choice} (returns : choice ≠ .raises)
    (stepped : world.run index choice = some after) :
    ∃ op rest state pushed, world.threads[index]? = some (op :: rest) ∧
      world.state.OpMoves choice op state pushed ∧
      after = ⟨state, resume world.threads index (pushed ++ rest)⟩ := by
  unfold run at stepped
  split at stepped
  · next op rest found =>
    split at stepped
    · exact absurd rfl returns
    · contradiction
    · obtain ⟨⟨state, pushed⟩, advanced, rfl⟩ := Option.map_eq_some_iff.mp stepped
      exact ⟨op, rest, state, pushed, found, PipelineState.advance_moves advanced, rfl⟩
  · contradiction

/-- What stands behind the first calls of the threads came there with a step's calls. -/
theorem Steps.behind (steps : world.Steps config label after) {permitted : PipelineOp → Prop}
    (behind : Behind world.threads permitted)
    (tail : ∀ gone pushed, world.state.Changes config label gone after.state pushed →
      ∀ op ∈ pushed.tail, permitted op) : Behind after.threads permitted := by
  cases steps with
  | plain _ state changes => exact behind
  | spawns _ state stack changes => exact behind.append (tail _ _ changes)
  | writer turn state pushed idle moves =>
      exact behind.set (tail _ _ (.writer turn state pushed moves))
  | sender turn state pushed idle moves =>
      exact behind.set (tail _ _ (.sender turn state pushed moves))
  | run index choice op rest state pushed returns found moves =>
      exact behind.resume found (tail _ _ (.run index choice op state pushed returns moves))
  | raises index completion rest found => exact behind.set nofun

/-- What a step does, for proofs that only look at which calls are still to make. -/
theorem Steps.changes (steps : world.Steps config label after) : ∃ gone pushed,
    world.state.Changes config label gone after.state pushed ∧
      (∀ op ∈ gone, Running world.threads op) ∧
      Shifts gone pushed (Running world.threads) (Running after.threads) := by
  cases steps with
  | plain _ state changes => exact ⟨[], [], changes, nofun, .refl _⟩
  | spawns _ state stack changes => exact ⟨[], stack, changes, nofun, shifts_append _ stack⟩
  | writer turn state pushed idle moves =>
      exact ⟨[], pushed, .writer turn state pushed moves, nofun, shifts_work idle⟩
  | sender turn state pushed idle moves =>
      exact ⟨[], pushed, .sender turn state pushed moves, nofun, shifts_work idle⟩
  | run index choice op rest state pushed returns found moves =>
      refine ⟨[op], pushed, .run index choice op state pushed returns moves, ?_, shifts_resume found⟩
      intro other member
      rw [List.mem_singleton.mp member]
      exact .of_thread found List.mem_cons_self
  | raises index completion rest found =>
      exact ⟨_, [], .raises index _ _ (unwound_cases index),
        fun op member => .of_thread found member, shifts_unwind found⟩

/-- What holds at first and is kept by all that a step does holds in every state
that permitted steps reach. -/
theorem reachableBy_invariant {allowed : PipelineWorld Command Payload → PipelineLabel Command → Prop}
    {motive : PipelineState Command Payload → (PipelineOp → Prop) → Prop}
    (reachable : (pipelineSystem config).ReachableBy allowed world)
    (known : PipelineWorld Command Payload → Prop)
    (established : ∀ reached, (pipelineSystem config).ReachableBy allowed reached → known reached)
    (start : ∀ running, (∀ op, ¬ running op) → motive {} running)
    (preserved : ∀ (before : PipelineWorld Command Payload) label gone state pushed later,
      known before → allowed before label → before.state.Changes config label gone state pushed →
      (∀ op ∈ gone, Running before.threads op) → Shifts gone pushed (Running before.threads) later →
      motive before.state (Running before.threads) → motive state later) :
    motive world.state (Running world.threads) := by
  refine System.ReachableBy.invariant_along
    (motive := fun world => motive world.state (Running world.threads)) reachable known established
    ?_ ?_
  · rintro first rfl
    exact start _ fun op => not_running_idle (by simp)
  · intro before label after permitted sound holds stepped
    obtain ⟨gone, pushed, changes, called, shifts⟩ := (step_steps stepped).changes
    exact preserved before label gone after.state pushed _ sound permitted changes called shifts holds

end PipelineWorld

end StreamDockSdk.Boundary
