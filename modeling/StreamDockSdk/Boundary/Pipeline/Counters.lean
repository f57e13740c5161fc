import StreamDockSdk.Boundary.Pipeline.Coverage

namespace StreamDockSdk.Boundary

open Automaton Messaging Transport

/-! # The completion counters of the writer

The pipeline, with what `_finish_completion` does after `_finish` has returned.  A
`BaseException` of an observer leaves it before that.
-/

inductive WriterOp where
  | call (op : PipelineOp)
  /-- `_finish_completion` -/
  | finishCompletion (completion : Nat) (error : Outcome)
  /-- Its region under the writer's condition. -/
  | count (completion : Nat) (error : Outcome)
deriving DecidableEq, Repr

namespace WriterOp

/-- The call as the pipeline knows it. -/
def op? : WriterOp → Option PipelineOp
  | .call op => some op
  | .finishCompletion completion error => some (.command (.finish completion error))
  | .count _ _ => none

/-- A call that is made; `own` tells whether by a caller of `_finish_completion`. -/
def made (own : Bool) : PipelineOp → WriterOp
  | .command (.finish completion error) =>
      if own then .finishCompletion completion error
      else .call (.command (.finish completion error))
  | op => .call op

end WriterOp

/-- `_complete_receipt` and `_fail_pending_locked` call `_finish_completion`. -/
def PipelineOp.finishes : PipelineOp → Bool
  | .completeReceipt _ _ | .failPending _ => true
  | _ => false

/-- So does the worker where encoding failed, and where a `BaseException` came out. -/
def finishesAt {Command Payload : Type} : WriterPoint Command Payload → Bool
  | .failing _ | .crashed _ => true
  | _ => false

/-- A call of `_finish` by the writer that ended the command. -/
structure WriterFinish where
  completion : Nat
  error : Outcome
  recorded : Outcome
deriving DecidableEq, Repr

/-- No code reads the last two fields. -/
structure WriterCounters where
  completed : Nat := 0
  completionFailures : Nat := 0
  /-- What was counted as completed, newest first. -/
  completions : List Nat := []
  finishes : List WriterFinish := []
deriving DecidableEq, Repr

def WriterCounters.count (counters : WriterCounters) (completion : Nat) (error : Outcome) :
    WriterCounters :=
  if error = none then { counters with
    completed := counters.completed + 1
    completions := completion :: counters.completions }
  else { counters with completionFailures := counters.completionFailures + 1 }

structure CountedWorld (Command Payload : Type) where
  state : PipelineState Command Payload := {}
  counters : WriterCounters := {}
  threads : List (List WriterOp) := [[], []]

namespace CountedWorld

variable {Command Key Payload : Type} [Inhabited Command] [BEq Key]
variable (config : PipelineConfig Command Key Payload) (world : CountedWorld Command Payload)

/-- The world without the counters. -/
def pipeline : PipelineWorld Command Payload :=
  ⟨world.state, world.threads.map (List.filterMap WriterOp.op?)⟩

def work (index : Nat) (own : Bool)
    (next : Option (PipelineState Command Payload × List PipelineOp)) :
    Option (CountedWorld Command Payload) :=
  if world.threads[index]? = some [] then
    next.map fun (state, calls) => { world with
      state
      threads := resume world.threads index (calls.map (.made own)) }
  else none

def run (index : Nat) (choice : Choice) : Option (CountedWorld Command Payload) :=
  match world.threads[index]? with
  | some (.call op :: rest) =>
      match choice, op with
      | .raises, .command (.observe _) => some { world with
          state := world.pipeline.unwound index
          threads := resume world.threads index [] }
      | .raises, _ => none
      | choice, op => (world.state.advance choice op).map fun (state, calls) => { world with
          state
          threads := resume world.threads index (calls.map (.made op.finishes) ++ rest) }
  | some (.finishCompletion completion error :: rest) =>
      if choice = .raises then none
      else match (world.state.commands.future completion).finish world.state.commands.clock
          error with
        | none => some { world with threads := resume world.threads index rest }
        | some (future, abort) => some {
            state := { world.state with commands := world.state.commands.update completion future }
            counters := { world.counters with finishes :=
              ⟨completion, error, (world.state.commands.future completion).recorded
                world.state.commands.clock error⟩ :: world.counters.finishes }
            threads := resume world.threads index
              ((if abort then [.call (.abortSend completion)] else []) ++
                .call (.command (.publish completion)) :: .count completion error :: rest) }
  | some (.count completion error :: rest) =>
      if choice = .raises then none
      else some { world with
        counters := world.counters.count completion error
        threads := resume world.threads index rest }
  | _ => none

/-- Where a thread begins, it is one of the pipeline. -/
def step : PipelineLabel Command → Option (CountedWorld Command Payload)
  | .writer turn =>
      world.work 0 (finishesAt world.state.writer.point) (world.state.writerStep config turn)
  | .sender turn => world.work 1 false (world.state.senderStep turn)
  | .run index choice => world.run index choice
  | label => (PipelineWorld.step config world.pipeline label).map fun after => { world with
      state := after.state
      threads := world.threads ++
        (after.threads.drop world.threads.length).map (List.map .call) }

end CountedWorld

/-- Every run of the outbound components, with the counters of the writer. -/
def countedSystem {Command Key Payload : Type} [Inhabited Command] [BEq Key]
    (config : PipelineConfig Command Key Payload) :
    Automaton.System (CountedWorld Command Payload) (PipelineLabel Command) where
  initial world := world = {}
  step := CountedWorld.step config

namespace CountedWorld

variable {Command Payload : Type} [Inhabited Command] (world : CountedWorld Command Payload)

/-- No call of `_finish_completion` is under way. -/
def Quiescent : Prop :=
  ∀ stack ∈ world.threads, ∀ completion error, .finishCompletion completion error ∉ stack ∧
    .count completion error ∉ stack

/-- The commands that ended without an exception. -/
def succeeded : List Nat :=
  (List.range world.state.commands.futures.length).filter fun completion =>
    decide ((world.state.commands.future completion).future = some none)

/-- The commands that the writer's own call of `_finish` ended with an exception. -/
def failedByWriter : List Nat :=
  (List.range world.state.commands.futures.length).filter fun completion =>
    world.counters.finishes.any (fun finish => finish.completion == completion) &&
      ((world.state.commands.future completion).future.any Option.isSome)

/-- The counters are what became of the commands. -/
structure CountersAgree : Prop where
  completed : world.counters.completed = world.succeeded.length
  failures : world.counters.completionFailures = world.failedByWriter.length
  handled : ∀ completion ∈ world.succeeded,
    ∃ finish ∈ world.counters.finishes, finish.completion = completion
  timely : ∀ completion ∈ world.counters.completions,
    (world.state.commands.future completion).future ≠ some (some .deadlineExceeded)

/-- The writer finishes no command without an error at its deadline or later, and no observer
raises a `BaseException` out of a call of `_finish_completion`. -/
def Timely (world : CountedWorld Command Payload) : PipelineLabel Command → Prop
  | .run index .raises => ∀ stack, world.threads[index]? = some stack →
      ∀ completion error, .count completion error ∉ stack
  | .run index _ => ∀ completion rest,
      world.threads[index]? = some (.finishCompletion completion none :: rest) →
      (world.state.commands.future completion).terminal = none →
      (world.state.commands.future completion).deadlinePassed world.state.commands.clock = false
  | _ => True

end CountedWorld

end StreamDockSdk.Boundary
