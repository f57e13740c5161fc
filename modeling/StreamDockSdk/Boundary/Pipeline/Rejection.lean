import StreamDockSdk.Boundary.Pipeline.Safety
import StreamDockSdk.Boundary.Pipeline.Receipts

namespace StreamDockSdk.Boundary

open Automaton Messaging Transport

variable {Command Key Payload : Type} [Inhabited Command]

/-- How a `shutdown` ends whose drain timed out. -/
inductive RejectionEnd where
  /-- It returned false. -/
  | returned
  /-- An exception came out of it. -/
  | raised
deriving DecidableEq, Repr

/-- A call of `shutdown` that removed what was left in the queue. -/
structure Rejection where
  removed : List Nat
  ending : Option RejectionEnd := none
deriving DecidableEq, Repr

namespace PipelineOp

/-- The call is the loop of `shutdown` over what it removed. -/
def rejects : PipelineOp → Bool
  | .rejectFrames _ => true
  | _ => false

/-- The call may be made by a callback of a receipt. -/
def callback : PipelineOp → Bool
  | .command _ | .terminateReceipt _ | .finishReceipt .. | .completeReceipt .. | .discardFrame _
  | .abortSend _ | .abortSocket _ => true
  | _ => false

end PipelineOp

/-- A boundary with the latest such call of each thread. -/
structure RejectingWorld (Command Payload : Type) where
  pipeline : PipelineWorld Command Payload := {}
  rejections : Nat → Option Rejection := fun _ => none

namespace RejectingWorld

variable (world : RejectingWorld Command Payload)

/-- What is on record once the thread's call has ended. -/
def ended (thread : Nat) (ending : RejectionEnd) : Option Rejection :=
  (world.rejections thread).map fun rejection => { rejection with ending := some ending }

/-- What is on record of a thread after its next region. -/
def recorded (thread : Nat) (choice : Choice) (stack : List PipelineOp) : Option Rejection :=
  match stack with
  | .discardRaw :: _ => some { removed := world.pipeline.state.raw.items.map (·.completion) }
  | .rejectFrames [] :: _ => world.ended thread .returned
  | .rejectFrames (completion :: _) :: _ =>
      if world.pipeline.state.received completion then world.ended thread .raised
      else world.rejections thread
  | .command (.observe _) :: rest =>
      if choice = .raises && rest.any PipelineOp.rejects then world.ended thread .raised
      else world.rejections thread
  | _ => world.rejections thread

def rejectionsAfter (label : PipelineLabel Command) : Nat → Option Rejection :=
  match label with
  | .run thread choice =>
      match world.pipeline.threads[thread]? with
      | some stack => Function.update world.rejections thread (world.recorded thread choice stack)
      | none => world.rejections
  | _ => world.rejections

def step [BEq Key] (config : PipelineConfig Command Key Payload) (label : PipelineLabel Command) :
    Option (RejectingWorld Command Payload) :=
  (world.pipeline.step config label).map fun after => ⟨after, world.rejectionsAfter label⟩

/-- The call does not raise, and has finished the receipts of what it removed when it
returns. -/
def RejectsAll : Prop :=
  ∀ thread rejection, world.rejections thread = some rejection →
    rejection.ending ≠ some .raised ∧
      (rejection.ending = some .returned → ∀ completion ∈ rejection.removed,
        world.pipeline.state.received completion = true)

/-- The loop of `shutdown` comes to a frame whose receipt is pending, and no observer
that it calls raises a `BaseException`. -/
def rejectsPending : PipelineLabel Command → Bool
  | .run thread choice =>
      match world.pipeline.threads[thread]? with
      | some (.rejectFrames (completion :: _) :: _) => !world.pipeline.state.received completion
      | some (.command (.observe _) :: rest) => !(choice = .raises && rest.any PipelineOp.rejects)
      | _ => true
  | _ => true

end RejectingWorld

/-- A boundary whose raw queue may be shut down by any number of threads. -/
def rejectingSystem [BEq Key] (config : PipelineConfig Command Key Payload) :
    System (RejectingWorld Command Payload) (PipelineLabel Command) where
  initial world := world = {}
  step world := world.step config

/-- Only callbacks stand before the loop of `shutdown`. -/
def Orderly (stack : List PipelineOp) : Prop :=
  stack.Pairwise fun op later => later.rejects = true → op.callback = true

theorem orderly_of_quiet {stack : List PipelineOp} (quiet : ∀ op ∈ stack, op.rejects = false) :
    Orderly stack := by
  rw [Orderly, List.pairwise_iff_forall_sublist]
  intro op later sublist rejects
  rw [quiet later (sublist.subset (by simp))] at rejects
  contradiction

namespace PipelineState

variable {config : PipelineConfig Command Key Payload}
variable {state after : PipelineState Command Payload} {gone pushed : List PipelineOp}
variable {op : PipelineOp} {choice : Choice}

omit [Inhabited Command] in
theorem receiptCallbacks_callback {target : Nat} {error : Outcome} :
    ∀ op ∈ state.receiptCallbacks target error, op.callback = true ∧ op.rejects = false := by
  intro op made
  unfold receiptCallbacks at made
  grind [PipelineOp.callback, PipelineOp.rejects]

/-- A callback calls callbacks only. -/
theorem OpMoves.callbacks (moves : state.OpMoves choice op after pushed) (callback : op.callback = true) :
    ∀ made ∈ pushed, made.callback = true ∧ made.rejects = false := by
  cases moves with
  | command call commands calls =>
      intro made member
      obtain ⟨issued, _, rfl⟩ := List.mem_map.mp member
      exact ⟨rfl, rfl⟩
  | finishes => exact receiptCallbacks_callback
  | announces completion =>
      intro made member
      rcases List.mem_cons.mp member with rfl | later
      · exact ⟨rfl, rfl⟩
      · split at later
        · simp only [List.mem_cons, List.not_mem_nil, or_false] at later
          rcases later with rfl | rfl <;> exact ⟨rfl, rfl⟩
        · contradiction
  | expires | terminates | completes | aborts => simp [PipelineOp.callback, PipelineOp.rejects]
  | spares | finishesLate | completesLate | discards | abortsLate | abortsSocket => nofun
  | _ => contradiction

theorem OpMoves.orderly (moves : state.OpMoves choice op after pushed) : Orderly pushed := by
  by_cases callback : op.callback = true
  · exact orderly_of_quiet fun made member => (moves.callbacks callback made member).2
  · cases moves with
    | rejects completion rest =>
        refine List.pairwise_append.mpr ⟨?_, List.pairwise_singleton _ _, fun made member _ _ _ => ?_⟩
        · exact orderly_of_quiet fun made member => (receiptCallbacks_callback made member).2
        · exact (receiptCallbacks_callback made member).1
    | discardsRaw => exact List.pairwise_singleton _ _
    | stopsLate fromWorker | stops fromWorker | stopsUnstarted fromWorker =>
        apply orderly_of_quiet
        cases fromWorker <;> simp [PipelineOp.rejects]
    | requests fromSender pushed shape =>
        apply orderly_of_quiet
        rcases shape with rfl | rfl <;> decide
    | command | announces | expires | spares | terminates | finishesLate | finishes | completesLate
    | completes | discards | abortsLate | aborts | abortsSocket => exact absurd rfl callback
    | _ => exact orderly_of_quiet (by simp [PipelineOp.rejects])

/-- The loop is left to make by a `shutdown` whose drain timed out, and by itself. -/
theorem OpMoves.rejecting (moves : state.OpMoves choice op after pushed) {rest : List Nat}
    (made : .rejectFrames rest ∈ pushed) :
    (op = .discardRaw ∧ rest = state.raw.items.map (·.completion)) ∨
      ∃ completion, op = .rejectFrames (completion :: rest) ∧
        state.received completion = false ∧ after.received completion = true := by
  cases moves with
  | discardsRaw =>
      cases List.mem_singleton.mp made
      exact .inl ⟨rfl, rfl⟩
  | rejects completion others receipt finished =>
      obtain ⟨undone, rfl⟩ := TransportReceipt.finish_some finished
      rcases List.mem_append.mp made with callback | last
      · exact nomatch (receiptCallbacks_callback _ callback).2
      · cases List.mem_singleton.mp last
        refine .inr ⟨completion, rfl, ?_, ?_⟩
        · rw [received, undone]
          rfl
        · show (Function.update state.receipts completion _ completion).done.isSome = true
          rw [Function.update_self]
          rfl
  | finishes => exact nomatch (receiptCallbacks_callback _ made).2
  | command call commands calls =>
      obtain ⟨issued, _, same⟩ := List.mem_map.mp made
      contradiction
  | announces => grind
  | requests fromSender pushed shape => rcases shape with rfl | rfl <;> simp at made
  | stopsLate fromWorker | stops fromWorker | stopsUnstarted fromWorker =>
      cases fromWorker <;> simp at made
  | _ => simp at made

variable [BEq Key] {label : PipelineLabel Command}

/-- Only a call of `shutdown` leaves its loop to make. -/
theorem Changes.quiet (changes : state.Changes config label gone after pushed)
    (other : ∀ thread choice, label ≠ .run thread choice) : ∀ op ∈ pushed, op.rejects = false := by
  cases changes with
  | called label stack entry => cases entry <;> simp [PipelineOp.rejects, disconnectOps]
  | closes => decide
  | writer turn after pushed moves =>
      cases moves with
      | rejects => exact fun op member => (receiptCallbacks_callback op member).2
      | _ => simp [PipelineOp.rejects]
  | sender turn after pushed moves =>
      cases moves <;> simp [PipelineOp.rejects, disconnectOps]
  | run index choice => exact absurd rfl (other index choice)
  | raises index => exact absurd rfl (other index .raises)
  | sends =>
      split
      · simp [PipelineOp.rejects]
      · simp
  | _ => simp

end PipelineState

namespace PipelineWorld

variable [BEq Key] {config : PipelineConfig Command Key Payload}
variable {world after : PipelineWorld Command Payload} {label : PipelineLabel Command}

/-- What a step that is not one of a call leaves on a thread was there before, or has
nothing to do with `shutdown`. -/
theorem Steps.quiet (steps : world.Steps config label after)
    (other : ∀ thread choice, label ≠ .run thread choice) {thread : Nat} {stack : List PipelineOp}
    (found : after.threads[thread]? = some stack) :
    world.threads[thread]? = some stack ∨ ∀ op ∈ stack, op.rejects = false := by
  have replaced {index : Nat} {old new : List PipelineOp} (here : world.threads[index]? = some old)
      (quiet : ∀ op ∈ new, op.rejects = false)
      (located : (resume world.threads index new)[thread]? = some stack) :
      world.threads[thread]? = some stack ∨ ∀ op ∈ stack, op.rejects = false := by
    rw [resume, getElem?_set_found here] at located
    split at located
    · cases located
      exact .inr quiet
    · exact .inl located
  cases steps with
  | plain => exact .inl found
  | spawns _ state added changes =>
      by_cases within : thread < world.threads.length
      · exact .inl (by rwa [List.getElem?_append_left within] at found)
      · rw [List.getElem?_append_right (by omega)] at found
        rw [List.mem_singleton.mp (List.mem_of_getElem? found)]
        exact .inr (changes.quiet other)
  | writer turn state pushed idle moves =>
      have changes : world.state.Changes config (.writer turn) [] state pushed :=
        .writer turn state pushed moves
      exact replaced idle (changes.quiet other) found
  | sender turn state pushed idle moves =>
      have changes : world.state.Changes config (.sender turn) [] state pushed :=
        .sender turn state pushed moves
      exact replaced idle (changes.quiet other) found
  | run index choice => exact absurd rfl (other index choice)
  | raises index => exact absurd rfl (other index .raises)

end PipelineWorld

namespace RejectingWorld

variable [BEq Key] {config : PipelineConfig Command Key Payload}
variable {world after : RejectingWorld Command Payload} {label : PipelineLabel Command}

/-- The loop on the thread has still to finish the receipts of what it removed that
nobody else finished. -/
def Follows (world : RejectingWorld Command Payload) (thread : Nat) (rest : List Nat) : Prop :=
  ∃ rejection, world.rejections thread = some rejection ∧ rejection.ending = none ∧
    ∀ completion ∈ rejection.removed,
      completion ∈ rest ∨ world.pipeline.state.received completion = true

/-- Every thread that is in the loop has a call that has not ended. -/
structure Tracked (world : RejectingWorld Command Payload) : Prop where
  orderly : ∀ stack ∈ world.pipeline.threads, Orderly stack
  follows : ∀ thread stack rest, world.pipeline.threads[thread]? = some stack →
    .rejectFrames rest ∈ stack → world.Follows thread rest

section

omit [Inhabited Command]

theorem Follows.carry {thread : Nat} {rest : List Nat} (follows : world.Follows thread rest)
    (same : after.rejections thread = world.rejections thread)
    (received : ∀ completion, world.pipeline.state.received completion = true →
      after.pipeline.state.received completion = true) : after.Follows thread rest := by
  obtain ⟨rejection, found, open_ended, left⟩ := follows
  exact ⟨rejection, same.trans found, open_ended, fun completion member =>
    (left completion member).imp_right (received completion)⟩

theorem rejectionsAfter_run {thread : Nat} {stack : List PipelineOp} (choice : Choice)
    (found : world.pipeline.threads[thread]? = some stack) :
    world.rejectionsAfter (.run thread choice) =
      Function.update world.rejections thread (world.recorded thread choice stack) := by
  simp only [rejectionsAfter, found]

/-- Calls that are neither the end of a drain nor the loop leave the record as it is. -/
theorem recorded_inert {thread : Nat} {choice : Choice} {op : PipelineOp} {rest : List PipelineOp}
    (returns : choice ≠ .raises) (undrained : op ≠ .discardRaw) (quiet : op.rejects = false) :
    world.recorded thread choice (op :: rest) = world.rejections thread := by
  unfold recorded
  split
  · next same =>
    cases same
    contradiction
  · next same =>
    cases same
    contradiction
  · next same =>
    cases same
    contradiction
  · simp [returns]
  · rfl

/-- Behind a call that is no callback there is no loop. -/
theorem Tracked.quiet (tracked : world.Tracked) {thread : Nat} {op : PipelineOp}
    {rest : List PipelineOp} (found : world.pipeline.threads[thread]? = some (op :: rest))
    (plain : op.callback = false) : ∀ later ∈ rest, later.rejects = false := by
  intro later member
  rw [Bool.eq_false_iff]
  intro rejects
  have orderly := tracked.orderly _ (List.mem_of_getElem? found)
  have callback := (List.pairwise_cons.mp orderly).1 later member rejects
  rw [plain] at callback
  contradiction

end

/-- A call of the loop or before it leaves the record of its thread in agreement with
what the thread has still to do. -/
theorem Tracked.called (tracked : world.Tracked) {thread : Nat} {choice : Choice} {op : PipelineOp}
    {rest pushed : List PipelineOp} {state : PipelineState Command Payload} {left : List Nat}
    (returns : choice ≠ .raises) (found : world.pipeline.threads[thread]? = some (op :: rest))
    (moves : world.pipeline.state.OpMoves choice op state pushed)
    (received : ∀ completion, world.pipeline.state.received completion = true →
      state.received completion = true)
    (member : .rejectFrames left ∈ pushed ++ rest) :
    ∃ rejection, world.recorded thread choice (op :: rest) = some rejection ∧
      rejection.ending = none ∧ ∀ completion ∈ rejection.removed,
        completion ∈ left ∨ state.received completion = true := by
  rcases List.mem_append.mp member with made | behind
  · rcases moves.rejecting made with ⟨rfl, rfl⟩ | ⟨completion, rfl, pending, done⟩
    · exact ⟨_, rfl, rfl, fun completion within => .inl within⟩
    · obtain ⟨rejection, here, running, follows⟩ :=
        tracked.follows thread _ _ found List.mem_cons_self
      refine ⟨rejection, ?_, running, fun target within => ?_⟩
      · simp [recorded, pending, here]
      · rcases follows target within with listed | before
        · rcases List.mem_cons.mp listed with rfl | later
          · exact .inr done
          · exact .inl later
        · exact .inr (received target before)
  · cases callback : op.callback with
    | false => exact nomatch tracked.quiet found callback _ behind
    | true =>
        obtain ⟨rejection, here, running, follows⟩ :=
          tracked.follows thread _ _ found (List.mem_cons_of_mem op behind)
        refine ⟨rejection, ?_, running, fun target within =>
          (follows target within).imp_right (received target)⟩
        rw [recorded_inert returns ?_ ?_, here]
        · rintro rfl
          contradiction
        · cases op <;> first | rfl | contradiction

theorem Tracked.step (tracked : world.Tracked)
    (receipted : world.pipeline.state.Receipted (Running world.pipeline.threads))
    (stepped : world.step config label = some after) : after.Tracked := by
  obtain ⟨pipeline, moved, rfl⟩ := Option.map_eq_some_iff.mp stepped
  have steps := PipelineWorld.step_steps moved
  obtain ⟨gone, made, changes, _, _⟩ := steps.changes
  have received (completion : Nat) (done : world.pipeline.state.received completion = true) :
      pipeline.state.received completion = true := receipted.received changes.marked done
  by_cases runs : ∃ thread choice, label = .run thread choice
  · obtain ⟨thread, choice, rfl⟩ := runs
    -- The threads other than the one that runs keep their calls and their records.
    have beside {old new : List PipelineOp} {other : Nat} {stack : List PipelineOp} {left : List Nat}
        (here : world.pipeline.threads[thread]? = some old)
        (threads : pipeline.threads = resume world.pipeline.threads thread new)
        (found : pipeline.threads[other]? = some stack) (member : .rejectFrames left ∈ stack)
        (own : .rejectFrames left ∈ new → ∃ rejection,
          world.recorded thread choice old = some rejection ∧ rejection.ending = none ∧
            ∀ completion ∈ rejection.removed, completion ∈ left ∨
              pipeline.state.received completion = true) :
        RejectingWorld.Follows ⟨pipeline, world.rejectionsAfter (.run thread choice)⟩ other left := by
      rw [threads, resume, getElem?_set_found here] at found
      have record := rejectionsAfter_run choice here
      split at found
      · next same =>
        cases found
        subst same
        obtain ⟨rejection, ending⟩ := own member
        refine ⟨rejection, ?_, ending.2⟩
        show world.rejectionsAfter (.run other choice) other = some rejection
        rw [record, Function.update_self]
        exact ending.1
      · next apart =>
        refine (tracked.follows other stack left found member).carry ?_ received
        show world.rejectionsAfter (.run thread choice) other = world.rejections other
        rw [record, Function.update_of_ne apart]
    by_cases raises : choice = .raises
    · subst raises
      obtain ⟨completion, rest, found, rfl⟩ := PipelineWorld.run_raises moved
      refine ⟨fun stack member => ?_, fun other stack left here member => ?_⟩
      · rcases List.mem_or_eq_of_mem_set member with kept | rfl
        · exact tracked.orderly stack kept
        · exact .nil
      · exact beside found rfl here member (by simp)
    · obtain ⟨op, rest, state, pushed, found, moves, rfl⟩ := PipelineWorld.run_returns raises moved
      have orderly := List.pairwise_cons.mp (tracked.orderly _ (List.mem_of_getElem? found))
      refine ⟨fun stack member => ?_, fun other stack left here member => ?_⟩
      · rcases List.mem_or_eq_of_mem_set member with kept | rfl
        · exact tracked.orderly stack kept
        · refine List.pairwise_append.mpr ⟨moves.orderly, orderly.2, fun made within later behind => ?_⟩
          intro rejects
          exact (moves.callbacks (orderly.1 later behind rejects) made within).1
      · exact beside found rfl here member (tracked.called raises found moves received)
  · have other (thread : Nat) (choice : Choice) : label ≠ .run thread choice :=
      fun same => runs ⟨thread, choice, same⟩
    have kept : world.rejectionsAfter label = world.rejections := by
      cases label with
      | run thread choice => exact absurd rfl (other thread choice)
      | _ => rfl
    constructor
    · intro stack member
      obtain ⟨thread, found⟩ := List.getElem?_of_mem member
      rcases steps.quiet other found with before | quiet
      · exact tracked.orderly stack (List.mem_of_getElem? before)
      · exact orderly_of_quiet quiet
    · intro thread stack rest found member
      rcases steps.quiet other found with before | quiet
      · exact (tracked.follows thread stack rest before member).carry (by rw [kept]) received
      · cases quiet _ member

theorem rejecting_reachable (reachable : (rejectingSystem config).Reachable world) :
    (pipelineSystem config).Reachable world.pipeline := by
  refine System.Reachable.invariant
    (motive := fun world => (pipelineSystem config).Reachable world.pipeline) reachable ?_ ?_
  · rintro first rfl
    exact .initial rfl
  · intro before label after reached stepped
    obtain ⟨pipeline, moved, rfl⟩ := Option.map_eq_some_iff.mp stepped
    exact reached.next label moved

theorem reachable_tracked (reachable : (rejectingSystem config).Reachable world) : world.Tracked := by
  refine System.Reachable.invariant_given reachable
    (fun world => world.pipeline.state.Receipted (Running world.pipeline.threads))
    (fun _ reached => PipelineWorld.reachable_receipted (rejecting_reachable reached)) ?_ ?_
  · rintro first rfl
    refine ⟨fun stack member => ?_, fun thread stack rest found member => ?_⟩
    · rw [show stack = [] by simpa using member]
      exact .nil
    · rw [show stack = [] by simpa using List.mem_of_getElem? found] at member
      contradiction
  · exact fun before label after receipted tracked stepped => tracked.step receipted stepped

omit [Inhabited Command] in
/-- What a region puts on record of its thread, where the loop meets pending receipts. -/
theorem recorded_cases {thread : Nat} {choice : Choice} {stack : List PipelineOp}
    {rejection : Rejection} (found : world.pipeline.threads[thread]? = some stack)
    (pending : world.rejectsPending (.run thread choice) = true)
    (recorded : world.recorded thread choice stack = some rejection) :
    world.rejections thread = some rejection ∨ rejection.ending = none ∨
      ∃ before rest, stack = .rejectFrames [] :: rest ∧ world.rejections thread = some before ∧
        rejection = { before with ending := some .returned } := by
  unfold RejectingWorld.recorded at recorded
  unfold rejectsPending at pending
  simp only [found] at pending
  split at recorded
  · cases recorded
    exact .inr (.inl rfl)
  · next rest =>
    obtain ⟨before, here, rfl⟩ := Option.map_eq_some_iff.mp recorded
    exact .inr (.inr ⟨before, rest, rfl, here, rfl⟩)
  · next completion rest _ =>
    have unfinished : world.pipeline.state.received completion = false := by simpa using pending
    rw [unfinished, if_neg (by decide)] at recorded
    exact .inl recorded
  · next rest =>
    have spared : (decide (choice = .raises) && rest.any PipelineOp.rejects) = false :=
      (Bool.not_eq_true' _).mp pending
    rw [spared, if_neg (by decide)] at recorded
    exact .inl recorded
  · exact .inl recorded

theorem RejectsAll.step (sound : world.RejectsAll) (tracked : world.Tracked)
    (receipted : world.pipeline.state.Receipted (Running world.pipeline.threads))
    (pending : world.rejectsPending label = true)
    (stepped : world.step config label = some after) : after.RejectsAll := by
  obtain ⟨pipeline, moved, rfl⟩ := Option.map_eq_some_iff.mp stepped
  obtain ⟨gone, made, changes, _, _⟩ := (PipelineWorld.step_steps moved).changes
  have kept {thread : Nat} {rejection : Rejection} (here : world.rejections thread = some rejection) :
      rejection.ending ≠ some .raised ∧ (rejection.ending = some .returned →
        ∀ completion ∈ rejection.removed, pipeline.state.received completion = true) := by
    obtain ⟨unraised, finished⟩ := sound thread rejection here
    exact ⟨unraised, fun returned completion member =>
      receipted.received changes.marked (finished returned completion member)⟩
  intro thread rejection here
  cases label with
  | run running choice =>
      cases found : world.pipeline.threads[running]? with
      | none =>
          have same : world.rejectionsAfter (.run running choice) = world.rejections := by
            simp only [rejectionsAfter, found]
          have before : world.rejectionsAfter (.run running choice) thread = some rejection := here
          rw [same] at before
          exact kept before
      | some stack =>
          have after : world.rejectionsAfter (.run running choice) thread = some rejection := here
          rw [rejectionsAfter_run _ found] at after
          by_cases own : thread = running
          · subst own
            rw [Function.update_self] at after
            rcases recorded_cases found pending after with same | running | ended
            · exact kept same
            · rw [running]
              exact ⟨nofun, nofun⟩
            · obtain ⟨before, rest, rfl, same, rfl⟩ := ended
              refine ⟨nofun, fun _ completion member => ?_⟩
              obtain ⟨record, recorded, _, follows⟩ :=
                tracked.follows thread _ [] found List.mem_cons_self
              rw [same] at recorded
              cases recorded
              have done := (follows completion member).resolve_left List.not_mem_nil
              exact receipted.received changes.marked done
          · rw [Function.update_of_ne own] at after
            exact kept after
  | _ => exact kept here

/-- Where the loop meets a receipt that is finished, or an observer that it calls raises,
the call raises. -/
theorem unpending_raises (tracked : world.Tracked) (late : world.rejectsPending label = false)
    (stepped : world.step config label = some after) : ¬ after.RejectsAll := by
  obtain ⟨pipeline, moved, rfl⟩ := Option.map_eq_some_iff.mp stepped
  intro sound
  unfold rejectsPending at late
  split at late
  · next thread choice =>
    have raised {stack : List PipelineOp} {left : List Nat}
        (found : world.pipeline.threads[thread]? = some stack) (member : .rejectFrames left ∈ stack)
        (recorded : world.recorded thread choice stack = world.ended thread .raised) : False := by
      obtain ⟨rejection, here, _⟩ := tracked.follows thread stack left found member
      have record : world.rejectionsAfter (.run thread choice) thread =
          some { rejection with ending := some .raised } := by
        rw [rejectionsAfter_run _ found, Function.update_self, recorded, ended, here]
        rfl
      exact (sound thread _ record).1 rfl
    split at late
    · next completion rest behind found =>
      refine raised found List.mem_cons_self ?_
      have done : world.pipeline.state.received completion = true := by simpa using late
      simp only [recorded, done, if_true]
    · next completion rest found =>
      simp only [Bool.not_eq_false', Bool.and_eq_true, decide_eq_true_eq] at late
      obtain ⟨rfl, rejecting⟩ := late
      obtain ⟨op, member, rejects⟩ := List.any_eq_true.mp rejecting
      cases op with
      | rejectFrames left =>
          refine raised found (List.mem_cons_of_mem _ member) ?_
          simp [recorded, rejecting]
      | _ => contradiction
    · contradiction
  · contradiction

/-- A `shutdown` whose drain timed out returns, with every receipt finished of what it
removed, in the runs in which its loop meets pending receipts only; where it meets
another it raises. -/
theorem raw_shutdown_rejects (config : PipelineConfig Command Key Payload) :
    (∀ world, (rejectingSystem config).ReachableBy
      (fun world label => world.rejectsPending label = true) world → world.RejectsAll) ∧
    ∀ world label after, (rejectingSystem config).Reachable world →
      world.step config label = some after → world.rejectsPending label = false →
      ¬ after.RejectsAll := by
  constructor
  · intro world reachable
    refine System.ReachableBy.invariant_given reachable
      (fun world => world.Tracked ∧ world.pipeline.state.Receipted (Running world.pipeline.threads))
      (fun _ reached => ⟨reachable_tracked reached,
        PipelineWorld.reachable_receipted (rejecting_reachable reached)⟩) ?_ ?_
    · rintro first rfl
      exact nofun
    · intro before label after pending known sound stepped
      exact sound.step known.1 known.2 pending stepped
  · exact fun world label after reachable stepped late =>
      unpending_raises (reachable_tracked reachable) late stepped

end RejectingWorld

open PipelineWorld RejectingWorld

/-- A frame is in the raw queue and no sender runs. -/
def queuedFrame : List (PipelineLabel (Nat × Nat)) :=
  ([.startWriter, .sendAsync (1, 3) none true] : List (PipelineLabel (Nat × Nat))) ++ writes 12

/-- The drain of `shutdown` on the thread times out, and the loop is to begin. -/
def timesOutShutdown (thread : Nat) : List (PipelineLabel (Nat × Nat)) :=
  [.shutdownRaw, .run thread .proceed, .run thread .timesOut, .run thread .proceed]

def rejectedWorld : RejectingWorld (Nat × Nat) (Nat × Nat) :=
  (((rejectingSystem pairPipeline).restrict rejectsPending).exec {}
    (queuedFrame ++ timesOutShutdown 2 ++ runs 2 10)).get (by decide +kernel)

theorem rejectedWorld_pending : (rejectingSystem pairPipeline).ReachableBy
    (fun world label => world.rejectsPending label = true) rejectedWorld := by
  have reachable : ((rejectingSystem pairPipeline).restrict rejectsPending).Reachable rejectedWorld :=
    System.Reachable.exec (.initial rfl) (Option.some_get _).symm
  exact reachable.restricted

/-- The command of the frame was cancelled, and the callbacks of its receipt are to run. -/
def overtakenWorld : RejectingWorld (Nat × Nat) (Nat × Nat) :=
  ((rejectingSystem pairPipeline).exec {}
    (queuedFrame ++ [.cancel 0] ++ runs 2 6 ++ timesOutShutdown 3)).get (by decide +kernel)

theorem overtakenWorld_reachable : (rejectingSystem pairPipeline).Reachable overtakenWorld :=
  System.Reachable.exec (.initial rfl) (Option.some_get _).symm

def raisedWorld : RejectingWorld (Nat × Nat) (Nat × Nat) :=
  (overtakenWorld.step pairPipeline (.run 3 .proceed)).get (by decide +kernel)

theorem raw_shutdown_rejects_run :
    (rejectedWorld.rejections 2 = some ⟨[0], some .returned⟩ ∧ rejectedWorld.RejectsAll) ∧
      ¬ raisedWorld.RejectsAll :=
  ⟨⟨by decide +kernel, (raw_shutdown_rejects pairPipeline).1 rejectedWorld rejectedWorld_pending⟩,
    (raw_shutdown_rejects pairPipeline).2 overtakenWorld (.run 3 .proceed) raisedWorld
      overtakenWorld_reachable (Option.some_get _).symm (by decide +kernel)⟩

theorem raw_shutdown_raises :
    ¬ ∀ world, (rejectingSystem pairPipeline).Reachable world → world.RejectsAll := by
  intro claimed
  have stepped : overtakenWorld.step pairPipeline (.run 3 .proceed) = some raisedWorld :=
    (Option.some_get _).symm
  have sound : raisedWorld.RejectsAll :=
    claimed raisedWorld (overtakenWorld_reachable.next (.run 3 .proceed) stepped)
  have raised : raisedWorld.rejections 3 = some ⟨[0], some .raised⟩ := by decide +kernel
  exact (sound 3 _ raised).1 rfl

end StreamDockSdk.Boundary
