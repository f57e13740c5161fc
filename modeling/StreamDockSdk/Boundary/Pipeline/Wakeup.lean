import StreamDockSdk.Boundary.Pipeline.Drain

namespace StreamDockSdk.Boundary

open Automaton Messaging Transport

variable {Command Key Payload : Type} [Inhabited Command]

/-- The threads that wait in `drain` and those that are in `_finish_completion`. -/
structure DrainWait where
  /-- A thread waits and was not notified. -/
  parked : Bool := false
  /-- The threads whose next call is the `_finish` of `_finish_completion`. -/
  finishing : List Nat := []
  /-- The threads that have the last region of `_finish_completion` to make. -/
  notifying : List Nat := []
deriving DecidableEq, Repr

namespace DrainWait

variable (wait : DrainWait)

/-- `notify_all` on the writer's condition. -/
def woken : DrainWait := { wait with parked := false }

def enters (thread : Nat) : DrainWait := { wait with finishing := thread :: wait.finishing }

/-- The `_finish` of `_finish_completion`, which decides the command or raises. -/
def decides (thread : Nat) (undecided : Bool) : DrainWait :=
  { wait with
    finishing := wait.finishing.erase thread
    notifying := if undecided then thread :: wait.notifying else wait.notifying }

/-- A `BaseException` of an observer leaves `_finish_completion`. -/
def unwinds (thread : Nat) : DrainWait :=
  { wait with notifying := wait.notifying.filter (· != thread) }

end DrainWait

/-- The next region of the worker's thread ends with `notify_all`. -/
def notifiesNext (writer : CommandWriter Command Payload) : Bool :=
  match writer.point with
  | .idling | .closed | .received _ | .leaving _ | .dropping | .stopping => true
  | .exiting => !writer.stopRequested
  | _ => false

namespace PipelineState

variable (state : PipelineState Command Payload) (wait : DrainWait)

def waitAfterWriter : DrainWait :=
  if notifiesNext state.writer then wait.woken
  else match state.writer.point with
    | .failing _ | .crashed _ => wait.enters 0
    | _ => wait

def waitAfterCall (thread : Nat) : PipelineOp → DrainWait
  | .completeReceipt completion _ =>
      if completion ∈ state.writer.pending then wait.enters thread else wait
  | .failPending (_ :: _) => wait.enters thread
  | .stopWriter _ => if !state.writer.stopped && !state.writer.started then wait.woken else wait
  | .command (.finish completion _) =>
      if thread ∈ wait.finishing then
        wait.decides thread (state.commands.future completion).terminal.isNone
      else wait
  | _ => wait

end PipelineState

/-- A boundary with the threads that wait in `drain`. -/
structure WaitingWorld (Command Payload : Type) where
  pipeline : PipelineWorld Command Payload := {}
  wait : DrainWait := {}

inductive WaitingLabel (Command : Type) where
  | pipeline (label : PipelineLabel Command)
  /-- A look of `drain` at its predicate, the first or one after a notification. -/
  | drain
  /-- The last region of `_finish_completion`. -/
  | notify (thread : Nat)
deriving DecidableEq, Repr

namespace WaitingWorld

variable (world : WaitingWorld Command Payload)

def waitAfter : PipelineLabel Command → DrainWait
  | .writer _ => world.pipeline.state.waitAfterWriter world.wait
  | .run thread .raises => world.wait.unwinds thread
  | .run thread _ =>
      match world.pipeline.nextCall thread with
      | none => world.wait
      | some op => world.pipeline.state.waitAfterCall world.wait thread op
  | _ => world.wait

def isDrained : Bool := world.pipeline.state.writer.isDrained

def step [BEq Key] (config : PipelineConfig Command Key Payload) :
    WaitingLabel Command → Option (WaitingWorld Command Payload)
  | .pipeline label => (world.pipeline.step config label).map fun after =>
      ⟨after, world.waitAfter label⟩
  | .drain =>
      some (if world.isDrained then world else { world with wait := { world.wait with parked := true } })
  | .notify thread =>
      if thread ∈ world.wait.notifying then
        some { world with wait := { world.wait.woken with
          notifying := world.wait.notifying.erase thread } }
      else none

/-- The writer is in the loop of its last region, which goes on to `notify_all`. -/
def stopping (point : WriterPoint Command Payload) : Bool :=
  match point with
  | .stopping => true
  | _ => false

/-- Some thread is on its way to a `notify_all`. -/
def noticed (wait : DrainWait) (point : WriterPoint Command Payload) : Bool :=
  !wait.finishing.isEmpty || !wait.notifying.isEmpty || stopping point

/-- No thread waits in `drain` for a notification that nobody is on the way to give,
while the predicate that it waits for is true. -/
def NoLostWakeup : Prop :=
  world.wait.parked = true →
    noticed world.wait world.pipeline.state.writer.point = false → world.isDrained = false

/-- A step ends a call of `_finish_completion`, or the writer's last region, without
its `notify_all`: the command is already decided, or an observer raises. -/
def silent : WaitingLabel Command → Bool
  | .pipeline (.run _ .raises) => true
  | .pipeline (.run thread _) =>
      match world.pipeline.nextCall thread with
      | some (.command (.finish completion _)) =>
          decide (thread ∈ world.wait.finishing) &&
            (world.pipeline.state.commands.future completion).terminal.isSome
      | _ => false
  | _ => false

/-- What is left of the notifications on their way after such a step. -/
def noticedAfter : WaitingLabel Command → Bool
  | .pipeline (.run thread .raises) =>
      noticed (world.waitAfter (.run thread .raises))
        (world.pipeline.unwound thread).writer.point
  | .pipeline label => noticed (world.waitAfter label) world.pipeline.state.writer.point
  | _ => noticed world.wait world.pipeline.state.writer.point

/-- A step ends silently only where no thread waits, the predicate is false or another
notification is on its way. -/
def rouses (label : WaitingLabel Command) : Bool :=
  !world.silent label || !world.wait.parked || !world.isDrained || world.noticedAfter label

end WaitingWorld

/-- A boundary in which threads call `CommandWriter.drain` without a time-out. -/
def waitingSystem [BEq Key] (config : PipelineConfig Command Key Payload) :
    System (WaitingWorld Command Payload) (WaitingLabel Command) where
  initial world := world = {}
  step world := world.step config

omit [Inhabited Command] in
theorem isDrained_stays {writer after : CommandWriter Command Payload}
    (stopped : after.stopped = writer.stopped) (idle : after.sourceIdle = writer.sourceIdle)
    (inFlight : after.inFlight = writer.inFlight) (pending : after.pending = writer.pending)
    (started : writer.started = true) (drained : after.isDrained = true) :
    writer.isDrained = true := by
  unfold CommandWriter.isDrained at drained ⊢
  rw [stopped, idle, inFlight, pending] at drained
  split
  · next ended => rwa [if_pos ended] at drained
  · next running =>
    rw [if_neg running] at drained
    simp only [Bool.and_eq_true] at drained ⊢
    exact ⟨⟨⟨started, drained.1.1.2⟩, drained.1.2⟩, drained.2⟩

namespace PipelineState

variable {config : PipelineConfig Command Key Payload}
variable {state after : PipelineState Command Payload} {gone pushed : List PipelineOp}

theorem WriterMoves.started (moves : state.WriterMoves config after pushed) :
    state.writer.started = true := by
  have of_point {point : WriterPoint Command Payload} (here : state.writer.point = point)
      (other : point ≠ .created) : state.writer.started = true := by
    unfold CommandWriter.started
    rw [here]
    cases point <;> first | rfl | contradiction
  cases moves with
  | passes next passes =>
      generalize here : state.writer.point = point at passes
      cases passes <;> exact of_point here nofun
  | rejects frame limit raw error receipt submits | rejectsLate frame limit raw error submits
  | cancels frame limit raw submits | waits frame limit raw submits | offers frame limit raw submits =>
      generalize here : state.writer.point = point at submits
      cases submits <;> exact of_point here nofun
  | exits point => rcases point with ⟨point, _⟩ | point <;> exact of_point point nofun
  | receives commands submission point | polls point | ends point | begins submission point
  | fails target point | registers frame point | attachesLate frame point | attaches frame point
  | expires frame deadline point | terminates frame outcome point | claims frame timeout receipt point
  | discards frame error point | keeps frame point | watches frame point | refuses frame point
  | reports frame error point | leaves target point | crashes target point | drops point
  | requests point | stops point => exact of_point point nofun

/-- Only a region of the worker that notifies makes the predicate true. -/
theorem WriterMoves.drained_before (moves : state.WriterMoves config after pushed)
    (quiet : notifiesNext state.writer = false) (drained : after.writer.isDrained = true) :
    state.writer.isDrained = true := by
  have started := moves.started
  unfold notifiesNext at quiet
  cases moves with
  | polls point | ends point | begins submission point | leaves target point | drops point =>
      rw [point] at quiet
      contradiction
  | exits point =>
      rcases point with ⟨point, unrequested⟩ | point
      · simp [point, unrequested] at quiet
      · rw [point] at quiet
        contradiction
  | registers frame =>
      simp [CommandWriter.isDrained] at drained
  | _ => refine isDrained_stays ?_ ?_ ?_ ?_ started drained <;> rfl

/-- The calls after which the predicate may have become true. -/
inductive Frees (state : PipelineState Command Payload) : PipelineOp → Prop
  | completes (completion : Nat) (error : Outcome) : completion ∈ state.writer.pending →
      Frees state (.completeReceipt completion error)
  | fails (completion : Nat) (rest : List Nat) : Frees state (.failPending (completion :: rest))
  | stops (fromWorker : Bool) : state.writer.stopped = false → state.writer.started = false →
      Frees state (.stopWriter fromWorker)

theorem OpMoves.drained_before {choice : Choice} {op : PipelineOp}
    (moves : state.OpMoves choice op after pushed) (bound : ¬ state.Frees op)
    (drained : after.writer.isDrained = true) : state.writer.isDrained = true := by
  cases moves with
  | completes completion error member => exact absurd (.completes completion error member) bound
  | failsPending completion rest => exact absurd (.fails completion rest) bound
  | stopsUnstarted fromWorker running unstarted =>
      exact absurd (.stops fromWorker running unstarted) bound
  | _ => exact drained

theorem OpMoves.finished_writer {choice : Choice} {completion : Nat} {error : Outcome}
    (moves : state.OpMoves choice (.command (.finish completion error)) after pushed) :
    after.writer = state.writer := by
  cases moves <;> rfl

omit [Inhabited Command] in
/-- Before the worker is started the predicate is false. -/
theorem fresh_undrained (fresh : state.writer.point = .created → state.writer.stopped = false →
      state.writer.sourceIdle = false) (unstarted : state.writer.started = false)
    (running : state.writer.stopped = false) (point : WriterPoint Command Payload) :
    (state.writerAt point).writer.isDrained = false := by
  have idle := fresh (CommandWriter.created_of_unstarted unstarted) running
  unfold CommandWriter.isDrained
  simp [writerAt, running, idle]

end PipelineState

namespace WaitingWorld

variable [BEq Key] {config : PipelineConfig Command Key Payload}
variable {world after : WaitingWorld Command Payload} {label : WaitingLabel Command}

omit [Inhabited Command] in
theorem unwound_isDrained (world : PipelineWorld Command Payload) (index : Nat) :
    (world.unwound index).writer.isDrained = world.state.writer.isDrained := by
  have started (writer : CommandWriter Command Payload) :
      CommandWriter.started { writer with point := writer.point.unwound } = writer.started := by
    unfold CommandWriter.started
    dsimp only
    cases writer.point <;> rfl
  rcases world.unwound_cases index with same | same | same
  · rw [same]
  · rw [same]
    show CommandWriter.isDrained { world.state.writer with
      point := world.state.writer.point.unwound } = _
    unfold CommandWriter.isDrained
    rw [started]
  · rw [same]
    rfl

/-- A worker that was neither started nor stopped has not said that its source is idle. -/
def Fresh (state : PipelineState Command Payload) : Prop :=
  state.writer.point = .created → state.writer.stopped = false → state.writer.sourceIdle = false

theorem changes_fresh {state next : PipelineState Command Payload} {gone pushed : List PipelineOp}
    {label : PipelineLabel Command} (fresh : Fresh state)
    (changes : state.Changes config label gone next pushed) : Fresh next := by
  cases changes with
  | startsWriter => nofun
  | writer turn after pushed moves =>
      intro created
      have left : next.writer.point ≠ .created := by
        cases moves with
        | passes point passes =>
            show point ≠ .created
            generalize state.writer.point = current at passes
            cases passes <;> nofun
        | polls =>
            dsimp only
            split <;> nofun
        | _ => nofun
      exact absurd created left
  | sender turn after pushed moves =>
      have same : next.writer = state.writer := by cases moves <;> rfl
      unfold Fresh
      rw [same]
      exact fresh
  | run index choice op after pushed _ moves =>
      cases moves with
      | stopsUnstarted => nofun
      | _ => exact fresh
  | raises index gone after same =>
      rcases same with rfl | rfl | rfl
      · exact fresh
      · intro created running
        refine fresh ?_ running
        have unwound : state.writer.point.unwound = .created := created
        generalize state.writer.point = point at unwound ⊢
        cases point <;> first | rfl | contradiction
      · exact fresh
  | _ => exact fresh

theorem reachable_fresh {world : PipelineWorld Command Payload}
    (reachable : (pipelineSystem config).Reachable world) : Fresh world.state := by
  refine PipelineWorld.reachableBy_invariant (motive := fun state _ => Fresh state) reachable
    (fun _ => True) (fun _ _ => trivial) (fun _ _ _ _ => rfl) ?_
  intro before label gone state pushed later _ _ changes _ _ fresh
  exact changes_fresh fresh changes

omit [Inhabited Command] in
theorem NoLostWakeup.carry (sound : world.NoLostWakeup)
    (parked : after.wait.parked = true → world.wait.parked = true)
    (notice : noticed after.wait after.pipeline.state.writer.point = false →
      noticed world.wait world.pipeline.state.writer.point = false)
    (drained : after.isDrained = true → world.isDrained = true) : after.NoLostWakeup := by
  intro waits unnoticed
  have before := sound (parked waits) (notice unnoticed)
  by_contra now
  rw [Bool.not_eq_false] at now
  rw [drained now] at before
  contradiction

omit [Inhabited Command] in
theorem noticed_of_stays {wait : DrainWait} {point next : WriterPoint Command Payload}
    (moving : stopping point = false) (unnoticed : noticed wait next = false) :
    noticed wait point = false := by
  simp only [noticed, Bool.or_eq_false_iff, moving, and_true] at unnoticed ⊢
  exact unnoticed.1

theorem writer_noLost (sound : world.NoLostWakeup) {turn : Turn}
    (stepped : world.step config (.pipeline (.writer turn)) = some after) :
    after.NoLostWakeup := by
  obtain ⟨pipeline, moved, rfl⟩ := Option.map_eq_some_iff.mp stepped
  obtain ⟨_, _, moves, _⟩ := PipelineWorld.step_writer moved
  intro waits unnoticed
  cases notifies : notifiesNext world.pipeline.state.writer with
  | true => simp [waitAfter, PipelineState.waitAfterWriter, notifies, DrainWait.woken] at waits
  | false =>
      by_cases enters : ∃ completion, world.pipeline.state.writer.point = .failing completion ∨
          world.pipeline.state.writer.point = .crashed completion
      · obtain ⟨completion, point | point⟩ := enters
        all_goals
          simp [waitAfter, PipelineState.waitAfterWriter, notifies, point, DrainWait.enters,
            noticed] at unnoticed
      · have same : world.pipeline.state.waitAfterWriter world.wait = world.wait := by
          unfold PipelineState.waitAfterWriter
          rw [notifies, if_neg (by decide)]
          split
          · next completion point => exact absurd ⟨completion, .inl point⟩ enters
          · next completion point => exact absurd ⟨completion, .inr point⟩ enters
          · rfl
        have moving : stopping world.pipeline.state.writer.point = false := by
          unfold notifiesNext at notifies
          generalize world.pipeline.state.writer.point = point at notifies
          cases point <;> first | rfl | contradiction
        have kept : NoLostWakeup ⟨pipeline, world.wait⟩ :=
          sound.carry id (noticed_of_stays moving) fun drained => moves.drained_before notifies drained
        rw [show world.waitAfter (.writer turn) = world.wait from same] at waits unnoticed
        exact kept waits unnoticed

theorem raises_noLost {thread : Nat}
    (rouses : world.rouses (.pipeline (.run thread .raises)) = true)
    (stepped : world.step config (.pipeline (.run thread .raises)) = some after) :
    after.NoLostWakeup := by
  obtain ⟨pipeline, moved, rfl⟩ := Option.map_eq_some_iff.mp stepped
  obtain ⟨completion, rest, found, rfl⟩ := PipelineWorld.run_raises moved
  intro waits unnoticed
  have waited : world.wait.parked = true := waits
  simp only [WaitingWorld.rouses, silent, waited, Bool.not_true, Bool.false_or, Bool.or_eq_true,
    Bool.not_eq_true'] at rouses
  rcases rouses with undrained | noticed_left
  · exact (unwound_isDrained world.pipeline thread).trans undrained
  · exact nomatch unnoticed.symm.trans noticed_left

omit [Inhabited Command] in
theorem finish_noLost (sound : world.NoLostWakeup) {thread : Nat} {choice : Choice}
    (returns : choice ≠ .raises) (rouses : world.rouses (.pipeline (.run thread choice)) = true)
    {completion : Nat} {error : Outcome} {state : PipelineState Command Payload}
    {threads : List (List PipelineOp)}
    (next : world.pipeline.nextCall thread = some (.command (.finish completion error)))
    (same : state.writer = world.pipeline.state.writer) :
    NoLostWakeup ⟨⟨state, threads⟩, world.waitAfter (.run thread choice)⟩ := by
  have after_call : world.waitAfter (.run thread choice) =
      world.pipeline.state.waitAfterCall world.wait thread (.command (.finish completion error)) := by
    cases choice with
    | raises => contradiction
    | _ => simp [waitAfter, next]
  by_cases member : thread ∈ world.wait.finishing
  · cases decided : (world.pipeline.state.commands.future completion).terminal with
    | none =>
        intro _ unnoticed
        simp [after_call, PipelineState.waitAfterCall, member, decided, DrainWait.decides,
          noticed] at unnoticed
    | some outcome =>
        intro waits unnoticed
        have waited : world.wait.parked = true := by
          simpa [after_call, PipelineState.waitAfterCall, member, DrainWait.decides] using waits
        have still : noticed (world.waitAfter (.run thread choice))
            world.pipeline.state.writer.point = false := by
          rw [← same]
          exact unnoticed
        show state.writer.isDrained = false
        rw [same]
        cases choice with
        | raises => contradiction
        | _ => simpa [WaitingWorld.rouses, silent, next, member, decided, waited, noticedAfter, still,
            isDrained] using rouses
  · have kept : world.waitAfter (.run thread choice) = world.wait := by
      rw [after_call]
      exact if_neg member
    rw [kept]
    refine sound.carry id (fun unnoticed => ?_) fun drained => ?_
    · rw [← same]
      exact unnoticed
    · show world.pipeline.state.writer.isDrained = true
      rw [← same]
      exact drained

theorem run_noLost (sound : world.NoLostWakeup) {thread : Nat} {choice : Choice}
    (returns : choice ≠ .raises) (rouses : world.rouses (.pipeline (.run thread choice)) = true)
    (stepped : world.step config (.pipeline (.run thread choice)) = some after) :
    after.NoLostWakeup := by
  obtain ⟨pipeline, moved, rfl⟩ := Option.map_eq_some_iff.mp stepped
  obtain ⟨op, rest, state, pushed, found, moves, rfl⟩ := PipelineWorld.run_returns returns moved
  have next : world.pipeline.nextCall thread = some op := by
    simp [PipelineWorld.nextCall, found]
  have after_call : world.waitAfter (.run thread choice) =
      world.pipeline.state.waitAfterCall world.wait thread op := by
    cases choice with
    | raises => contradiction
    | _ => simp [waitAfter, next]
  by_cases frees : world.pipeline.state.Frees op
  · intro waits unnoticed
    rw [after_call] at waits unnoticed
    cases frees with
    | completes completion error member =>
        simp [PipelineState.waitAfterCall, member, DrainWait.enters, noticed] at unnoticed
    | fails completion rest =>
        simp [PipelineState.waitAfterCall, DrainWait.enters, noticed] at unnoticed
    | stops fromWorker running unstarted =>
        simp [PipelineState.waitAfterCall, running, unstarted, DrainWait.woken] at waits
  · by_cases finishes : ∃ completion error, op = .command (.finish completion error)
    · obtain ⟨completion, error, rfl⟩ := finishes
      exact finish_noLost sound returns rouses next moves.finished_writer
    · have same : world.pipeline.state.waitAfterCall world.wait thread op = world.wait := by
        unfold PipelineState.waitAfterCall
        split
        · next completion error =>
          exact if_neg fun member => frees (.completes completion error member)
        · next completion rest => exact absurd (.fails completion rest) frees
        · next fromWorker =>
          refine if_neg fun free => frees ?_
          simp only [Bool.and_eq_true, Bool.not_eq_true'] at free
          exact .stops fromWorker free.1 free.2
        · next completion error => exact absurd ⟨completion, error, rfl⟩ finishes
        · rfl
      rw [after_call, same]
      refine sound.carry id (fun unnoticed => ?_) fun drained => moves.drained_before frees drained
      rw [← moves.point]
      exact unnoticed

/-- Labels of neither the worker nor a call leave the worker where it is, or start it. -/
theorem changes_writer {state next : PipelineState Command Payload} {gone pushed : List PipelineOp}
    {label : PipelineLabel Command} (changes : state.Changes config label gone next pushed)
    (other : ∀ turn, label ≠ .writer turn) (spared : ∀ index choice, label ≠ .run index choice) :
    next.writer = state.writer ∨ (state.writer.started = false ∧ state.writer.stopped = false ∧
      next = state.writerAt .receiving) := by
  cases changes with
  | startsWriter unstarted running => exact .inr ⟨unstarted, running, rfl⟩
  | writer turn => exact absurd rfl (other turn)
  | sender turn after pushed moves => exact .inl (by cases moves <;> rfl)
  | run index choice => exact absurd rfl (spared index choice)
  | raises index => exact absurd rfl (spared index .raises)
  | _ => exact .inl rfl

theorem other_noLost (sound : world.NoLostWakeup) (fresh : Fresh world.pipeline.state)
    {label : PipelineLabel Command} (other : ∀ turn, label ≠ .writer turn)
    (spared : ∀ index choice, label ≠ .run index choice)
    (stepped : world.step config (.pipeline label) = some after) : after.NoLostWakeup := by
  obtain ⟨pipeline, moved, rfl⟩ := Option.map_eq_some_iff.mp stepped
  obtain ⟨gone, pushed, changes, _, _⟩ := (PipelineWorld.step_steps moved).changes
  have same : world.waitAfter label = world.wait := by
    cases label with
    | writer turn => exact absurd rfl (other turn)
    | run index choice => exact absurd rfl (spared index choice)
    | _ => rfl
  rw [same]
  rcases changes_writer changes other spared with kept | ⟨unstarted, running, started⟩
  · refine sound.carry id (fun unnoticed => ?_) fun drained => ?_
    · rw [← kept]
      exact unnoticed
    · show world.pipeline.state.writer.isDrained = true
      rw [← kept]
      exact drained
  · intro _ _
    show pipeline.state.writer.isDrained = false
    rw [started]
    exact PipelineState.fresh_undrained fresh unstarted running _

theorem step_noLost (sound : world.NoLostWakeup) (fresh : Fresh world.pipeline.state)
    (rouses : world.rouses label = true) (stepped : world.step config label = some after) :
    after.NoLostWakeup := by
  cases label with
  | drain =>
      cases stepped
      split
      · exact sound
      · next undrained =>
        intro _ _
        rwa [Bool.not_eq_true] at undrained
  | notify thread =>
      simp only [WaitingWorld.step] at stepped
      split at stepped
      · cases stepped
        nofun
      · contradiction
  | pipeline label =>
      by_cases works : ∃ turn, label = .writer turn
      · obtain ⟨turn, rfl⟩ := works
        exact writer_noLost sound stepped
      by_cases runs : ∃ index choice, label = .run index choice
      · obtain ⟨index, choice, rfl⟩ := runs
        by_cases raises : choice = .raises
        · subst raises
          exact raises_noLost rouses stepped
        · exact run_noLost sound raises rouses stepped
      · exact other_noLost sound fresh (fun turn same => works ⟨turn, same⟩)
          (fun index choice same => runs ⟨index, choice, same⟩) stepped

theorem waiting_reachable (reachable : (waitingSystem config).Reachable world) :
    (pipelineSystem config).Reachable world.pipeline := by
  refine System.Reachable.invariant
    (motive := fun world => (pipelineSystem config).Reachable world.pipeline) reachable ?_ ?_
  · rintro first rfl
    exact .initial rfl
  · intro before label after reached stepped
    cases label with
    | pipeline label =>
        obtain ⟨pipeline, moved, rfl⟩ := Option.map_eq_some_iff.mp stepped
        exact reached.next label moved
    | drain =>
        cases stepped
        split <;> exact reached
    | notify thread =>
        simp only [waitingSystem, WaitingWorld.step] at stepped
        split at stepped
        · cases stepped
          exact reached
        · contradiction

theorem raises_loses {thread : Nat}
    (rouses : world.rouses (.pipeline (.run thread .raises)) = false)
    (stepped : world.step config (.pipeline (.run thread .raises)) = some after) :
    ¬ after.NoLostWakeup := by
  simp only [WaitingWorld.rouses, Bool.or_eq_false_iff, Bool.not_eq_false'] at rouses
  obtain ⟨⟨⟨_, parked⟩, drained⟩, unnoticed⟩ := rouses
  obtain ⟨pipeline, moved, rfl⟩ := Option.map_eq_some_iff.mp stepped
  obtain ⟨completion, rest, found, rfl⟩ := PipelineWorld.run_raises moved
  intro sound
  have undrained : (world.pipeline.unwound thread).writer.isDrained = false :=
    sound parked unnoticed
  rw [unwound_isDrained] at undrained
  exact Bool.noConfusion (undrained.symm.trans drained)

/-- A `_finish` that finds its command decided leaves the thread that waits where it is. -/
theorem finish_loses {thread : Nat} {choice : Choice} (returns : choice ≠ .raises)
    (rouses : world.rouses (.pipeline (.run thread choice)) = false)
    (stepped : world.step config (.pipeline (.run thread choice)) = some after) :
    ¬ after.NoLostWakeup := by
  obtain ⟨pipeline, moved, rfl⟩ := Option.map_eq_some_iff.mp stepped
  obtain ⟨op, rest, state, pushed, found, moves, rfl⟩ := PipelineWorld.run_returns returns moved
  have next : world.pipeline.nextCall thread = some op := by
    simp [PipelineWorld.nextCall, found]
  simp only [WaitingWorld.rouses, Bool.or_eq_false_iff, Bool.not_eq_false'] at rouses
  obtain ⟨⟨⟨silent, parked⟩, drained⟩, unnoticed⟩ := rouses
  have ended : ∃ completion error, op = .command (.finish completion error) ∧
      thread ∈ world.wait.finishing ∧
      (world.pipeline.state.commands.future completion).terminal.isSome = true := by
    cases choice with
    | raises => contradiction
    | _ =>
        simp only [WaitingWorld.silent, next] at silent
        split at silent
        · next completion error same =>
          cases same
          simp only [Bool.and_eq_true, decide_eq_true_eq] at silent
          exact ⟨completion, error, rfl, silent.1, silent.2⟩
        · contradiction
  obtain ⟨completion, error, rfl, member, decided⟩ := ended
  have wait : world.waitAfter (.run thread choice) =
      world.pipeline.state.waitAfterCall world.wait thread (.command (.finish completion error)) := by
    cases choice with
    | raises => contradiction
    | _ => simp [waitAfter, next]
  have left : noticed (world.waitAfter (.run thread choice)) world.pipeline.state.writer.point =
      false := by
    cases choice with
    | raises => contradiction
    | _ => exact unnoticed
  intro sound
  have waits : (world.waitAfter (.run thread choice)).parked = true := by
    rw [wait]
    simp [PipelineState.waitAfterCall, member, DrainWait.decides, parked]
  have undrained : state.writer.isDrained = false :=
    sound waits (by rw [moves.finished_writer]; exact left)
  rw [moves.finished_writer] at undrained
  exact Bool.noConfusion (undrained.symm.trans drained)

/-- A step that ends silently, while a thread waits for the predicate that is true and no
other notification is on its way, loses the wake-up. -/
theorem silent_loses (rouses : world.rouses label = false)
    (stepped : world.step config label = some after) : ¬ after.NoLostWakeup := by
  have silent : world.silent label = true := by
    simp only [WaitingWorld.rouses, Bool.or_eq_false_iff, Bool.not_eq_false'] at rouses
    exact rouses.1.1.1
  cases label with
  | pipeline label =>
      cases label with
      | run thread choice =>
          by_cases raises : choice = .raises
          · subst raises
            exact raises_loses rouses stepped
          · exact finish_loses raises rouses stepped
      | _ => contradiction
  | _ => contradiction

/-- A thread in `drain` is woken whenever its predicate becomes true in the runs in which
no end of `_finish_completion` is silent at the wrong moment; such an end loses it. -/
theorem drain_woken (config : PipelineConfig Command Key Payload) :
    (∀ world, (waitingSystem config).ReachableBy (fun world label => world.rouses label = true) world →
      world.NoLostWakeup) ∧
    ∀ world label after, (waitingSystem config).Reachable world →
      world.step config label = some after → world.rouses label = false → ¬ after.NoLostWakeup := by
  constructor
  · intro world reachable
    refine System.ReachableBy.invariant_given reachable
      (fun world => (pipelineSystem config).Reachable world.pipeline)
      (fun _ => waiting_reachable) ?_ ?_
    · rintro first rfl
      exact fun _ _ => rfl
    · intro before label after rouses reached sound stepped
      exact step_noLost sound (reachable_fresh reached) rouses stepped
  · exact fun world label after _ stepped rouses => silent_loses rouses stepped

end WaitingWorld

open PipelineWorld WaitingWorld

/-- A frame is in the raw queue when the writer finds its source empty and a thread waits
in `drain`; the command is cancelled, which forgets the frame. -/
def forgettingLabels : List (WaitingLabel (Nat × Nat)) :=
  (([.startWriter, .sendAsync (1, 3) none true] : List (PipelineLabel (Nat × Nat))) ++ writes 12 ++
    ([.writer .timesOut, .writer .proceed] : List (PipelineLabel (Nat × Nat)))).map
      WaitingLabel.pipeline ++
  [WaitingLabel.drain] ++
  (.cancel 0 :: runs 2 7 : List (PipelineLabel (Nat × Nat))).map WaitingLabel.pipeline

/-- The cancelling thread has yet to decide the command. -/
def forgettingWorld : WaitingWorld (Nat × Nat) (Nat × Nat) :=
  (((waitingSystem pairPipeline).restrict rouses).exec {} forgettingLabels).get (by decide +kernel)

theorem forgettingWorld_rouses : (waitingSystem pairPipeline).ReachableBy
    (fun world label => world.rouses label = true) forgettingWorld := by
  have reachable : ((waitingSystem pairPipeline).restrict rouses).Reachable forgettingWorld :=
    System.Reachable.exec (.initial rfl) (Option.some_get _).symm
  exact reachable.restricted

theorem forgettingWorld_reachable : (waitingSystem pairPipeline).Reachable forgettingWorld :=
  forgettingWorld_rouses.weaken fun _ _ _ => trivial

/-- The command is already decided, and `_finish_completion` returns. -/
def forgottenWorld : WaitingWorld (Nat × Nat) (Nat × Nat) :=
  (forgettingWorld.step pairPipeline (.pipeline (.run 2 .proceed))).get (by decide +kernel)

theorem drain_woken_run :
    (forgettingWorld.wait.parked = true ∧ forgettingWorld.isDrained = true ∧
      forgettingWorld.NoLostWakeup) ∧ ¬ forgottenWorld.NoLostWakeup :=
  ⟨⟨by decide +kernel, by decide +kernel,
      (drain_woken pairPipeline).1 forgettingWorld forgettingWorld_rouses⟩,
    (drain_woken pairPipeline).2 forgettingWorld (.pipeline (.run 2 .proceed)) forgottenWorld
      forgettingWorld_reachable (Option.some_get _).symm (by decide +kernel)⟩

theorem drain_wakeup_lost :
    ¬ ∀ world, (waitingSystem pairPipeline).Reachable world → world.NoLostWakeup := by
  intro claimed
  have stepped : forgettingWorld.step pairPipeline (.pipeline (.run 2 .proceed)) =
      some forgottenWorld := (Option.some_get _).symm
  have sound : forgottenWorld.NoLostWakeup :=
    claimed forgottenWorld (forgettingWorld_reachable.next (.pipeline (.run 2 .proceed)) stepped)
  have drained : forgottenWorld.isDrained = false := sound (by decide +kernel) (by decide +kernel)
  exact absurd drained (by decide +kernel)

end StreamDockSdk.Boundary
