import StreamDockSdk.Boundary.Composition.Transition

namespace StreamDockSdk.Boundary

open Automaton ComposedStreamDockBoundary

namespace BoundaryCallPc

def holdsState : BoundaryCallPc → Bool
  | .checkingClosed | .marking | .beginningStart | .starting _ | .markingStarted _ => true
  | .markingReady | .unlocking => true
  | _ => false

def holdsCondition : BoundaryCallPc → Bool
  | .checkingConnector | .creatingSender | .startingSender => true
  | _ => false

/-- Inside `run_forever` of the connector. -/
def inConnector : BoundaryCallPc → Bool
  | .connecting | .checkingConnector | .creatingSender | .startingSender => true
  | .looping | .finalizing | .completing _ => true
  | _ => false

/-- The call has set `_run_started`, and not yet `_connector_run_finished`. -/
def busy : BoundaryCallPc → Bool
  | .beginningStart | .starting _ | .markingStarted _ | .markingReady | .unlocking => true
  | .leaving => true
  | pc => pc.inConnector

/-- About to start the sender, past the connector's check. -/
def launching : BoundaryCallPc → Bool
  | .creatingSender | .startingSender => true
  | _ => false

/-- About to start the thread that finishes the close. -/
def spawning : BoundaryCallPc → Bool
  | .closing .spawning | .close .spawning => true
  | _ => false

end BoundaryCallPc

/-- What holds of the boundary while a call is at the given position. -/
structure CallSound (boundary : ComposedStreamDockBoundary) (pc : BoundaryCallPc) : Prop where
  fresh : pc = .checkingClosed ∨ pc = .marking → boundary.runStarted = false
  busy : pc.busy = true → boundary.runStarted = true ∧ boundary.connectorRunFinished = false
  ended : ∀ inProgress, pc = .completing inProgress → boundary.connector.terminal = true
  launching : pc.launching = true → boundary.connector.terminal = false
  spawning : pc.spawning = true → boundary.closing = true ∧ boundary.finish = .idle ∧
    boundary.workersStopped = false

/-- What the thread that finishes the close has brought about, one after the other. -/
inductive Milestone where
  | closing
  | commands
  | refusing
  | sealed
  | settled
  | stopped (name : WorkerName)
  | sender
  | run
deriving DecidableEq

namespace Milestone

def order : Milestone → Nat
  | .closing => 0
  | .commands => 6
  | .refusing => 12
  | .sealed => 13
  | .settled => 15
  | .stopped .reader => 19
  | .stopped .writer => 21
  | .sender => 23
  | .run => 25

def all : List Milestone :=
  [.closing, .commands, .refusing, .sealed, .settled, .stopped .reader, .stopped .writer, .sender,
    .run]

theorem order_le (milestone : Milestone) : milestone.order ≤ 25 := by
  cases milestone with
  | stopped name => cases name <;> decide
  | _ => decide

theorem within {milestone : Milestone} {low high : Nat} (above : low < milestone.order)
    (below : milestone.order ≤ high) :
    milestone ∈ all.filter fun other => decide (low < other.order ∧ other.order ≤ high) := by
  have listed : milestone ∈ all := by
    cases milestone with
    | stopped name => cases name <;> decide
    | _ => decide
  exact List.mem_filter.mpr ⟨listed, decide_eq_true ⟨above, below⟩⟩

end Milestone

def CloseStage.order : CloseStage → Nat
  | .drainingInbound => 0
  | .drainingReader => 1
  | .requesting .reader false => 2
  | .awaiting .reader false => 3
  | .shuttingInbound => 4
  | .beginningStop => 5
  | .drainingCommands => 6
  | .drainingWriter => 7
  | .requesting .writer false => 8
  | .awaiting .writer false => 9
  | .drainingOutbound => 10
  | .closingConnector => 11
  | .askingConnector | .notifyingConnector => 12
  | .closingSocket => 13
  | .checkingRun _ => 14
  | .awaitingRun _ => 15
  | .shuttingQueues => 16
  | .requesting .reader true => 17
  | .awaiting .reader true => 18
  | .requesting .writer true => 19
  | .awaiting .writer true => 20
  | .readingSender => 21
  | .joiningSender => 22
  | .checkingStarted => 23
  | .awaitingFinish => 24
  | .settingStopped => 25

/-- The thread has passed the point of the milestone. -/
def FinishPc.passed (milestone : Milestone) : FinishPc → Bool
  | .idle => false
  | .owned stage => decide (milestone.order ≤ stage.order)
  | _ => decide (milestone = .closing)

namespace BoundaryWorld

variable (world : BoundaryWorld)

/-- No call of `run_forever` can start the sender any more. -/
structure Sealed : Prop where
  refusing : world.boundary.connector.terminal = true ∨ world.boundary.connector.closing = true
  calls : ∀ pc ∈ world.calls, pc.launching = false

def Holds : Milestone → Prop
  | .closing => world.boundary.closing = true
  | .commands => world.boundary.commands = .stopping ∨ world.boundary.commands = .closed
  | .refusing =>
      world.boundary.connector.terminal = true ∨ world.boundary.connector.closing = true
  | .sealed => world.Sealed
  | .settled => ∀ pc ∈ world.calls, pc ≠ .marking
  | .stopped name => (world.boundary.worker name).stopped = true
  | .sender => world.boundary.connector.senderThread = none ∨
      world.boundary.connector.senderThread = some .exited
  | .run => world.boundary.runStarted = false ∨ world.boundary.connectorRunFinished = true

/-- The milestone has been passed. -/
def Passed (milestone : Milestone) : Prop :=
  world.boundary.workersStopped = true ∨ world.boundary.finish.passed milestone = true

end BoundaryWorld

structure BoundarySound (world : BoundaryWorld) : Prop where
  state : Exclusive BoundaryCallPc.holdsState world.boundary.stateOwner world.calls
  condition : Exclusive BoundaryCallPc.holdsCondition world.boundary.connector.conditionOwner
    world.calls
  busy : Solitary BoundaryCallPc.busy world.calls
  spawning : Solitary BoundaryCallPc.spawning world.calls
  calls : ∀ pc ∈ world.calls, CallSound world.boundary pc
  finished : world.boundary.connectorRunFinished = true → world.boundary.runStarted = true
  workers : ∀ name, (world.boundary.worker name).Sound
  completed : world.boundary.connector.closeCompleted = true → world.Sealed
  reached : ∀ milestone, world.Passed milestone → world.Holds milestone

namespace ComposedStreamDockBoundary

variable {boundary after : ComposedStreamDockBoundary} {index : Nat} {pc next : BoundaryCallPc}

/-- What a step of `close` leaves alone. -/
theorem CloseSteps.beside {pc next : CloseCallPc}
    (steps : CloseSteps boundary pc (after, next)) :
    after = { boundary with
      closing := after.closing, closeCompleted := after.closeCompleted, finish := after.finish } := by
  cases steps <;> rfl

theorem CallSteps.state (steps : CallSteps boundary index pc (after, next)) :
    Transfer BoundaryCallPc.holdsState index pc next boundary.stateOwner after.stateOwner := by
  cases steps with
  | moves moves => cases moves <;> exact .keep id
  | enter free => rw [free]; exact .acquire
  | refuse | unlock => exact .release rfl rfl
  | startFails name => cases name <;> exact .release rfl rfl
  | start name | markStarted name => cases name <;> exact .keep id
  | closing steps | close steps =>
      rw [steps.beside]
      exact .keep id
  | _ => exact .keep id

theorem CallSteps.condition (steps : CallSteps boundary index pc (after, next)) :
    Transfer BoundaryCallPc.holdsCondition index pc next boundary.connector.conditionOwner
      after.connector.conditionOwner := by
  cases steps with
  | moves moves => cases moves <;> exact .keep id
  | connect free => rw [free]; exact .acquire
  | refuseConnector | startSender | senderFails => exact .release rfl rfl
  | start name | startFails name | markStarted name => cases name <;> exact .keep id
  | closing steps | close steps =>
      rw [steps.beside]
      exact .keep id
  | _ => exact .keep id

theorem CallSteps.busy (steps : CallSteps boundary index pc (after, next)) :
    (next.busy = true → pc.busy = true) ∨ pc = .marking := by
  cases steps with
  | moves moves => cases moves <;> exact .inl (by decide)
  | mark => exact .inr rfl
  | start name | startFails name | markStarted name => cases name <;> exact .inl (by decide)
  | closing steps | close steps => exact .inl id
  | finalize | complete => exact .inl fun _ => rfl
  | _ => exact .inl (by decide)

theorem CloseSteps.spawning {pc next : CloseCallPc} (steps : CloseSteps boundary pc (after, next)) :
    next = .spawning → boundary.closing = false ∧ after = { boundary with closing := true } := by
  cases steps with
  | own open_ => exact fun _ => ⟨open_, rfl⟩
  | asked elsewhere => exact fun at_ => absurd at_ elsewhere
  | _ => exact nofun

theorem CallSteps.spawning (steps : CallSteps boundary index pc (after, next)) :
    next.spawning = true →
      boundary.closing = false ∧ after = { boundary with closing := true } := by
  cases steps with
  | moves moves => cases moves <;> exact nofun
  | markStarted name => cases name <;> exact nofun
  | @closing pc next after steps | @close pc next after steps =>
      cases next with
      | spawning => exact fun _ => steps.spawning rfl
      | _ => exact nofun
  | _ => exact nofun

/-- What a step of a call changes of the fields that other calls and the closing
thread rely on. -/
structure Beside (before after : ComposedStreamDockBoundary) (pc next : BoundaryCallPc) :
    Prop where
  started : after.runStarted = before.runStarted ∨ pc = .marking ∧ after.runStarted = true
  finished : after.connectorRunFinished = before.connectorRunFinished ∨
    pc = .leaving ∧ after.connectorRunFinished = true ∧ after.runStarted = before.runStarted
  terminal : after.connector.terminal = before.connector.terminal ∨
    pc = .finalizing ∧ after.connector.terminal = true
  refusing : after.connector.closing = before.connector.closing
  completed : after.connector.closeCompleted = before.connector.closeCompleted ∨
    ∃ inProgress, pc = .completing inProgress
  closing : before.closing = true → after.closing = true
  finish : after.finish = before.finish ∨
    pc.spawning = true ∧ after.finish = .owned .drainingInbound
  stopped : after.workersStopped = before.workersStopped
  commands : before.commands = .stopping ∨ before.commands = .closed →
    after.commands = .stopping ∨ after.commands = .closed
  sender : after.connector.senderThread = before.connector.senderThread ∨ pc.launching = true

theorem CloseSteps.besides {pc next : CloseCallPc} {call follow : BoundaryCallPc}
    (steps : CloseSteps boundary pc (after, next))
    (spawning : pc = .spawning → call.spawning = true) : Beside boundary after call follow := by
  cases steps with
  | spawn => exact ⟨.inl rfl, .inl rfl, .inl rfl, rfl, .inl rfl, id, .inr ⟨spawning rfl, rfl⟩, rfl,
      id, .inl rfl⟩
  | own => exact ⟨.inl rfl, .inl rfl, .inl rfl, rfl, .inl rfl, fun _ => rfl, .inl rfl, rfl, id,
      .inl rfl⟩
  | _ => exact ⟨.inl rfl, .inl rfl, .inl rfl, rfl, .inl rfl, id, .inl rfl, rfl, id, .inl rfl⟩

theorem CallSteps.beside (steps : CallSteps boundary index pc (after, next)) :
    Beside boundary after pc next := by
  cases steps with
  | mark => exact ⟨.inr ⟨rfl, rfl⟩, .inl rfl, .inl rfl, rfl, .inl rfl, id, .inl rfl, rfl, id,
      .inl rfl⟩
  | begins =>
      refine ⟨.inl rfl, .inl rfl, .inl rfl, rfl, .inl rfl, id, .inl rfl, rfl, ?_, .inl rfl⟩
      rintro (state | state) <;> simp [state, CommandSinkLifecycleState.beginStarting]
  | markReady =>
      refine ⟨.inl rfl, .inl rfl, .inl rfl, rfl, .inl rfl, id, .inl rfl, rfl, ?_, .inl rfl⟩
      rintro (state | state) <;> simp [state, CommandSinkLifecycleState.markReady]
  | start name | startFails name | markStarted name =>
      cases name <;> exact ⟨.inl rfl, .inl rfl, .inl rfl, rfl, .inl rfl, id, .inl rfl, rfl, id,
        .inl rfl⟩
  | createSender | startSender | senderFails =>
      exact ⟨.inl rfl, .inl rfl, .inl rfl, rfl, .inl rfl, id, .inl rfl, rfl, id, .inr rfl⟩
  | finalize => exact ⟨.inl rfl, .inl rfl, .inr ⟨rfl, rfl⟩, rfl, .inl rfl, id, .inl rfl, rfl, id,
      .inl rfl⟩
  | complete => exact ⟨.inl rfl, .inl rfl, .inl rfl, rfl, .inr ⟨_, rfl⟩, id, .inl rfl, rfl, id,
      .inl rfl⟩
  | leave => exact ⟨.inl rfl, .inr ⟨rfl, rfl, rfl⟩, .inl rfl, rfl, .inl rfl, id, .inl rfl, rfl, id,
      .inl rfl⟩
  | closing steps | close steps => exact steps.besides fun at_ => by rw [at_]; rfl
  | _ => exact ⟨.inl rfl, .inl rfl, .inl rfl, rfl, .inl rfl, id, .inl rfl, rfl, id, .inl rfl⟩

theorem CallSteps.launching (steps : CallSteps boundary index pc (after, next)) :
    next.launching = true → pc.launching = true ∨
      boundary.connector.terminal = false ∧ boundary.connector.closing = false := by
  cases steps with
  | moves moves => cases moves <;> exact nofun
  | markStarted name => cases name <;> exact nofun
  | passConnector terminal closing => exact fun _ => .inr ⟨terminal, closing⟩
  | createSender => exact fun _ => .inl rfl
  | _ => exact nofun

theorem CallSteps.marking (steps : CallSteps boundary index pc (after, next)) :
    next = .marking → boundary.closing = false := by
  cases steps with
  | moves moves => cases moves <;> exact nofun
  | markStarted name => cases name <;> exact nofun
  | pass open_ => exact fun _ => open_
  | _ => exact nofun

theorem CallSteps.ended (steps : CallSteps boundary index pc (after, next)) {inProgress : Bool} :
    next = .completing inProgress → after.connector.terminal = true := by
  cases steps with
  | moves moves => cases moves <;> exact nofun
  | markStarted name => cases name <;> exact nofun
  | finalize => exact fun _ => rfl
  | _ => exact nofun

theorem setWorker_worker (lifecycle : WorkerLifecycle) (name other : WorkerName) :
    (boundary.setWorker lifecycle name).worker other =
      if other = name then lifecycle else boundary.worker other := by
  cases name <;> cases other <;> rfl

theorem untouched (sound : ∀ name, (boundary.worker name).Sound) (name : WorkerName)
    (reader : after.reader = boundary.reader) (writer : after.writer = boundary.writer) :
    (after.worker name).Sound ∧
      ((boundary.worker name).stopped = true → (after.worker name).stopped = true) := by
  have same : after.worker name = boundary.worker name := by
    cases name
    · exact reader
    · exact writer
  rw [same]
  exact ⟨sound name, id⟩

theorem CallSteps.workers (steps : CallSteps boundary index pc (after, next))
    (sound : ∀ name, (boundary.worker name).Sound) (name : WorkerName) :
    (after.worker name).Sound ∧
      ((boundary.worker name).stopped = true → (after.worker name).stopped = true) := by
  have started (other : WorkerName) (threadStarts : Bool) : (((boundary.setWorker
      ((boundary.worker other).start threadStarts).1 other).worker name).Sound) ∧
      ((boundary.worker name).stopped = true → ((boundary.setWorker
        ((boundary.worker other).start threadStarts).1 other).worker name).stopped = true) := by
    rw [setWorker_worker]
    split
    · next same =>
      subst same
      exact ⟨WorkerLifecycle.start_sound (sound name) threadStarts, fun stopped => by
        rw [WorkerLifecycle.start_stopped threadStarts stopped]
        exact stopped⟩
    · exact ⟨sound name, id⟩
  cases steps with
  | start other threadStarts => exact started other threadStarts
  | startFails other threadStarts =>
      have kept := started other threadStarts
      cases name <;> exact kept
  | markStarted other => cases other <;> exact untouched sound name rfl rfl
  | closing steps | close steps =>
      rw [steps.beside]
      exact untouched sound name rfl rfl
  | _ => exact untouched sound name rfl rfl

end ComposedStreamDockBoundary

namespace BoundarySound

variable {world : BoundaryWorld} {after : ComposedStreamDockBoundary} {index : Nat}
variable {pc next : BoundaryCallPc} {lower upper : Milestone}

theorem passed_le (ordered : lower.order ≤ upper.order) (passed : world.Passed upper) :
    world.Passed lower := by
  refine passed.imp_right fun passed => ?_
  cases at_ : world.boundary.finish with
  | idle =>
      rw [at_] at passed
      contradiction
  | owned stage =>
      rw [at_] at passed
      simp only [FinishPc.passed, decide_eq_true_eq] at passed ⊢
      omega
  | _ =>
      rw [at_] at passed
      simp only [FinishPc.passed, decide_eq_true_eq] at passed ⊢
      subst passed
      cases lower with
      | closing => rfl
      | stopped name => cases name <;> contradiction
      | _ => contradiction

theorem sealed_kept (sealed : world.Sealed) (found : world.calls[index]? = some pc)
    (steps : CallSteps world.boundary index pc (after, next)) :
    BoundaryWorld.Sealed { boundary := after, calls := world.calls.set index next } := by
  have beside := steps.beside
  have refusing : after.connector.terminal = true ∨ after.connector.closing = true := by
    refine sealed.refusing.imp (fun terminal => ?_) fun closing => beside.refusing.trans closing
    rcases beside.terminal with same | ⟨_, set⟩
    · exact same.trans terminal
    · exact set
  refine ⟨refusing, fun other member => ?_⟩
  rcases List.mem_or_eq_of_mem_set member with old | rfl
  · exact sealed.calls other old
  · rw [← Bool.not_eq_true]
    intro launching
    rcases steps.launching launching with mine | ⟨terminal, closing⟩
    · rw [sealed.calls pc (List.mem_of_getElem? found)] at mine
      contradiction
    · simpa [terminal, closing] using sealed.refusing

/-- The calls keep what the closing thread has brought about. -/
theorem holds_kept (sound : BoundarySound world) (found : world.calls[index]? = some pc)
    (steps : CallSteps world.boundary index pc (after, next)) {milestone : Milestone}
    (passed : world.Passed milestone) :
    BoundaryWorld.Holds { boundary := after, calls := world.calls.set index next } milestone := by
  have beside := steps.beside
  have holds := sound.reached milestone passed
  cases milestone with
  | closing => exact beside.closing holds
  | commands => exact beside.commands holds
  | refusing =>
      refine Or.imp (fun terminal => ?_) (fun closing => beside.refusing.trans closing) holds
      rcases beside.terminal with same | ⟨_, set⟩
      · exact same.trans terminal
      · exact set
  | sealed => exact sealed_kept holds found steps
  | settled =>
      intro other member
      rcases List.mem_or_eq_of_mem_set member with old | rfl
      · exact holds other old
      · intro marking
        have closing : world.boundary.closing = true :=
          sound.reached .closing (passed_le (by decide) passed)
        rw [steps.marking marking] at closing
        contradiction
  | stopped name => exact (steps.workers sound.workers name).2 holds
  | sender =>
      have sealed : world.Sealed := sound.reached .sealed (passed_le (by decide) passed)
      have still := beside.sender.resolve_right
        (by simp [sealed.calls pc (List.mem_of_getElem? found)])
      exact Or.imp still.trans still.trans holds
  | run =>
      have settled : ∀ pc ∈ world.calls, pc ≠ .marking :=
        sound.reached .settled (passed_le (by decide) passed)
      have still := beside.started.resolve_right
        fun marking => settled pc (List.mem_of_getElem? found) marking.1
      refine Or.imp still.trans (fun finished => ?_) holds
      rcases beside.finished with same | ⟨_, set, _⟩
      · exact same.trans finished
      · exact set

theorem unclosed (sound : BoundarySound world) (open_ : world.boundary.closing = false) :
    world.boundary.finish = .idle ∧ world.boundary.workersStopped = false := by
  have early : ¬ world.Passed .closing := fun passed => by
    have closing : world.boundary.closing = true := sound.reached .closing passed
    rw [open_] at closing
    contradiction
  simp only [BoundaryWorld.Passed, not_or, Bool.not_eq_true] at early
  refine ⟨?_, early.1⟩
  cases at_ : world.boundary.finish with
  | idle => rfl
  | owned stage =>
      have passed := early.2
      rw [at_] at passed
      simp [FinishPc.passed, Milestone.order] at passed
  | _ =>
      have passed := early.2
      rw [at_] at passed
      contradiction

/-- The call that moves. -/
theorem call_moved (sound : BoundarySound world) (found : world.calls[index]? = some pc)
    (steps : CallSteps world.boundary index pc (after, next)) : CallSound after next := by
  have fact := sound.calls pc (List.mem_of_getElem? found)
  have beside := steps.beside
  refine ⟨fun fresh => ?_, fun busy => ?_, fun inProgress ended => ?_, fun launching => ?_,
    fun spawning => ?_⟩
  · cases steps with
    | moves moves => cases moves <;> rcases fresh with at_ | at_ <;> contradiction
    | enter _ unstarted => exact unstarted
    | pass => exact fact.fresh (.inl rfl)
    | markStarted name => cases name <;> rcases fresh with at_ | at_ <;> contradiction
    | _ => rcases fresh with at_ | at_ <;> contradiction
  · rcases steps.busy with stays | rfl
    · obtain ⟨started, unfinished⟩ := fact.busy (stays busy)
      refine ⟨?_, ?_⟩
      · rcases beside.started with same | ⟨_, set⟩
        · exact same.trans started
        · exact set
      · rcases beside.finished with same | ⟨rfl, _⟩
        · exact same.trans unfinished
        · cases steps with
          | moves moves => cases moves
          | leave => contradiction
    · have unstarted := fact.fresh (.inr rfl)
      cases steps with
      | moves moves => cases moves
      | mark =>
          refine ⟨rfl, ?_⟩
          rw [← Bool.not_eq_true]
          intro finished
          rw [sound.finished finished] at unstarted
          contradiction
  · exact steps.ended ended
  · rcases steps.launching launching with mine | ⟨terminal, _⟩
    · have running := fact.launching mine
      rcases beside.terminal with same | ⟨rfl, _⟩
      · exact same.trans running
      · contradiction
    · rcases beside.terminal with same | ⟨rfl, _⟩
      · exact same.trans terminal
      · cases steps with
        | moves moves => cases moves
        | finalize => contradiction
  · obtain ⟨open_, rfl⟩ := steps.spawning spawning
    exact ⟨rfl, sound.unclosed open_⟩

/-- Another call, while one call moves. -/
theorem call_kept (sound : BoundarySound world) (found : world.calls[index]? = some pc)
    (steps : CallSteps world.boundary index pc (after, next)) {position : Nat}
    {other : BoundaryCallPc} (located : world.calls[position]? = some other)
    (elsewhere : position ≠ index) : CallSound after other := by
  have fact := sound.calls other (List.mem_of_getElem? located)
  have beside := steps.beside
  refine ⟨fun fresh => ?_, fun busy => ?_, fun inProgress ended => ?_, fun launching => ?_,
    fun spawning => ?_⟩
  · rcases beside.started with same | ⟨rfl, _⟩
    · exact same.trans (fact.fresh fresh)
    · have holding : other.holdsState = true := by rcases fresh with rfl | rfl <;> rfl
      have mine := sound.state index .marking found rfl
      have theirs := sound.state position other located holding
      exact absurd (Option.some.inj (theirs.symm.trans mine)) elsewhere
  · obtain ⟨started, unfinished⟩ := fact.busy busy
    refine ⟨?_, ?_⟩
    · rcases beside.started with same | ⟨_, set⟩
      · exact same.trans started
      · exact set
    · rcases beside.finished with same | ⟨rfl, _⟩
      · exact same.trans unfinished
      · exact absurd (sound.busy position index other _ located busy found rfl) elsewhere
  · rcases beside.terminal with same | ⟨_, set⟩
    · exact same.trans (fact.ended inProgress ended)
    · exact set
  · rcases beside.terminal with same | ⟨rfl, _⟩
    · exact same.trans (fact.launching launching)
    · have busy : other.busy = true := by
        cases other <;> first | rfl | contradiction
      exact absurd (sound.busy position index other _ located busy found rfl) elsewhere
  · obtain ⟨closing, idle, running⟩ := fact.spawning spawning
    refine ⟨beside.closing closing, ?_, beside.stopped.trans running⟩
    rcases beside.finish with same | ⟨mine, _⟩
    · exact same.trans idle
    · exact absurd (sound.spawning position index other pc located spawning found mine) elsewhere

theorem call (sound : BoundarySound world) (found : world.calls[index]? = some pc)
    (steps : CallSteps world.boundary index pc (after, next)) :
    BoundarySound { boundary := after, calls := world.calls.set index next } := by
  have fact := sound.calls pc (List.mem_of_getElem? found)
  have beside := steps.beside
  refine ⟨sound.state.set found steps.state, sound.condition.set found steps.condition,
    sound.busy.set found ?_, sound.spawning.set found ?_, fun other member => ?_,
    fun finished => ?_, fun name => (steps.workers sound.workers name).1, fun completed => ?_,
    fun milestone passed => ?_⟩
  · refine steps.busy.imp_right ?_
    rintro rfl other member
    rw [← Bool.not_eq_true]
    intro busy
    have unstarted := fact.fresh (.inr rfl)
    rw [((sound.calls other member).busy busy).1] at unstarted
    contradiction
  · by_cases spawning : next.spawning = true
    · refine .inr fun other member => ?_
      rw [← Bool.not_eq_true]
      intro theirs
      have open_ := (steps.spawning spawning).1
      rw [((sound.calls other member).spawning theirs).1] at open_
      contradiction
    · exact .inl fun spawns => absurd spawns spawning
  · obtain ⟨position, located⟩ := List.mem_iff_getElem?.mp member
    rw [getElem?_set_found found] at located
    split at located
    · cases located
      exact sound.call_moved found steps
    · next elsewhere => exact sound.call_kept found steps located elsewhere
  · rcases beside.finished with same | ⟨rfl, _, still⟩
    · have started := sound.finished (same.symm.trans finished)
      rcases beside.started with same | ⟨_, set⟩
      · exact same.trans started
      · exact set
    · exact still.trans (fact.busy rfl).1
  · rcases beside.completed with same | ⟨inProgress, rfl⟩
    · exact sealed_kept (sound.completed (same.symm.trans completed)) found steps
    · have terminal := fact.ended inProgress rfl
      refine sealed_kept ⟨.inl terminal, fun other member => ?_⟩ found steps
      rw [← Bool.not_eq_true]
      intro launching
      have running := (sound.calls other member).launching launching
      rw [terminal] at running
      contradiction
  · by_cases before : world.Passed milestone
    · exact sound.holds_kept found steps before
    · have spawned : pc.spawning = true ∧ after.finish = .owned .drainingInbound := by
        refine beside.finish.resolve_left fun same => before ?_
        simpa [BoundaryWorld.Passed, beside.stopped, same] using passed
      have running := (fact.spawning spawned.1).2.2
      simp only [BoundaryWorld.Passed, beside.stopped, running, spawned.2, FinishPc.passed,
        Bool.false_eq_true, false_or, decide_eq_true_eq] at passed
      have first : milestone = .closing := by
        cases milestone with
        | closing => rfl
        | stopped name => cases name <;> contradiction
        | _ => contradiction
      subst first
      exact beside.closing (fact.spawning spawned.1).1

end BoundarySound

namespace ComposedStreamDockBoundary

variable {boundary after : ComposedStreamDockBoundary}

@[simp] theorem setWorker_workersStopped (lifecycle : WorkerLifecycle) (name : WorkerName) :
    (boundary.setWorker lifecycle name).workersStopped = boundary.workersStopped := by
  cases name <;> rfl

/-- What a step of the closing thread, a worker or the sender leaves to the calls. -/
structure Around (before after : ComposedStreamDockBoundary) : Prop where
  state : after.stateOwner = before.stateOwner
  condition : after.connector.conditionOwner = before.connector.conditionOwner
  started : after.runStarted = before.runStarted
  finished : after.connectorRunFinished = before.connectorRunFinished
  closing : after.closing = before.closing
  sender : before.connector.senderThread = none ∨ before.connector.senderThread = some .exited →
    after.connector.senderThread = none ∨ after.connector.senderThread = some .exited
  refusing : before.connector.closing = true → after.connector.closing = true
  commands : before.commands = .stopping ∨ before.commands = .closed →
    after.commands = .stopping ∨ after.commands = .closed
  terminal : before.connector.terminal = true → after.connector.terminal = true
  socket : after.connector.terminal = before.connector.terminal ∧
    after.connector.closeCompleted = before.connector.closeCompleted ∨
    before.finish = .owned .closingSocket

theorem FinishSteps.around {pc : FinishPc} (steps : FinishSteps boundary pc after)
    (at_ : boundary.finish = pc) : Around boundary after := by
  cases steps with
  | stop name final =>
      cases name <;> exact ⟨rfl, rfl, rfl, rfl, rfl, id, id, id, id, .inl ⟨rfl, rfl⟩⟩
  | beginStopping =>
      refine ⟨rfl, rfl, rfl, rfl, rfl, id, id, ?_, id, .inl ⟨rfl, rfl⟩⟩
      rintro (state | state) <;> simp [goto, state, CommandSinkLifecycleState.beginStopping]
  | closeConnector => exact ⟨rfl, rfl, rfl, rfl, rfl, id, fun _ => rfl, id, id, .inl ⟨rfl, rfl⟩⟩
  | connectorClosed terminal kept => exact ⟨rfl, rfl, rfl, rfl, rfl, id, id, id, kept, .inr at_⟩
  | markClosed => exact ⟨rfl, rfl, rfl, rfl, rfl, id, id, fun _ => .inr rfl, id, .inl ⟨rfl, rfl⟩⟩
  | _ => exact ⟨rfl, rfl, rfl, rfl, rfl, id, id, id, id, .inl ⟨rfl, rfl⟩⟩

theorem FinishSteps.workers {pc : FinishPc} (steps : FinishSteps boundary pc after)
    (sound : ∀ name, (boundary.worker name).Sound) (name : WorkerName) :
    (after.worker name).Sound ∧
      ((boundary.worker name).stopped = true → (after.worker name).stopped = true) := by
  cases steps with
  | stop other final =>
      have stopped := WorkerLifecycle.requestStop_sound (sound other)
      change ((boundary.setWorker _ other).worker name).Sound ∧
        (_ → ((boundary.setWorker _ other).worker name).stopped = true)
      rw [setWorker_worker]
      split
      · next same =>
        subst same
        exact ⟨stopped, fun already => by
          rw [WorkerLifecycle.requestStop_stopped already]
          exact already⟩
      · exact ⟨sound name, id⟩
  | _ => exact untouched sound name rfl rfl

end ComposedStreamDockBoundary

namespace BoundarySound

variable {world : BoundaryWorld} {after : ComposedStreamDockBoundary}

theorem holds_around (around : Around world.boundary after)
    (workers : ∀ name, (world.boundary.worker name).stopped = true →
      (after.worker name).stopped = true) {milestone : Milestone}
    (holds : world.Holds milestone) : BoundaryWorld.Holds { world with boundary := after } milestone := by
  cases milestone with
  | closing => exact around.closing.trans holds
  | commands => exact around.commands holds
  | refusing => exact Or.imp around.terminal around.refusing holds
  | sealed =>
      have sealed : world.Sealed := holds
      exact ⟨sealed.refusing.imp around.terminal around.refusing, sealed.calls⟩
  | settled => exact holds
  | stopped name => exact workers name holds
  | sender => exact around.sender holds
  | run => exact Or.imp around.started.trans around.finished.trans holds

/-- The milestone between two stages. -/
theorem stage_reached (sound : BoundarySound world) {stage next : CloseStage}
    (at_ : world.boundary.finish = .owned stage) (moves : StageMoves world.boundary stage next)
    {milestone : Milestone} (above : stage.order < milestone.order)
    (below : milestone.order ≤ next.order) : world.Holds milestone := by
  have within := Milestone.within above below
  -- The milestones between the two stages are listed by evaluation.
  have only (target : Milestone) (holds : world.Holds target) (one : milestone ∈ [target]) :
      world.Holds milestone := List.mem_singleton.mp one ▸ holds
  cases moves with
  | stopped name final exited =>
      have stopped : world.Holds (.stopped name) := (sound.workers name).stopped (.inr exited)
      cases final <;> cases name <;> first | exact only _ stopped within | exact nomatch within
  | stopTimesOut name => cases name <;> exact nomatch within
  | completed completed =>
      have sealed := sound.completed completed
      have two : milestone ∈ [.refusing, .sealed] := within
      simp only [List.mem_cons, List.not_mem_nil, or_false] at two
      rcases two with rfl | rfl
      · exact sealed.refusing
      · exact sealed
  | joinClose closing => exact only .refusing (.inr closing) within
  | asked free | notified free =>
      have refusing : world.Holds .refusing := sound.reached .refusing (.inr (by rw [at_]; rfl))
      have condition := sound.condition
      rw [free] at condition
      have quiet (pc : BoundaryCallPc) (member : pc ∈ world.calls) : pc.launching = false := by
        have outside := condition.free pc member
        cases pc <;> first | rfl | contradiction
      exact only .sealed ⟨refusing, quiet⟩ within
  | run first free | unrun first free =>
      have state := sound.state
      rw [free] at state
      refine only .settled (fun pc member => ?_) within
      rintro rfl
      exact nomatch state.free .marking member
  | noSender absent => exact only .sender (.inl absent) within
  | joined exited => exact only .sender (.inr exited) within
  | unstarted unstarted => exact only .run (.inl unstarted) within
  | finished finished => exact only .run (.inr finished) within
  | _ => exact nomatch within

/-- A milestone that a step of the closing thread newly passes. -/
theorem newly_passed (sound : BoundarySound world)
    (steps : FinishSteps world.boundary world.boundary.finish after) {milestone : Milestone}
    (before : ¬ world.Passed milestone)
    (passed : BoundaryWorld.Passed { world with boundary := after } milestone) :
    BoundaryWorld.Holds { world with boundary := after } milestone := by
  have around := steps.around rfl
  have stopped := fun name => (steps.workers sound.workers name).2
  simp only [BoundaryWorld.Passed, not_or, Bool.not_eq_true] at before
  generalize at_ : world.boundary.finish = pc at steps before
  cases steps with
  | @stage stage next moves =>
      simp only [BoundaryWorld.Passed, goto, before.1, Bool.false_eq_true, false_or,
        FinishPc.passed, decide_eq_true_eq] at passed
      have above : stage.order < milestone.order := by
        simpa [FinishPc.passed] using before.2
      exact holds_around around stopped (sound.stage_reached at_ moves above passed)
  | @stop name final next moves =>
      simp only [BoundaryWorld.Passed, goto, setWorker_workersStopped, before.1,
        Bool.false_eq_true, false_or, FinishPc.passed, decide_eq_true_eq] at passed
      have above : (CloseStage.requesting name final).order < milestone.order := by
        simpa [FinishPc.passed] using before.2
      have within := Milestone.within above passed
      rcases moves with rfl | ⟨returned, rfl⟩
      · cases final <;> cases name <;> exact nomatch within
      · have here := WorkerLifecycle.requestStop_returned returned
        cases final with
        | false => cases name <;> exact nomatch within
        | true =>
            cases name
            · rw [List.mem_singleton.mp (show milestone ∈ [.stopped .reader] from within)]
              exact here
            · rw [List.mem_singleton.mp (show milestone ∈ [.stopped .writer] from within)]
              exact here
  | beginStopping =>
      simp only [BoundaryWorld.Passed, goto, before.1, Bool.false_eq_true, false_or,
        FinishPc.passed, decide_eq_true_eq] at passed
      have above : CloseStage.beginningStop.order < milestone.order := by
        simpa [FinishPc.passed] using before.2
      rw [List.mem_singleton.mp (show milestone ∈ [.commands] from Milestone.within above passed)]
      change world.boundary.commands.beginStopping = .stopping ∨ _
      cases world.boundary.commands <;> simp [CommandSinkLifecycleState.beginStopping, goto]
  | closeConnector =>
      simp only [BoundaryWorld.Passed, goto, before.1, Bool.false_eq_true, false_or,
        FinishPc.passed, decide_eq_true_eq] at passed
      have above : CloseStage.closingConnector.order < milestone.order := by
        simpa [FinishPc.passed] using before.2
      rw [List.mem_singleton.mp (show milestone ∈ [.refusing] from Milestone.within above passed)]
      exact .inr rfl
  | connectorClosed =>
      simp only [BoundaryWorld.Passed, goto, before.1, Bool.false_eq_true, false_or,
        FinishPc.passed, decide_eq_true_eq] at passed
      have above : CloseStage.closingSocket.order < milestone.order := by
        simpa [FinishPc.passed] using before.2
      exact nomatch Milestone.within above passed
  | settle =>
      have above : CloseStage.settingStopped.order < milestone.order := by
        simpa [FinishPc.passed] using before.2
      exact nomatch Milestone.within above milestone.order_le
  | _ =>
      simp only [BoundaryWorld.Passed, before.1, Bool.false_eq_true, false_or, FinishPc.passed,
        decide_eq_true_eq] at passed
      subst passed
      simp [FinishPc.passed, Milestone.order] at before

/-- A step that leaves the calls where they are. -/
theorem around (sound : BoundarySound world) (around : Around world.boundary after)
    (workers : ∀ name, (after.worker name).Sound)
    (spawning : ∀ pc ∈ world.calls, pc.spawning = true →
      after.finish = .idle ∧ after.workersStopped = false)
    (sealed : world.boundary.finish = .owned .closingSocket → world.Sealed)
    (reached : ∀ milestone, BoundaryWorld.Passed { world with boundary := after } milestone →
      BoundaryWorld.Holds { world with boundary := after } milestone) :
    BoundarySound { world with boundary := after } where
  state := around.state ▸ sound.state
  condition := around.condition ▸ sound.condition
  busy := sound.busy
  spawning := sound.spawning
  calls pc member := by
    have fact := sound.calls pc member
    refine ⟨fun fresh => around.started.trans (fact.fresh fresh), fun busy => ?_,
      fun inProgress ended => around.terminal (fact.ended inProgress ended), fun launching => ?_,
      fun spawns => ⟨around.closing.trans (fact.spawning spawns).1, spawning pc member spawns⟩⟩
    · exact (fact.busy busy).imp around.started.trans around.finished.trans
    · rcases around.socket with same | socket
      · exact same.1.trans (fact.launching launching)
      · rw [(sealed socket).calls pc member] at launching
        contradiction
  finished done := around.started.trans (sound.finished (around.finished.symm.trans done))
  workers := workers
  completed completed := by
    have old : world.Sealed := by
      rcases around.socket with same | socket
      · exact sound.completed (same.2.symm.trans completed)
      · exact sealed socket
    exact ⟨old.refusing.imp around.terminal around.refusing, old.calls⟩
  reached := reached

theorem finish (sound : BoundarySound world)
    (steps : FinishSteps world.boundary world.boundary.finish after) :
    BoundarySound { world with boundary := after } := by
  have around := steps.around rfl
  have running : world.boundary.finish ≠ .idle := by
    intro idle
    rw [idle] at steps
    cases steps
  refine sound.around around (fun name => (steps.workers sound.workers name).1)
    (fun pc member spawning => ?_) (fun at_ => ?_) fun milestone passed => ?_
  · exact absurd ((sound.calls pc member).spawning spawning).2.1 running
  · exact sound.reached .sealed (.inr (by rw [at_]; rfl))
  · by_cases before : world.Passed milestone
    · exact holds_around around (fun name => (steps.workers sound.workers name).2)
        (sound.reached milestone before)
    · exact sound.newly_passed steps before passed

theorem append (sound : BoundarySound world) {pc : BoundaryCallPc}
    (outside : pc = .entering ∨ pc = .close .entering) :
    BoundarySound { world with calls := world.calls ++ [pc] } := by
  have quiet : CallSound world.boundary pc := by
    rcases outside with rfl | rfl <;>
    exact ⟨fun fresh => by rcases fresh with at_ | at_ <;> contradiction, nofun, nofun, nofun, nofun⟩
  have calls {motive : BoundaryCallPc → Prop} (old : ∀ pc ∈ world.calls, motive pc)
      (new : motive pc) : ∀ other ∈ world.calls ++ [pc], motive other := by
    intro other member
    rcases List.mem_append.mp member with earlier | added
    · exact old other earlier
    · rw [List.mem_singleton.mp added]
      exact new
  have sealed (sealed : world.Sealed) :
      BoundaryWorld.Sealed { world with calls := world.calls ++ [pc] } :=
    ⟨sealed.refusing, calls sealed.calls (by rcases outside with rfl | rfl <;> rfl)⟩
  refine ⟨sound.state.append ?_, sound.condition.append ?_, sound.busy.append ?_,
    sound.spawning.append ?_, calls sound.calls quiet, sound.finished, sound.workers,
    fun completed => sealed (sound.completed completed), fun milestone passed => ?_⟩
  · rcases outside with rfl | rfl <;> rfl
  · rcases outside with rfl | rfl <;> rfl
  · rcases outside with rfl | rfl <;> rfl
  · rcases outside with rfl | rfl <;> rfl
  · have holds := sound.reached milestone passed
    cases milestone with
    | sealed => exact sealed holds
    | settled => exact calls holds (by rcases outside with rfl | rfl <;> exact nofun)
    | _ => exact holds

theorem step {after : BoundaryWorld} {label : BoundaryLabel} (sound : BoundarySound world)
    (stepped : world.step label = some after) : BoundarySound after := by
  have spawning (pc : BoundaryCallPc) (member : pc ∈ world.calls) (spawns : pc.spawning = true) :
      world.boundary.finish = .idle ∧ world.boundary.workersStopped = false :=
    ((sound.calls pc member).spawning spawns).2
  have sealed (at_ : world.boundary.finish = .owned .closingSocket) : world.Sealed :=
    sound.reached .sealed (.inr (by rw [at_]; rfl))
  cases label with
  | run =>
      cases stepped
      exact sound.append (.inl rfl)
  | close =>
      cases stepped
      exact sound.append (.inr rfl)
  | call index move =>
      simp only [BoundaryWorld.step] at stepped
      split at stepped
      · contradiction
      · next pc found =>
        simp only [Option.map_eq_some_iff] at stepped
        obtain ⟨⟨boundary, next⟩, advanced, rfl⟩ := stepped
        exact sound.call found (advanceCall_cases advanced)
  | finish move =>
      simp only [BoundaryWorld.step, Option.map_eq_some_iff] at stepped
      obtain ⟨boundary, advanced, rfl⟩ := stepped
      exact sound.finish (advanceFinish_cases advanced)
  | worker name =>
      simp only [BoundaryWorld.step, Option.map_eq_some_iff] at stepped
      obtain ⟨lifecycle, advanced, rfl⟩ := stepped
      obtain ⟨left, stopped⟩ := WorkerLifecycle.advance_sound (sound.workers name) advanced
      have around : Around world.boundary (world.boundary.setWorker lifecycle name) := by
        cases name <;> exact ⟨rfl, rfl, rfl, rfl, rfl, id, id, id, id, .inl ⟨rfl, rfl⟩⟩
      have workers (other : WorkerName) :
          ((world.boundary.setWorker lifecycle name).worker other).Sound ∧
            ((world.boundary.worker other).stopped = true →
              ((world.boundary.setWorker lifecycle name).worker other).stopped = true) := by
        rw [setWorker_worker]
        split
        · exact ⟨left, fun _ => stopped⟩
        · exact ⟨sound.workers other, id⟩
      refine sound.around around (fun other => (workers other).1) ?_ sealed fun milestone passed => ?_
      · cases name <;> exact spawning
      · refine holds_around around (fun other => (workers other).2)
          (sound.reached milestone ?_)
        cases name <;> exact passed
  | sender =>
      simp only [BoundaryWorld.step] at stepped
      split at stepped
      · cases stepped
        have around : Around world.boundary { world.boundary with
            connector := { world.boundary.connector with senderThread := some .exited } } :=
          ⟨rfl, rfl, rfl, rfl, rfl, fun _ => .inr rfl, id, id, id, .inl ⟨rfl, rfl⟩⟩
        have workers (name : WorkerName) := @untouched world.boundary { world.boundary with
          connector := { world.boundary.connector with senderThread := some .exited } }
          sound.workers name rfl rfl
        exact sound.around around (fun name => (workers name).1) spawning sealed
          fun milestone passed => holds_around around (fun name => (workers name).2)
            (sound.reached milestone passed)
      · contradiction

end BoundarySound

theorem boundarySound {world : BoundaryWorld} (reachable : boundarySystem.Reachable world) :
    BoundarySound world := by
  refine reachable.invariant ?_ fun _ _ _ sound stepped => sound.step stepped
  rintro _ rfl
  refine ⟨by simp [Exclusive], by simp [Exclusive], by simp [Solitary], by simp [Solitary], by simp,
    nofun, fun name => ?_, nofun, ?_⟩
  · cases name <;> exact ⟨nofun, by simp [ComposedStreamDockBoundary.worker]⟩
  · rintro milestone (stopped | passed) <;> contradiction

/-- The workers, the sender and the connector's run have ended, or were never begun. -/
structure Terminated (world : BoundaryWorld) : Prop where
  workers : ∀ name, (world.boundary.worker name).thread ≠ some .running
  sender : world.boundary.connector.senderThread = none ∨
    world.boundary.connector.senderThread = some .exited
  connector : ∀ pc ∈ world.calls, pc.inConnector = false
  commands : world.boundary.commands ≠ .ready

theorem BoundarySound.terminated {world : BoundaryWorld} (sound : BoundarySound world)
    (stopped : world.boundary.workersStopped = true) : Terminated world := by
  have holds (milestone : Milestone) : world.Holds milestone :=
    sound.reached milestone (.inl stopped)
  refine ⟨fun name => (sound.workers name).left (holds (.stopped name)), holds .sender,
    fun pc member => ?_, fun ready => ?_⟩
  · rw [← Bool.not_eq_true]
    intro inside
    have busy : pc.busy = true := by
      cases pc <;> first | rfl | contradiction
    obtain ⟨started, unfinished⟩ := (sound.calls pc member).busy busy
    rcases holds .run with unstarted | finished
    · rw [started] at unstarted
      contradiction
    · rw [unfinished] at finished
      contradiction
  · rcases holds .commands with state | state <;> rw [ready] at state <;> contradiction

/-- The two flags that no step takes back. -/
theorem BoundaryWorld.step_kept {world after : BoundaryWorld} {label : BoundaryLabel}
    (stepped : world.step label = some after) :
    (world.boundary.workersStopped = true → after.boundary.workersStopped = true) ∧
      (world.boundary.commands = .closed → after.boundary.commands = .closed) := by
  cases label with
  | run | close =>
      cases stepped
      exact ⟨id, id⟩
  | call index move =>
      simp only [BoundaryWorld.step] at stepped
      split at stepped
      · contradiction
      · next pc found =>
        simp only [Option.map_eq_some_iff] at stepped
        obtain ⟨⟨boundary, next⟩, advanced, rfl⟩ := stepped
        have steps := advanceCall_cases advanced
        refine ⟨steps.beside.stopped.trans, ?_⟩
        cases steps with
        | begins | markReady =>
            intro closed
            simp [closed, CommandSinkLifecycleState.beginStarting,
              CommandSinkLifecycleState.markReady]
        | start name | startFails name | markStarted name => cases name <;> exact id
        | closing steps | close steps =>
            rw [steps.beside]
            exact id
        | _ => exact id
  | finish move =>
      simp only [BoundaryWorld.step, Option.map_eq_some_iff] at stepped
      obtain ⟨boundary, advanced, rfl⟩ := stepped
      generalize world.boundary.finish = pc at advanced
      cases advanceFinish_cases advanced with
      | stop name => cases name <;> exact ⟨id, id⟩
      | beginStopping =>
          refine ⟨id, fun closed => ?_⟩
          simp [goto, closed, CommandSinkLifecycleState.beginStopping]
      | settle => exact ⟨fun _ => rfl, id⟩
      | markClosed => exact ⟨id, fun _ => rfl⟩
      | _ => exact ⟨id, id⟩
  | worker name =>
      simp only [BoundaryWorld.step, Option.map_eq_some_iff] at stepped
      obtain ⟨lifecycle, _, rfl⟩ := stepped
      cases name <;> exact ⟨id, id⟩
  | sender =>
      simp only [BoundaryWorld.step] at stepped
      split at stepped
      · cases stepped
        exact ⟨id, id⟩
      · contradiction

/-- Once the workers are known to have stopped, nothing of them runs, then or at any
later time; once closed, the command sink is never ready. -/
theorem boundary_termination {world later : BoundaryWorld} {labels : List BoundaryLabel}
    (reachable : boundarySystem.Reachable world)
    (ran : boundarySystem.exec world labels = some later) :
    (world.boundary.workersStopped = true → Terminated later) ∧
      (world.boundary.commands = .closed → later.boundary.commands ≠ .ready) := by
  have kept : (world.boundary.workersStopped = true → later.boundary.workersStopped = true) ∧
      (world.boundary.commands = .closed → later.boundary.commands = .closed) :=
    System.exec_invariant (motive := fun reached =>
      (world.boundary.workersStopped = true → reached.boundary.workersStopped = true) ∧
        (world.boundary.commands = .closed → reached.boundary.commands = .closed))
      ⟨id, id⟩ ran fun _ _ _ both stepped =>
        have next := BoundaryWorld.step_kept stepped
        ⟨fun stopped => next.1 (both.1 stopped), fun closed => next.2 (both.2 closed)⟩
  refine ⟨fun stopped => (boundarySound (reachable.exec ran)).terminated (kept.1 stopped), ?_⟩
  intro closed ready
  rw [kept.2 closed] at ready
  contradiction

/-- A run that is closed while the socket's loop runs. -/
def closedRun : List BoundaryLabel :=
  BoundaryLabel.run :: List.replicate 14 (BoundaryLabel.call 0 .proceed) ++
    [BoundaryLabel.close, .call 1 .proceed, .call 1 .proceed] ++
    List.replicate 3 (BoundaryLabel.finish .proceed) ++
    [BoundaryLabel.worker .reader, .worker .reader] ++
    List.replicate 6 (BoundaryLabel.finish .proceed) ++
    [BoundaryLabel.worker .writer, .worker .writer] ++
    List.replicate 6 (BoundaryLabel.finish .proceed) ++
    BoundaryLabel.sender :: List.replicate 4 (BoundaryLabel.call 0 .proceed) ++
    List.replicate 12 (BoundaryLabel.finish .proceed)

def closedWorld : BoundaryWorld :=
  (boundarySystem.exec {} closedRun).get (by decide +kernel)

/-- A second call of `run_forever`, and one of `close`, after all has ended. -/
def lateCalls : List BoundaryLabel :=
  [.run, .call 2 .proceed, .close, .call 3 .proceed]

def laterWorld : BoundaryWorld :=
  (boundarySystem.exec closedWorld lateCalls).get (by decide +kernel)

theorem boundary_termination_run : Terminated laterWorld ∧ laterWorld.boundary.commands ≠ .ready := by
  have reachable : boundarySystem.Reachable closedWorld :=
    System.Reachable.exec (.initial rfl) (Option.some_get _).symm
  have ended := boundary_termination reachable
    (show boundarySystem.exec closedWorld lateCalls = some laterWorld from (Option.some_get _).symm)
  exact ⟨ended.1 (by decide +kernel), ended.2 (by decide +kernel)⟩

end StreamDockSdk.Boundary
