import StreamDockSdk.Completion.Delegation

namespace StreamDockSdk

open Automaton

namespace CompletionWorld

/-- One call decides the control and one completion follows it; `cancel` returns whether it
was that call, and nobody sends a command that `cancel` took back. -/
structure Exclusive (world : CompletionWorld) (control : Nat) : Prop where
  once : world.history.countP (CompletionEvent.wins control) =
    (world.future control).terminal.isSome.toNat
  completed : world.history.countP (CompletionEvent.completes control) ≤ 1
  unrefused : .refused control ∉ world.history
  returned : ∀ thread result, .returned thread control result ∈ world.history →
    (∀ command, (control, command) ∉ world.trackers) →
    (result = true ↔ .cancelled thread control ∈ world.history)
  unsent : ∀ thread clock, .cancelled thread control ∈ world.history →
    .startSend control clock true ∉ world.history

/-- All handles of a control show one outcome. -/
def Agree (world : CompletionWorld) (control : Nat) : Prop :=
  ∀ first second one two, world.handles[first]? = some control →
    world.handles[second]? = some control → .observed first one ∈ world.history →
    .observed second two ∈ world.history → one = two

structure RespectsDeadline (world : CompletionWorld) (control deadline : Nat) : Prop where
  early : ∀ clock, .startSend control clock true ∈ world.history → clock < deadline
  late : ∀ clock, .finish control clock none true ∈ world.history → deadline ≤ clock →
    (world.future control).terminal = some (some .deadlineExceeded) ∧
      ∀ outcome, (world.future control).future = some outcome → outcome = some .deadlineExceeded

/-- A call of `cancel` on a delegating future returns True if and only if it cancelled the
command, or the one that the command delegates to. -/
def ReturnsOfCommand (world : CompletionWorld) (tracker command : Nat) : Prop :=
  ∀ thread result, .returned thread tracker result ∈ world.history →
    (result = true ↔ ∃ root, Reaches world.trackers command root ∧
      .cancelled thread root ∈ world.history)

/-- After such a call the future ends with the cancellation of its command. -/
def EndsWithCommand (world : CompletionWorld) (tracker command : Nat) : Prop :=
  ∀ thread, .returned thread tracker true ∈ world.history →
    world.EndsCancelled command ∧ world.EndsCancelled tracker

variable {world : CompletionWorld} {control : Nat}

theorem Settled.exclusive (settled : world.Settled) (reachable : completionSystem.Reachable world)
    (control : Nat) : world.Exclusive control := by
  have stands := settled.stands control
  refine ⟨stands.decided, ?_, stands.unrefused,
    fun thread result returned direct => returned_direct reachable returned direct,
    fun thread clock cancelled started => ?_⟩
  · rw [stands.completed]
    exact Bool.toNat_le _
  · have unsent := (stands.cancelled thread cancelled).2
    rw [stands.sending clock started] at unsent
    contradiction

theorem Settled.agree (settled : world.Settled) (control : Nat) : world.Agree control := by
  intro first second one two at_first at_second saw_one saw_two
  obtain ⟨_, here, outcome⟩ := settled.observes _ saw_one first one rfl
  obtain ⟨_, there, other⟩ := settled.observes _ saw_two second two rfl
  rw [at_first] at here
  rw [at_second] at there
  cases here
  cases there
  rw [outcome] at other
  exact Option.some.inj other

theorem Settled.respectsDeadline (settled : world.Settled) {deadline : Nat}
    (limited : (world.future control).deadline = some deadline) :
    world.RespectsDeadline control deadline := by
  constructor
  · intro clock started
    have early := settled.timely control _ started rfl
    simpa [CommandFuture.deadlinePassed, limited] using early
  · intro clock finished late
    have decided := settled.timely control _ finished rfl
    have passed : (world.future control).recorded clock none = some .deadlineExceeded := by
      simp [CommandFuture.recorded, CommandFuture.deadlinePassed, limited, late]
    rw [passed] at decided
    refine ⟨decided, fun outcome future => ?_⟩
    rw [(settled.stands control).recorded outcome future] at decided
    exact Option.some.inj decided

theorem Delegation.endsWithCommand (delegation : world.Delegation)
    (reachable : completionSystem.Reachable world) {tracker command : Nat}
    (link : (tracker, command) ∈ world.trackers) : world.EndsWithCommand tracker command := by
  intro thread returned
  have settled := reachable_settled reachable
  obtain ⟨root, reaches, taken⟩ := (returned_delegated reachable link returned).mp rfl
  have first := EndsCancelled.of_terminal settled ((settled.stands root).cancelled thread taken).1
  have cancelled := delegation.reaches_cancelled settled reaches first
  exact ⟨cancelled, (delegation.linked tracker command link).endsCancelled settled cancelled⟩

/-- Whatever calls are made on the handles of commands: one of them decides each control, its
outcome is recorded once and seen by all handles, no command is both cancelled and sent,
deadlines hold, and `cancel` on a delegating future returns what became of its command.
Futures that only their command's callback completes then end as cancelled. -/
theorem ownership_protocol (reachable : completionSystem.Reachable world) :
    (∀ control, world.Exclusive control) ∧ Guarded InTurn world.history ∧
      (∀ control, world.Agree control) ∧
      (∀ control deadline, (world.future control).deadline = some deadline →
        world.RespectsDeadline control deadline) ∧
      (∀ tracker command, (tracker, command) ∈ world.trackers →
        world.ReturnsOfCommand tracker command) ∧
      (completionSystem.ReachableBy (fun world label => world.delegates label = true) world →
        ∀ tracker command, (tracker, command) ∈ world.trackers →
          world.EndsWithCommand tracker command) := by
  have settled := reachable_settled reachable
  refine ⟨settled.exclusive reachable, settled.inTurn, settled.agree,
    fun control deadline limited => settled.respectsDeadline limited,
    fun tracker command link thread result => returned_delegated reachable link, ?_⟩
  intro delegated tracker command link
  exact (reachable_delegation delegated).endsWithCommand reachable link

end CompletionWorld

open CompletionWorld

/-- `cancel` on the tracking future reaches the command. -/
def cancelledUpdateRun : Option CompletionWorld :=
  (completionSystem.restrict CompletionWorld.delegates).exec {}
    [.create (some 5), .track 0, .run 0, .cancel 1, .run 1, .run 1, .run 1, .run 1, .run 1, .run 1,
      .run 1, .run 1]

def cancelledUpdateWorld : CompletionWorld := cancelledUpdateRun.get (by decide +kernel)

theorem cancelledUpdateWorld_reachable : completionSystem.ReachableBy
    (fun world label => world.delegates label = true) cancelledUpdateWorld :=
  System.Reachable.restricted (System.Reachable.exec (.initial rfl) (Option.some_get _).symm)

theorem ownership_protocol_run :
    cancelledUpdateWorld.EndsCancelled 0 ∧ cancelledUpdateWorld.EndsCancelled 1 ∧
      (cancelledUpdateWorld.future 1).future = some (some .cancelled) ∧
      (∃ root, Reaches cancelledUpdateWorld.trackers 0 root ∧
        .cancelled 1 root ∈ cancelledUpdateWorld.history) ∧
      cancelledUpdateWorld.Exclusive 0 ∧ cancelledUpdateWorld.RespectsDeadline 0 5 := by
  obtain ⟨exclusive, _, _, limited, returns, delegated⟩ :=
    ownership_protocol cancelledUpdateWorld_reachable.reachable
  have ends := delegated cancelledUpdateWorld_reachable 1 0 (by decide +kernel)
  obtain ⟨command, tracker⟩ := ends 1 (by decide +kernel)
  have taken := (returns 1 0 (by decide +kernel) 1 true (by decide +kernel)).mp rfl
  exact ⟨command, tracker, tracker.ended (by decide +kernel), taken, exclusive 0,
    limited 0 5 (by decide +kernel)⟩

/-- `cancel` has read the delegate when `_start_send` is called on the future. -/
def sentUpdateWorld : CompletionWorld :=
  (completionSystem.exec {}
    [.create none, .track 0, .run 0, .cancel 1, .run 1, .startSend 1, .run 2, .run 1, .run 1, .run 1,
      .run 1, .run 1, .run 1, .run 1]).get (by decide +kernel)

/-- The future finishes with a result before `cancel` calls the delegate. -/
def finishedUpdateWorld : CompletionWorld :=
  (completionSystem.exec {}
    [.create none, .track 0, .run 0, .cancel 1, .run 1, .finish 1 none, .run 2, .run 2, .run 1,
      .run 1, .run 1, .run 1, .run 1, .run 1]).get (by decide +kernel)

theorem delegated_ownership_fails :
    (¬ ∀ world, completionSystem.Reachable world → ∀ thread control clock,
      .returned thread control true ∈ world.history →
        .startSend control clock true ∉ world.history) ∧
    ¬ ∀ world, completionSystem.Reachable world → ∀ tracker command,
      (tracker, command) ∈ world.trackers → world.EndsWithCommand tracker command := by
  constructor
  · intro claimed
    exact claimed sentUpdateWorld (System.Reachable.exec (.initial rfl) (Option.some_get _).symm)
      1 1 0 (by decide +kernel) (by decide +kernel)
  · intro claimed
    have ends := claimed finishedUpdateWorld
      (System.Reachable.exec (.initial rfl) (Option.some_get _).symm) 1 0 (by decide +kernel)
    obtain ⟨_, tracker⟩ := ends 1 (by decide +kernel)
    have finished : (finishedUpdateWorld.future 1).future = some none := by decide +kernel
    exact absurd (tracker.outcome none finished) (by decide)

end StreamDockSdk
