import Mathlib.Algebra.GroupWithZero.Nat
import StreamDockSdk.Messaging.Outbound.Removal

namespace StreamDockSdk.Messaging

open Automaton

variable {Command Key : Type} [Inhabited Command]
variable {config : OutboundConfig Command Key}

/-- The operations that may wait until another of their thread is over. -/
def CommandOp.waits : CommandOp → Bool
  | .finish _ error => error == some .queueClosed
  | .watchDeadlines | .drain => true
  | _ => false

namespace OutboundWorld

variable {world after : OutboundWorld Command}

/-- Only loops wait behind what a thread does. -/
def Nested (world : OutboundWorld Command) : Prop :=
  ∀ stack ∈ world.threads, ∀ op ∈ stack.tail, op.waits = true

theorem Nested.resume {threads : List (List CommandOp)} {index : Nat} {stack : List CommandOp}
    (nested : ∀ stack ∈ threads, ∀ op ∈ stack.tail, op.waits = true)
    (tail : ∀ op ∈ stack.tail, op.waits = true) :
    ∀ stack' ∈ resume threads index stack, ∀ op ∈ stack'.tail, op.waits = true := by
  intro stack' member
  rcases List.mem_or_eq_of_mem_set member with kept | rfl
  · exact nested stack' kept
  · exact tail

theorem calls_wait {state next : CommandState Command} {op : CommandOp} {calls : List CommandOp}
    (moves : state.Moves op next calls) : ∀ later ∈ calls.tail, later.waits = true := by
  intro later member
  cases moves with
  | discardQueue =>
      obtain ⟨completion, _, rfl⟩ := List.mem_map.mp (List.mem_of_mem_tail member)
      rfl
  | watcherExpires =>
      rw [List.mem_singleton.mp member]
      rfl
  | _ => simp at member

/-- The thread's stack after a step, when only loops wait in the rest of it. -/
theorem tail_waits {calls rest : List CommandOp} (made : ∀ op ∈ calls.tail, op.waits = true)
    (waiting : ∀ op ∈ rest, op.waits = true) : ∀ op ∈ (calls ++ rest).tail, op.waits = true := by
  cases calls with
  | nil => exact fun op member => waiting op (List.mem_of_mem_tail member)
  | cons first others =>
      intro op member
      rcases List.mem_append.mp member with new | old
      · exact made op new
      · exact waiting op old

/-- What holds of the queue, its completions and the threads in every run. -/
structure Accounted (config : OutboundConfig Command Key) (world : OutboundWorld Command) :
    Prop where
  represents : world.commands.Represents config
  cleared : world.commands.Cleared (Running world.threads)
  departs : world.commands.Departs
  nested : world.Nested

theorem Accounted.call (accounted : world.Accounted config) (stack : List CommandOp)
    (tail : ∀ op ∈ stack.tail, op.waits = true)
    (unfinished : ∀ completion, .commandFinished completion ∉ stack) :
    (world.call stack).Accounted config := by
  have running (op : CommandOp) : Running (world.call stack).threads op ↔
      Running world.threads op ∨ op ∈ stack := running_append world.threads stack
  refine ⟨accounted.represents, ?_, accounted.departs, ?_⟩
  · refine accounted.cleared.carry (fun _ => ⟨rfl, rfl⟩) (fun _ waiting _ => waiting)
      (fun departure member => .inl member) ?_ ?_
    · exact fun completion called => (running _).mpr (.inl called)
    · intro completion
      rw [running]
      exact ⟨.inl, fun called => called.resolve_right (unfinished completion)⟩
  · intro other member
    rcases List.mem_append.mp member with old | new
    · exact accounted.nested other old
    · rw [List.mem_singleton.mp new]
      exact tail

theorem Accounted.sendAsync [BEq Key] (accounted : world.Accounted config) (command : Command)
    (deadline : Option Nat) (starts : Bool) :
    (world.sendAsync config command deadline starts).Accounted config := by
  have sends : world.commands.Sends config command deadline world.threads.length _ :=
    CommandState.sendAsync_cases config command deadline starts world.threads.length
  have inside : OutboundWorld.Accounted config { world with
      commands := (world.commands.sendAsync config command deadline starts world.threads.length).state } :=
    ⟨accounted.represents.sendAsync sends, accounted.cleared.sendAsync accounted.represents sends,
      accounted.departs.sendAsync accounted.represents sends, accounted.nested⟩
  rw [sendAsync_eq]
  dsimp only
  split
  · exact inside.call [.watchDeadlines] (by simp) (by simp)
  · exact inside

theorem Accounted.run {index : Nat} {choice : Choice} (accounted : world.Accounted config)
    (stepped : world.run index choice = some after) : after.Accounted config := by
  rcases run_cases stepped with ⟨completion, rest, found, _, rfl⟩ |
    ⟨op, rest, commands, calls, found, moves, _, rfl⟩
  · have waiting := accounted.nested _ (List.mem_of_getElem? found)
    have keeps (op : CommandOp) (busy : op.waits = false) (other : op ≠ .observe completion) :
        Running world.threads op ↔ Running (resume world.threads index []) op := by
      refine ⟨fun running => running.unwinds found ?_, Running.of_unwound⟩
      intro member
      have waits := waiting op ((List.mem_cons.mp member).resolve_left other)
      rw [busy] at waits
      contradiction
    refine ⟨accounted.represents, ?_, accounted.departs, ?_⟩
    · exact accounted.cleared.carry (fun _ => ⟨rfl, rfl⟩) (fun _ waiting _ => waiting)
        (fun departure member => .inl member) (fun _ => (keeps _ rfl (by simp)).mp)
        (fun _ => keeps _ rfl (by simp))
    · exact Nested.resume accounted.nested (by simp)
  · have waiting := accounted.nested _ (List.mem_of_getElem? found)
    have follows : Follows op calls (Running world.threads) _ := follows_resume found
    have called : Running world.threads op := .of_thread found List.mem_cons_self
    exact ⟨accounted.represents.moves moves,
      accounted.cleared.moves accounted.represents called moves follows,
      accounted.departs.moves accounted.represents moves,
      Nested.resume accounted.nested (tail_waits (calls_wait moves) waiting)⟩

theorem Accounted.step [BEq Key] {label : OutboundLabel Command} (accounted : world.Accounted config)
    (stepped : world.step config label = some after) : after.Accounted config := by
  have callOn {completion : Nat} {op : CommandOp} (unfinished : ∀ other, op ≠ .commandFinished other)
      (called : world.callOn completion op = some after) : after.Accounted config := by
    unfold OutboundWorld.callOn at called
    split at called <;> cases called
    exact accounted.call [op] (by simp) fun other member =>
      unfinished other (List.mem_singleton.mp member).symm
  cases label with
  | tick =>
      cases stepped
      exact ⟨{ accounted.represents with }, { accounted.cleared with }, { accounted.departs with },
        accounted.nested⟩
  | sendAsync command deadline starts =>
      cases stepped
      exact accounted.sendAsync command deadline starts
  | receive =>
      simp only [OutboundWorld.step, Option.map_eq_some_iff] at stepped
      obtain ⟨⟨commands, submission⟩, received, rfl⟩ := stepped
      exact ⟨accounted.represents.receive received, accounted.cleared.receive received,
        accounted.departs.receive accounted.represents received, accounted.nested⟩
  | cancel completion => exact callOn (by simp) stepped
  | startSend completion => exact callOn (by simp) stepped
  | finish completion error => exact callOn (by simp) stepped
  | stopAccepting =>
      cases stepped
      exact accounted.call [.stopAccepting] (by simp) (by simp)
  | shutdown =>
      cases stepped
      exact accounted.call [.stopAccepting, .drain] (by simp [CommandOp.waits]) (by simp)
  | run thread choice => exact accounted.run stepped

theorem accounted_initial (config : OutboundConfig Command Key) :
    Accounted config ({} : OutboundWorld Command) := by
  refine ⟨⟨by simp, List.nodup_nil, by simp, by simp, by simp, rfl, Nat.zero_le _, Nat.zero_le _⟩,
    ⟨by simp [CommandState.future], by simp [CommandState.future], by simp [CommandState.future],
      fun completion running => ?_, by simp⟩,
    ⟨fun completion => rfl, by simp⟩, by simp [Nested]⟩
  obtain ⟨stack, member, _⟩ := running
  contradiction

theorem reachable_accounted [BEq Key] {config : OutboundConfig Command Key}
    (reachable : (outboundSystem config).Reachable world) : world.Accounted config := by
  apply reachable.invariant
  · rintro first rfl
    exact accounted_initial config
  · exact fun before label after accounted stepped => accounted.step stepped

end OutboundWorld

namespace CommandState

variable {state after : CommandState Command}

/-- Entries left the queue, each with its bytes. -/
def Releases (before after : CommandState Command) (left : List (Departure Command)) : Prop :=
  after.departures = before.departures ++ left ∧
    after.queue.currentBytes + (left.map fun departure => departure.queued.size).sum =
      before.queue.currentBytes

theorem Represents.size_le (represents : state.Represents config) {identity : Nat}
    (member : identity ∈ state.queue.queue) :
    (state.queue.entry identity).size ≤ state.queue.currentBytes := by
  have total := List.sum_map_erase (fun other => (state.queue.entry other).size) member
  have bytes := represents.bytes
  omega

theorem Represents.receive_releases (represents : state.Represents config)
    {submission : CommandSubmission Command} (received : state.receive = some (after, submission)) :
    ∃ queued, submission = ⟨queued.command, queued.completion⟩ ∧
      Releases state after [⟨.received, queued⟩] := by
  obtain ⟨identity, rest, line, rfl, rfl⟩ := receive_eq_some received
  have member : identity ∈ state.queue.queue := by simp [line]
  have small := represents.size_le member
  refine ⟨state.queue.entry identity, rfl, rfl, ?_⟩
  simp only [List.map_cons, List.map_nil, List.sum_cons, List.sum_nil]
  omega

/-- The entry that the completion removes. -/
def finishing (state : CommandState Command) (completion : Nat) : List (Departure Command) :=
  (state.queue.queued completion).toList.map fun identity => ⟨.finished, state.queue.entry identity⟩

theorem Represents.commandFinished_releases (represents : state.Represents config)
    (completion : Nat) :
    Releases state (state.commandFinished completion) (state.finishing completion) := by
  cases found : state.queue.queued completion with
  | none =>
      rw [commandFinished_absent found]
      simp [Releases, finishing, found]
  | some identity =>
      have small := represents.size_le ((represents.index completion identity).mp found).1
      rw [commandFinished_queued found]
      simp only [Releases, finishing, found, Option.toList_some, List.map_cons, List.map_nil,
        List.sum_cons, List.sum_nil, true_and]
      omega

theorem Represents.discardQueue_releases (represents : state.Represents config) :
    Releases state state.discardQueue
      (state.queue.queue.map fun identity => ⟨.discarded, state.queue.entry identity⟩) := by
  refine ⟨rfl, ?_⟩
  rw [represents.bytes, List.map_map]
  exact Nat.zero_add _

/-- A refused submission leaves everything but its counters as it was. -/
structure Unaffected (before after : CommandState Command) : Prop where
  queue : after.queue.queue = before.queue.queue
  queued : after.queue.queued = before.queue.queued
  entries : ∀ identity ∈ before.queue.queue, after.queue.entry identity = before.queue.entry identity
  bytes : after.queue.currentBytes = before.queue.currentBytes
  deadlines : after.queue.deadlines = before.queue.deadlines
  watcher : after.queue.deadlineThread = before.queue.deadlineThread
  accepting : after.queue.accepting = before.queue.accepting
  counters : after.queue.peakDepth = before.queue.peakDepth ∧
    after.queue.enqueued = before.queue.enqueued ∧ after.queue.coalesced = before.queue.coalesced ∧
    after.queue.dequeued = before.queue.dequeued ∧
    after.queue.discardedDuringShutdown = before.queue.discardedDuringShutdown ∧
    after.queue.peakBytes = before.queue.peakBytes
  futures : ∀ completion < before.futures.length,
    after.futures[completion]? = before.futures[completion]?
  accepted : after.accepted = before.accepted
  departures : after.departures = before.departures

theorem Represents.unaffected [BEq Key] (represents : state.Represents config) {command : Command}
    {deadline : Option Nat} {thread : Nat} {sent : Sent Command} {error : SubmissionError}
    (sends : state.Sends config command deadline thread sent) (refused : sent.result = .error error) :
    state.Unaffected sent.state ∧ sent.watcher = false := by
  cases sends with
  | refused =>
      exact ⟨⟨rfl, rfl, fun _ _ => rfl, rfl, rfl, rfl, rfl, ⟨rfl, rfl, rfl, rfl, rfl, rfl⟩,
        fun _ _ => rfl, rfl, rfl⟩, rfl⟩
  | unwatched size limit _ unrecorded =>
      rw [represents.abandon_eq unrecorded]
      exact ⟨⟨rfl, rfl,
        fun identity member => OutboundCommandQueue.entry_append rfl (represents.made identity member),
        rfl, rfl, rfl, rfl, ⟨rfl, rfl, rfl, rfl, rfl, rfl⟩,
        fun completion made => List.getElem?_append_left made, rfl, rfl⟩, rfl⟩
  | coalesced | enqueued | watched => contradiction

/-- A completion that is over leaves the queue once. -/
structure Removed (state : CommandState Command) (running : CommandOp → Prop) (completion : Nat) :
    Prop where
  once : state.departed completion + (state.queue.queued completion).isSome.toNat =
    (state.admitted completion).toNat
  leaves : (state.future completion).terminal.isSome = true →
    (state.queue.queued completion).isSome = true →
    running (.publish completion) ∨ running (.commandFinished completion)

end CommandState

namespace OutboundWorld

variable {world : OutboundWorld Command}

theorem Accounted.removed (accounted : world.Accounted config) (completion : Nat) :
    world.commands.Removed (Running world.threads) completion := by
  refine ⟨accounted.departs.once completion, fun terminal queued => ?_⟩
  rcases accounted.cleared.publishing completion terminal with done | publishing
  · exact .inr (accounted.cleared.removing completion done queued)
  · exact .inl publishing

/-- In every run the index, the queue and the byte count describe the same
entries, every entry leaves once with its bytes, and a submission that raises
leaves everything as it was. -/
theorem representation_and_atomic_rejection [BEq Key]
    (reachable : (outboundSystem config).Reachable world) :
    world.commands.Represents config ∧
      (∀ completion, world.commands.Removed (Running world.threads) completion) ∧
      (∀ after submission, world.commands.receive = some (after, submission) →
        ∃ queued, submission = ⟨queued.command, queued.completion⟩ ∧
          world.commands.Releases after [⟨.received, queued⟩]) ∧
      (∀ completion, world.commands.Releases (world.commands.commandFinished completion)
        (world.commands.finishing completion)) ∧
      world.commands.Releases world.commands.discardQueue
        (world.commands.queue.queue.map fun identity =>
          ⟨.discarded, world.commands.queue.entry identity⟩) ∧
      ∀ command deadline starts error,
        (world.commands.sendAsync config command deadline starts world.threads.length).result =
          .error error →
        world.commands.Unaffected (world.sendAsync config command deadline starts).commands ∧
          (world.sendAsync config command deadline starts).threads = world.threads := by
  have accounted := reachable_accounted reachable
  have represents := accounted.represents
  refine ⟨represents, accounted.removed, fun after submission => represents.receive_releases,
    represents.commandFinished_releases, represents.discardQueue_releases, ?_⟩
  intro command deadline starts error refused
  obtain ⟨unaffected, unwatched⟩ :=
    represents.unaffected (CommandState.sendAsync_cases config command deadline starts _) refused
  refine ⟨unaffected, ?_⟩
  rw [OutboundWorld.sendAsync, unwatched]
  rfl

end OutboundWorld

open OutboundWorld

/-- A command is its coalescing key and its size. -/
def pairConfig : OutboundConfig (Nat × Nat) Nat where
  queueLimit := 2
  coalesceCommands := true
  byteLimit := 10
  retainedSize command _ := command.2
  coalescingKey command := some command.1

/-- The first submission cannot be watched; the last one is being cancelled. -/
def cancellingRun : Option (OutboundWorld (Nat × Nat)) :=
  (outboundSystem pairConfig).exec {}
    [.sendAsync (1, 3) (some 5) false, .sendAsync (1, 3) (some 5) true, .sendAsync (2, 4) none true,
      .cancel 2, .run 1 .proceed]

def cancellingWorld : OutboundWorld (Nat × Nat) := cancellingRun.get (by decide +kernel)

theorem cancellingWorld_reachable : (outboundSystem pairConfig).Reachable cancellingWorld :=
  System.Reachable.exec (.initial rfl) (Option.some_get _).symm

theorem representation_and_atomic_rejection_run :
    cancellingWorld.commands.queue.currentBytes = 7 ∧
      (Running cancellingWorld.threads (.publish 2) ∨
        Running cancellingWorld.threads (.commandFinished 2)) ∧
      cancellingWorld.commands.departed 2 = 0 ∧
      cancellingWorld.commands.Unaffected
        (cancellingWorld.sendAsync pairConfig (3, 9) none true).commands := by
  obtain ⟨represents, removed, _, _, _, rejected⟩ :=
    representation_and_atomic_rejection cancellingWorld_reachable
  have bytes : cancellingWorld.commands.queue.currentBytes = 7 := by decide +kernel
  have leaves := (removed 2).leaves (by decide +kernel) (by decide +kernel)
  have queued : (cancellingWorld.commands.queue.queued 2).isSome.toNat = 1 := by decide +kernel
  have admitted : (cancellingWorld.commands.admitted 2).toNat = 1 := by decide +kernel
  have once := (removed 2).once
  exact ⟨bytes, leaves, by omega, (rejected (3, 9) none true .full rfl).1⟩

end StreamDockSdk.Messaging
