import StreamDockSdk.Messaging.Outbound.Runs

namespace StreamDockSdk.Messaging

open Automaton

variable {Command Key : Type} [Inhabited Command]

namespace OutboundCommandQueue

variable (queue : OutboundCommandQueue Command)

/-- The last entry takes the command of a new submission. -/
def replace (identity : Nat) (command : Command) (size number : Nat) :
    OutboundCommandQueue Command :=
  { queue with
    entries := queue.entries.set identity { queue.entry identity with command, size, number }
    currentBytes := queue.currentBytes - (queue.entry identity).size + size
    peakBytes := max queue.peakBytes (queue.currentBytes - (queue.entry identity).size + size) }

/-- The table with the deadline of a new command. -/
def withDeadline (completion : Nat) : Option Nat → List (Nat × Nat)
  | none => queue.deadlines
  | some limit => queue.deadlines ++ [(completion, limit)]

/-- The conditions of `_coalesce` on the last entry. -/
structure Coalesces [BEq Key] (config : OutboundConfig Command Key) (futures : List CommandFuture)
    (command : Command) (size identity : Nat) : Prop where
  enabled : config.coalesceCommands = true
  last : queue.queue.getLast? = some identity
  unlimited : (queue.entry identity).deadline = none
  key : ∃ key, config.coalescingKey command = some key ∧
    (some key == config.coalescingKey (queue.entry identity).command) = true
  fits : queue.currentBytes - (queue.entry identity).size + size ≤ config.byteLimit
  live : ∃ future, futures[(queue.entry identity).completion]? = some future ∧
    future.terminal = none

theorem coalesce_eq_some [BEq Key] {config : OutboundConfig Command Key}
    {futures : List CommandFuture} {command : Command} {size number completion : Nat}
    {queue after : OutboundCommandQueue Command} :
    queue.coalesce config futures command size number = some (after, completion) ↔
      ∃ identity, queue.Coalesces config futures command size identity ∧
        after = queue.replace identity command size number ∧
        completion = (queue.entry identity).completion := by
  simp only [coalesce, Option.bind_eq_bind, Option.bind_eq_some_iff, Option.guard_eq_some',
    Option.some.injEq, Prod.mk.injEq, exists_const]
  constructor
  · rintro ⟨enabled, identity, last, unlimited, key, has_key, same, fits, future, found, live, rfl, rfl⟩
    exact ⟨identity, ⟨enabled, last, by simpa using unlimited, ⟨key, has_key, same⟩, fits,
      ⟨future, found, by simpa using live⟩⟩, rfl, rfl⟩
  · rintro ⟨identity, conditions, rfl, rfl⟩
    obtain ⟨key, has_key, same⟩ := conditions.key
    obtain ⟨future, found, live⟩ := conditions.live
    exact ⟨conditions.enabled, identity, conditions.last, by simp [conditions.unlimited], key,
      has_key, same, conditions.fits, future, found, by simp [live], rfl, rfl⟩

theorem coalesce_eq_none [BEq Key] {config : OutboundConfig Command Key}
    {futures : List CommandFuture} {command : Command} {size number : Nat}
    {queue : OutboundCommandQueue Command}
    (kept : queue.coalesce config futures command size number = none) (identity : Nat) :
    ¬ queue.Coalesces config futures command size identity := by
  intro conditions
  have replaced : queue.coalesce config futures command size number = some _ :=
    coalesce_eq_some.mpr ⟨identity, conditions, rfl, rfl⟩
  rw [kept] at replaced
  contradiction

end OutboundCommandQueue

namespace CommandState

variable (state : CommandState Command)

/-- The state after an enqueued submission; `thread` is the recorded watcher. -/
def enqueue (command : Command) (deadline : Option Nat) (size : Nat) (thread : Option Nat) :
    CommandState Command :=
  { state with
    futures := state.futures ++ [{ deadline := deadline }]
    queue := OutboundCommandQueue.count
      { state.queue.append
          ⟨command, state.futures.length, size, deadline, state.accepted.length⟩ with
        submitted := state.queue.submitted + 1
        deadlines := state.queue.withDeadline state.futures.length deadline
        deadlineThread := thread } size
    accepted := state.accepted ++ [state.acceptance command deadline size state.futures.length] }

/-- The state after a submission that took the place of the last entry. -/
def coalesce (identity : Nat) (command : Command) (size : Nat) : CommandState Command :=
  { state with
    queue := { state.queue.replace identity command size state.accepted.length with
      submitted := state.queue.submitted + 1
      coalesced := state.queue.coalesced + 1 }
    accepted := state.accepted ++
      [state.acceptance command none size (state.queue.entry identity).completion] }

/-- The state after a refusal, with its counters. -/
def refuse (closed oversized full : Nat) : CommandState Command :=
  { state with queue := { state.queue with
      submitted := state.queue.submitted + 1
      rejectedAfterShutdown := closed
      rejectedOversized := oversized
      rejectedFull := full } }

/-- The state after a submission whose watcher could not be started. -/
def abandon (command : Command) (size limit : Nat) : CommandState Command :=
  { state with
    futures := state.futures ++ [{ deadline := some limit }]
    queue := OutboundCommandQueue.withdraw
      { state.queue.append
          ⟨command, state.futures.length, size, some limit, state.accepted.length⟩ with
        submitted := state.queue.submitted + 1
        deadlines := state.queue.withDeadline state.futures.length (some limit) }
      state.futures.length state.queue.entries.length }

/-- Everything that a call of `send_async` can do. -/
inductive Sends [BEq Key] (config : OutboundConfig Command Key) (command : Command)
    (deadline : Option Nat) (thread : Nat) : Sent Command → Prop
  | refused (error : SubmissionError) (closed oversized full : Nat) :
      Sends config command deadline thread
        { state := state.refuse closed oversized full, result := .error error }
  | unwatched (size limit : Nat) : deadline = some limit → state.queue.deadlineThread = none →
      Sends config command deadline thread
        { state := state.abandon command size limit, result := .error .unwatched }
  | coalesced (identity size : Nat) : deadline = none →
      state.queue.Coalesces config state.futures command size identity →
      Sends config command deadline thread
        { state := state.coalesce identity command size
          result := .ok (state.queue.entry identity).completion }
  | enqueued (size : Nat) : state.queue.queue.length < config.queueLimit →
      state.queue.currentBytes + size ≤ config.byteLimit →
      (deadline = none → ∀ identity,
        ¬ state.queue.Coalesces config state.futures command size identity) →
      (deadline = none ∨ state.queue.deadlineThread.isSome = true) →
      Sends config command deadline thread
        { state := state.enqueue command deadline size state.queue.deadlineThread
          result := .ok state.futures.length }
  | watched (size limit : Nat) : state.queue.queue.length < config.queueLimit →
      state.queue.currentBytes + size ≤ config.byteLimit →
      deadline = some limit → state.queue.deadlineThread = none →
      Sends config command deadline thread
        { state := state.enqueue command deadline size (some thread)
          result := .ok state.futures.length
          watcher := true }

variable {state}

omit [Inhabited Command] in
theorem future_of_found {completion : Nat} {future : CommandFuture}
    (found : state.futures[completion]? = some future) : state.future completion = future := by
  simp [CommandState.future, found]

theorem sendAsync_cases [BEq Key] (config : OutboundConfig Command Key) (command : Command)
    (deadline : Option Nat) (starts : Bool) (thread : Nat) :
    state.Sends config command deadline thread
      (state.sendAsync config command deadline starts thread) := by
  simp only [sendAsync]
  split
  · exact .refused .closed (state.queue.rejectedAfterShutdown + 1) state.queue.rejectedOversized
      state.queue.rejectedFull
  split
  · exact .refused .oversized state.queue.rejectedAfterShutdown (state.queue.rejectedOversized + 1)
      state.queue.rejectedFull
  split
  · next queue completion decided =>
    split at decided
    · next unlimited =>
      obtain ⟨identity, conditions, rfl, rfl⟩ := OutboundCommandQueue.coalesce_eq_some.mp decided
      have none_deadline : deadline = none := by simpa using unlimited
      subst none_deadline
      exact .coalesced identity (config.retainedSize command config.byteLimit) rfl
        { conditions with }
    · contradiction
  · next kept =>
    split
    · exact .refused .full state.queue.rejectedAfterShutdown state.queue.rejectedOversized
        (state.queue.rejectedFull + 1)
    · next room =>
      simp only [Bool.or_eq_true, decide_eq_true_eq, not_or, Nat.not_le, Nat.not_lt] at room
      split
      · have alone : ∀ identity, ¬ state.queue.Coalesces config state.futures command
            (config.retainedSize command config.byteLimit) identity := by
          intro identity conditions
          exact OutboundCommandQueue.coalesce_eq_none kept identity { conditions with }
        exact .enqueued _ room.1 room.2 (fun _ => alone) (.inl rfl)
      · next limit =>
        split
        · next running =>
          exact .enqueued _ room.1 room.2 (fun none_deadline => nomatch none_deadline) (.inr running)
        · next idle =>
          have unrecorded : state.queue.deadlineThread = none := by
            simpa [OutboundCommandQueue.append] using idle
          split
          · exact .watched _ limit room.1 room.2 rfl unrecorded
          · exact .unwatched _ limit rfl unrecorded

/-- Everything that the first step of an operation can do. -/
inductive Moves (state : CommandState Command) :
    CommandOp → CommandState Command → List CommandOp → Prop
  | cancelLost (completion : Nat) : Moves state (.cancel completion) state []
  | cancelDelegated (completion command : Nat) :
      (state.future completion).delegate = some command →
      Moves state (.cancel completion) state [.cancel command]
  | cancelWon (completion : Nat) : (state.future completion).terminal = none →
      (state.future completion).sending = false →
      Moves state (.cancel completion)
        { state.update completion
            { state.future completion with terminal := some (some .cancelled) } with
          cancelled := completion :: state.cancelled }
        [.publish completion]
  | sendLost (completion : Nat) : Moves state (.startSend completion) state []
  | sendExpired (completion : Nat) :
      Moves state (.startSend completion) state [.expire completion]
  | sendStarted (completion : Nat) : (state.future completion).terminal = none →
      Moves state (.startSend completion)
        (state.update completion
          { state.future completion with sending := true, abort := true }) []
  | finishLost (completion : Nat) (error : Outcome) :
      (state.future completion).terminal.isSome = true →
      Moves state (.finish completion error) state []
  | finishWon (completion : Nat) (error : Outcome) :
      (state.future completion).terminal = none →
      Moves state (.finish completion error)
        (state.update completion { state.future completion with
          terminal := some ((state.future completion).recorded state.clock error)
          abort := false
          delegate := none })
        [.publish completion]
  | published (completion : Nat) (outcome : Outcome) :
      (state.future completion).terminal = some outcome →
      (state.future completion).future = none →
      Moves state (.publish completion)
        (state.update completion { state.future completion with future := some outcome })
        [.commandFinished completion]
  | jammed (completion : Nat) : (state.future completion).terminal = none ∨
      (state.future completion).future.isSome = true →
      Moves state (.publish completion) state []
  | commandFinished (completion : Nat) :
      Moves state (.commandFinished completion) (state.commandFinished completion)
        [.observe completion]
  | observed (completion : Nat) : Moves state (.observe completion) state []
  | watcherEnds : state.queue.deadlines = [] →
      Moves state .watchDeadlines
        { state with queue := { state.queue with deadlineThread := none } } []
  | watcherExpires (completion deadline : Nat) : (completion, deadline) ∈ state.queue.deadlines →
      Moves state .watchDeadlines
        { state with queue := { state.queue with
          deadlines := state.queue.popDeadline completion } }
        [.expire completion, .watchDeadlines]
  | stopAccepting : Moves state .stopAccepting
      { state with queue := { state.queue with accepting := false } } []
  | drained : Moves state .drain state []
  | drainTimedOut : Moves state .drain state [.discardQueue]
  | discardQueue : Moves state .discardQueue state.discardQueue (state.completions.map .discard)

theorem commandFinished_absent {completion : Nat}
    (absent : state.queue.queued completion = none) :
    state.commandFinished completion = { state with
      queue := { state.queue with deadlines := state.queue.popDeadline completion } } := by
  simp only [CommandState.commandFinished, absent]

theorem commandFinished_queued {completion identity : Nat}
    (queued : state.queue.queued completion = some identity) :
    state.commandFinished completion = { state with
      queue := { state.queue with
        deadlines := state.queue.popDeadline completion
        queued := Function.update state.queue.queued completion none
        queue := state.queue.queue.erase identity
        currentBytes := state.queue.currentBytes - (state.queue.entry identity).size }
      departures := state.departures ++ [⟨.finished, state.queue.entry identity⟩] } := by
  simp only [CommandState.commandFinished, queued]
  rfl

theorem receive_eq_some {after : CommandState Command} {submission : CommandSubmission Command}
    (received : state.receive = some (after, submission)) :
    ∃ identity rest, state.queue.queue = identity :: rest ∧
      submission = ⟨(state.queue.entry identity).command, (state.queue.entry identity).completion⟩ ∧
      after = { state with
        queue := { state.queue with
          queue := rest
          queued := Function.update state.queue.queued (state.queue.entry identity).completion none
          currentBytes := state.queue.currentBytes - (state.queue.entry identity).size
          dequeued := state.queue.dequeued + 1 }
        departures := state.departures ++ [⟨.received, state.queue.entry identity⟩] } := by
  unfold CommandState.receive at received
  split at received
  · contradiction
  · next identity rest line =>
    cases received
    exact ⟨identity, rest, line, rfl, rfl⟩

theorem advance_drain {choice : Choice} {after : CommandState Command}
    (advanced : state.advance choice .drain = some (after, [])) : state.queue.queue = [] := by
  simp only [advance] at advanced
  split at advanced
  · split at advanced
    · contradiction
    · simp at advanced
  · split at advanced
    · next empty => simpa using empty
    · contradiction

theorem sendAsync_closed [BEq Key] (config : OutboundConfig Command Key) (command : Command)
    (deadline : Option Nat) (starts : Bool) (thread : Nat) (shut : state.queue.accepting = false) :
    (state.sendAsync config command deadline starts thread).state =
      state.refuse (state.queue.rejectedAfterShutdown + 1) state.queue.rejectedOversized
        state.queue.rejectedFull := by
  simp [sendAsync, refuse, shut]

theorem earliest_eq_none {deadlines : List (Nat × Nat)} (none_left : earliest deadlines = none) :
    deadlines = [] := by
  cases deadlines with
  | nil => rfl
  | cons item rest =>
      simp only [earliest] at none_left
      split at none_left <;> contradiction

theorem earliest_mem {deadlines : List (Nat × Nat)} {item : Nat × Nat}
    (found : earliest deadlines = some item) : item ∈ deadlines := by
  induction deadlines generalizing item with
  | nil => contradiction
  | cons first rest ih =>
      simp only [earliest] at found
      split at found
      · cases found
        exact List.mem_cons_self
      · next other later =>
        cases found
        split
        · exact List.mem_cons_self
        · exact List.mem_cons_of_mem first (ih later)

theorem advance_cases {choice : Choice} {op : CommandOp} {after : CommandState Command}
    {calls : List CommandOp} (advanced : state.advance choice op = some (after, calls)) :
    state.Moves op after calls := by
  cases op with
  | cancel completion =>
      simp only [advance] at advanced
      split at advanced <;> cases advanced
      · exact .cancelLost completion
      · next decided =>
        exact .cancelDelegated completion _ (CommandFuture.cancel_delegated decided).2
      · next decided =>
        obtain ⟨free, unsent, _, rfl⟩ := CommandFuture.cancel_cancelled decided
        exact .cancelWon completion free unsent
  | startSend completion =>
      simp only [advance] at advanced
      split at advanced <;> cases advanced
      · exact .sendLost completion
      · exact .sendExpired completion
      · next decided =>
        obtain ⟨free, _, rfl⟩ := CommandFuture.startSend_started decided
        exact .sendStarted completion free
  | finish completion error =>
      simp only [advance] at advanced
      split at advanced <;> cases advanced
      · next decided => exact .finishLost completion error (CommandFuture.finish_lost decided)
      · next decided =>
        obtain ⟨free, rfl, _⟩ := CommandFuture.finish_won decided
        exact .finishWon completion error free
  | publish completion =>
      simp only [advance] at advanced
      split at advanced <;> cases advanced
      · next decided => exact .jammed completion (CommandFuture.publish_none decided)
      · next decided =>
        obtain ⟨outcome, terminal, future, rfl⟩ := CommandFuture.publish_some decided
        exact .published completion outcome terminal future
  | commandFinished completion =>
      cases advanced
      exact .commandFinished completion
  | observe completion =>
      cases advanced
      exact .observed completion
  | watchDeadlines =>
      simp only [advance] at advanced
      split at advanced
      · next none_left =>
        cases advanced
        exact .watcherEnds (earliest_eq_none none_left)
      · next completion deadline found =>
        split at advanced <;> cases advanced
        exact .watcherExpires completion deadline (earliest_mem found)
  | stopAccepting =>
      cases advanced
      exact .stopAccepting
  | drain =>
      simp only [advance] at advanced
      split at advanced <;> split at advanced <;> cases advanced
      · exact .drainTimedOut
      · exact .drained
  | discardQueue =>
      cases advanced
      exact .discardQueue

end CommandState

namespace OutboundWorld

variable {world after : OutboundWorld Command}

theorem sendAsync_eq [BEq Key] (world : OutboundWorld Command) (config : OutboundConfig Command Key)
    (command : Command) (deadline : Option Nat) (starts : Bool) :
    world.sendAsync config command deadline starts =
      let sent := world.commands.sendAsync config command deadline starts world.threads.length
      if sent.watcher then OutboundWorld.call { world with commands := sent.state } [.watchDeadlines]
      else { world with commands := sent.state } := by
  simp only [OutboundWorld.sendAsync, OutboundWorld.call]
  split <;> rfl

theorem run_cases {index : Nat} {choice : Choice} (stepped : world.run index choice = some after) :
    (∃ completion rest, world.threads[index]? = some (.observe completion :: rest) ∧
      choice = .raises ∧ after = { world with threads := resume world.threads index [] }) ∨
    (∃ op rest commands calls, world.threads[index]? = some (op :: rest) ∧
      world.commands.Moves op commands calls ∧ choice ≠ .raises ∧
      after = { world with
        commands
        threads := resume world.threads index (calls ++ rest)
        discards := world.discards ++ world.discarding index op }) := by
  unfold run at stepped
  split at stepped
  · next op rest found =>
    split at stepped
    · cases stepped
      exact .inl ⟨_, rest, found, rfl, rfl⟩
    · contradiction
    · next returns _ =>
      simp only [Option.map_eq_some_iff] at stepped
      obtain ⟨⟨commands, calls⟩, advanced, rfl⟩ := stepped
      refine .inr ⟨op, rest, commands, calls, found, CommandState.advance_cases advanced, returns, rfl⟩
  · contradiction

end OutboundWorld

end StreamDockSdk.Messaging
