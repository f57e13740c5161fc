import Mathlib.Algebra.BigOperators.Group.List.Basic
import StreamDockSdk.Messaging.Outbound.Transition

namespace StreamDockSdk.Messaging

variable {Command Key : Type} [Inhabited Command]
variable {queue : OutboundCommandQueue Command} {state : CommandState Command}
variable {config : OutboundConfig Command Key} {identity completion : Nat}

namespace OutboundCommandQueue

theorem entry_append {other : OutboundCommandQueue Command} {queued : QueuedCommand Command}
    (grown : other.entries = queue.entries ++ [queued]) (made : identity < queue.entries.length) :
    other.entry identity = queue.entry identity := by
  simp [entry, grown, List.getElem?_append_left made]

theorem entry_appended {other : OutboundCommandQueue Command} {queued : QueuedCommand Command}
    (grown : other.entries = queue.entries ++ [queued]) :
    other.entry queue.entries.length = queued := by
  simp [entry, grown]

theorem entry_set {other : OutboundCommandQueue Command} {queued : QueuedCommand Command}
    {position : Nat} (made : position < queue.entries.length)
    (changed : other.entries = queue.entries.set position queued) :
    other.entry identity = if identity = position then queued else queue.entry identity := by
  simp only [entry, changed, List.getElem?_set]
  by_cases same : position = identity
  · subst same
    simp [made]
  · simp [same, Ne.symm same]

end OutboundCommandQueue

/-- The representation of the queue of a state. -/
structure CommandState.Represents (config : OutboundConfig Command Key)
    (state : CommandState Command) : Prop where
  index : ∀ completion identity, state.queue.queued completion = some identity ↔
    identity ∈ state.queue.queue ∧ (state.queue.entry identity).completion = completion
  distinct : state.queue.queue.Nodup
  made : ∀ identity ∈ state.queue.queue, identity < state.queue.entries.length
  known : ∀ identity ∈ state.queue.queue,
    (state.queue.entry identity).completion < state.futures.length
  watched : ∀ item ∈ state.queue.deadlines, item.1 < state.futures.length
  bytes : state.queue.currentBytes =
    (state.queue.queue.map fun identity => (state.queue.entry identity).size).sum
  depth : state.queue.queue.length ≤ config.queueLimit
  limit : state.queue.currentBytes ≤ config.byteLimit

namespace CommandState.Represents

variable (represents : state.Represents config)

include represents

theorem unindexed (fresh : state.futures.length ≤ completion) :
    state.queue.queued completion = none := by
  cases found : state.queue.queued completion with
  | none => rfl
  | some identity =>
      obtain ⟨member, rfl⟩ := (represents.index completion identity).mp found
      exact absurd (represents.known identity member) (Nat.not_lt.mpr fresh)

theorem queued (member : identity ∈ state.queue.queue) :
    state.queue.queued (state.queue.entry identity).completion = some identity :=
  (represents.index _ identity).mpr ⟨member, rfl⟩

theorem completion_injective {other : Nat} (member : identity ∈ state.queue.queue)
    (other_member : other ∈ state.queue.queue)
    (same : (state.queue.entry identity).completion = (state.queue.entry other).completion) :
    identity = other := by
  have first := represents.queued member
  rw [same, represents.queued other_member] at first
  exact (Option.some.inj first).symm

theorem unlisted (fresh : state.futures.length ≤ completion) :
    state.queue.popDeadline completion = state.queue.deadlines := by
  apply List.filter_eq_self.mpr
  intro item member
  have bound := represents.watched item member
  simp only [bne_iff_ne, ne_eq]
  omega

theorem length_not_mem : state.queue.entries.length ∉ state.queue.queue := by
  intro member
  exact Nat.lt_irrefl _ (represents.made _ member)

/-- Completions may change, and more of them be made, as long as the queue stays. -/
theorem keep {after : CommandState Command} (same : after.queue = state.queue)
    (grown : state.futures.length ≤ after.futures.length) : after.Represents config := by
  constructor <;> simp only [same]
  · exact represents.index
  · exact represents.distinct
  · exact represents.made
  · intro identity member
    exact Nat.lt_of_lt_of_le (represents.known identity member) grown
  · intro item member
    exact Nat.lt_of_lt_of_le (represents.watched item member) grown
  · exact represents.bytes
  · exact represents.depth
  · exact represents.limit

theorem refuse (closed oversized full : Nat) :
    (state.refuse closed oversized full).Represents config :=
  { represents with }

/-- The rollback of a submission whose watcher cannot be started leaves behind
only a completion and an entry that nothing refers to. -/
theorem abandon_eq (unrecorded : state.queue.deadlineThread = none)
    (command : Command) (size limit : Nat) :
    state.abandon command size limit = { state with
      futures := state.futures ++ [{ deadline := some limit }]
      queue := { state.queue with
        submitted := state.queue.submitted + 1
        entries := state.queue.entries ++
          [⟨command, state.futures.length, size, some limit, state.accepted.length⟩] } } := by
  have index : Function.update (Function.update state.queue.queued state.futures.length
      (some state.queue.entries.length)) state.futures.length none = state.queue.queued := by
    rw [Function.update_idem, ← represents.unindexed (Nat.le_refl _), Function.update_eq_self]
  have line : (state.queue.queue ++ [state.queue.entries.length]).erase state.queue.entries.length =
      state.queue.queue := by
    rw [List.erase_append_right _ represents.length_not_mem]
    simp
  have table : (state.queue.deadlines ++ [(state.futures.length, limit)]).filter
      (fun item => item.1 != state.futures.length) = state.queue.deadlines := by
    rw [List.filter_append]
    simpa [OutboundCommandQueue.popDeadline] using represents.unlisted (Nat.le_refl _)
  simp only [abandon, OutboundCommandQueue.withdraw, OutboundCommandQueue.append,
    OutboundCommandQueue.withDeadline, OutboundCommandQueue.popDeadline, index, line, table,
    unrecorded]

theorem abandon (unrecorded : state.queue.deadlineThread = none)
    (command : Command) (size limit : Nat) :
    (state.abandon command size limit).Represents config := by
  rw [represents.abandon_eq unrecorded]
  have kept (identity : Nat) (member : identity ∈ state.queue.queue) :
      OutboundCommandQueue.entry { state.queue with
        submitted := state.queue.submitted + 1
        entries := state.queue.entries ++
          [⟨command, state.futures.length, size, some limit, state.accepted.length⟩] } identity =
        state.queue.entry identity :=
    OutboundCommandQueue.entry_append rfl (represents.made identity member)
  constructor
  · intro completion identity
    rw [represents.index]
    exact and_congr_right fun member => by rw [kept identity member]
  · exact represents.distinct
  · intro identity member
    have bound := represents.made identity member
    simp only [List.length_append]
    omega
  · intro identity member
    have bound := represents.known identity member
    rw [kept identity member]
    simp only [List.length_append]
    omega
  · intro item member
    have bound := represents.watched item member
    simp only [List.length_append]
    omega
  · rw [represents.bytes]
    exact congrArg List.sum (List.map_congr_left fun identity member => by rw [kept identity member])
  · exact represents.depth
  · exact represents.limit

theorem enqueue {size : Nat} (room : state.queue.queue.length < config.queueLimit)
    (fits : state.queue.currentBytes + size ≤ config.byteLimit)
    (command : Command) (deadline : Option Nat) (thread : Option Nat) :
    (state.enqueue command deadline size thread).Represents config := by
  have kept (identity : Nat) (member : identity ∈ state.queue.queue) :
      (state.enqueue command deadline size thread).queue.entry identity =
        state.queue.entry identity :=
    OutboundCommandQueue.entry_append rfl (represents.made identity member)
  have last : (state.enqueue command deadline size thread).queue.entry state.queue.entries.length =
      ⟨command, state.futures.length, size, deadline, state.accepted.length⟩ :=
    OutboundCommandQueue.entry_appended rfl
  have line : (state.enqueue command deadline size thread).queue.queue =
      state.queue.queue ++ [state.queue.entries.length] := rfl
  have index : (state.enqueue command deadline size thread).queue.queued =
      Function.update state.queue.queued state.futures.length (some state.queue.entries.length) := rfl
  constructor
  · intro completion identity
    rw [line, index, List.mem_append, List.mem_singleton]
    by_cases own : completion = state.futures.length
    · subst own
      rw [Function.update_self, Option.some.injEq]
      constructor
      · rintro rfl
        exact ⟨.inr rfl, by rw [last]⟩
      · rintro ⟨member | rfl, same⟩
        · have bound := represents.known identity member
          rw [kept identity member] at same
          omega
        · rfl
    · rw [Function.update_of_ne own, represents.index]
      constructor
      · rintro ⟨member, same⟩
        exact ⟨.inl member, by rw [kept identity member, same]⟩
      · rintro ⟨member | rfl, same⟩
        · exact ⟨member, by rw [← kept identity member, same]⟩
        · rw [last] at same
          exact absurd same.symm own
  · rw [line, List.nodup_append]
    refine ⟨represents.distinct, by simp, ?_⟩
    intro identity member other last same
    rw [List.mem_singleton.mp last] at same
    exact represents.length_not_mem (same ▸ member)
  · intro identity member
    have grown : (state.enqueue command deadline size thread).queue.entries.length =
      state.queue.entries.length + 1 := List.length_append
    rw [line, List.mem_append, List.mem_singleton] at member
    rcases member with member | rfl
    · have bound := represents.made identity member
      omega
    · omega
  · intro identity member
    have grown : (state.enqueue command deadline size thread).futures.length =
      state.futures.length + 1 := List.length_append
    rw [line, List.mem_append, List.mem_singleton] at member
    rcases member with member | rfl
    · have bound := represents.known identity member
      rw [kept identity member]
      omega
    · rw [last]
      show state.futures.length < _
      omega
  · intro item member
    have grown : (state.enqueue command deadline size thread).futures.length =
      state.futures.length + 1 := List.length_append
    have listed : item ∈ state.queue.withDeadline state.futures.length deadline := member
    cases deadline with
    | none =>
        have bound := represents.watched item listed
        omega
    | some limit =>
        rcases List.mem_append.mp listed with old | new
        · have bound := represents.watched item old
          omega
        · rw [List.mem_singleton.mp new]
          show state.futures.length < _
          omega
  · rw [line, List.map_append, List.sum_append]
    have total : state.queue.currentBytes + size = _ + size :=
      congrArg (· + size) represents.bytes
    refine total.trans (congrArg₂ (· + ·) ?_ ?_)
    · exact congrArg List.sum (List.map_congr_left fun identity member => by rw [kept identity member])
    · simp [last]
  · rw [line, List.length_append]
    exact room
  · exact fits

theorem coalesce {futures : List CommandFuture} {command : Command} {size : Nat} [BEq Key]
    (conditions : state.queue.Coalesces config futures command size identity) :
    (state.coalesce identity command size).Represents config := by
  have member : identity ∈ state.queue.queue := List.mem_of_getLast? conditions.last
  have entry (other : Nat) : (state.coalesce identity command size).queue.entry other =
      if other = identity then
        { state.queue.entry identity with command, size, number := state.accepted.length }
      else state.queue.entry other :=
    OutboundCommandQueue.entry_set (represents.made identity member) rfl
  have completion (other : Nat) :
      ((state.coalesce identity command size).queue.entry other).completion =
        (state.queue.entry other).completion := by
    rw [entry]
    split
    · next same => rw [same]
    · rfl
  constructor
  · intro completion' other
    rw [completion]
    exact represents.index completion' other
  · exact represents.distinct
  · intro other member
    exact Nat.lt_of_lt_of_eq (represents.made other member) List.length_set.symm
  · intro other member
    rw [completion]
    exact represents.known other member
  · exact represents.watched
  · have total := List.sum_map_erase (fun other => (state.queue.entry other).size) member
    have new := List.sum_map_erase
      (fun other => ((state.coalesce identity command size).queue.entry other).size) member
    have others : (state.queue.queue.erase identity).map
        (fun other => ((state.coalesce identity command size).queue.entry other).size) =
        (state.queue.queue.erase identity).map fun other => (state.queue.entry other).size := by
      apply List.map_congr_left
      intro other within
      rw [entry, if_neg ((represents.distinct.mem_erase_iff).mp within).1]
    have own : ((state.coalesce identity command size).queue.entry identity).size = size := by
      rw [entry, if_pos rfl]
    have bytes := represents.bytes
    have replaced : (state.coalesce identity command size).queue.currentBytes =
      state.queue.currentBytes - (state.queue.entry identity).size + size := rfl
    rw [others, own] at new
    have line : (state.coalesce identity command size).queue.queue = state.queue.queue := rfl
    rw [line, ← new, replaced]
    omega
  · exact represents.depth
  · exact conditions.fits

/-- An entry may leave the queue together with its index and its bytes. -/
theorem remove {after : CommandState Command} (member : identity ∈ state.queue.queue)
    (entries : after.queue.entries = state.queue.entries)
    (line : after.queue.queue = state.queue.queue.erase identity)
    (index : after.queue.queued =
      Function.update state.queue.queued (state.queue.entry identity).completion none)
    (bytes : after.queue.currentBytes = state.queue.currentBytes - (state.queue.entry identity).size)
    (deadlines : ∀ item ∈ after.queue.deadlines, item ∈ state.queue.deadlines)
    (futures : after.futures = state.futures) : after.Represents config := by
  have entry (other : Nat) : after.queue.entry other = state.queue.entry other := by
    simp [OutboundCommandQueue.entry, entries]
  have within (other : Nat) : other ∈ after.queue.queue ↔
      other ≠ identity ∧ other ∈ state.queue.queue := by
    rw [line, represents.distinct.mem_erase_iff]
  constructor
  · intro completion other
    rw [within, entry, index]
    by_cases own : completion = (state.queue.entry identity).completion
    · subst own
      simp only [Function.update_self, reduceCtorEq, false_iff]
      rintro ⟨⟨different, other_member⟩, same⟩
      exact different (represents.completion_injective other_member member same)
    · rw [Function.update_of_ne own, represents.index]
      constructor
      · rintro ⟨other_member, same⟩
        refine ⟨⟨?_, other_member⟩, same⟩
        rintro rfl
        exact own same.symm
      · rintro ⟨⟨_, other_member⟩, same⟩
        exact ⟨other_member, same⟩
  · rw [line]
    exact represents.distinct.erase identity
  · intro other other_member
    rw [entries]
    exact represents.made other ((within other).mp other_member).2
  · intro other other_member
    rw [entry, futures]
    exact represents.known other ((within other).mp other_member).2
  · intro item listed
    rw [futures]
    exact represents.watched item (deadlines item listed)
  · have total := List.sum_map_erase (fun other => (state.queue.entry other).size) member
    have all := represents.bytes
    rw [bytes, line, List.map_congr_left fun other _ => by rw [entry other]]
    omega
  · have shorter := @List.length_erase_le _ _ identity state.queue.queue
    have depth := represents.depth
    rw [line]
    omega
  · have limit := represents.limit
    omega

theorem receive {after : CommandState Command} {submission : CommandSubmission Command}
    (received : state.receive = some (after, submission)) : after.Represents config := by
  obtain ⟨identity, rest, line, rfl, rfl⟩ := receive_eq_some received
  have member : identity ∈ state.queue.queue := by simp [line]
  refine represents.remove member rfl ?_ rfl rfl (fun item listed => listed) rfl
  simp [line]

theorem commandFinished (completion : Nat) :
    (state.commandFinished completion).Represents config := by
  have fewer (item : Nat × Nat) (listed : item ∈ state.queue.popDeadline completion) :
      item ∈ state.queue.deadlines := List.mem_of_mem_filter listed
  cases found : state.queue.queued completion with
  | none =>
      rw [commandFinished_absent found]
      exact { represents with
        watched := fun item listed => represents.watched item (fewer item listed) }
  | some identity =>
      rw [commandFinished_queued found]
      obtain ⟨member, same⟩ := (represents.index completion identity).mp found
      subst same
      exact represents.remove member rfl rfl rfl rfl fewer rfl

theorem discardQueue : state.discardQueue.Represents config := by
  constructor
  · intro completion identity
    simp only [CommandState.discardQueue, List.not_mem_nil, false_and, iff_false]
    split
    · simp
    · next absent =>
      intro found
      obtain ⟨member, rfl⟩ := (represents.index completion identity).mp found
      exact absent (List.mem_map.mpr ⟨identity, member, rfl⟩)
  · exact List.nodup_nil
  · intro identity member
    contradiction
  · intro identity member
    contradiction
  · exact represents.watched
  · rfl
  · exact Nat.zero_le _
  · exact Nat.zero_le _

theorem sendAsync [BEq Key] {command : Command} {deadline : Option Nat} {thread : Nat}
    {sent : Sent Command} (sends : state.Sends config command deadline thread sent) :
    sent.state.Represents config := by
  cases sends with
  | refused error closed oversized full => exact represents.refuse closed oversized full
  | unwatched size limit _ unrecorded => exact represents.abandon unrecorded command size limit
  | coalesced identity size _ conditions => exact represents.coalesce conditions
  | enqueued size room fits => exact represents.enqueue room fits command deadline _
  | watched size limit room fits => exact represents.enqueue room fits command deadline _

theorem moves {op : CommandOp} {after : CommandState Command} {calls : List CommandOp}
    (moves : state.Moves op after calls) : after.Represents config := by
  cases moves with
  | cancelLost | cancelDelegated | sendLost | sendExpired | finishLost | jammed | observed
  | drained | drainTimedOut => exact represents
  | cancelWon | sendStarted | finishWon | published =>
      exact represents.keep rfl (Nat.le_of_eq List.length_set.symm)
  | commandFinished completion => exact represents.commandFinished completion
  | watcherEnds => exact { represents with }
  | watcherExpires completion deadline listed =>
      exact { represents with
        watched := fun item member => represents.watched item (List.mem_of_mem_filter member) }
  | stopAccepting => exact { represents with }
  | discardQueue => exact represents.discardQueue

end CommandState.Represents

end StreamDockSdk.Messaging
