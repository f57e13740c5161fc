import StreamDockSdk.Messaging.Outbound.Accounting

namespace StreamDockSdk.Messaging

open Automaton

variable {Command Key : Type} [Inhabited Command]
variable {config : OutboundConfig Command Key}

namespace CommandState

variable {state after : CommandState Command} {completion : Nat}

/-- Nothing takes an outcome back. -/
theorem moves_terminal {op : CommandOp} {calls : List CommandOp} (moves : state.Moves op after calls)
    (decided : (state.future completion).terminal.isSome = true) :
    (after.future completion).terminal.isSome = true := by
  have changed {next : CommandState Command} {target : Nat} {future : CommandFuture}
      (set : next.futures = state.futures.set target future)
      (kept : (state.future target).terminal.isSome = true → future.terminal.isSome = true) :
      (next.future completion).terminal.isSome = true := by
    rw [future_of_set set]
    split
    · next own => exact kept (own.1 ▸ decided)
    · exact decided
  cases moves with
  | cancelWon target => exact changed rfl fun _ => rfl
  | finishWon target => exact changed rfl fun _ => rfl
  | sendStarted target => exact changed rfl id
  | published target => exact changed rfl id
  | commandFinished target =>
      have futures : (state.commandFinished target).futures = state.futures := by
        cases found : state.queue.queued target with
        | none => rw [commandFinished_absent found]
        | some identity => rw [commandFinished_queued found]
      simpa only [CommandState.future, futures] using decided
  | _ => exact decided

theorem sends_terminal [BEq Key] (represents : state.Represents config) {command : Command}
    {deadline : Option Nat} {thread : Nat} {sent : Sent Command}
    (sends : state.Sends config command deadline thread sent)
    (decided : (state.future completion).terminal.isSome = true) :
    (sent.state.future completion).terminal.isSome = true := by
  have grown {next : CommandState Command} {limit : Option Nat}
      (appended : next.futures = state.futures ++ [{ deadline := limit }]) :
      (next.future completion).terminal.isSome = true := by
    rw [future_of_append appended]
    split
    · next fresh => simp [CommandState.future, fresh] at decided
    · exact decided
  cases sends with
  | refused | coalesced => exact decided
  | unwatched size limit _ unrecorded =>
      rw [represents.abandon_eq unrecorded]
      exact grown rfl
  | enqueued | watched => exact grown rfl

/-- A command that `shutdown` goes over has an outcome then. -/
theorem moves_discard {calls : List CommandOp} (made : completion < state.futures.length)
    (moves : state.Moves (.discard completion) after calls) :
    (after.future completion).terminal.isSome = true := by
  cases moves with
  | finishLost _ _ decided => exact decided
  | finishWon =>
      rw [future_of_set rfl, if_pos ⟨rfl, made⟩]
      rfl

end CommandState

namespace OutboundWorld

variable {world after : OutboundWorld Command} {label : OutboundLabel Command}

/-- Every command that a `shutdown` removed has an outcome when the call is over,
recorded or about to be. -/
def Discarded (world : OutboundWorld Command) : Prop :=
  ∀ index completions, (index, completions) ∈ world.discards → world.threads[index]? = some [] →
    ∀ completion ∈ completions, (world.commands.future completion).terminal.isSome = true ∧
      ((world.commands.future completion).future.isSome = true ∨
        Running world.threads (.publish completion))

/-- The operation is over already, or is no discard. -/
def settled (world : OutboundWorld Command) : CommandOp → Bool
  | .finish completion error =>
      error != some .queueClosed || (world.commands.future completion).terminal.isSome
  | _ => true

/-- Where an observer raises a `BaseException` in `shutdown`, the commands that
the call still has to finish are terminal. -/
def sparesDiscards (world : OutboundWorld Command) : OutboundLabel Command → Bool
  | .run index .raises => ((world.threads[index]?).getD []).all world.settled
  | _ => true

/-- A command that waits for its turn in `shutdown` was removed by that call. -/
def Traced (world : OutboundWorld Command) : Prop :=
  ∀ index stack, world.threads[index]? = some stack → ∀ completion,
    .discard completion ∈ stack.tail →
      ∃ completions, (index, completions) ∈ world.discards ∧ completion ∈ completions

/-- A removed command is terminal, or its turn in `shutdown` is still to come. -/
def Covered (world : OutboundWorld Command) : Prop :=
  ∀ index completions, (index, completions) ∈ world.discards → ∀ completion ∈ completions,
    completion < world.commands.futures.length ∧
      ((world.commands.future completion).terminal.isSome = true ∨
        ∃ stack, world.threads[index]? = some stack ∧ .discard completion ∈ stack)

theorem Covered.discarded (covered : world.Covered) (accounted : world.Accounted config) :
    world.Discarded := by
  intro index completions discard isOver completion member
  have decided : (world.commands.future completion).terminal.isSome = true := by
    rcases (covered index completions discard completion member).2 with decided | ⟨stack, found, turn⟩
    · exact decided
    · rw [isOver, Option.some.injEq] at found
      subst found
      contradiction
  exact ⟨decided, accounted.cleared.publishing completion decided⟩

theorem calls_discard {state next : CommandState Command} {op : CommandOp} {calls : List CommandOp}
    (moves : state.Moves op next calls) {completion : Nat} (turn : .discard completion ∈ calls.tail) :
    op = .discardQueue ∧ completion ∈ state.completions := by
  cases moves with
  | discardQueue =>
      obtain ⟨other, member, same⟩ := List.mem_map.mp (List.mem_of_mem_tail turn)
      cases same
      exact ⟨rfl, member⟩
  | _ => simp at turn

omit [Inhabited Command] in
theorem Traced.append (traced : world.Traced) (stack : List CommandOp)
    (none_waits : ∀ completion, .discard completion ∉ stack.tail)
    (threads : after.threads = world.threads ++ [stack]) (discards : after.discards = world.discards) :
    after.Traced := by
  intro index other found completion turn
  rw [threads, List.getElem?_append] at found
  rw [discards]
  split at found
  · exact traced index other found completion turn
  · rw [List.getElem?_singleton] at found
    split at found
    · cases found
      exact absurd turn (none_waits completion)
    · contradiction

omit [Inhabited Command] in
theorem Covered.carry (covered : world.Covered)
    (threads : ∀ (index : Nat) (stack : List CommandOp), world.threads[index]? = some stack →
      after.threads[index]? = some stack)
    (discards : after.discards = world.discards)
    (grown : world.commands.futures.length ≤ after.commands.futures.length)
    (decided : ∀ completion, (world.commands.future completion).terminal.isSome = true →
      (after.commands.future completion).terminal.isSome = true) : after.Covered := by
  intro index completions discard completion member
  rw [discards] at discard
  obtain ⟨known, state⟩ := covered index completions discard completion member
  refine ⟨Nat.lt_of_lt_of_le known grown, state.imp (decided completion) ?_⟩
  exact fun ⟨stack, found, turn⟩ => ⟨stack, threads index stack found, turn⟩

omit [Inhabited Command] in
theorem call_threads (stack : List CommandOp) (index : Nat) (other : List CommandOp)
    (found : world.threads[index]? = some other) :
    (world.call stack).threads[index]? = some other :=
  (List.getElem?_append_left (List.getElem?_eq_some_iff.mp found).1).trans found

theorem discarding_eq {index : Nat} {op : CommandOp} {entry : Nat × List Nat}
    (discard : entry ∈ world.discarding index op) :
    op = .discardQueue ∧ entry = (index, world.commands.completions) := by
  cases op with
  | discardQueue => exact ⟨rfl, List.mem_singleton.mp discard⟩
  | _ => simp [discarding] at discard

theorem Traced.move (traced : world.Traced) {index : Nat} {op : CommandOp}
    {calls rest : List CommandOp} {commands : CommandState Command}
    (found : world.threads[index]? = some (op :: rest))
    (moves : world.commands.Moves op commands calls)
    (threads : after.threads = resume world.threads index (calls ++ rest))
    (discards : after.discards = world.discards ++ world.discarding index op) : after.Traced := by
  intro other stack at_other completion turn
  rw [threads, resume, getElem?_set_found found] at at_other
  rw [discards]
  split at at_other
  · next own =>
    subst own
    cases at_other
    have waits : .discard completion ∈ calls.tail ∨ .discard completion ∈ rest := by
      cases calls with
      | nil => exact .inr (List.mem_of_mem_tail turn)
      | cons first others => exact List.mem_append.mp turn
    rcases waits with new | old
    · obtain ⟨rfl, member⟩ := calls_discard moves new
      exact ⟨_, List.mem_append_right _ (List.mem_singleton_self _), member⟩
    · obtain ⟨completions, discard, member⟩ := traced other _ found completion old
      exact ⟨completions, List.mem_append_left _ discard, member⟩
  · obtain ⟨completions, discard, member⟩ := traced other stack at_other completion turn
    exact ⟨completions, List.mem_append_left _ discard, member⟩

omit [Inhabited Command] in
theorem Traced.raise (traced : world.Traced) {index : Nat} {stack : List CommandOp}
    (found : world.threads[index]? = some stack)
    (threads : after.threads = resume world.threads index [])
    (discards : after.discards = world.discards) : after.Traced := by
  intro other later at_other completion turn
  rw [threads, resume, getElem?_set_found found] at at_other
  rw [discards]
  split at at_other
  · cases at_other
    contradiction
  · exact traced other later at_other completion turn

theorem Covered.move (covered : world.Covered) (represents : world.commands.Represents config)
    {index : Nat} {op : CommandOp} {calls rest : List CommandOp} {commands : CommandState Command}
    (found : world.threads[index]? = some (op :: rest))
    (moves : world.commands.Moves op commands calls) :
    Covered { world with
      commands
      threads := resume world.threads index (calls ++ rest)
      discards := world.discards ++ world.discarding index op } := by
  intro thread completions discard completion member
  have length : commands.futures.length = _ := CommandState.moves_length moves
  rcases List.mem_append.mp discard with old | new
  · obtain ⟨known, state⟩ := covered thread completions old completion member
    refine ⟨Nat.lt_of_lt_of_eq known length.symm, ?_⟩
    rcases state with decided | ⟨stack, at_thread, turn⟩
    · exact .inl (CommandState.moves_terminal moves decided)
    · by_cases here : thread = index
      · subst here
        rw [found, Option.some.injEq] at at_thread
        subst at_thread
        rcases List.mem_cons.mp turn with rfl | behind
        · exact .inl (CommandState.moves_discard known moves)
        · exact .inr ⟨calls ++ rest, (getElem?_set_found found thread).trans (if_pos rfl),
            List.mem_append_right calls behind⟩
      · exact .inr ⟨stack, (getElem?_set_found found thread).trans ((if_neg here).trans at_thread), turn⟩
  · obtain ⟨rfl, same⟩ := discarding_eq new
    cases same
    obtain ⟨identity, queued, rfl⟩ := List.mem_map.mp member
    refine ⟨Nat.lt_of_lt_of_eq (represents.known identity queued) length.symm, .inr ?_⟩
    refine ⟨calls ++ rest, (getElem?_set_found found _).trans (if_pos rfl), ?_⟩
    cases moves with
    | discardQueue => exact List.mem_append_left rest (List.mem_map_of_mem member)

omit [Inhabited Command] in
theorem Covered.raise (covered : world.Covered) {index : Nat} {stack : List CommandOp}
    (found : world.threads[index]? = some stack) (spared : stack.all world.settled = true) :
    Covered { world with threads := resume world.threads index [] } := by
  intro thread completions discard completion member
  obtain ⟨known, state⟩ := covered thread completions discard completion member
  refine ⟨known, ?_⟩
  rcases state with decided | ⟨other, at_thread, turn⟩
  · exact .inl decided
  · by_cases here : thread = index
    · subst here
      rw [found, Option.some.injEq] at at_thread
      subst at_thread
      have isOver := List.all_eq_true.mp spared _ turn
      exact .inl (by simpa [settled] using isOver)
    · exact .inr ⟨other, (getElem?_set_found found thread).trans ((if_neg here).trans at_thread), turn⟩

theorem Traced.step [BEq Key] (traced : world.Traced)
    (stepped : world.step config label = some after) : after.Traced := by
  have callOn {completion : Nat} {op : CommandOp} (called : world.callOn completion op = some after) :
      after.Traced := by
    unfold OutboundWorld.callOn at called
    split at called <;> cases called
    exact traced.append [op] (by simp) rfl rfl
  cases label with
  | tick =>
      cases stepped
      exact traced
  | sendAsync command deadline starts =>
      cases stepped
      rw [sendAsync_eq]
      dsimp only
      split
      · exact traced.append [.watchDeadlines] (by simp) rfl rfl
      · exact traced
  | receive =>
      simp only [OutboundWorld.step, Option.map_eq_some_iff] at stepped
      obtain ⟨_, _, rfl⟩ := stepped
      exact traced
  | cancel completion => exact callOn stepped
  | startSend completion => exact callOn stepped
  | finish completion error => exact callOn stepped
  | stopAccepting =>
      cases stepped
      exact traced.append [.stopAccepting] (by simp) rfl rfl
  | shutdown =>
      cases stepped
      exact traced.append [.stopAccepting, .drain] (by simp) rfl rfl
  | run index choice =>
      rcases run_cases stepped with ⟨_, _, found, _, rfl⟩ | ⟨_, _, _, _, found, moves, _, rfl⟩
      · exact traced.raise found rfl rfl
      · exact traced.move found moves rfl rfl

theorem Covered.step [BEq Key] (covered : world.Covered) (accounted : world.Accounted config)
    (spared : world.sparesDiscards label = true) (stepped : world.step config label = some after) :
    after.Covered := by
  have callOn {completion : Nat} {op : CommandOp} (called : world.callOn completion op = some after) :
      after.Covered := by
    unfold OutboundWorld.callOn at called
    split at called <;> cases called
    exact covered.carry (call_threads [op]) rfl (Nat.le_refl _) fun _ => id
  cases label with
  | tick =>
      cases stepped
      exact covered
  | sendAsync command deadline starts =>
      cases stepped
      have sends : world.commands.Sends config command deadline world.threads.length _ :=
        CommandState.sendAsync_cases config command deadline starts world.threads.length
      rw [sendAsync_eq]
      dsimp only
      split
      · exact covered.carry (call_threads [.watchDeadlines]) rfl (CommandState.sends_length sends)
          fun _ => CommandState.sends_terminal accounted.represents sends
      · exact covered.carry (fun _ _ => id) rfl (CommandState.sends_length sends)
          fun _ => CommandState.sends_terminal accounted.represents sends
  | receive =>
      simp only [OutboundWorld.step, Option.map_eq_some_iff] at stepped
      obtain ⟨⟨commands, submission⟩, received, rfl⟩ := stepped
      obtain ⟨identity, rest, _, _, rfl⟩ := CommandState.receive_eq_some received
      exact covered
  | cancel completion => exact callOn stepped
  | startSend completion => exact callOn stepped
  | finish completion error => exact callOn stepped
  | stopAccepting =>
      cases stepped
      exact covered.carry (call_threads [.stopAccepting]) rfl (Nat.le_refl _) fun _ => id
  | shutdown =>
      cases stepped
      exact covered.carry (call_threads [.stopAccepting, .drain]) rfl (Nat.le_refl _) fun _ => id
  | run index choice =>
      rcases run_cases stepped with ⟨completion, rest, found, rfl, rfl⟩ |
        ⟨_, _, _, _, found, moves, _, rfl⟩
      · refine covered.raise found ?_
        simpa [sparesDiscards, found] using spared
      · exact covered.move accounted.represents found moves

theorem reachable_traced [BEq Key] (reachable : (outboundSystem config).Reachable world) :
    world.Traced := by
  apply reachable.invariant
  · rintro first rfl index stack found
    simp at found
  · exact fun before label after traced stepped => traced.step stepped

theorem reachable_covered [BEq Key] (reachable : (outboundSystem config).ReachableBy
    (fun world label => world.sparesDiscards label = true) world) : world.Covered := by
  apply reachable.invariant_given (Accounted config) fun _ reached => reachable_accounted reached
  · rintro first rfl index completions discard
    contradiction
  · exact fun before label after spared accounted covered stepped =>
      covered.step accounted spared stepped

/-- An observer that raises in `shutdown` before a command's turn leaves the
command without an outcome. -/
theorem stranded_of_raise [BEq Key] (traced : world.Traced)
    (raises : world.sparesDiscards label = false) (stepped : world.step config label = some after) :
    ¬ after.Discarded := by
  unfold sparesDiscards at raises
  split at raises
  · next index =>
    rcases run_cases stepped with ⟨observed, rest, found, _, rfl⟩ | ⟨_, _, _, _, _, _, returns, _⟩
    · rw [found, Option.getD_some, List.all_eq_false] at raises
      obtain ⟨op, member, unsettled⟩ := raises
      obtain ⟨completion, rfl, undecided⟩ : ∃ completion, op = .discard completion ∧
          (world.commands.future completion).terminal = none := by
        cases op with
        | finish completion error =>
            simp only [settled, Bool.or_eq_true, bne_iff_ne, ne_eq, not_or, Decidable.not_not,
              Bool.not_eq_true, Option.isSome_eq_false_iff, Option.isNone_iff_eq_none] at unsettled
            exact ⟨completion, by rw [unsettled.1], unsettled.2⟩
        | _ => simp [settled] at unsettled
      have waits : .discard completion ∈ rest := by
        rcases List.mem_cons.mp member with impossible | behind
        · contradiction
        · exact behind
      obtain ⟨completions, discard, removed⟩ := traced index _ found completion waits
      intro discarded
      have decided := (discarded index completions discard
        ((getElem?_set_found found index).trans (if_pos rfl)) completion removed).1
      rw [undecided] at decided
      contradiction
    · exact absurd rfl returns
  · contradiction

/-- `shutdown` leaves every command that it removed with an outcome exactly as
long as no observer raises while a command that waits for its turn has none. -/
theorem shutdown_discard_terminates [BEq Key] (config : OutboundConfig Command Key) :
    (∀ world, (outboundSystem config).ReachableBy
        (fun world label => world.sparesDiscards label = true) world → world.Discarded) ∧
    ∀ before label after, (outboundSystem config).Reachable before →
      before.sparesDiscards label = false → before.step config label = some after →
      ¬ after.Discarded :=
  ⟨fun _ reachable =>
      (reachable_covered reachable).discarded (reachable_accounted reachable.reachable),
    fun _ _ _ reachable raises stepped =>
      stranded_of_raise (reachable_traced reachable) raises stepped⟩

end OutboundWorld

open OutboundWorld

/-- The first command's observer is about to run in the discarding call. -/
def discardingLabels : List (OutboundLabel (Nat × Nat)) :=
  [.sendAsync (1, 3) none true, .sendAsync (2, 3) none true, .shutdown, .run 0 .proceed,
    .run 0 .timesOut, .run 0 .proceed, .run 0 .proceed, .run 0 .proceed, .run 0 .proceed]

/-- The observers return. -/
def discardedWorld : OutboundWorld (Nat × Nat) :=
  (((outboundSystem pairConfig).restrict sparesDiscards).exec {}
    (discardingLabels ++ ([.run 0 .proceed, .run 0 .proceed, .run 0 .proceed, .run 0 .proceed,
      .run 0 .proceed] : List (OutboundLabel (Nat × Nat))))).get (by decide +kernel)

theorem discardedWorld_reachable : (outboundSystem pairConfig).ReachableBy
    (fun world label => world.sparesDiscards label = true) discardedWorld :=
  System.Reachable.restricted (System.Reachable.exec (.initial rfl) (Option.some_get _).symm)

def discardingWorld : OutboundWorld (Nat × Nat) :=
  ((outboundSystem pairConfig).exec {} discardingLabels).get (by decide +kernel)

/-- The first command's observer raises a `BaseException`. -/
def strandedWorld : OutboundWorld (Nat × Nat) :=
  (discardingWorld.step pairConfig (.run 0 .raises)).get (by decide +kernel)

theorem discardingWorld_reachable : (outboundSystem pairConfig).Reachable discardingWorld :=
  System.Reachable.exec (.initial rfl) (Option.some_get _).symm

theorem shutdown_discard_terminates_run :
    discardedWorld.discards = [(0, [0, 1])] ∧ discardedWorld.Discarded ∧
      ¬ strandedWorld.Discarded := by
  obtain ⟨spared, raised⟩ := shutdown_discard_terminates pairConfig
  exact ⟨by decide +kernel, spared discardedWorld discardedWorld_reachable,
    raised discardingWorld (.run 0 .raises) strandedWorld discardingWorld_reachable
      (by decide +kernel) (Option.some_get _).symm⟩

theorem unconditional_discard_fails :
    ¬ ∀ world, (outboundSystem pairConfig).Reachable world → world.Discarded := by
  intro claimed
  have discarded := claimed strandedWorld
    (discardingWorld_reachable.next (.run 0 .raises) (Option.some_get _).symm)
  have decided := (discarded 0 [0, 1] (by decide +kernel) (by decide +kernel) 1 (by decide)).1
  have undecided : (strandedWorld.commands.future 1).terminal.isSome = false := by decide +kernel
  rw [undecided] at decided
  contradiction

end StreamDockSdk.Messaging
