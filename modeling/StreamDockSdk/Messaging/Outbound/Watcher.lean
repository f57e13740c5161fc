import StreamDockSdk.Messaging.Outbound.Accounting

namespace StreamDockSdk.Messaging

open Automaton

variable {Command Key : Type} [Inhabited Command]
variable {config : OutboundConfig Command Key}

namespace CommandState

variable {state after : CommandState Command} {op : CommandOp} {calls : List CommandOp}

/-- The watcher either ends with an empty table, or it goes on. -/
theorem moves_watcher (moves : state.Moves op after calls) :
    (op = .watchDeadlines ∧ state.queue.deadlines = [] ∧ calls = [] ∧
      after.queue.deadlineThread = none) ∨
    (after.queue.deadlineThread = state.queue.deadlineThread ∧
      calls.count .watchDeadlines = if op = .watchDeadlines then 1 else 0) := by
  have discards : (state.completions.map CommandOp.discard).count .watchDeadlines = 0 := by
    rw [List.count_eq_zero]
    intro member
    obtain ⟨completion, _, impossible⟩ := List.mem_map.mp member
    contradiction
  cases moves with
  | watcherEnds empty => exact .inl ⟨rfl, empty, rfl, rfl⟩
  | discardQueue => exact .inr ⟨rfl, discards⟩
  | commandFinished completion =>
      refine .inr ⟨?_, by simp⟩
      cases found : state.queue.queued completion with
      | none => rw [commandFinished_absent found]
      | some identity => rw [commandFinished_queued found]
  | _ => exact .inr ⟨rfl, by simp⟩

theorem moves_deadlines (moves : state.Moves op after calls) :
    ∀ item ∈ after.queue.deadlines, item ∈ state.queue.deadlines := by
  intro item listed
  cases moves with
  | watcherExpires => exact List.mem_of_mem_filter listed
  | commandFinished completion =>
      cases found : state.queue.queued completion with
      | none =>
          rw [commandFinished_absent found] at listed
          exact List.mem_of_mem_filter listed
      | some identity =>
          rw [commandFinished_queued found] at listed
          exact List.mem_of_mem_filter listed
  | _ => exact listed

end CommandState

namespace OutboundWorld

variable {world after : OutboundWorld Command} {label : OutboundLabel Command}

/-- No observer raises a `BaseException` on the recorded watcher. -/
def sparesWatcher (world : OutboundWorld Command) : OutboundLabel Command → Bool
  | .run index .raises => world.commands.queue.deadlineThread != some index
  | _ => true

/-- Only the recorded watcher looks at the table. -/
def Recorded (world : OutboundWorld Command) : Prop :=
  ∀ index stack, world.threads[index]? = some stack →
    stack.count .watchDeadlines ≤ 1 ∧
      (.watchDeadlines ∈ stack → world.commands.queue.deadlineThread = some index)

/-- The watcher that is recorded has not exited. -/
def Alive (world : OutboundWorld Command) : Prop :=
  ∀ index, world.commands.queue.deadlineThread = some index →
    ∃ stack, world.threads[index]? = some stack ∧ .watchDeadlines ∈ stack

/-- Whenever the table is not empty, a watcher that has not exited is recorded. -/
def Watched (world : OutboundWorld Command) : Prop :=
  world.commands.queue.deadlines ≠ [] →
    ∃ index stack, world.commands.queue.deadlineThread = some index ∧
      world.threads[index]? = some stack ∧ .watchDeadlines ∈ stack

/-- The thread that is recorded as the watcher has exited. -/
def Dead (world : OutboundWorld Command) : Prop :=
  ∃ index stack, world.commands.queue.deadlineThread = some index ∧
    world.threads[index]? = some stack ∧ .watchDeadlines ∉ stack

omit [Inhabited Command] in
theorem Dead.not_watched (dead : world.Dead) (listed : world.commands.queue.deadlines ≠ []) :
    ¬ world.Watched := by
  intro watched
  obtain ⟨index, stack, recorded, found, exited⟩ := dead
  obtain ⟨other, other_stack, same, other_found, alive⟩ := watched listed
  rw [recorded, Option.some.injEq] at same
  subst same
  rw [found, Option.some.injEq] at other_found
  exact exited (other_found ▸ alive)

/-- What a step does to the table, its watcher and the threads. -/
inductive Watches (before : OutboundWorld Command) (label : OutboundLabel Command)
    (after : OutboundWorld Command) : Prop
  | kept : after.commands.queue.deadlineThread = before.commands.queue.deadlineThread →
      (after.commands.queue.deadlines ≠ [] → before.commands.queue.deadlines ≠ [] ∨
        before.commands.queue.deadlineThread.isSome = true) →
      (after.threads = before.threads ∨ ∃ stack, .watchDeadlines ∉ stack ∧
        after.threads = before.threads ++ [stack]) → Watches before label after
  | started : before.commands.queue.deadlineThread = none →
      after.commands.queue.deadlineThread = some before.threads.length →
      after.threads = before.threads ++ [[.watchDeadlines]] → Watches before label after
  | ended (index : Nat) (rest : List CommandOp) :
      before.threads[index]? = some (.watchDeadlines :: rest) →
      after.commands.queue.deadlineThread = none → after.commands.queue.deadlines = [] →
      after.threads = resume before.threads index rest → Watches before label after
  | moved (index : Nat) (op : CommandOp) (calls rest : List CommandOp) :
      before.threads[index]? = some (op :: rest) →
      after.commands.queue.deadlineThread = before.commands.queue.deadlineThread →
      (∀ item ∈ after.commands.queue.deadlines, item ∈ before.commands.queue.deadlines) →
      calls.count .watchDeadlines = (if op = .watchDeadlines then 1 else 0) →
      after.threads = resume before.threads index (calls ++ rest) → Watches before label after
  | raised (index completion : Nat) (rest : List CommandOp) : label = .run index .raises →
      before.threads[index]? = some (.observe completion :: rest) →
      after.commands = before.commands →
      after.threads = resume before.threads index [] → Watches before label after

theorem step_watches [BEq Key] (accounted : world.Accounted config)
    (stepped : world.step config label = some after) : Watches world label after := by
  have callOn {completion : Nat} {op : CommandOp} (other : op ≠ .watchDeadlines)
      (called : world.callOn completion op = some after) : Watches world label after := by
    unfold OutboundWorld.callOn at called
    split at called <;> cases called
    exact .kept rfl .inl (.inr ⟨[op], by simpa using other.symm, rfl⟩)
  cases label with
  | tick =>
      cases stepped
      exact .kept rfl .inl (.inl rfl)
  | sendAsync command deadline starts =>
      cases stepped
      have sends : world.commands.Sends config command deadline world.threads.length _ :=
        CommandState.sendAsync_cases config command deadline starts world.threads.length
      rw [sendAsync_eq]
      dsimp only
      generalize world.commands.sendAsync config command deadline starts world.threads.length = sent
        at sends ⊢
      cases sends with
      | refused | coalesced => exact .kept rfl .inl (.inl rfl)
      | unwatched size limit _ unrecorded =>
          rw [accounted.represents.abandon_eq unrecorded]
          exact .kept rfl .inl (.inl rfl)
      | enqueued size _ _ _ runs =>
          refine .kept rfl (fun listed => ?_) (.inl rfl)
          rcases runs with rfl | running
          · exact .inl listed
          · exact .inr running
      | watched size limit _ _ _ unrecorded => exact .started unrecorded rfl rfl
  | receive =>
      simp only [OutboundWorld.step, Option.map_eq_some_iff] at stepped
      obtain ⟨⟨commands, submission⟩, received, rfl⟩ := stepped
      obtain ⟨identity, rest, _, _, rfl⟩ := CommandState.receive_eq_some received
      exact .kept rfl .inl (.inl rfl)
  | cancel completion => exact callOn (by simp) stepped
  | startSend completion => exact callOn (by simp) stepped
  | finish completion error => exact callOn (by simp) stepped
  | stopAccepting =>
      cases stepped
      exact .kept rfl .inl (.inr ⟨[.stopAccepting], by simp, rfl⟩)
  | shutdown =>
      cases stepped
      exact .kept rfl .inl (.inr ⟨[.stopAccepting, .drain], by simp, rfl⟩)
  | run index choice =>
      rcases run_cases stepped with ⟨completion, rest, found, rfl, rfl⟩ |
        ⟨op, rest, commands, calls, found, moves, _, rfl⟩
      · exact .raised index completion rest rfl found rfl rfl
      · rcases CommandState.moves_watcher moves with ⟨rfl, empty, rfl, ended⟩ | ⟨same, count⟩
        · have nothing : commands.queue.deadlines = [] := by
            rw [List.eq_nil_iff_forall_not_mem]
            intro item listed
            have before := CommandState.moves_deadlines moves item listed
            rw [empty] at before
            contradiction
          exact .ended index rest found ended nothing rfl
        · exact .moved index op calls rest found same (CommandState.moves_deadlines moves) count rfl

omit [Inhabited Command] in
theorem Watches.recorded (watches : Watches world label after) (recorded : world.Recorded) :
    after.Recorded := by
  intro index stack found
  cases watches with
  | kept same _ threads =>
      rw [same]
      rcases threads with equal | ⟨added, without, equal⟩
      · rw [equal] at found
        exact recorded index stack found
      · rw [equal, List.getElem?_append] at found
        split at found
        · exact recorded index stack found
        · have own : stack = added := by
            rw [List.getElem?_singleton] at found
            split at found <;> simp_all
          subst own
          rw [List.count_eq_zero_of_not_mem without]
          exact ⟨Nat.zero_le _, fun member => absurd member without⟩
  | started unrecorded started threads =>
      rw [threads, List.getElem?_append] at found
      split at found
      · obtain ⟨count, watcher⟩ := recorded index stack found
        refine ⟨count, fun member => ?_⟩
        have impossible := watcher member
        rw [unrecorded] at impossible
        contradiction
      · next late =>
        rw [List.getElem?_singleton] at found
        split at found
        · next first =>
          cases found
          have own : index = world.threads.length := by omega
          exact ⟨by simp, fun _ => own ▸ started⟩
        · contradiction
  | ended watcher rest at_watcher unrecorded _ threads =>
      obtain ⟨count, owner⟩ := recorded watcher _ at_watcher
      have none_left : CommandOp.watchDeadlines ∉ rest := by
        rw [List.count_cons_self] at count
        exact List.count_eq_zero.mp (by omega)
      rw [threads, resume, getElem?_set_found at_watcher] at found
      split at found
      · cases found
        rw [List.count_eq_zero_of_not_mem none_left]
        exact ⟨Nat.zero_le _, fun member => absurd member none_left⟩
      · next other =>
        obtain ⟨other_count, other_owner⟩ := recorded index stack found
        refine ⟨other_count, fun member => ?_⟩
        have same := (other_owner member).symm.trans (owner List.mem_cons_self)
        exact absurd (Option.some.inj same) other
  | moved thread op calls rest at_thread same _ made threads =>
      obtain ⟨count, owner⟩ := recorded thread _ at_thread
      rw [same]
      rw [threads, resume, getElem?_set_found at_thread] at found
      split at found
      · next own =>
        subst own
        cases found
        have total : (calls ++ rest).count .watchDeadlines = (op :: rest).count .watchDeadlines := by
          rw [List.count_append, made, List.count_cons, Nat.add_comm]
          simp only [beq_iff_eq]
        refine ⟨total ▸ count, fun member => owner ?_⟩
        rw [← List.count_pos_iff, ← total]
        exact List.count_pos_iff.mpr member
      · exact recorded index stack found
  | raised thread completion rest _ at_thread same threads =>
      rw [same]
      rw [threads, resume, getElem?_set_found at_thread] at found
      split at found
      · cases found
        simp
      · exact recorded index stack found

theorem reachable_recorded [BEq Key] (reachable : (outboundSystem config).Reachable world) :
    world.Recorded := by
  apply reachable.invariant_given (Accounted config) fun _ reached => reachable_accounted reached
  · rintro first rfl index stack found
    simp at found
  · exact fun before label after accounted recorded stepped =>
      (step_watches accounted stepped).recorded recorded

omit [Inhabited Command] in
/-- A recorded watcher that has exited stays recorded. -/
theorem Watches.dead (watches : Watches world label after) (recorded : world.Recorded)
    (dead : world.Dead) : after.Dead := by
  obtain ⟨index, stack, own, found, exited⟩ := dead
  cases watches with
  | kept same _ threads =>
      refine ⟨index, stack, same.trans own, ?_, exited⟩
      rcases threads with equal | ⟨added, _, equal⟩
      · rw [equal]
        exact found
      · rw [equal, List.getElem?_append_left (List.getElem?_eq_some_iff.mp found).1]
        exact found
  | started unrecorded =>
      rw [own] at unrecorded
      contradiction
  | ended watcher rest at_watcher =>
      have owner := (recorded watcher _ at_watcher).2 List.mem_cons_self
      rw [own, Option.some.injEq] at owner
      subst owner
      rw [found, Option.some.injEq] at at_watcher
      rw [at_watcher] at exited
      exact absurd List.mem_cons_self exited
  | moved thread op calls rest at_thread same _ made threads =>
      by_cases here : index = thread
      · subst here
        rw [found, Option.some.injEq] at at_thread
        subst at_thread
        refine ⟨index, calls ++ rest, same.trans own, ?_, ?_⟩
        · rw [threads, resume, getElem?_set_found found, if_pos rfl]
        · have other : op ≠ .watchDeadlines := fun equal => exited (equal ▸ List.mem_cons_self)
          rw [if_neg other] at made
          rw [List.mem_append, not_or]
          exact ⟨List.count_eq_zero.mp made, fun member => exited (List.mem_cons_of_mem op member)⟩
      · refine ⟨index, stack, same.trans own, ?_, exited⟩
        rw [threads, resume, getElem?_set_found at_thread, if_neg here]
        exact found
  | raised thread completion rest _ at_thread same threads =>
      by_cases here : index = thread
      · subst here
        refine ⟨index, [], by rw [same, own], ?_, List.not_mem_nil⟩
        rw [threads, resume, getElem?_set_found found, if_pos rfl]
      · refine ⟨index, stack, by rw [same, own], ?_, exited⟩
        rw [threads, resume, getElem?_set_found at_thread, if_neg here]
        exact found

/-- What the recorded watcher's life rests on. -/
structure Watching (world : OutboundWorld Command) : Prop where
  alive : world.Alive
  recorded : world.commands.queue.deadlines ≠ [] →
    world.commands.queue.deadlineThread.isSome = true

omit [Inhabited Command] in
theorem Watching.watched (watching : world.Watching) : world.Watched := by
  intro listed
  obtain ⟨index, recorded⟩ := Option.isSome_iff_exists.mp (watching.recorded listed)
  obtain ⟨stack, found, alive⟩ := watching.alive index recorded
  exact ⟨index, stack, recorded, found, alive⟩

omit [Inhabited Command] in
theorem Watches.watching (watches : Watches world label after)
    (spared : world.sparesWatcher label = true) (watching : world.Watching) : after.Watching := by
  cases watches with
  | kept same listed threads =>
      constructor
      · intro index own
        obtain ⟨stack, found, alive⟩ := watching.alive index (same.symm.trans own)
        refine ⟨stack, ?_, alive⟩
        rcases threads with equal | ⟨added, _, equal⟩
        · rw [equal]
          exact found
        · rw [equal, List.getElem?_append_left (List.getElem?_eq_some_iff.mp found).1]
          exact found
      · intro nonempty
        rw [same]
        exact (listed nonempty).elim watching.recorded id
  | started unrecorded started threads =>
      constructor
      · intro index own
        rw [started, Option.some.injEq] at own
        subst own
        exact ⟨[.watchDeadlines], by rw [threads, List.getElem?_concat_length], List.mem_singleton_self _⟩
      · intro _
        rw [started]
        rfl
  | ended watcher rest _ unrecorded empty =>
      constructor
      · intro index own
        rw [unrecorded] at own
        contradiction
      · intro nonempty
        exact absurd empty nonempty
  | moved thread op calls rest at_thread same fewer made threads =>
      constructor
      · intro index own
        obtain ⟨stack, found, alive⟩ := watching.alive index (same.symm.trans own)
        rw [threads, resume, getElem?_set_found at_thread]
        by_cases here : index = thread
        · subst here
          rw [found, Option.some.injEq] at at_thread
          subst at_thread
          refine ⟨calls ++ rest, if_pos rfl, ?_⟩
          rw [← List.count_pos_iff, List.count_append, made]
          rw [← List.count_pos_iff, List.count_cons] at alive
          simp only [beq_iff_eq] at alive
          omega
        · exact ⟨stack, by rw [if_neg here, found], alive⟩
      · intro nonempty
        rw [same]
        refine watching.recorded fun empty => nonempty (List.eq_nil_iff_forall_not_mem.mpr ?_)
        intro item listed
        have before := fewer item listed
        rw [empty] at before
        contradiction
  | raised thread completion rest raises at_thread same threads =>
      subst raises
      have other : world.commands.queue.deadlineThread ≠ some thread := by
        simpa [sparesWatcher] using spared
      constructor
      · intro index own
        rw [same] at own
        obtain ⟨stack, found, alive⟩ := watching.alive index own
        refine ⟨stack, ?_, alive⟩
        rw [threads, resume, getElem?_set_found at_thread, if_neg]
        · exact found
        · rintro rfl
          exact other own
      · rw [same]
        exact watching.recorded

end OutboundWorld

namespace CommandState

variable {state after : CommandState Command} {running later : CommandOp → Prop}

/-- A command that is still open has its deadline in the table, or its expiry
is on the way. -/
def Examined (state : CommandState Command) (running : CommandOp → Prop) : Prop :=
  ∀ completion limit, state.admitted completion = true →
    (state.future completion).deadline = some limit →
    (state.future completion).terminal = none →
    (completion, limit) ∈ state.queue.deadlines ∨ running (.expire completion)

namespace Examined

omit [Inhabited Command] in
/-- Steps after which no more commands are open than before. -/
theorem carry (examined : state.Examined running)
    (admitted : ∀ completion, after.admitted completion = true → state.admitted completion = true)
    (futures : ∀ completion, after.admitted completion = true →
      (after.future completion).deadline = (state.future completion).deadline ∧
      ((after.future completion).terminal = none → (state.future completion).terminal = none))
    (deadlines : ∀ item ∈ state.queue.deadlines, (after.future item.1).terminal = none →
      item ∈ after.queue.deadlines ∨ later (.expire item.1))
    (expire : ∀ completion, running (.expire completion) →
      (after.future completion).terminal = none → after.admitted completion = true →
      later (.expire completion)) :
    after.Examined later := by
  intro completion limit accepted limited waiting
  obtain ⟨same, earlier⟩ := futures completion accepted
  rcases examined completion limit (admitted completion accepted) (same ▸ limited) (earlier waiting)
    with listed | expiring
  · exact deadlines _ listed waiting
  · exact .inr (expire completion expiring waiting accepted)

theorem sendAsync [BEq Key] (examined : state.Examined running)
    (represents : state.Represents config) (departs : state.Departs) {command : Command}
    {deadline : Option Nat} {thread : Nat} {sent : Sent Command}
    (sends : state.Sends config command deadline thread sent) : sent.state.Examined running := by
  have enqueued (size : Nat) (watcher : Option Nat) :
      (state.enqueue command deadline size watcher).Examined running := by
    intro completion limit accepted limited waiting
    have future : (state.enqueue command deadline size watcher).future completion = _ :=
      future_of_append rfl
    rw [future] at limited waiting
    by_cases own : completion = state.futures.length
    · subst own
      rw [if_pos rfl] at limited
      refine .inl ?_
      show _ ∈ state.queue.withDeadline state.futures.length deadline
      obtain rfl : deadline = some limit := limited
      exact List.mem_append_right _ (List.mem_singleton_self _)
    · rw [if_neg own] at limited waiting
      have before : state.admitted completion = true := by
        simpa [admitted, CommandState.enqueue, CommandState.acceptance, Ne.symm own] using accepted
      refine (examined completion limit before limited waiting).imp_left fun listed => ?_
      show _ ∈ state.queue.withDeadline state.futures.length deadline
      cases deadline with
      | none => exact listed
      | some other => exact List.mem_append_left _ listed
  cases sends with
  | refused => exact examined
  | unwatched size limit _ unrecorded =>
      rw [represents.abandon_eq unrecorded]
      refine examined.carry (fun _ accepted => accepted) (fun completion accepted => ?_)
        (fun item listed _ => .inl listed) (fun _ expiring _ _ => expiring)
      have known : completion < state.futures.length := by
        obtain ⟨acceptance, member, same⟩ := List.any_eq_true.mp accepted
        rw [beq_iff_eq] at same
        exact same ▸ departs.known acceptance member
      rw [future_of_append rfl, if_neg (Nat.ne_of_lt known)]
      exact ⟨rfl, id⟩
  | coalesced identity size _ conditions =>
      refine examined.carry (fun completion accepted => ?_) (fun _ _ => ⟨rfl, id⟩)
        (fun item listed _ => .inl listed) (fun _ expiring _ _ => expiring)
      have both : (state.admitted completion ||
          (state.queue.entry identity).completion == completion) = true := by
        simpa [admitted, CommandState.coalesce, CommandState.acceptance] using accepted
      rcases Bool.or_eq_true_iff.mp both with before | same
      · exact before
      · rw [beq_iff_eq] at same
        exact same ▸ departs.admitted_of_queued
          (represents.queued (List.mem_of_getLast? conditions.last))
  | enqueued size => exact enqueued size _
  | watched size => exact enqueued size _

theorem moves (examined : state.Examined running) (cleared : state.Cleared running)
    (departs : state.Departs) {op : CommandOp} {calls : List CommandOp} (called : running op)
    (moves : state.Moves op after calls) (follows : Follows op calls running later) :
    after.Examined later := by
  have known {completion : Nat} (accepted : state.admitted completion = true) :
      completion < state.futures.length := by
    obtain ⟨acceptance, member, same⟩ := List.any_eq_true.mp accepted
    rw [beq_iff_eq] at same
    exact same ▸ departs.known acceptance member
  have keep (other : ∀ completion, op ≠ .expire completion) (completion : Nat)
      (expiring : running (.expire completion)) : later (.expire completion) :=
    follows.stays _ expiring (other completion).symm
  cases moves with
  | cancelLost | cancelDelegated | sendLost | sendExpired | jammed | observed | watcherEnds
  | stopAccepting | drained | drainTimedOut | discardQueue =>
      exact examined.carry (fun _ accepted => accepted) (fun _ _ => ⟨rfl, id⟩)
        (fun item listed _ => .inl listed) (fun completion expiring _ _ => keep (by simp) completion expiring)
  | finishLost completion error decided =>
      refine examined.carry (fun _ accepted => accepted) (fun _ _ => ⟨rfl, id⟩)
        (fun item listed _ => .inl listed) (fun other expiring waiting _ => ?_)
      refine follows.stays _ expiring ?_
      rintro ⟨rfl, rfl⟩
      rw [waiting] at decided
      contradiction
  | sendStarted completion | published completion outcome =>
      refine examined.carry (fun _ accepted => accepted) (fun other _ => ?_)
        (fun item listed _ => .inl listed) (fun completion expiring _ _ => keep (by simp) completion expiring)
      rw [future_of_set rfl]
      split
      · next own =>
        rw [own.1]
        exact ⟨rfl, id⟩
      · exact ⟨rfl, id⟩
  | cancelWon completion =>
      refine examined.carry (fun _ accepted => accepted) (fun other _ => ?_)
        (fun item listed _ => .inl listed) (fun completion expiring _ _ => keep (by simp) completion expiring)
      rw [future_of_set rfl]
      split
      · next own =>
        rw [own.1]
        exact ⟨rfl, fun undecided => nomatch undecided⟩
      · exact ⟨rfl, id⟩
  | finishWon completion error =>
      have future (other : Nat) : (state.update completion { state.future completion with
          terminal := some ((state.future completion).recorded state.clock error)
          abort := false
          delegate := none }).future other = _ := future_of_set rfl
      refine examined.carry (fun _ accepted => accepted) (fun other _ => ?_)
        (fun item listed _ => .inl listed) (fun other expiring waiting accepted => ?_)
      · rw [future]
        split
        · next own =>
          rw [own.1]
          exact ⟨rfl, fun undecided => nomatch undecided⟩
        · exact ⟨rfl, id⟩
      · refine follows.stays _ expiring ?_
        rintro ⟨rfl, rfl⟩
        rw [future, if_pos ⟨rfl, known accepted⟩] at waiting
        contradiction
  | commandFinished completion =>
      have done := cleared.finished completion called
      obtain ⟨outcome, published⟩ := Option.isSome_iff_exists.mp done
      have decided := cleared.recorded completion outcome published
      have futures : (state.commandFinished completion).futures = state.futures ∧
          (state.commandFinished completion).accepted = state.accepted ∧
          (state.commandFinished completion).queue.deadlines = state.queue.popDeadline completion := by
        cases found : state.queue.queued completion with
        | none =>
            rw [commandFinished_absent found]
            exact ⟨rfl, rfl, rfl⟩
        | some identity =>
            rw [commandFinished_queued found]
            exact ⟨rfl, rfl, rfl⟩
      have same (other : Nat) : (state.commandFinished completion).future other = state.future other := by
        simp only [CommandState.future, futures.1]
      refine examined.carry (fun other accepted => ?_) (fun other _ => ?_) (fun item listed waiting => ?_)
        (fun completion expiring _ _ => keep (by simp) completion expiring)
      · simpa only [admitted, futures.2.1] using accepted
      · rw [same]
        exact ⟨rfl, id⟩
      · rw [same] at waiting
        rw [futures.2.2]
        refine .inl (List.mem_filter.mpr ⟨listed, ?_⟩)
        rw [bne_iff_ne]
        rintro equal
        rw [equal, decided] at waiting
        contradiction
  | watcherExpires completion deadline =>
      refine examined.carry (fun _ accepted => accepted) (fun _ _ => ⟨rfl, id⟩)
        (fun item listed _ => ?_) (fun completion expiring _ _ => keep (by simp) completion expiring)
      by_cases own : item.1 = completion
      · exact .inr (own ▸ follows.made _ (by simp))
      · exact .inl (List.mem_filter.mpr ⟨listed, bne_iff_ne.mpr own⟩)

end Examined

end CommandState

namespace OutboundWorld

variable {world after later : OutboundWorld Command} {label : OutboundLabel Command}

theorem reachable_examined [BEq Key] (reachable : (outboundSystem config).Reachable world) :
    world.commands.Examined (Running world.threads) := by
  apply reachable.invariant_given (Accounted config) fun _ reached => reachable_accounted reached
  · rintro first rfl completion limit accepted
    contradiction
  · intro before label after accounted examined stepped
    have grown {commands : CommandState Command} {threads : List (List CommandOp)}
        (inside : commands.Examined (Running before.threads)) (more : ∀ op,
          Running before.threads op → Running threads op) : commands.Examined (Running threads) :=
      fun completion limit accepted limited waiting =>
        (inside completion limit accepted limited waiting).imp_right (more _)
    have called (stack : List CommandOp) (op : CommandOp) (running : Running before.threads op) :
        Running (before.threads ++ [stack]) op := (running_append before.threads stack).mpr (.inl running)
    have callOn {completion : Nat} {op : CommandOp} (begun : before.callOn completion op = some after) :
        after.commands.Examined (Running after.threads) := by
      unfold OutboundWorld.callOn at begun
      split at begun <;> cases begun
      exact grown examined (called [op])
    cases label with
    | tick =>
        cases stepped
        exact examined
    | sendAsync command deadline starts =>
        cases stepped
        have sends : before.commands.Sends config command deadline before.threads.length _ :=
          CommandState.sendAsync_cases config command deadline starts before.threads.length
        have inside := examined.sendAsync accounted.represents accounted.departs sends
        rw [sendAsync_eq]
        dsimp only
        split
        · exact grown inside (called [.watchDeadlines])
        · exact inside
    | receive =>
        simp only [outboundSystem, OutboundWorld.step, Option.map_eq_some_iff] at stepped
        obtain ⟨⟨commands, submission⟩, received, rfl⟩ := stepped
        obtain ⟨identity, rest, _, _, rfl⟩ := CommandState.receive_eq_some received
        exact examined
    | cancel completion => exact callOn stepped
    | startSend completion => exact callOn stepped
    | finish completion error => exact callOn stepped
    | stopAccepting | shutdown =>
        cases stepped
        exact grown examined (called _)
    | run thread choice =>
        rcases run_cases stepped with ⟨completion, rest, found, _, rfl⟩ |
          ⟨op, rest, commands, calls, found, moves, _, rfl⟩
        · have waiting := accounted.nested _ (List.mem_of_getElem? found)
          intro other limit accepted limited undecided
          refine (examined other limit accepted limited undecided).imp_right fun expiring => ?_
          refine expiring.unwinds found fun member => ?_
          rcases List.mem_cons.mp member with impossible | behind
          · contradiction
          · exact absurd (waiting _ behind) (by simp [CommandOp.waits])
        · exact examined.moves accounted.cleared accounted.departs
            (.of_thread found List.mem_cons_self) moves (follows_resume found)

theorem reachable_watching [BEq Key] (reachable : (outboundSystem config).ReachableBy
    (fun world label => world.sparesWatcher label = true) world) : world.Watching := by
  apply reachable.invariant_given (Accounted config) fun _ reached => reachable_accounted reached
  · rintro first rfl
    exact ⟨fun index own => (nomatch own), fun nonempty => absurd rfl nonempty⟩
  · exact fun before label after spared accounted watching stepped =>
      (step_watches accounted stepped).watching spared watching

/-- An observer that raises on the recorded watcher leaves it recorded and dead. -/
theorem dead_of_raise [BEq Key] (raises : world.sparesWatcher label = false)
    (stepped : world.step config label = some after) : after.Dead := by
  unfold sparesWatcher at raises
  split at raises
  · next index =>
    have own : world.commands.queue.deadlineThread = some index := by simpa using raises
    rcases run_cases stepped with ⟨completion, rest, found, _, rfl⟩ | ⟨_, _, _, _, _, _, returns, _⟩
    · refine ⟨index, [], own, ?_, List.not_mem_nil⟩
      rw [resume, getElem?_set_found found, if_pos rfl]
    · exact absurd rfl returns
  · contradiction

theorem dead_forever [BEq Key] {labels : List (OutboundLabel Command)}
    (reachable : (outboundSystem config).Reachable world) (dead : world.Dead)
    (run : (outboundSystem config).exec world labels = some later) : later.Dead := by
  induction labels generalizing world with
  | nil =>
      simp only [System.exec, Option.some.injEq] at run
      exact run ▸ dead
  | cons label rest ih =>
      simp only [System.exec] at run
      split at run
      · contradiction
      · next after stepped =>
        have watches := step_watches (reachable_accounted reachable) stepped
        exact ih (reachable.next label stepped)
          (watches.dead (reachable_recorded reachable) dead) run

/-- As long as no observer raises on the recorded watcher, a watcher that has not
exited is recorded whenever a deadline is, and every open command with a deadline
is one that the watcher still has to examine or is expiring.  Once an observer
has raised there, no later deadline is watched. -/
theorem watcher_liveness [BEq Key] (config : OutboundConfig Command Key) :
    (∀ world, (outboundSystem config).ReachableBy
        (fun world label => world.sparesWatcher label = true) world →
      world.Watched ∧ world.commands.Examined (Running world.threads)) ∧
    ∀ before label after labels later, (outboundSystem config).Reachable before →
      before.sparesWatcher label = false → before.step config label = some after →
      (outboundSystem config).exec after labels = some later →
      later.commands.queue.deadlines ≠ [] → ¬ later.Watched := by
  refine ⟨fun world reachable => ⟨(reachable_watching reachable).watched,
    reachable_examined reachable.reachable⟩, ?_⟩
  intro before label after labels later reachable raises stepped run listed
  have dead := dead_of_raise raises stepped
  exact (dead_forever (reachable.next label stepped) dead run).not_watched listed

end OutboundWorld

open OutboundWorld

/-- The first command expires on the watcher, and its observer is about to run. -/
def expiringLabels : List (OutboundLabel (Nat × Nat)) :=
  [.sendAsync (1, 3) (some 1) true, .tick, .run 0 .proceed, .run 0 .proceed, .run 0 .proceed,
    .run 0 .proceed]

/-- The observer returns. -/
def sparedWorld : OutboundWorld (Nat × Nat) :=
  (((outboundSystem pairConfig).restrict sparesWatcher).exec {}
    (expiringLabels ++ [.run 0 .proceed, .sendAsync (2, 3) (some 5) true])).get (by decide +kernel)

theorem sparedWorld_reachable : (outboundSystem pairConfig).ReachableBy
    (fun world label => world.sparesWatcher label = true) sparedWorld :=
  System.Reachable.restricted (System.Reachable.exec (.initial rfl) (Option.some_get _).symm)

def expiringWorld : OutboundWorld (Nat × Nat) :=
  ((outboundSystem pairConfig).exec {} expiringLabels).get (by decide +kernel)

/-- The observer raises a `BaseException`. -/
def raisedWorld : OutboundWorld (Nat × Nat) :=
  (expiringWorld.step pairConfig (.run 0 .raises)).get (by decide +kernel)

/-- Another deadline follows. -/
def abandonedWorld : OutboundWorld (Nat × Nat) :=
  ((outboundSystem pairConfig).exec raisedWorld [.sendAsync (2, 3) (some 5) true]).get
    (by decide +kernel)

theorem expiringWorld_reachable : (outboundSystem pairConfig).Reachable expiringWorld :=
  System.Reachable.exec (.initial rfl) (Option.some_get _).symm

theorem abandonedWorld_reachable : (outboundSystem pairConfig).Reachable abandonedWorld :=
  (expiringWorld_reachable.next (.run 0 .raises) (Option.some_get _).symm).exec
    (Option.some_get _).symm

theorem watcher_liveness_run :
    sparedWorld.Watched ∧ sparedWorld.commands.queue.deadlines = [(1, 5)] ∧
      ¬ abandonedWorld.Watched := by
  obtain ⟨spared, raised⟩ := watcher_liveness pairConfig
  refine ⟨(spared sparedWorld sparedWorld_reachable).1, by decide +kernel, ?_⟩
  exact raised expiringWorld (.run 0 .raises) raisedWorld [.sendAsync (2, 3) (some 5) true]
    abandonedWorld expiringWorld_reachable (by decide +kernel) (Option.some_get _).symm
    (Option.some_get _).symm (by decide +kernel)

theorem unconditional_watcher_liveness_fails :
    ¬ ∀ world, (outboundSystem pairConfig).Reachable world → world.Watched := by
  intro claimed
  obtain ⟨index, stack, own, found, alive⟩ :=
    claimed abandonedWorld abandonedWorld_reachable (by decide +kernel)
  have recorded : abandonedWorld.commands.queue.deadlineThread = some 0 := by decide +kernel
  have exited : abandonedWorld.threads[0]? = some [] := by decide +kernel
  rw [recorded, Option.some.injEq] at own
  subst own
  rw [exited, Option.some.injEq] at found
  subst found
  contradiction

end StreamDockSdk.Messaging
