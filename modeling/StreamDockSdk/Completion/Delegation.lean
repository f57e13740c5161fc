import StreamDockSdk.Completion.Cancellation

namespace StreamDockSdk

open Automaton

namespace CompletionWorld

variable {world : CompletionWorld} {thread control tracker command : Nat}

/-- Where the completion of a delegating future stands. -/
inductive LinkStatus (world : CompletionWorld) (tracker command : Nat) : Prop
  | registering : Running world.threads (.addDoneCallback command tracker) →
      LinkStatus world tracker command
  | registered : (command, tracker) ∈ world.callbacks →
      (world.future command).future = none → LinkStatus world tracker command
  | notified : Running world.threads (.finished command tracker) → LinkStatus world tracker command
  | finishing (error : Outcome) : Running world.threads (.finish tracker error) →
      LinkStatus world tracker command
  | isOver : (world.future tracker).terminal.isSome = true → LinkStatus world tracker command

structure Linked (world : CompletionWorld) (tracker command : Nat) : Prop where
  timeless : (world.future tracker).deadline = none
  agrees : ∀ outcome, (world.future tracker).terminal = some outcome →
    (world.future command).future = some outcome
  status : world.LinkStatus tracker command

/-- What a call may rely on about the delegating futures. -/
def Admissible (world : CompletionWorld) : CompletionOp → Prop
  | .startSend control | .expire control =>
      control < world.futures.length ∧ ∀ command, (control, command) ∉ world.trackers
  | .finish control error => control < world.futures.length ∧
      ∀ command, (control, command) ∈ world.trackers → (world.future command).future = some error
  | .addDoneCallback command tracker | .finished command tracker =>
      (tracker, command) ∈ world.trackers
  | .cancel _ _ | .returns _ _ _ | .publish _ => True

structure Delegation (world : CompletionWorld) : Prop where
  linked : ∀ tracker command, (tracker, command) ∈ world.trackers → world.Linked tracker command
  calls : ∀ op, Running world.threads op → world.Admissible op
  callbacks : ∀ callback ∈ world.callbacks, (callback.2, callback.1) ∈ world.trackers

theorem Admissible.kept {op : CompletionOp} {after : CompletionWorld}
    (admissible : world.Admissible op) (trackers : after.trackers = world.trackers)
    (length : after.futures.length = world.futures.length)
    (kept : ∀ control, Kept (world.future control) (after.future control)) :
    after.Admissible op := by
  cases op <;> simp only [Admissible, trackers, length] at admissible ⊢
  case finish control error =>
    exact ⟨admissible.1, fun command member => (kept command).future _ (admissible.2 command member)⟩
  all_goals exact admissible

/-- The new calls of a step are admissible for the state before it. -/
theorem Delegation.calls_made {completion : CommandFuture} {op : CompletionOp}
    {next : CompletionAdvance} (delegation : world.Delegation) (wired : world.Wired)
    (moves : world.Moves thread completion op next)
    (current : world.future (subject op) = completion) (admissible : world.Admissible op) :
    ∀ made ∈ next.calls, world.Admissible made := by
  cases moves with
  | sendLost | sendStarted | expireLost | finishLost | jammed | registered | handedBack => nofun
  | cancelLost | cancelDelegated | cancelWon | handedOn | expireWon | finishWon =>
      simp [Admissible]
  | sendExpired target =>
      simp only [List.mem_singleton, forall_eq]
      exact admissible
  | published target outcome terminal unfinished =>
      intro made member
      obtain ⟨callback, within, rfl⟩ := List.mem_map.mp member
      exact delegation.callbacks callback (List.mem_filter.mp within).1
  | notified command tracker finished =>
      simp only [List.mem_singleton, forall_eq]
      exact admissible
  | relayed command tracker error finished =>
      simp only [List.mem_singleton, forall_eq]
      refine ⟨(wired.order _ admissible).2, fun other member => ?_⟩
      rw [wired.unique tracker other command member admissible]
      simp only [subject] at current
      rw [current, finished]

/-- A delegating future is decided by the callback of its command alone. -/
theorem Delegation.decided {completion : CommandFuture} {op : CompletionOp}
    {next : CompletionAdvance} {outcome : Outcome} (delegation : world.Delegation)
    (wired : world.Wired) (moves : world.Moves thread completion op next)
    (current : world.future (subject op) = completion)
    (inside : subject op < world.futures.length) (admissible : world.Admissible op)
    (link : (subject op, command) ∈ world.trackers) (free : completion.terminal = none)
    (decides : (next.futures[subject op]?.getD {}).terminal = some outcome) :
    (world.future command).future = some outcome := by
  have linked := delegation.linked _ command link
  have unchanged_terminal (same : next.futures = world.futures) :
      completion.terminal = some outcome := by
    rw [same] at decides
    rw [← current]
    exact decides
  cases moves with
  | cancelLost | cancelDelegated | handedBack | handedOn | sendLost | sendExpired | expireLost
  | finishLost | jammed | registered | notified | relayed =>
      have impossible := unchanged_terminal rfl
      rw [free] at impossible
      contradiction
  | cancelWon target path undecided unsent direct =>
      have waiting := wired.waiting _ command link (by rw [current]; exact free)
      rw [current, direct] at waiting
      contradiction
  | sendStarted target undecided early => exact absurd link (admissible.2 command)
  | expireWon target undecided => exact absurd link (admissible.2 command)
  | finishWon target error undecided =>
      simp only [subject] at *
      rw [List.getElem?_set_self inside] at decides
      have timeless := linked.timeless
      rw [current] at timeless
      have same : outcome = error := by
        simpa [CommandFuture.recorded, CommandFuture.deadlinePassed, timeless] using decides.symm
      rw [same]
      exact admissible.2 command link
  | published target result terminal unfinished =>
      rw [terminal] at free
      contradiction

theorem Moves.callbacks_kept {completion : CommandFuture} {op : CompletionOp}
    {next : CompletionAdvance} (moves : world.Moves thread completion op next) :
    ∀ callback ∈ world.callbacks, callback ∈ next.callbacks := by
  intro callback member
  cases moves with
  | registered => exact List.mem_append_left _ member
  | _ => exact member

/-- Only the thread that decided a control completes its future. -/
theorem Moves.unfinished {completion : CommandFuture} {op : CompletionOp}
    {next : CompletionAdvance} (moves : world.Moves thread completion op next)
    (current : world.future (subject op) = completion) (inside : subject op < world.futures.length)
    (unfinished : (world.future control).future = none) (other : op ≠ .publish control) :
    (next.futures[control]?.getD {}).future = none := by
  have elsewhere {changed : CommandFuture} (different : control ≠ subject op) :
      ((world.futures.set (subject op) changed)[control]?.getD {}).future = none := by
    rw [List.getElem?_set_ne (Ne.symm different)]
    exact unfinished
  cases moves with
  | cancelLost | cancelDelegated | handedBack | handedOn | sendLost | sendExpired | expireLost
  | finishLost | jammed | registered | notified | relayed => exact unfinished
  | cancelWon target | sendStarted target | expireWon target | finishWon target =>
      by_cases here : control = target
      · subst here
        simp only [subject] at current inside
        rw [List.getElem?_set_self inside]
        rw [current] at unfinished
        exact unfinished
      · exact elsewhere here
  | published target outcome terminal fresh =>
      exact elsewhere fun here => other (by rw [here]; rfl)

theorem LinkStatus.run {index : Nat} {after : CompletionWorld}
    (status : world.LinkStatus tracker command)
    (stepped : world.run index = some after) : after.LinkStatus tracker command := by
  have kept := run_kept stepped
  obtain ⟨call, rest, completion, next, found, at_subject, moves, rfl⟩ := run_cases stepped
  have current := future_of_found at_subject
  cases status with
  | registering running =>
      by_cases same : CompletionOp.addDoneCallback command tracker = call
      · subst same
        cases moves with
        | registered _ _ unfinished =>
            exact .registered (List.mem_append_right _ (by simp)) (by
              simp only [subject] at current
              simpa only [future, unchanged, ← current] using unfinished)
        | notified _ _ finished => exact .notified (.made found (by simp))
      · exact .registering (running.stays found same)
  | registered member unfinished =>
      by_cases here : call = .publish command
      · subst here
        cases moves with
        | jammed => exact .registered member unfinished
        | published _ outcome terminal fresh =>
            refine .notified (.made found (List.mem_map.mpr ⟨(command, tracker), ?_, rfl⟩))
            exact List.mem_filter.mpr ⟨member, by simp⟩
      · have inside := (List.getElem?_eq_some_iff.mp at_subject).1
        exact .registered (moves.callbacks_kept _ member)
          (moves.unfinished current inside unfinished here)
  | notified running =>
      by_cases same : CompletionOp.finished command tracker = call
      · subst same
        cases moves with
        | relayed _ _ error finished => exact .finishing error (.made found (by simp))
      · exact .notified (running.stays found same)
  | finishing error running =>
      by_cases same : CompletionOp.finish tracker error = call
      · subst same
        have inside := (List.getElem?_eq_some_iff.mp at_subject).1
        simp only [subject] at current inside
        cases moves with
        | finishLost _ _ isOver => exact .isOver (by simpa only [future, unchanged, ← current] using isOver)
        | finishWon _ _ free =>
            refine .isOver ?_
            rw [future_of_set rfl inside]
            rfl
      · exact .finishing error (running.stays found same)
  | isOver terminal =>
      obtain ⟨outcome, decided⟩ := Option.isSome_iff_exists.mp terminal
      exact .isOver (by rw [(kept tracker).terminal outcome decided]; rfl)

theorem Delegation.callbacks_made {completion : CommandFuture} {op : CompletionOp}
    {next : CompletionAdvance} (delegation : world.Delegation)
    (moves : world.Moves thread completion op next) (admissible : world.Admissible op) :
    ∀ callback ∈ next.callbacks, (callback.2, callback.1) ∈ world.trackers := by
  intro callback member
  cases moves with
  | registered command tracker unfinished =>
      rcases List.mem_append.mp member with old | new
      · exact delegation.callbacks callback old
      · rw [List.mem_singleton.mp new]
        exact admissible
  | _ => exact delegation.callbacks callback member

theorem Delegation.run {index : Nat} {after : CompletionWorld} (delegation : world.Delegation)
    (wired : world.Wired) (stepped : world.run index = some after) : after.Delegation := by
  have kept := run_kept stepped
  obtain ⟨trackers, _, length⟩ := run_trackers stepped
  have status (tracker command : Nat) (link : (tracker, command) ∈ world.trackers) :=
    (delegation.linked tracker command link).status.run stepped
  obtain ⟨call, rest, completion, next, found, at_subject, moves, rfl⟩ := run_cases stepped
  have current := future_of_found at_subject
  have inside := (List.getElem?_eq_some_iff.mp at_subject).1
  have admissible := delegation.calls call (.of_thread found (by simp))
  constructor
  · intro tracker command link
    have linked := delegation.linked tracker command link
    refine ⟨?_, ?_, status tracker command link⟩
    · rw [(kept tracker).deadline]
      exact linked.timeless
    · intro outcome decided
      cases before : (world.future tracker).terminal with
      | some earlier =>
          have same := (kept tracker).terminal earlier before
          rw [decided] at same
          cases same
          exact (kept command).future _ (linked.agrees _ before)
      | none =>
          by_cases here : tracker = subject call
          · subst here
            refine (kept command).future _ (delegation.decided wired moves current inside admissible
              link ?_ decided)
            rw [← current]
            exact before
          · rw [future, moves.elsewhere here, before] at decided
            contradiction
  · intro op running
    have made := running.resumed found
    have earlier : world.Admissible op :=
      made.elim (delegation.calls op) (delegation.calls_made wired moves current admissible op)
    exact earlier.kept trackers length kept
  · exact delegation.callbacks_made moves admissible

theorem Linked.grown {after : CompletionWorld} (linked : world.Linked tracker command)
    (grows : Grows world after) (order : command < tracker)
    (inside : tracker < world.futures.length) : after.Linked tracker command := by
  have of_tracker := grows.futures tracker inside
  have of_command := grows.futures command (Nat.lt_trans order inside)
  refine ⟨?_, ?_, ?_⟩
  · rw [of_tracker]
    exact linked.timeless
  · rw [of_tracker, of_command]
    exact linked.agrees
  · cases linked.status with
    | registering running => exact .registering (grows.threads _ running)
    | registered member unfinished =>
        exact .registered (by rw [grows.callbacks]; exact member)
          (by rw [of_command]; exact unfinished)
    | notified running => exact .notified (grows.threads _ running)
    | finishing error running => exact .finishing error (grows.threads _ running)
    | isOver terminal => exact .isOver (by rw [of_tracker]; exact terminal)

theorem Admissible.grown {op : CompletionOp} {after : CompletionWorld}
    (admissible : world.Admissible op) (wired : world.Wired) (grows : Grows world after) :
    after.Admissible op := by
  cases op with
  | cancel | returns | publish => trivial
  | startSend control | expire control =>
      exact ⟨Nat.lt_of_lt_of_le admissible.1 grows.length,
        fun command member => admissible.2 command (grows.older _ member admissible.1)⟩
  | finish control error =>
      refine ⟨Nat.lt_of_lt_of_le admissible.1 grows.length, fun command member => ?_⟩
      have link := grows.older _ member admissible.1
      have bounds := wired.order _ link
      rw [grows.futures command (Nat.lt_trans bounds.1 bounds.2)]
      exact admissible.2 command link
  | addDoneCallback command tracker | finished command tracker =>
      exact grows.trackers _ admissible

theorem Delegation.grown {after : CompletionWorld} (delegation : world.Delegation)
    (wired : world.Wired) (grows : Grows world after)
    (linked : ∀ tracker command, (tracker, command) ∈ after.trackers →
      (tracker, command) ∈ world.trackers ∨ after.Linked tracker command)
    (calls : ∀ op, Running after.threads op → Running world.threads op ∨ after.Admissible op) :
    after.Delegation := by
  constructor
  · intro tracker command link
    rcases linked tracker command link with old | new
    · have bounds := wired.order _ old
      exact (delegation.linked tracker command old).grown grows bounds.1 bounds.2
    · exact new
  · intro op running
    rcases calls op running with old | new
    · exact (delegation.calls op old).grown wired grows
    · exact new
  · rw [grows.callbacks]
    exact fun callback member => grows.trackers _ (delegation.callbacks callback member)

theorem Steps.delegation {label : CompletionLabel} {after : CompletionWorld}
    (steps : Steps world label after) (delegates : world.delegates label = true)
    (wired : world.Wired) (delegation : world.Delegation) : after.Delegation := by
  have own {handle control command : Nat} (at_handle : world.handles[handle]? = some control)
      (checked : world.delegates (.startSend handle) = true)
      (link : (control, command) ∈ world.trackers) : False := by
    simp only [CompletionWorld.delegates, at_handle] at checked
    simpa using List.all_eq_true.mp checked _ link
  cases steps with
  | ran index after stepped => exact delegation.run wired stepped
  | ticked | observed | shared =>
      exact delegation.grown wired (grows_calls fun _ running => running)
        (fun _ _ member => .inl member) fun _ running => .inl running
  | called label handle control op at_handle kind =>
      refine delegation.grown wired
        (grows_calls fun op running => (running_append _ _).mpr (.inl running))
        (fun _ _ member => .inl member) fun other running => ?_
      refine ((running_append _ _).mp running).imp_right fun member => ?_
      rw [List.mem_singleton.mp member]
      rcases kind with ⟨_, rfl⟩ | ⟨rfl, rfl⟩ | ⟨rfl, rfl⟩ | ⟨error, rfl, rfl⟩
      · trivial
      · exact ⟨wired.within at_handle, fun command link => own at_handle delegates link⟩
      · exact ⟨wired.within at_handle, fun command link => own at_handle delegates link⟩
      · exact ⟨wired.within at_handle, fun command link => (own at_handle delegates link).elim⟩
  | created deadline =>
      exact delegation.grown wired (grows_created deadline) (fun _ _ member => .inl member)
        fun _ running => .inl running
  | tracked handle command at_handle =>
      refine delegation.grown wired (grows_tracked command) ?_ ?_
      · intro tracker other link
        rcases List.mem_append.mp link with old | new
        · exact .inl old
        · cases List.mem_singleton.mp new
          refine .inr ⟨by simp [future], by simp [future], .registering ?_⟩
          exact (running_append _ _).mpr (.inr (by simp))
      · intro op running
        refine ((running_append _ _).mp running).imp_right fun member => ?_
        rw [List.mem_singleton.mp member]
        exact List.mem_append_right _ (by simp)

theorem reachable_delegation (reachable : completionSystem.ReachableBy
      (fun world label => world.delegates label = true) world) :
    world.Delegation := by
  refine reachable.invariant_given Wired (fun _ => reachable_wired) ?_ ?_
  · rintro first rfl
    exact ⟨nofun, fun op running => by simp [Running] at running, nofun⟩
  · intro before label after permitted wired delegation stepped
    exact (step_cases stepped).delegation permitted wired delegation

/-- The control can end with nothing but a cancellation, and has so ended when no
call is under way. -/
structure EndsCancelled (world : CompletionWorld) (control : Nat) : Prop where
  outcome : ∀ outcome, (world.future control).future = some outcome → outcome = some .cancelled
  ended : (∀ stack ∈ world.threads, stack = []) →
    (world.future control).future = some (some .cancelled)

theorem Settled.ended (settled : world.Settled) (idle : ∀ stack ∈ world.threads, stack = [])
    {outcome : Outcome} (decided : (world.future control).terminal = some outcome) :
    (world.future control).future = some outcome := by
  have completing := (settled.stands control).completing
  rw [calls_eq_zero _ fun op running => absurd running (not_running_idle idle), decided] at completing
  cases future : (world.future control).future with
  | none => simp [future] at completing
  | some result =>
      rw [(settled.stands control).recorded result future] at decided
      exact decided

theorem EndsCancelled.of_terminal (settled : world.Settled)
    (decided : (world.future control).terminal = some (some .cancelled)) :
    world.EndsCancelled control := by
  refine ⟨fun outcome future => ?_, fun idle => settled.ended idle decided⟩
  rw [(settled.stands control).recorded outcome future] at decided
  exact Option.some.inj decided

/-- A delegating future ends as its command does. -/
theorem Linked.endsCancelled (linked : world.Linked tracker command) (settled : world.Settled)
    (cancelled : world.EndsCancelled command) : world.EndsCancelled tracker := by
  refine ⟨fun outcome future => ?_, fun idle => ?_⟩
  · exact cancelled.outcome outcome
      (linked.agrees outcome ((settled.stands tracker).recorded outcome future))
  · have ended := cancelled.ended idle
    cases linked.status with
    | registering running => exact absurd running (not_running_idle idle)
    | registered member unfinished =>
        rw [unfinished] at ended
        contradiction
    | notified running => exact absurd running (not_running_idle idle)
    | finishing error running => exact absurd running (not_running_idle idle)
    | isOver terminal =>
        obtain ⟨outcome, decided⟩ := Option.isSome_iff_exists.mp terminal
        rw [linked.agrees outcome decided] at ended
        rw [settled.ended idle decided, ended]

/-- A future that delegates to a control which ends as cancelled ends so as well. -/
theorem Delegation.reaches_cancelled (delegation : world.Delegation) (settled : world.Settled)
    {root : Nat} (reaches : Reaches world.trackers control root)
    (cancelled : world.EndsCancelled root) : world.EndsCancelled control := by
  induction reaches using Relation.ReflTransGen.head_induction_on with
  | refl => exact cancelled
  | head link _ ih => exact (delegation.linked _ _ link).endsCancelled settled ih

end CompletionWorld

end StreamDockSdk
