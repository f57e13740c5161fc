import StreamDockSdk.Completion.Control
import StreamDockSdk.Automaton.History

namespace StreamDockSdk

open Automaton

namespace CompletionWorld

variable {world : CompletionWorld} {thread control : Nat}

theorem run_kept {index : Nat} {after : CompletionWorld} (stepped : world.run index = some after)
    (control : Nat) : Kept (world.future control) (after.future control) := by
  obtain ⟨call, rest, completion, next, found, at_subject, moves, rfl⟩ := run_cases stepped
  have inside := (List.getElem?_eq_some_iff.mp at_subject).1
  by_cases here : control = subject call
  · subst here
    rcases moves.futures with same | ⟨changed, updated, kept⟩
    · simp only [future, same]
      exact .refl _
    · simp only [future, updated, List.getElem?_set_self inside, Option.getD_some, at_subject]
      exact kept
  · simp only [future, moves.elsewhere here]
    exact .refl _

/-- A control that does not exist yet has no deadline to keep. -/
theorem Steps.kept {label : CompletionLabel} {after : CompletionWorld}
    (steps : Steps world label after) (control : Nat) :
    Kept (world.future control) (after.future control) ∨
      (world.future control).terminal = none ∧ (world.future control).future = none ∧
        (world.future control).sending = false := by
  have grown {fresh : CommandFuture} {handles : List Nat} {trackers : List (Nat × Nat)}
      {threads : List (List CompletionOp)} :
      Kept (world.future control)
          (future { world with
            futures := world.futures ++ [fresh], handles, trackers, threads } control) ∨
        (world.future control).terminal = none ∧ (world.future control).future = none ∧
          (world.future control).sending = false := by
    by_cases inside : control < world.futures.length
    · refine .inl ?_
      simp only [future, List.getElem?_append_left inside]
      exact .refl _
    · refine .inr ?_
      simp [future, List.getElem?_eq_none (Nat.le_of_not_lt inside)]
  cases steps with
  | ran index after stepped => exact .inl (run_kept stepped control)
  | ticked | shared | called | observed => exact .inl (.refl _)
  | created | tracked => exact grown

theorem deadlinePassed_congr {before after : CommandFuture}
    (same : after.deadline = before.deadline) (clock : Nat) :
    after.deadlinePassed clock = before.deadlinePassed clock := by
  simp only [CommandFuture.deadlinePassed, same]

/-- What the clock reading of a call decides about the control. -/
def Timely (completion : CommandFuture) (control : Nat) : CompletionEvent → Prop
  | .startSend started clock true =>
      started = control → completion.deadlinePassed clock = false
  | .finish finished clock error true =>
      finished = control → completion.terminal = some (completion.recorded clock error)
  | .expire expired _ true =>
      expired = control → completion.terminal = some (some .deadlineExceeded)
  | _ => True

theorem Timely.kept {before after : CommandFuture} {event : CompletionEvent}
    (timely : Timely before control event) (kept : Kept before after) :
    Timely after control event := by
  cases event with
  | startSend started clock result =>
      cases result with
      | false => trivial
      | true =>
          intro same
          rw [deadlinePassed_congr kept.deadline]
          exact timely same
  | finish finished clock error won =>
      cases won with
      | false => trivial
      | true =>
          intro same
          unfold CommandFuture.recorded
          rw [deadlinePassed_congr kept.deadline]
          exact kept.terminal _ (timely same)
  | expire expired clock won =>
      cases won with
      | false => trivial
      | true => exact fun same => kept.terminal _ (timely same)
  | cancelled | returned | completed | refused | observed => trivial

/-- A control that does not exist yet has no calls. -/
theorem ControlStands.timely_fresh {completion : CommandFuture} {event : CompletionEvent}
    (stands : ControlStands world control) (free : (world.future control).terminal = none)
    (unsent : (world.future control).sending = false) (member : event ∈ world.history) :
    Timely completion control event := by
  have undecided (wins : event.wins control = true) : False := by
    have decided := stands.decided
    have positive := List.countP_pos_iff.mpr ⟨event, member, wins⟩
    rw [free] at decided
    simp only [Option.isSome_none, Bool.toNat_false] at decided
    omega
  cases event with
  | startSend started clock result =>
      cases result with
      | false => trivial
      | true =>
          rintro rfl
          rw [stands.sending clock member] at unsent
          contradiction
  | finish finished clock error won =>
      cases won with
      | false => trivial
      | true =>
          rintro rfl
          exact (undecided (by simp [CompletionEvent.wins])).elim
  | expire expired clock won =>
      cases won with
      | false => trivial
      | true =>
          rintro rfl
          exact (undecided (by simp [CompletionEvent.wins])).elim
  | cancelled | returned | completed | refused | observed => trivial

/-- The event of a step is timely for the state that the step leaves. -/
theorem Moves.timely {completion : CommandFuture} {op : CompletionOp} {next : CompletionAdvance}
    (moves : world.Moves thread completion op next) (inside : subject op < world.futures.length)
    (control : Nat) :
    ∀ event ∈ next.events, Timely (next.futures[control]?.getD {}) control event := by
  cases moves with
  | cancelLost | cancelDelegated | cancelWon | handedBack | handedOn | sendLost | sendExpired
  | expireLost | finishLost | published | jammed | registered | notified | relayed => simp [unchanged, Timely]
  | sendStarted target free early =>
      simp only [List.mem_singleton, forall_eq]
      rintro rfl
      simp only [subject] at inside
      rw [List.getElem?_set_self inside]
      exact early
  | expireWon target free =>
      simp only [List.mem_singleton, forall_eq]
      rintro rfl
      simp only [subject] at inside
      rw [List.getElem?_set_self inside]
      rfl
  | finishWon target error free =>
      simp only [List.mem_singleton, forall_eq]
      rintro rfl
      simp only [subject] at inside
      rw [List.getElem?_set_self inside]
      rfl

theorem Steps.timely {label : CompletionLabel} {after : CompletionWorld}
    (steps : Steps world label after) (stands : ∀ control, ControlStands world control)
    (timely : ∀ control, ∀ event ∈ world.history, Timely (world.future control) control event)
    (control : Nat) : ∀ event ∈ after.history, Timely (after.future control) control event := by
  have older : ∀ event ∈ world.history, Timely (after.future control) control event := by
    intro event member
    rcases steps.kept control with kept | ⟨free, _, unsent⟩
    · exact (timely control event member).kept kept
    · exact (stands control).timely_fresh free unsent member
  cases steps with
  | ran index after stepped =>
      obtain ⟨call, rest, completion, next, found, at_subject, moves, rfl⟩ := run_cases stepped
      intro event member
      rcases List.mem_append.mp member with new | old
      · exact moves.timely (List.getElem?_eq_some_iff.mp at_subject).1 control event new
      · exact older event old
  | ticked | created | shared | tracked | called => exact older
  | observed =>
      intro event member
      rcases List.mem_cons.mp member with rfl | old
      · trivial
      · exact older event old

/-- Once a control is decided, `_start_send` returns False; only then does
`_finish` raise `InvalidStateError`. -/
def InTurn (older : List CompletionEvent) (event : CompletionEvent) : Prop :=
  (∀ control clock, event = .startSend control clock true →
    older.countP (CompletionEvent.wins control) = 0) ∧
  ∀ control clock error, event = .finish control clock error false →
    0 < older.countP (CompletionEvent.wins control)

theorem Steps.inTurn {label : CompletionLabel} {after : CompletionWorld}
    (steps : Steps world label after) (stands : ∀ control, ControlStands world control)
    (guarded : Guarded InTurn world.history) : Guarded InTurn after.history := by
  cases steps with
  | ran index after stepped =>
      obtain ⟨call, rest, completion, next, found, at_subject, moves, rfl⟩ := run_cases stepped
      cases moves with
      | sendStarted target free early =>
          refine ⟨⟨?_, nofun⟩, guarded⟩
          rintro control clock ⟨⟩
          have current : world.future target = completion := future_of_found at_subject
          have decided := (stands target).decided
          rw [current, free] at decided
          exact decided
      | finishLost target error isOver =>
          refine ⟨⟨nofun, ?_⟩, guarded⟩
          rintro control clock raised ⟨⟩
          have current : world.future target = completion := future_of_found at_subject
          have decided := (stands target).decided
          rw [current, isOver] at decided
          exact decided ▸ Nat.one_pos
      | cancelLost | cancelDelegated | registered | notified | relayed => exact guarded
      | cancelWon | handedBack | handedOn | sendLost | sendExpired | expireLost | expireWon | finishWon
      | published | jammed => exact ⟨⟨nofun, nofun⟩, guarded⟩
  | ticked | created | shared | tracked | called => exact guarded
  | observed => exact ⟨⟨nofun, nofun⟩, guarded⟩

/-- A handle shows the outcome of its control. -/
def Observes (world : CompletionWorld) (event : CompletionEvent) : Prop :=
  ∀ handle outcome, event = .observed handle outcome →
    ∃ control, world.handles[handle]? = some control ∧
      (world.future control).future = some outcome

theorem Steps.observes {label : CompletionLabel} {after : CompletionWorld}
    (steps : Steps world label after)
    (observes : ∀ event ∈ world.history, world.Observes event) :
    ∀ event ∈ after.history, after.Observes event := by
  have older : ∀ event ∈ world.history, after.Observes event := by
    rintro event member handle outcome rfl
    obtain ⟨control, at_handle, result⟩ := observes _ member handle outcome rfl
    refine ⟨control, ?_, ?_⟩
    · have inside := (List.getElem?_eq_some_iff.mp at_handle).1
      cases steps with
      | ran index after stepped =>
          obtain ⟨call, rest, completion, next, _, _, _, rfl⟩ := run_cases stepped
          exact at_handle
      | ticked | called | observed => exact at_handle
      | created | shared | tracked => exact (List.getElem?_append_left inside).trans at_handle
    · rcases steps.kept control with kept | ⟨_, unfinished, _⟩
      · exact kept.future outcome result
      · rw [unfinished] at result
        contradiction
  cases steps with
  | ran index after stepped =>
      obtain ⟨call, rest, completion, next, found, at_subject, moves, rfl⟩ := run_cases stepped
      intro event member
      rcases List.mem_append.mp member with new | old
      · cases moves <;> simp_all [unchanged, Observes]
      · exact older event old
  | ticked | created | shared | tracked | called => exact older
  | observed handle control completion outcome at_handle at_control result =>
      intro event member
      rcases List.mem_cons.mp member with rfl | old
      · rintro _ _ ⟨⟩
        exact ⟨control, at_handle, by rw [← result]; exact congrArg _ (future_of_found at_control)⟩
      · exact older event old

/-- What holds of all controls and handles after any calls. -/
structure Settled (world : CompletionWorld) : Prop where
  stands : ∀ control, ControlStands world control
  timely : ∀ control, ∀ event ∈ world.history, Timely (world.future control) control event
  inTurn : Guarded InTurn world.history
  observes : ∀ event ∈ world.history, world.Observes event

theorem reachable_settled (reachable : completionSystem.Reachable world) : world.Settled := by
  refine reachable.invariant ?_ ?_
  · rintro first rfl
    exact ⟨stands_initially, nofun, trivial, nofun⟩
  · intro before label after settled stepped
    have steps := step_cases stepped
    exact ⟨steps.stands settled.stands, steps.timely settled.stands settled.timely,
      steps.inTurn settled.stands settled.inTurn, steps.observes settled.observes⟩

end CompletionWorld

end StreamDockSdk
