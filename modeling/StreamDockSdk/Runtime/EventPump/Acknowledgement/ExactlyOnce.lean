import StreamDockSdk.Runtime.EventPump.Acknowledgement.Counting

namespace StreamDockSdk.Runtime

open Automaton

/-! # Every received event is acknowledged exactly once

An acknowledgement waits for the end of its event's dispatch.
-/

namespace AcknowledgementWorld

variable {world next after : AcknowledgementWorld} {op : AcknowledgementOp}
variable {ops : List AcknowledgementOp}

/-- The dispatch of the event came to its end, or there will be none. -/
def Concluded (history : List AcknowledgementEvent) (event : Nat) : Prop :=
  .completed event ∈ history ∨ .submissionRaised event ∈ history ∨ .discarded event ∈ history

/-- Every call of `task_done` is the first for its event, and comes after the end of
the event's dispatch; an object that is no event is acknowledged at once. -/
def Acknowledges (older : List AcknowledgementEvent) : AcknowledgementEvent → Prop
  | .taskDone event => .taskDone event ∉ older ∧
      (Concluded older event ∨ .received event false ∈ older)
  | _ => True

/-- Nothing of the event is left to wait for. -/
structure Ended (world : AcknowledgementWorld) (event : Nat) : Prop where
  reason : Concluded world.history event ∨ .received event false ∈ world.history
  dispatched : ∀ dispatch, world.dispatches event = some dispatch → dispatch.verdict.isSome

structure Justified (world : AcknowledgementWorld) : Prop where
  early : ∀ event, 0 < calls (AcknowledgementOp.precedesDispatch event) world.threads →
    world.dispatches event = none ∧ ¬ Concluded world.history event
  unborn : ∀ event, world.owned.length ≤ event →
    world.dispatches event = none ∧ ¬ Concluded world.history event
  running : ∀ event observed, world.dispatches event = some { verdict := none, observed } →
    ¬ Concluded world.history event
  logged : ∀ event dispatch, world.dispatches event = some dispatch → dispatch.verdict.isSome →
    .completed event ∈ world.history
  registering : ∀ event, 0 < calls (AcknowledgementOp.followsDispatch event) world.threads →
    (world.dispatches event).isSome
  reported : ∀ event, Running world.threads (.onDispatchDone event) →
    ∀ dispatch, world.dispatches event = some dispatch → dispatch.verdict.isSome
  examined : ∀ event, Running world.threads (.examine event false) →
    .received event false ∈ world.history
  excused : ∀ event, 0 < calls (AcknowledgementOp.finishes event) world.threads ∨
    world.finished event = true → world.Ended event
  guarded : Guarded Acknowledges world.history

theorem history_advances (step : OpAdvances world op after ops) :
    ∀ event ∈ world.history, event ∈ after.history := by
  intro event member
  cases step with
  | idle _ _ untouched _ => exact untouched.history ▸ member
  | accept other verdict => exact List.mem_append_right _ member
  | own | discard | refuse | acknowledge | acknowledgementFails =>
      exact List.mem_cons_of_mem _ member
  | _ => exact member

theorem Concluded.advances {event : Nat} (concluded : Concluded world.history event)
    (step : OpAdvances world op after ops) : Concluded after.history event :=
  concluded.imp (history_advances step _)
    (Or.imp (history_advances step _) (history_advances step _))

theorem early_advances {moved : Nat} (event : Nat) (counts : Counted world) (inv : Justified world)
    (step : OpAdvances world op after ops)
    (shift : Shifts op ops (AcknowledgementOp.precedesDispatch event)
      (calls (AcknowledgementOp.precedesDispatch event) world.threads) moved)
    (pending : 0 < moved) : after.dispatches event = none ∧ ¬ Concluded after.history event := by
  have early := inv.early event
  have held := counts.held event
  cases step with
  | idle eventless _ untouched idle =>
      rw [shift.eventless (fun op precedes => by simp [precedesDispatch_event precedes]) eventless idle]
        at pending
      rw [untouched.dispatches, untouched.history]
      exact early pending
  | own isEvent =>
      simp only [Shifts, List.countP_cons, List.countP_nil, AcknowledgementOp.precedesDispatch,
        beq_iff_eq] at shift
      have unborn := inv.unborn event
      simp only [takeOwnership, Concluded, List.mem_cons] at early unborn ⊢
      grind -ring -linarith
  | release other fatal =>
      rw [Shifts, countP_recordFatal fun op precedes => by simp [precedesDispatch_event precedes]]
        at shift
      obtain rfl : moved = _ := shift
      exact early pending
  | accept other verdict =>
      simp only [Shifts, List.countP_cons, List.countP_nil, AcknowledgementOp.precedesDispatch,
        beq_iff_eq] at shift
      simp only [accept, Concluded, List.mem_append, Function.update_apply] at early ⊢
      grind -ring -linarith
  | _ =>
      simp only [Shifts, List.countP_cons, List.countP_nil, AcknowledgementOp.precedesDispatch,
        beq_iff_eq] at shift
      simp only [record, finishOwned, Concluded, List.mem_cons, Function.update_apply] at early ⊢
      grind -ring -linarith

theorem unborn_advances {index : Nat} {rest : List AcknowledgementOp} (event : Nat)
    (counts : Counted world) (inv : Justified world)
    (found : world.threads[index]? = some (op :: rest)) (step : OpAdvances world op after ops)
    (beyond : after.owned.length ≤ event) :
    after.dispatches event = none ∧ ¬ Concluded after.history event := by
  have unborn := inv.unborn event
  have held := counts.held event
  have early := calls_pos (AcknowledgementOp.precedesDispatch event) found
  have late := calls_pos (AcknowledgementOp.followsDispatch event) found
  cases step with
  | idle _ _ untouched _ =>
      rw [untouched.owned] at beyond
      rw [untouched.dispatches, untouched.history]
      exact unborn beyond
  | finish other result error unfinished =>
      simp only [finishOwned, List.length_set] at beyond ⊢
      exact unborn beyond
  | _ =>
      simp only [AcknowledgementOp.precedesDispatch, AcknowledgementOp.followsDispatch,
        beq_iff_eq, takeOwnership, accept, record, Concluded, List.mem_cons, List.mem_append,
        List.length_append, Function.update_apply] at early late unborn beyond ⊢
      grind -ring -linarith

theorem running_advances {index : Nat} {rest : List AcknowledgementOp} (event : Nat)
    (observed : Bool) (inv : Justified world)
    (found : world.threads[index]? = some (op :: rest)) (step : OpAdvances world op after ops)
    (running : after.dispatches event = some { verdict := none, observed }) :
    ¬ Concluded after.history event := by
  have before := inv.running event
  have early := inv.early event
  have precedes := calls_pos (AcknowledgementOp.precedesDispatch event) found
  cases step with
  | idle _ _ untouched _ =>
      rw [untouched.dispatches] at running
      rw [untouched.history]
      exact before observed running
  | _ =>
      simp only [AcknowledgementOp.precedesDispatch, beq_iff_eq, takeOwnership, accept, record,
        finishOwned, Concluded, List.mem_cons, List.mem_append, Function.update_apply]
        at before early precedes running ⊢
      grind -ring -linarith

theorem logged_advances (event : Nat) (dispatch : Dispatch) (inv : Justified world)
    (step : OpAdvances world op after ops) (accepted : after.dispatches event = some dispatch)
    (ended : dispatch.verdict.isSome) : .completed event ∈ after.history := by
  have before := inv.logged event dispatch
  cases step with
  | idle _ _ untouched _ =>
      rw [untouched.dispatches] at accepted
      rw [untouched.history]
      exact before accepted ended
  | accept other verdict =>
      simp only [accept, List.mem_append, Function.update_apply] at accepted ⊢
      grind -ring -linarith
  | observe other observed found =>
      simp only [Function.update_apply] at accepted
      grind -ring -linarith
  | _ => grind -ring -linarith [takeOwnership, record, finishOwned]

theorem registering_advances {moved : Nat} (event : Nat) (inv : Justified world)
    (step : OpAdvances world op after ops)
    (shift : Shifts op ops (AcknowledgementOp.followsDispatch event)
      (calls (AcknowledgementOp.followsDispatch event) world.threads) moved)
    (pending : 0 < moved) : (after.dispatches event).isSome := by
  have before := inv.registering event
  cases step with
  | idle eventless _ untouched idle =>
      rw [shift.eventless (fun op follows => by simp [followsDispatch_event follows]) eventless idle]
        at pending
      rw [untouched.dispatches]
      exact before pending
  | release other fatal =>
      rw [Shifts, countP_recordFatal fun op follows => by simp [followsDispatch_event follows]]
        at shift
      obtain rfl : moved = _ := shift
      exact before pending
  | _ =>
      simp only [Shifts, List.countP_cons, List.countP_nil, AcknowledgementOp.followsDispatch,
        beq_iff_eq, takeOwnership, accept, record, finishOwned, Function.update_apply] at shift ⊢
      grind -ring -linarith

/-- What a step does to the completion of an event that has ended. -/
theorem dispatches_advances (event : Nat) (step : OpAdvances world op after ops)
    {dispatch : Dispatch} (accepted : after.dispatches event = some dispatch)
    (unsubmitted : op ≠ .submit event)
    (ended : ∀ earlier, world.dispatches event = some earlier → earlier.verdict.isSome) :
    dispatch.verdict.isSome := by
  cases step with
  | idle _ _ untouched _ =>
      rw [untouched.dispatches] at accepted
      exact ended dispatch accepted
  | accept other verdict =>
      simp only [accept, Function.update_apply] at accepted
      grind -ring -linarith
  | observe other observed found =>
      simp only [Function.update_apply] at accepted
      grind -ring -linarith
  | _ => grind -ring -linarith [takeOwnership, record, finishOwned]

theorem Ended.advances {event : Nat} (ended : world.Ended event) (step : OpAdvances world op after ops)
    (unsubmitted : op ≠ .submit event) : after.Ended event where
  reason := ended.reason.imp (·.advances step) (history_advances step _)
  dispatched _ accepted := dispatches_advances event step accepted unsubmitted ended.dispatched

theorem reported_advances {index : Nat} {rest : List AcknowledgementOp} (event : Nat)
    (counts : Counted world) (inv : Justified world)
    (found : world.threads[index]? = some (op :: rest)) (step : OpAdvances world op after ops)
    (running : Running (resume world.threads index (ops ++ rest)) (.onDispatchDone event))
    {dispatch : Dispatch} (accepted : after.dispatches event = some dispatch) :
    dispatch.verdict.isSome := by
  rcases running.resumed found with earlier | pushed
  · refine dispatches_advances event step accepted ?_ (inv.reported event earlier)
    rintro rfl
    have late := calls_pos_of_running (AcknowledgementOp.followsDispatch event) earlier
      (beq_self_eq_true event)
    have early := calls_pos (AcknowledgementOp.precedesDispatch event) found (beq_self_eq_true event)
    have held := counts.held event
    grind -ring -linarith
  · cases step with
    | idle _ _ _ idle => exact absurd (idle _ pushed) (by simp [AcknowledgementOp.event?])
    | notify other ended =>
        simp only [List.mem_cons, AcknowledgementOp.onDispatchDone.injEq, reduceCtorEq,
          List.not_mem_nil, or_false] at pushed
        exact ended dispatch (pushed ▸ accepted)
    | _ => simp at pushed

theorem examined_advances {index : Nat} {rest : List AcknowledgementOp} (event : Nat)
    (inv : Justified world) (found : world.threads[index]? = some (op :: rest))
    (step : OpAdvances world op after ops)
    (running : Running (resume world.threads index (ops ++ rest)) (.examine event false)) :
    .received event false ∈ after.history := by
  rcases running.resumed found with earlier | pushed
  · exact history_advances step _ (inv.examined event earlier)
  · cases step with
    | idle _ _ _ idle => exact absurd (idle _ pushed) (by simp [AcknowledgementOp.event?])
    | own isEvent =>
        simp only [List.mem_singleton, AcknowledgementOp.examine.injEq] at pushed
        obtain ⟨rfl, rfl⟩ := pushed
        exact List.mem_cons_self
    | _ => simp at pushed

theorem excused_advances {index : Nat} {rest : List AcknowledgementOp} {moved : Nat} (event : Nat)
    (counts : Counted world) (inv : Justified world)
    (found : world.threads[index]? = some (op :: rest)) (step : OpAdvances world op after ops)
    (shift : Shifts op ops (AcknowledgementOp.finishes event)
      (calls (AcknowledgementOp.finishes event) world.threads) moved)
    (finishing : 0 < moved ∨ after.finished event = true) : after.Ended event := by
  have held := counts.held event
  have kept : 0 < calls (AcknowledgementOp.finishes event) world.threads ∨
      world.finished event = true → after.Ended event := by
    intro before
    refine (inv.excused event before).advances step ?_
    rintro rfl
    have early := calls_pos (AcknowledgementOp.precedesDispatch event) found (beq_self_eq_true event)
    grind -ring -linarith
  have early := calls_pos (AcknowledgementOp.precedesDispatch event) found
  have running := Running.of_thread found List.mem_cons_self
  cases step with
  | idle eventless _ untouched idle =>
      rw [shift.eventless (fun op finishes => by simp [finishes_event finishes]) eventless idle,
        untouched_finished untouched] at finishing
      exact kept finishing
  | release other fatal =>
      rw [Shifts, countP_recordFatal fun op finishes => by simp [finishes_event finishes]] at shift
      obtain rfl : moved = _ := shift
      exact kept finishing
  | reject other =>
      by_cases same : other = event
      · subst same
        exact ⟨.inr (inv.examined other running), by
          simp [(inv.early other (early (beq_self_eq_true other))).1]⟩
      · simp only [Shifts, List.countP_cons, List.countP_nil, AcknowledgementOp.finishes, same,
          beq_iff_eq] at shift
        exact kept (by grind)
  | discard other =>
      by_cases same : other = event
      · subst same
        exact ⟨.inl (.inr (.inr List.mem_cons_self)), by
          simp [record, (inv.early other (early (beq_self_eq_true other))).1]⟩
      · simp only [Shifts, List.countP_cons, List.countP_nil, AcknowledgementOp.finishes, same,
          beq_iff_eq] at shift
        exact kept (by grind -ring -linarith [record, finished])
  | refuse other =>
      by_cases same : other = event
      · subst same
        exact ⟨.inl (.inr (.inl List.mem_cons_self)), by
          simp [record, (inv.early other (early (beq_self_eq_true other))).1]⟩
      · simp only [Shifts, List.countP_cons, List.countP_nil, AcknowledgementOp.finishes, same,
          beq_iff_eq] at shift
        exact kept (by grind -ring -linarith [record, finished])
  | report other result error =>
      by_cases same : other = event
      · subst same
        have late := calls_pos (AcknowledgementOp.followsDispatch other) found (beq_self_eq_true other)
        obtain ⟨dispatch, accepted⟩ := Option.isSome_iff_exists.mp (inv.registering other late)
        have ended := inv.reported other running
        exact ⟨.inl (.inl (inv.logged other dispatch accepted (ended dispatch accepted))), ended⟩
      · simp only [Shifts, List.countP_cons, List.countP_nil, AcknowledgementOp.finishes, same,
          beq_iff_eq] at shift
        exact kept (by grind)
  | finish other result error unfinished =>
      by_cases same : other = event
      · subst same
        exact kept (.inl (calls_pos _ found (beq_self_eq_true other)))
      · rw [finishOwned_finished] at finishing
        simp only [Shifts, List.countP_cons, List.countP_nil, AcknowledgementOp.finishes, same,
          beq_iff_eq] at shift
        exact kept (by grind)
  | _ =>
      simp only [Shifts, List.countP_cons, List.countP_nil, AcknowledgementOp.finishes,
        beq_iff_eq] at shift
      simp only [finished, record, accept, takeOwnership] at finishing kept
      exact kept (by grind)

theorem guarded_advances {index : Nat} {rest : List AcknowledgementOp} (counts : Counted world)
    (inv : Justified world) (found : world.threads[index]? = some (op :: rest))
    (step : OpAdvances world op after ops) : Guarded Acknowledges after.history := by
  have acknowledged : ∀ event fatal, op = .taskDone event fatal →
      Acknowledges world.history (.taskDone event) := by
    rintro event fatal rfl
    have calling := calls_pos (AcknowledgementOp.callsTaskDone event) found (beq_self_eq_true event)
    have called := counts.called event
    have finished : world.finished event = true := by grind -ring -linarith
    refine ⟨fun earlier => ?_, (inv.excused event (.inr finished)).reason⟩
    have twice := List.count_pos_iff.mpr earlier
    grind -ring -linarith
  cases step with
  | idle _ _ untouched _ => exact untouched.history ▸ inv.guarded
  | accept event verdict =>
      cases verdict with
      | none => exact inv.guarded
      | some => exact ⟨trivial, inv.guarded⟩
  | own | discard | refuse => exact ⟨trivial, inv.guarded⟩
  | acknowledge event fatal => exact ⟨acknowledged event fatal rfl, inv.guarded⟩
  | acknowledgementFails event fatal => exact ⟨acknowledged event fatal rfl, inv.guarded⟩
  | _ => exact inv.guarded

theorem justified_run {index : Nat} {rest : List AcknowledgementOp} (counts : Counted world)
    (inv : Justified world) (found : world.threads[index]? = some (op :: rest))
    (step : OpAdvances world op next ops) :
    Justified { next with threads := resume world.threads index (ops ++ rest) } where
  early event pending :=
    have kept := early_advances event counts inv step (shifts_resume found _) pending
    kept
  unborn event beyond :=
    have kept := unborn_advances event counts inv found step beyond
    kept
  running event observed running :=
    have kept := running_advances event observed inv found step running
    kept
  logged event dispatch accepted ended :=
    have kept := logged_advances event dispatch inv step accepted ended
    kept
  registering event pending :=
    have kept := registering_advances event inv step (shifts_resume found _) pending
    kept
  reported event running _ accepted :=
    have kept := reported_advances event counts inv found step running accepted
    kept
  examined event running :=
    have kept := examined_advances event inv found step running
    kept
  excused event finishing :=
    have ended := excused_advances event counts inv found step (shifts_resume found _) finishing
    ⟨ended.reason, ended.dispatched⟩
  guarded :=
    have kept := guarded_advances counts inv found step
    kept

theorem justified_untouched (inv : Justified world) (untouched : Untouched world after)
    (came : ∀ op, Running after.threads op → op.event? ≠ none → Running world.threads op) :
    Justified after := by
  have fewer : ∀ test : AcknowledgementOp → Bool, (∀ op, test op = true → op.event? ≠ none) →
      0 < calls test after.threads → 0 < calls test world.threads := by
    intro test about positive
    obtain ⟨op, running, passes⟩ := running_of_calls_pos test positive
    exact calls_pos_of_running test (came op running (about op passes)) passes
  constructor
  · intro event pending
    rw [untouched.dispatches, untouched.history]
    exact inv.early event (fewer _ (fun op passes => by simp [precedesDispatch_event passes]) pending)
  · intro event beyond
    rw [untouched.dispatches, untouched.history]
    exact inv.unborn event (untouched.owned ▸ beyond)
  · intro event observed running
    rw [untouched.history]
    exact inv.running event observed (untouched.dispatches ▸ running)
  · intro event dispatch accepted
    rw [untouched.history]
    exact inv.logged event dispatch (untouched.dispatches ▸ accepted)
  · intro event pending
    rw [untouched.dispatches]
    exact inv.registering event
      (fewer _ (fun op passes => by simp [followsDispatch_event passes]) pending)
  · intro event running
    rw [untouched.dispatches]
    exact inv.reported event (came _ running (by simp [AcknowledgementOp.event?]))
  · intro event running
    rw [untouched.history]
    exact inv.examined event (came _ running (by simp [AcknowledgementOp.event?]))
  · intro event finishing
    rw [untouched_finished untouched] at finishing
    have ended := inv.excused event (finishing.imp_left
      (fewer _ fun op passes => by simp [finishes_event passes]))
    refine ⟨?_, ?_⟩
    · rw [untouched.history]
      exact ended.reason
    · rw [untouched.dispatches]
      exact ended.dispatched
  · rw [untouched.history]
    exact inv.guarded

theorem justified_settle {event : Nat} {observed : Bool} (inv : Justified world)
    (found : world.dispatches event = some { verdict := none, observed := observed })
    (verdict : DispatchVerdict) : Justified (world.settle event verdict observed) := by
  have accepted_eq : ∀ other, (world.settle event verdict observed).dispatches other =
      if other = event then some { verdict := some verdict, observed := observed }
      else world.dispatches other := by
    intro other
    simp only [settle, Function.update_apply]
  have settled : ∀ other, Concluded (world.settle event verdict observed).history other →
      other = event ∨ Concluded world.history other := by
    intro other concluded
    simp only [settle, Concluded, List.mem_cons] at concluded ⊢
    grind -ring -linarith
  have came : ∀ op, Running (world.settle event verdict observed).threads op →
      Running world.threads op ∨ op = .onDispatchDone event := by
    intro op running
    simp only [settle] at running
    split at running
    · rw [running_append, List.mem_singleton] at running
      exact running
    · exact .inl running
  constructor
  · intro other pending
    rw [settle_calls] at pending
    simp only [AcknowledgementOp.precedesDispatch, Bool.and_false, Bool.false_eq_true, if_false,
      Nat.add_zero] at pending
    obtain ⟨undispatched, open_⟩ := inv.early other pending
    have different : other ≠ event := by
      rintro rfl
      rw [found] at undispatched
      contradiction
    rw [accepted_eq, if_neg different]
    exact ⟨undispatched, fun concluded => (settled other concluded).elim different open_⟩
  · intro other beyond
    obtain ⟨undispatched, open_⟩ := inv.unborn other beyond
    have different : other ≠ event := by
      rintro rfl
      rw [found] at undispatched
      contradiction
    rw [accepted_eq, if_neg different]
    exact ⟨undispatched, fun concluded => (settled other concluded).elim different open_⟩
  · intro other seen running
    rw [accepted_eq] at running
    split at running
    · cases running
    · next different =>
      exact fun concluded => (settled other concluded).elim different (inv.running other seen running)
  · intro other dispatch accepted ended
    rw [accepted_eq] at accepted
    split at accepted
    · next same => exact same ▸ List.mem_cons_self
    · exact List.mem_cons_of_mem _ (inv.logged other dispatch accepted ended)
  · intro other pending
    rw [accepted_eq]
    split
    · rfl
    · next different =>
      rw [settle_calls] at pending
      apply inv.registering other
      simpa [AcknowledgementOp.followsDispatch, Ne.symm different] using pending
  · intro other running dispatch accepted
    rw [accepted_eq] at accepted
    split at accepted
    · cases accepted
      rfl
    · next different =>
      rcases came _ running with earlier | same
      · exact inv.reported other earlier dispatch accepted
      · cases same
        contradiction
  · intro other running
    rcases came _ running with earlier | same
    · exact List.mem_cons_of_mem _ (inv.examined other earlier)
    · contradiction
  · intro other finishing
    rw [settle_calls] at finishing
    simp only [AcknowledgementOp.finishes, Bool.and_false, Bool.false_eq_true, if_false,
      Nat.add_zero] at finishing
    have ended := inv.excused other finishing
    refine ⟨?_, ?_⟩
    · simp only [settle, Concluded, List.mem_cons]
      have reason := ended.reason
      simp only [Concluded] at reason
      grind -ring -linarith
    · intro dispatch accepted
      rw [accepted_eq] at accepted
      split at accepted
      · cases accepted
        rfl
      · exact ended.dispatched dispatch accepted
  · exact ⟨trivial, inv.guarded⟩

theorem justified_step {label : AcknowledgementLabel} (counts : Counted world)
    (inv : Justified world) (stepped : world.step label = some after) : Justified after := by
  cases label with
  | start starts =>
      simp only [step, start] at stepped
      split at stepped <;> cases stepped
      refine justified_untouched inv ⟨rfl, rfl, rfl, rfl, rfl, rfl, rfl⟩ ?_
      intro op running about
      rcases (running_append ..).mp running with earlier | new
      · exact earlier
      · simp_all [AcknowledgementOp.event?]
  | requestStop =>
      cases stepped
      exact justified_untouched inv ⟨rfl, rfl, rfl, rfl, rfl, rfl, rfl⟩ fun _ running _ => running
  | complete event verdict =>
      obtain ⟨observed, found, rfl⟩ := complete_cases stepped
      exact justified_settle inv found verdict
  | run index choice =>
      obtain ⟨op, rest, found, ⟨next, ops, step, rfl⟩ | ⟨eventless, next, untouched, rfl⟩⟩ :=
        run_cases stepped
      · exact justified_run counts inv found step
      · refine justified_untouched inv { untouched with } ?_
        rintro op ⟨stack, member, within⟩ about
        rcases List.mem_or_eq_of_mem_set member with kept | rfl
        · exact ⟨stack, kept, within⟩
        · exact absurd (unwound_eventless index op within) about

theorem reachable_counted (reachable : acknowledgementSystem.Reachable world) : Counted world := by
  refine reachable.invariant ?_ fun before label after inv stepped => counted_step inv stepped
  rintro first rfl
  constructor <;> simp [waiting, finished]

theorem reachable_justified (reachable : acknowledgementSystem.Reachable world) :
    Justified world := by
  refine reachable.invariant_given Counted (fun _ => reachable_counted) ?_
    fun before label after counts inv stepped => justified_step counts inv stepped
  rintro first rfl
  constructor <;> simp [Concluded, Running, finished, Guarded]

/-- The thread's next step belongs to a call that leads to `task_done` for the event. -/
def Finishing (world : AcknowledgementWorld) (event index : Nat) : Prop :=
  ∃ op rest, world.threads[index]? = some (op :: rest) ∧ op.leadsToTaskDone event = true

/-- Some thread is between the mark and the end of `_finish_owned`. -/
def Acknowledging (world : AcknowledgementWorld) : Prop :=
  ∃ op, Running world.threads op ∧ op.acknowledges = true

theorem leadsToTaskDone_event {event : Nat} (leads : op.leadsToTaskDone event = true) :
    op.event? = some event := by
  simp only [AcknowledgementOp.leadsToTaskDone, Bool.or_eq_true] at leads
  rcases leads with (late | final) | calling
  · exact followsDispatch_event late
  · exact finishes_event final
  · exact callsTaskDone_event calling

theorem finishing_of_calls (counts : Counted world) {test : AcknowledgementOp → Bool} {event : Nat}
    (positive : 0 < calls test world.threads)
    (kind : ∀ op, test op = true → op.leadsToTaskDone event = true) :
    ∃ index, world.Finishing event index := by
  obtain ⟨op, ⟨stack, member, within⟩, passes⟩ := running_of_calls_pos test positive
  obtain ⟨index, found⟩ := List.getElem?_of_mem member
  refine ⟨index, ?_⟩
  cases stack with
  | nil => contradiction
  | cons head rest =>
      rcases List.mem_cons.mp within with rfl | later
      · exact ⟨op, rest, found, kind op passes⟩
      · have eventless := counts.headed _ member op later
        rw [leadsToTaskDone_event (kind op passes)] at eventless
        contradiction

/-- Once nothing of an accepted event is left to wait for, it has been acknowledged or a
thread is on its way to do so. -/
theorem acknowledged_of_concluded (counts : Counted world) (inv : Justified world) {event : Nat}
    (concluded : Concluded world.history event) :
    world.history.count (.taskDone event) = 1 ∨ ∃ index, world.Finishing event index := by
  have held := counts.held event
  have called := counts.called event
  have early : calls (AcknowledgementOp.precedesDispatch event) world.threads = 0 :=
    Nat.eq_zero_of_not_pos fun pending => (inv.early event pending).2 concluded
  have born : event < world.owned.length :=
    Nat.lt_of_not_le fun beyond => (inv.unborn event beyond).2 concluded
  have ended : world.waiting event = false := by
    refine Bool.eq_false_iff.mpr fun waiting => ?_
    exact inv.running event true (by simpa [AcknowledgementWorld.waiting] using waiting) concluded
  by_cases late : 0 < calls (AcknowledgementOp.followsDispatch event) world.threads
  · exact .inr (finishing_of_calls counts late fun op passes => by
      simp [AcknowledgementOp.leadsToTaskDone, passes])
  by_cases final : 0 < calls (AcknowledgementOp.finishes event) world.threads
  · exact .inr (finishing_of_calls counts final fun op passes => by
      simp [AcknowledgementOp.leadsToTaskDone, passes])
  by_cases calling : 0 < calls (AcknowledgementOp.callsTaskDone event) world.threads
  · exact .inr (finishing_of_calls counts calling fun op passes => by
      simp [AcknowledgementOp.leadsToTaskDone, passes])
  left
  grind -ring -linarith

/-- Such a thread waits for no other. -/
theorem finishing_runs {event index : Nat} (finishing : world.Finishing event index) :
    (world.run index .proceed).isSome := by
  obtain ⟨op, rest, found, leads⟩ := finishing
  simp only [run, found, Option.isSome_map]
  cases op with
  | addDoneCallback other =>
      simp only [advance]
      split <;> rfl
  | onDispatchDone other =>
      simp only [advance]
      split <;> rfl
  | finishOwned other result error =>
      simp only [advance]
      split <;> rfl
  | taskDone other fatal => rfl
  | _ => simp [AcknowledgementOp.leadsToTaskDone, AcknowledgementOp.followsDispatch,
      AcknowledgementOp.finishes, AcknowledgementOp.callsTaskDone] at leads

/-- When `drain` returns true, everything that was received has been acknowledged. -/
theorem drained_acknowledged (counts : Counted world) (inv : Justified world)
    (drained : world.drained = true) {event : Nat} (received : event < world.eventsReceived) :
    world.history.count (.taskDone event) = 1 ∧
      ∀ dispatch, world.dispatches event = some dispatch → dispatch.verdict.isSome := by
  simp only [AcknowledgementWorld.drained, Bool.and_eq_true, beq_iff_eq] at drained
  have current := counts.current
  have called := counts.called event
  have present : event < world.owned.length := counts.received ▸ received
  have none_unfinished : world.owned.countP (fun owned => !owned.finished) = 0 := by omega
  have none_acknowledging : calls AcknowledgementOp.acknowledges world.threads = 0 := by omega
  have finished : world.finished event = true := by
    have all := List.countP_eq_zero.mp none_unfinished _ (List.getElem_mem present)
    simpa [AcknowledgementWorld.finished, present] using all
  have none_calling : calls (AcknowledgementOp.callsTaskDone event) world.threads = 0 := by
    refine Nat.eq_zero_of_not_pos fun calling => ?_
    obtain ⟨op, running, passes⟩ := running_of_calls_pos _ calling
    have acknowledging := calls_pos_of_running AcknowledgementOp.acknowledges running (by
      cases op <;> simp_all [AcknowledgementOp.callsTaskDone, AcknowledgementOp.acknowledges])
    omega
  refine ⟨?_, (inv.excused event (.inr finished)).dispatched⟩
  rw [finished, none_calling] at called
  simpa using called

/-- Every event that the pump takes ownership of is acknowledged at most once, never before
the end of its dispatch, and exactly once as soon as the threads that saw the end went on;
the counters agree, and a true `drain` means that nothing is owned or running. -/
theorem acknowledges_exactly_once (reachable : acknowledgementSystem.Reachable world) :
    (∀ event, world.history.count (.taskDone event) ≤ 1) ∧
    (∀ event, Concluded world.history event →
      world.history.count (.taskDone event) = 1 ∨
        ∃ index, world.Finishing event index ∧ (world.run index .proceed).isSome) ∧
    Guarded Acknowledges world.history ∧
    (¬ world.Acknowledging → world.eventsReceived =
      world.eventsAcknowledged + world.acknowledgementFailures + world.currentOwned) ∧
    (world.drained = true → ∀ event < world.eventsReceived,
      world.history.count (.taskDone event) = 1 ∧
        ∀ dispatch, world.dispatches event = some dispatch → dispatch.verdict.isSome) := by
  have counts := reachable_counted reachable
  have inv := reachable_justified reachable
  refine ⟨fun event => ?_, fun event concluded => ?_, inv.guarded, fun quiet => ?_,
    fun drained event => drained_acknowledged counts inv drained⟩
  · have called := counts.called event
    grind -ring -linarith
  · exact (acknowledged_of_concluded counts inv concluded).imp_right
      fun ⟨index, finishing⟩ => ⟨index, finishing, finishing_runs finishing⟩
  · have counted := counts.counted
    have released : calls AcknowledgementOp.releases world.threads = 0 := by
      refine Nat.eq_zero_of_not_pos fun releasing => ?_
      obtain ⟨op, running, passes⟩ := running_of_calls_pos _ releasing
      refine quiet ⟨op, running, ?_⟩
      cases op <;> simp_all [AcknowledgementOp.releases, AcknowledgementOp.acknowledges]
    omega

/-- One event whose dispatch a worker ends, and a pump that stops afterwards. -/
def oneEventRun : List AcknowledgementLabel :=
  [.start true, .run 0 .proceed, .run 0 .proceed, .run 0 .proceed, .run 0 .proceed,
    .run 0 (.receives true), .run 0 .proceed, .run 0 .proceed, .run 0 .proceed,
    .run 0 (.returns none), .run 0 .proceed, .complete 0 (.result .handled), .requestStop,
    .run 1 .proceed, .run 1 .proceed, .run 1 .proceed, .run 1 .proceed, .run 1 .proceed,
    .run 0 .proceed, .run 0 .proceed]

def oneEventWorld : AcknowledgementWorld :=
  (acknowledgementSystem.exec {} oneEventRun).get (by decide +kernel)

theorem acknowledges_exactly_once_one_event :
    oneEventWorld.history.count (.taskDone 0) = 1 ∧
      oneEventWorld.eventsReceived = oneEventWorld.eventsAcknowledged +
        oneEventWorld.acknowledgementFailures + oneEventWorld.currentOwned := by
  have reachable : acknowledgementSystem.Reachable oneEventWorld :=
    .exec (.initial rfl) (Option.some_get _).symm
  obtain ⟨_, _, _, agree, drained⟩ := acknowledges_exactly_once reachable
  refine ⟨(drained (by decide +kernel) 0 (by decide +kernel)).1, agree ?_⟩
  rintro ⟨op, running, _⟩
  exact not_running_idle (by decide +kernel) running

end AcknowledgementWorld

end StreamDockSdk.Runtime
