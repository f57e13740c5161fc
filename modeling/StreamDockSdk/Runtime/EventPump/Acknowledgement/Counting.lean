import StreamDockSdk.Runtime.EventPump.Acknowledgement

namespace StreamDockSdk.Runtime

open Automaton

namespace AcknowledgementWorld

variable {world next after : AcknowledgementWorld} {op : AcknowledgementOp}
variable {ops : List AcknowledgementOp}

/-- The completion of the event has not ended, and has the pump's callback. -/
def waiting (world : AcknowledgementWorld) (event : Nat) : Bool :=
  world.dispatches event == some { verdict := none, observed := true }

/-- An event has one holder from its reception to the mark of `_finish_owned`,
and each mark leads to one call of `task_done`. -/
structure Counted (world : AcknowledgementWorld) : Prop where
  received : world.eventsReceived = world.owned.length
  headed : ∀ stack ∈ world.threads, ∀ op ∈ stack.tail, op.event? = none
  held : ∀ event, calls (AcknowledgementOp.precedesDispatch event) world.threads +
    calls (AcknowledgementOp.followsDispatch event) world.threads +
    calls (AcknowledgementOp.finishes event) world.threads +
    (if world.waiting event then 1 else 0) + (if world.finished event then 1 else 0) =
      if event < world.owned.length then 1 else 0
  called : ∀ event, world.history.count (.taskDone event) +
    calls (AcknowledgementOp.callsTaskDone event) world.threads =
      if world.finished event then 1 else 0
  counted : world.eventsAcknowledged + world.acknowledgementFailures + world.currentOwned =
    world.eventsReceived + calls AcknowledgementOp.releases world.threads
  current : world.currentOwned = world.owned.countP (fun owned => !owned.finished) +
    calls AcknowledgementOp.acknowledges world.threads

theorem finishOwned_finished (event : Nat) (result : Option DispatchOutcome) (other : Nat) :
    (world.finishOwned event result).finished other =
      if other = event ∧ event < world.owned.length then true else world.finished other := by
  simp only [finished, finishOwned]
  by_cases same : other = event
  · subst same
    by_cases present : other < world.owned.length <;> simp [present]
  · rw [List.getElem?_set_ne (Ne.symm same), if_neg (fun both => same both.1)]

theorem accept_waiting (event : Nat) (verdict : Option DispatchVerdict) (other : Nat) :
    (world.accept event verdict).waiting other =
      if other = event then false else world.waiting other := by
  simp only [waiting, accept, Function.update_apply]
  split <;> simp

theorem untouched_waiting (untouched : Untouched world after) (event : Nat) :
    after.waiting event = world.waiting event := by
  simp only [waiting, untouched.dispatches]

theorem untouched_finished (untouched : Untouched world after) (event : Nat) :
    after.finished event = world.finished event := by
  simp only [finished, untouched.owned]

theorem countP_eventless {test : AcknowledgementOp → Bool}
    (about : ∀ op, test op = true → op.event? ≠ none) (idle : ∀ op ∈ ops, op.event? = none) :
    ops.countP test = 0 := by
  rw [List.countP_eq_zero]
  intro op member passes
  exact about op passes (idle op member)

theorem precedesDispatch_event {event : Nat} (precedes : op.precedesDispatch event = true) :
    op.event? = some event := by
  cases op <;> simp_all [AcknowledgementOp.precedesDispatch, AcknowledgementOp.event?]

theorem followsDispatch_event {event : Nat} (follows : op.followsDispatch event = true) :
    op.event? = some event := by
  cases op <;> simp_all [AcknowledgementOp.followsDispatch, AcknowledgementOp.event?]

theorem finishes_event {event : Nat} (finishes : op.finishes event = true) :
    op.event? = some event := by
  cases op <;> simp_all [AcknowledgementOp.finishes, AcknowledgementOp.event?]

theorem callsTaskDone_event {event : Nat} (calls : op.callsTaskDone event = true) :
    op.event? = some event := by
  cases op <;> simp_all [AcknowledgementOp.callsTaskDone, AcknowledgementOp.event?]

theorem acknowledges_event (acknowledges : op.acknowledges = true) : op.event? ≠ none := by
  cases op <;> simp_all [AcknowledgementOp.acknowledges, AcknowledgementOp.event?]

theorem releases_event (releases : op.releases = true) : op.event? ≠ none := by
  cases op <;> simp_all [AcknowledgementOp.releases, AcknowledgementOp.event?]

theorem countP_recordFatal {test : AcknowledgementOp → Bool}
    (about : ∀ op, test op = true → op.event? ≠ none) (fatal : Option FatalError) :
    (fatal.toList.map AcknowledgementOp.recordFatal).countP test = 0 :=
  countP_eventless about (by simp [AcknowledgementOp.event?])

/-- What the pending operations of a kind are after a step, counted. -/
def Shifts (op : AcknowledgementOp) (ops : List AcknowledgementOp)
    (test : AcknowledgementOp → Bool) (before after : Nat) : Prop :=
  after + (if test op then 1 else 0) = before + ops.countP test

theorem Shifts.eventless {test : AcknowledgementOp → Bool} {before moved : Nat}
    (shift : Shifts op ops test before moved) (about : ∀ op, test op = true → op.event? ≠ none)
    (eventless : op.event? = none) (idle : ∀ op ∈ ops, op.event? = none) : moved = before := by
  have untested : test op = false := by
    cases tested : test op with
    | false => rfl
    | true => exact absurd eventless (about op tested)
  simpa only [Shifts, untested, countP_eventless about idle, Bool.false_eq_true, if_false,
    Nat.add_zero] using shift

theorem held_advances {early late final early' late' final' : Nat} (event : Nat)
    (step : OpAdvances world op after ops)
    (earlyShift : Shifts op ops (AcknowledgementOp.precedesDispatch event) early early')
    (lateShift : Shifts op ops (AcknowledgementOp.followsDispatch event) late late')
    (finalShift : Shifts op ops (AcknowledgementOp.finishes event) final final')
    (present : ∀ other, op.finishes other = true → other < world.owned.length)
    (held : early + late + final + (if world.waiting event then 1 else 0) +
      (if world.finished event then 1 else 0) = if event < world.owned.length then 1 else 0)
    (submits : op.precedesDispatch event = true → 0 < early)
    (finishing : op.finishes event = true → 0 < final) :
    early' + late' + final' + (if after.waiting event then 1 else 0) +
      (if after.finished event then 1 else 0) = if event < after.owned.length then 1 else 0 := by
  cases step with
  | idle eventless _ untouched idle =>
      rw [earlyShift.eventless (fun op precedes => by simp [precedesDispatch_event precedes]) eventless idle,
        lateShift.eventless (fun op follows => by simp [followsDispatch_event follows]) eventless idle,
        finalShift.eventless (fun op finishes => by simp [finishes_event finishes]) eventless idle,
        untouched.owned]
      simp only [untouched_waiting untouched, untouched_finished untouched]
      exact held
  | accept other verdict =>
      simp only [Shifts, List.countP_cons, List.countP_nil, AcknowledgementOp.precedesDispatch,
        AcknowledgementOp.followsDispatch, AcknowledgementOp.finishes, beq_iff_eq]
        at earlyShift lateShift finalShift submits
      simp only [accept_waiting]
      change _ + _ + (if world.finished event then 1 else 0) =
        if event < world.owned.length then 1 else 0
      grind -ring -linarith
  | finish other result error unfinished =>
      have within := present other (beq_self_eq_true other)
      simp only [Shifts, List.countP_cons, List.countP_nil, AcknowledgementOp.precedesDispatch,
        AcknowledgementOp.followsDispatch, AcknowledgementOp.finishes, beq_iff_eq]
        at earlyShift lateShift finalShift finishing
      simp only [finishOwned_finished]
      change _ + (if world.waiting event then 1 else 0) + _ =
        if event < (world.owned.set _ _).length then 1 else 0
      rw [List.length_set]
      grind -ring -linarith
  | repeated other result error finished =>
      simp only [Shifts, List.countP_nil, AcknowledgementOp.precedesDispatch,
        AcknowledgementOp.followsDispatch, AcknowledgementOp.finishes, beq_iff_eq]
        at earlyShift lateShift finalShift finishing
      grind -ring -linarith
  | release other fatal =>
      rw [Shifts, countP_recordFatal fun op precedes => by simp [precedesDispatch_event precedes]]
        at earlyShift
      rw [Shifts, countP_recordFatal fun op follows => by simp [followsDispatch_event follows]]
        at lateShift
      rw [Shifts, countP_recordFatal fun op finishes => by simp [finishes_event finishes]]
        at finalShift
      obtain rfl : early' = early := earlyShift
      obtain rfl : late' = late := lateShift
      obtain rfl : final' = final := finalShift
      exact held
  | _ =>
      simp only [Shifts, List.countP_cons, List.countP_nil, AcknowledgementOp.precedesDispatch,
        AcknowledgementOp.followsDispatch, AcknowledgementOp.finishes, beq_iff_eq]
        at earlyShift lateShift finalShift
      simp only [waiting, finished, record, takeOwnership] at held ⊢
      grind -ring -linarith

theorem called_advances {before moved : Nat} (event : Nat) (step : OpAdvances world op after ops)
    (present : ∀ other, op.finishes other = true → other < world.owned.length)
    (shift : Shifts op ops (AcknowledgementOp.callsTaskDone event) before moved)
    (inv : world.history.count (.taskDone event) + before =
      if world.finished event then 1 else 0) :
    after.history.count (.taskDone event) + moved = if after.finished event then 1 else 0 := by
  cases step with
  | idle eventless _ untouched idle =>
      rw [shift.eventless (fun op calls => by simp [callsTaskDone_event calls]) eventless idle,
        untouched_finished untouched, untouched.history]
      exact inv
  | accept other verdict =>
      simp only [Shifts, List.countP_cons, List.countP_nil, AcknowledgementOp.callsTaskDone] at shift
      obtain rfl : moved = before := shift
      have counted : (world.accept other verdict).history.count (.taskDone event) =
          world.history.count (.taskDone event) := by
        simp only [accept]
        split <;> simp
      exact counted ▸ inv
  | finish other result error unfinished =>
      have within := present other (beq_self_eq_true other)
      simp only [Shifts, List.countP_cons, List.countP_nil, AcknowledgementOp.callsTaskDone, beq_iff_eq] at shift
      simp only [finishOwned_finished]
      change world.history.count _ + _ = _
      grind -ring -linarith
  | release other fatal =>
      rw [Shifts, countP_recordFatal fun op calls => by simp [callsTaskDone_event calls]] at shift
      obtain rfl : moved = before := shift
      exact inv
  | _ =>
      simp only [Shifts, List.countP_cons, List.countP_nil, AcknowledgementOp.callsTaskDone, beq_iff_eq] at shift
      simp only [finished, record, takeOwnership, List.count_cons] at inv ⊢
      grind -ring -linarith

theorem counted_advances {before moved : Nat} (step : OpAdvances world op after ops)
    (shift : Shifts op ops AcknowledgementOp.releases before moved)
    (owned : op.acknowledges = true → 0 < world.currentOwned)
    (inv : world.eventsAcknowledged + world.acknowledgementFailures + world.currentOwned =
      world.eventsReceived + before) :
    after.eventsAcknowledged + after.acknowledgementFailures + after.currentOwned =
      after.eventsReceived + moved := by
  cases step with
  | idle eventless _ untouched idle =>
      rw [shift.eventless (fun op releases => releases_event releases) eventless idle,
        untouched.eventsAcknowledged, untouched.acknowledgementFailures, untouched.currentOwned,
        untouched.eventsReceived]
      exact inv
  | release event fatal =>
      have positive := owned rfl
      rw [Shifts, countP_recordFatal fun op releases => releases_event releases] at shift
      simp only [AcknowledgementOp.releases, if_true] at shift
      simp only
      omega
  | _ =>
      simp only [Shifts, List.countP_cons, List.countP_nil, AcknowledgementOp.releases, record,
        takeOwnership, accept, finishOwned] at shift inv ⊢
      grind -ring -linarith

theorem current_advances {before moved : Nat} (step : OpAdvances world op after ops)
    (shift : Shifts op ops AcknowledgementOp.acknowledges before moved)
    (present : ∀ other, op.finishes other = true → other < world.owned.length)
    (owned : op.acknowledges = true → 0 < world.currentOwned)
    (inv : world.currentOwned = world.owned.countP (fun owned => !owned.finished) + before) :
    after.currentOwned = after.owned.countP (fun owned => !owned.finished) + moved := by
  cases step with
  | idle eventless _ untouched idle =>
      rw [shift.eventless (fun op acknowledges => acknowledges_event acknowledges) eventless idle,
        untouched.currentOwned, untouched.owned]
      exact inv
  | own isEvent =>
      simp only [Shifts, List.countP_cons, List.countP_nil, AcknowledgementOp.acknowledges] at shift
      simp only [takeOwnership, List.countP_append, List.countP_cons, List.countP_nil]
      grind -ring -linarith
  | finish event result error unfinished =>
      have within := present event (beq_self_eq_true event)
      simp only [Shifts, List.countP_cons, List.countP_nil, AcknowledgementOp.acknowledges] at shift
      have still : (world.owned[event]).finished = false := by
        simpa [finished, within] using unfinished
      have positive : 0 < world.owned.countP fun owned => !owned.finished :=
        List.countP_pos_iff.mpr ⟨_, List.getElem_mem within, by simp [still]⟩
      simp only [finishOwned, List.countP_set within, still]
      grind -ring -linarith
  | release event fatal =>
      have positive := owned rfl
      rw [Shifts, countP_recordFatal fun op acknowledges => acknowledges_event acknowledges] at shift
      simp only [AcknowledgementOp.acknowledges, if_true] at shift
      simp only
      omega
  | _ =>
      simp only [Shifts, List.countP_cons, List.countP_nil, AcknowledgementOp.acknowledges, record,
        accept] at shift inv ⊢
      grind -ring -linarith

/-- Only the first pending operation of a list can be about an event. -/
theorem advances_tail (step : OpAdvances world op after ops) : ∀ next ∈ ops.tail, next.event? = none := by
  cases step with
  | idle _ _ _ idle => exact fun next member => idle next (List.mem_of_mem_tail member)
  | release event fatal => cases fatal <;> simp
  | _ => simp [AcknowledgementOp.event?]

theorem run_cases {index : Nat} {choice : PumpChoice} (ran : world.run index choice = some after) :
    ∃ op rest, world.threads[index]? = some (op :: rest) ∧
      ((∃ next ops, OpAdvances world op next ops ∧
          after = { next with threads := resume world.threads index (ops ++ rest) }) ∨
        (op.event? = none ∧ ∃ next, Untouched world next ∧
          after = { next with threads := resume world.threads index (world.unwound index) })) := by
  unfold run at ran
  split at ran
  · next op rest found =>
    rw [Option.map_eq_some_iff] at ran
    obtain ⟨⟨next, continuation⟩, advanced, rfl⟩ := ran
    refine ⟨op, rest, found, ?_⟩
    cases continuation with
    | calls ops => exact .inl ⟨next, ops, advance_calls advanced, rfl⟩
    | unwinds =>
        obtain ⟨eventless, untouched⟩ := advance_unwinds advanced
        exact .inr ⟨eventless, next, untouched, rfl⟩
  · contradiction

theorem unwound_eventless (index : Nat) : ∀ op ∈ world.unwound index, op.event? = none := by
  unfold unwound
  split <;> simp [AcknowledgementOp.event?]

theorem shifts_resume {index : Nat} {rest : List AcknowledgementOp}
    (found : world.threads[index]? = some (op :: rest)) (test : AcknowledgementOp → Bool) :
    Shifts op ops test (calls test world.threads)
      (calls test (resume world.threads index (ops ++ rest))) :=
  calls_resume test ops found

/-- An exception ends no operation that is about an event. -/
theorem calls_unwound {index : Nat} {rest : List AcknowledgementOp} (inv : Counted world)
    (found : world.threads[index]? = some (op :: rest)) (eventless : op.event? = none)
    {test : AcknowledgementOp → Bool} (about : ∀ op, test op = true → op.event? ≠ none) :
    calls test (resume world.threads index (world.unwound index)) = calls test world.threads := by
  have replaced := calls_replace test (world.unwound index) found
  have idle : ∀ next ∈ op :: rest, next.event? = none := by
    intro next member
    rcases List.mem_cons.mp member with rfl | later
    · exact eventless
    · exact inv.headed _ (List.mem_of_getElem? found) next later
  rw [countP_eventless about idle, countP_eventless about (unwound_eventless index)] at replaced
  exact replaced

theorem headed_resume (inv : Counted world) {index : Nat} {stack : List AcknowledgementOp}
    (eventless : ∀ next ∈ stack.tail, next.event? = none) :
    ∀ other ∈ resume world.threads index stack, ∀ next ∈ other.tail, next.event? = none := by
  intro other member
  rcases List.mem_or_eq_of_mem_set member with kept | rfl
  · exact inv.headed other kept
  · exact eventless

theorem counted_run (inv : Counted world) {index : Nat} {rest : List AcknowledgementOp}
    (found : world.threads[index]? = some (op :: rest)) (step : OpAdvances world op next ops) :
    Counted { next with threads := resume world.threads index (ops ++ rest) } := by
  have shift := @shifts_resume _ _ ops _ _ found
  have present : ∀ event, op.finishes event = true → event < world.owned.length := by
    intro event finishes
    have holder := calls_pos (AcknowledgementOp.finishes event) found finishes
    have held := inv.held event
    grind -ring -linarith
  have owned : op.acknowledges = true → 0 < world.currentOwned := by
    intro acknowledges
    have holder := calls_pos AcknowledgementOp.acknowledges found acknowledges
    have current := inv.current
    omega
  refine ⟨?_, headed_resume inv ?_, fun event => ?_, fun event => ?_, ?_, ?_⟩
  · have received := inv.received
    cases step with
    | idle _ _ untouched _ =>
        simp only [untouched.eventsReceived, untouched.owned]
        exact received
    | own => simp [takeOwnership, received]
    | finish => simpa [finishOwned] using received
    | _ => exact received
  · intro later member
    have rest_eventless := inv.headed _ (List.mem_of_getElem? found)
    cases ops with
    | nil => exact rest_eventless later (List.mem_of_mem_tail member)
    | cons first others =>
        rcases List.mem_append.mp member with new | old
        · exact advances_tail step later new
        · exact rest_eventless later old
  · have kept := held_advances event step (shift _) (shift _) (shift _) present (inv.held event)
      (calls_pos _ found) (calls_pos _ found)
    exact kept
  · have kept := called_advances event step present (shift _) (inv.called event)
    exact kept
  · have kept := counted_advances step (shift _) owned inv.counted
    exact kept
  · have kept := current_advances step (shift _) present owned inv.current
    exact kept

/-- A step that is about no event, and leaves the pending operations of every kind. -/
theorem counted_untouched (inv : Counted world) (untouched : Untouched world after)
    (headed : ∀ stack ∈ after.threads, ∀ op ∈ stack.tail, op.event? = none)
    (same : ∀ test : AcknowledgementOp → Bool, (∀ op, test op = true → op.event? ≠ none) →
      calls test after.threads = calls test world.threads) : Counted after where
  received := by
    simp only [untouched.eventsReceived, untouched.owned]
    exact inv.received
  headed := headed
  held event := by
    have held := inv.held event
    rw [← same _ fun op precedes => by simp [precedesDispatch_event precedes],
      ← same _ fun op follows => by simp [followsDispatch_event follows],
      ← same _ fun op finishes => by simp [finishes_event finishes],
      ← untouched.owned] at held
    simp only [← untouched_waiting untouched, ← untouched_finished untouched] at held
    exact held
  called event := by
    have called := inv.called event
    rw [← same _ fun op calls => by simp [callsTaskDone_event calls], ← untouched.history] at called
    simp only [← untouched_finished untouched] at called
    exact called
  counted := by
    have counted := inv.counted
    rw [← same _ fun op releases => releases_event releases, ← untouched.eventsAcknowledged,
      ← untouched.acknowledgementFailures, ← untouched.currentOwned, ← untouched.eventsReceived] at counted
    exact counted
  current := by
    have current := inv.current
    rw [← same _ fun op acknowledges => acknowledges_event acknowledges, ← untouched.currentOwned,
      ← untouched.owned] at current
    exact current

theorem complete_cases {event : Nat} {verdict : DispatchVerdict}
    (completed : world.complete event verdict = some after) :
    ∃ observed, world.dispatches event = some { verdict := none, observed := observed } ∧
      after = world.settle event verdict observed := by
  unfold complete at completed
  split at completed
  · next observed found =>
    cases completed
    exact ⟨observed, found, rfl⟩
  · contradiction

theorem settle_waiting (event : Nat) (verdict : DispatchVerdict) (observed : Bool) (other : Nat) :
    (world.settle event verdict observed).waiting other =
      if other = event then false else world.waiting other := by
  simp only [waiting, settle, Function.update_apply]
  split <;> simp

theorem settle_calls (event : Nat) (verdict : DispatchVerdict) (observed : Bool)
    (test : AcknowledgementOp → Bool) :
    calls test (world.settle event verdict observed).threads =
      calls test world.threads + if observed && test (.onDispatchDone event) then 1 else 0 := by
  cases observed <;> simp [settle, List.countP_cons]

theorem settle_headed (inv : Counted world) (event : Nat) (verdict : DispatchVerdict)
    (observed : Bool) : ∀ stack ∈ (world.settle event verdict observed).threads,
      ∀ op ∈ stack.tail, op.event? = none := by
  intro stack member
  simp only [settle] at member
  split at member
  · rcases List.mem_append.mp member with old | new
    · exact inv.headed stack old
    · simp_all
  · exact inv.headed stack member

theorem counted_settle {event : Nat} {observed : Bool} (inv : Counted world)
    (found : world.dispatches event = some { verdict := none, observed := observed })
    (verdict : DispatchVerdict) : Counted (world.settle event verdict observed) where
  received := inv.received
  headed := settle_headed inv event verdict observed
  held other := by
    have held := inv.held other
    have waited : world.waiting event = observed := by
      cases observed <;> simp [waiting, found]
    simp only [settle_calls, settle_waiting, AcknowledgementOp.precedesDispatch,
      AcknowledgementOp.followsDispatch, AcknowledgementOp.finishes]
    change _ + _ + (if world.finished other then 1 else 0) =
      if other < world.owned.length then 1 else 0
    grind -ring -linarith
  called other := by
    have counted : (world.settle event verdict observed).history.count (.taskDone other) =
        world.history.count (.taskDone other) := by
      simp [settle]
    rw [settle_calls, counted]
    simp only [AcknowledgementOp.callsTaskDone, Bool.and_false, Bool.false_eq_true, if_false]
    exact inv.called other
  counted := by
    rw [settle_calls]
    simpa [settle, AcknowledgementOp.releases] using inv.counted
  current := by
    rw [settle_calls]
    simpa [settle, AcknowledgementOp.acknowledges] using inv.current

theorem counted_step {label : AcknowledgementLabel} (inv : Counted world)
    (stepped : world.step label = some after) : Counted after := by
  cases label with
  | start starts =>
      simp only [step, start] at stepped
      split at stepped <;> cases stepped
      refine counted_untouched inv ⟨rfl, rfl, rfl, rfl, rfl, rfl, rfl⟩ ?_ ?_
      · intro stack member
        rcases List.mem_append.mp member with old | new
        · exact inv.headed stack old
        · simp_all
      · intro test about
        rw [calls_append, countP_eventless about (by simp [AcknowledgementOp.event?]), Nat.add_zero]
  | requestStop =>
      cases stepped
      exact { inv with }
  | complete event verdict =>
      obtain ⟨observed, found, rfl⟩ := complete_cases stepped
      exact counted_settle inv found verdict
  | run index choice =>
      obtain ⟨op, rest, found, ⟨next, ops, step, rfl⟩ | ⟨eventless, next, untouched, rfl⟩⟩ :=
        run_cases stepped
      · exact counted_run inv found step
      · refine counted_untouched inv { untouched with } (headed_resume inv fun later member => ?_) ?_
        · exact unwound_eventless index later (List.mem_of_mem_tail member)
        · intro test about
          exact calls_unwound inv found eventless about

end AcknowledgementWorld

end StreamDockSdk.Runtime
