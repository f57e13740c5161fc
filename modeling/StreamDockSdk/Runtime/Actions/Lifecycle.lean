import StreamDockSdk.Runtime.Actions.Effects

namespace StreamDockSdk.Runtime

open Automaton
open DefaultActionContextManager

/-- The callbacks of an action, newest first, from its appearance on. -/
def Opened (calls : List CallbackName) : Prop :=
  ∃ between, calls = between ++ [.onWillAppear] ∧ ∀ call ∈ between, call.brackets = false

/-- The same, up to its disappearance. -/
def Closed (calls : List CallbackName) : Prop :=
  ∃ earlier, calls = .onWillDisappear :: earlier ∧ Opened earlier

theorem Opened.first : Opened [.onWillAppear] := ⟨[], rfl, List.forall_mem_nil _⟩

theorem Opened.cons {calls : List CallbackName} {call : CallbackName} (opened : Opened calls)
    (plain : call.brackets = false) : Opened (call :: calls) := by
  obtain ⟨between, rfl, others⟩ := opened
  exact ⟨call :: between, rfl, List.forall_mem_cons.mpr ⟨plain, others⟩⟩

theorem Opened.open {calls : List CallbackName} (opened : Opened calls) : ¬ Closed calls := by
  rintro ⟨earlier, rfl, -⟩
  obtain ⟨between, same, others⟩ := opened
  cases between with
  | nil => cases same
  | cons call between =>
      cases same
      exact absurd (others _ List.mem_cons_self) (by decide)

theorem not_closed_nil : ¬ Closed [] := by
  rintro ⟨earlier, same, -⟩
  cases same

def ReleasePc.due : ReleasePc → List ActionObject
  | .releasing rest | .awaiting rest => rest
  | .idle | .finished => []

namespace ActionsWorld

variable {world after : ActionsWorld} {label : ActionsLabel}

/-- The actions that are still to get their `on_will_disappear`. -/
def due (world : ActionsWorld) : List ActionObject :=
  world.contexts.snapshot ++ world.dispatches.flatMap (·.pc.due) ++ world.release.due

/-- The action is retained and its `on_will_appear` comes next. -/
def Appearing (world : ActionsWorld) (object : ActionObject) : Prop :=
  ∃ dispatch ∈ world.dispatches, dispatch.pc = .invoking .appearing object

/-- No dispatch runs beside one that the scheduler must not have active with it. -/
def Exclusive (world : ActionsWorld) : Prop :=
  ∀ (index other : Nat) (dispatch beside : RoutedDispatch), index ≠ other →
    world.dispatches[index]? = some dispatch → world.dispatches[other]? = some beside →
    dispatch.pc.isEnded = false → beside.pc.isEnded = false →
    apart dispatch.event beside.event = true

/-- Where the dispatches and the release are. -/
structure Placed (world : ActionsWorld) : Prop where
  keyed : world.contexts.Keyed
  exclusive : world.Exclusive
  fits : ∀ dispatch ∈ world.dispatches, dispatch.pc.Fits dispatch.event
  holds : ∀ dispatch ∈ world.dispatches, dispatch.pc.Holds world.contexts dispatch.event
  released : world.release ≠ .idle → world.idle = true ∧ world.contexts.actions = []
  counted : world.contexts.metrics.actionInstancesCreated =
    world.contexts.metrics.actionsRemoved + world.contexts.actions.length

/-- What was called of every action. -/
structure Traced (world : ActionsWorld) : Prop where
  distinct : (world.due.map (·.context)).Nodup
  retained : ∀ object ∈ world.due, object ∈ world.retained
  opened : ∀ object ∈ world.due, Opened (world.callsOf object) ∨ world.Appearing object
  unheard : ∀ object, world.Appearing object → world.callsOf object = []
  closed : ∀ object ∈ world.retained, object ∉ world.due → Closed (world.callsOf object)
  silent : ∀ object, object ∉ world.retained → world.callsOf object = []

/-- The factory returns a new action. -/
def NewActions (world : ActionsWorld) (label : ActionsLabel) : Prop :=
  ∀ index object, label = .advance index (.creates (.action object)) → object ∉ world.retained

theorem flatMap_set_perm {α β : Type*} (collect : α → List β) {list : List α} {index : Nat}
    {old : α} (new : α) (found : list[index]? = some old) :
    ((list.set index new).flatMap collect ++ collect old).Perm
      (list.flatMap collect ++ collect new) := by
  induction list generalizing index with
  | nil => contradiction
  | cons head tail ih =>
      cases index with
      | zero =>
          cases Option.some.inj found
          simp only [List.set_cons_zero, List.flatMap_cons]
          rw [List.append_assoc, List.append_assoc]
          exact (List.perm_append_comm_assoc _ _ _).trans
            ((@List.perm_append_comm _ (collect new) _).append_left _ |>.trans (by
              rw [← List.append_assoc, ← List.append_assoc]
              exact List.perm_append_comm.append_right _))
      | succ index =>
          simp only [List.set_cons_succ, List.flatMap_cons, List.append_assoc]
          exact (ih found).append_left _

theorem Exclusive.others_ended (exclusive : world.Exclusive) {index other : Nat}
    {dispatch beside : RoutedDispatch} (found : world.dispatches[index]? = some dispatch)
    (running : dispatch.pc.isEnded = false) (barrier : isGlobalBarrier dispatch.event = true)
    (located : world.dispatches[other]? = some beside) (different : index ≠ other) :
    beside.pc.isEnded = true := by
  by_contra running_
  have together := exclusive index other dispatch beside different found located running
    (Bool.eq_false_iff.mpr running_)
  simp [apart, scheduledContext?, barrier] at together

theorem mem_set_or {α : Type*} {list : List α} {index : Nat} {old value : α} (new : α)
    (found : list[index]? = some old) (member : value ∈ list) :
    value = old ∨ value ∈ list.set index new := by
  obtain ⟨place, located⟩ := List.mem_iff_getElem?.mp member
  by_cases same : place = index
  · subst same
    exact .inl (Option.some.inj (located.symm.trans found))
  · refine .inr (List.mem_iff_getElem?.mpr ⟨place, ?_⟩)
    rw [List.getElem?_set_ne (Ne.symm same), located]

theorem mem_new_set {α : Type*} {list : List α} {index : Nat} {old : α} (new : α)
    (found : list[index]? = some old) : new ∈ list.set index new :=
  List.mem_set (List.getElem?_eq_some_iff.mp found).1 new

section Traces

variable {object : ActionObject}

theorem callsOf_same (calls : after.calls = world.calls) (object : ActionObject) :
    after.callsOf object = world.callsOf object := by
  rw [callsOf, callsOf, calls]

theorem callsOf_cons {call : CallbackName} (calls : after.calls = (object, call) :: world.calls)
    (other : ActionObject) :
    after.callsOf other =
      if object = other then call :: world.callsOf other else world.callsOf other := by
  unfold callsOf
  rw [calls, List.filter_cons]
  by_cases same : object = other <;> simp [same]

theorem Traced.same (traced : world.Traced) (due : after.due.Perm world.due)
    (calls : after.calls = world.calls) (retained : after.retained = world.retained)
    (appearing : ∀ object, after.Appearing object ↔ world.Appearing object) : after.Traced where
  distinct := (due.map _).nodup_iff.mpr traced.distinct
  retained object member := retained ▸ traced.retained object (due.mem_iff.mp member)
  opened object member := by
    rw [callsOf_same calls, appearing]
    exact traced.opened object (due.mem_iff.mp member)
  unheard object appears := by
    rw [callsOf_same calls]
    exact traced.unheard object ((appearing object).mp appears)
  closed object member absent := by
    rw [callsOf_same calls]
    exact traced.closed object (retained ▸ member) fun there => absent (due.mem_iff.mpr there)
  silent object absent := by
    rw [callsOf_same calls]
    exact traced.silent object fun there => absent (retained ▸ there)

/-- A new action is retained. -/
theorem Traced.retain (traced : world.Traced) (object : ActionObject)
    (due : after.due.Perm (object :: world.due))
    (calls : after.calls = world.calls) (retained : after.retained = object :: world.retained)
    (appearing : ∀ other, after.Appearing other ↔ other = object ∨ world.Appearing other)
    (new : object ∉ world.retained)
    (free : ∀ other ∈ world.due, other.context ≠ object.context) : after.Traced where
  distinct := by
    refine (due.map _).nodup_iff.mpr (List.nodup_cons.mpr ⟨fun member => ?_, traced.distinct⟩)
    obtain ⟨other, there, same⟩ := List.mem_map.mp member
    exact free other there same
  retained other member := by
    rw [retained]
    exact (List.mem_cons.mp (due.mem_iff.mp member)).elim (fun same => same ▸ List.mem_cons_self)
      fun there => List.mem_cons_of_mem _ (traced.retained other there)
  opened other member := by
    rw [callsOf_same calls, appearing]
    rcases List.mem_cons.mp (due.mem_iff.mp member) with same | there
    · exact .inr (.inl same)
    · exact (traced.opened other there).imp_right .inr
  unheard other appears := by
    rw [callsOf_same calls]
    rcases (appearing other).mp appears with rfl | earlier
    · exact traced.silent other new
    · exact traced.unheard other earlier
  closed other member absent := by
    rw [callsOf_same calls]
    rw [retained] at member
    rcases List.mem_cons.mp member with rfl | there
    · exact absurd (due.mem_iff.mpr List.mem_cons_self) absent
    · exact traced.closed other there fun earlier =>
        absent (due.mem_iff.mpr (List.mem_cons_of_mem _ earlier))
  silent other absent := by
    rw [callsOf_same calls]
    exact traced.silent other fun there => absent (retained ▸ List.mem_cons_of_mem _ there)

/-- The `on_will_appear` of the action that was retained last. -/
theorem Traced.appear (traced : world.Traced) (due : after.due.Perm world.due)
    (calls : after.calls = (object, .onWillAppear) :: world.calls)
    (retained : after.retained = world.retained) (appears : world.Appearing object)
    (alone : ∀ other, world.Appearing other → other = object)
    (isOver : ∀ other, ¬ after.Appearing other) (member : object ∈ world.due) : after.Traced where
  distinct := (due.map _).nodup_iff.mpr traced.distinct
  retained other member := retained ▸ traced.retained other (due.mem_iff.mp member)
  opened other there := by
    refine .inl ?_
    rw [callsOf_cons calls]
    split
    · next same =>
      subst same
      rw [traced.unheard object appears]
      exact .first
    · next different =>
      exact (traced.opened other (due.mem_iff.mp there)).resolve_right fun earlier =>
        different (alone other earlier).symm
  unheard other appears := absurd appears (isOver other)
  closed other there absent := by
    have different : object ≠ other := by
      rintro rfl
      exact absent (due.mem_iff.mpr member)
    rw [callsOf_cons calls, if_neg different]
    exact traced.closed other (retained ▸ there) fun earlier => absent (due.mem_iff.mpr earlier)
  silent other absent := by
    have different : object ≠ other := by
      rintro rfl
      exact absent (retained ▸ traced.retained object member)
    rw [callsOf_cons calls, if_neg different]
    exact traced.silent other fun there => absent (retained ▸ there)

/-- A callback between the first and the last. -/
theorem Traced.between (traced : world.Traced) {call : CallbackName}
    (plain : call.brackets = false) (due : after.due.Perm world.due)
    (calls : after.calls = (object, call) :: world.calls)
    (retained : after.retained = world.retained)
    (appearing : ∀ other, after.Appearing other ↔ world.Appearing other)
    (member : object ∈ world.due) (appeared : ¬ world.Appearing object) : after.Traced where
  distinct := (due.map _).nodup_iff.mpr traced.distinct
  retained other member := retained ▸ traced.retained other (due.mem_iff.mp member)
  opened other there := by
    rw [callsOf_cons calls, appearing]
    split
    · next same =>
      subst same
      exact .inl (((traced.opened object member).resolve_right appeared).cons plain)
    · exact traced.opened other (due.mem_iff.mp there)
  unheard other appears := by
    have earlier := (appearing other).mp appears
    have different : object ≠ other := fun same => appeared (same ▸ earlier)
    rw [callsOf_cons calls, if_neg different]
    exact traced.unheard other earlier
  closed other there absent := by
    have different : object ≠ other := by
      rintro rfl
      exact absent (due.mem_iff.mpr member)
    rw [callsOf_cons calls, if_neg different]
    exact traced.closed other (retained ▸ there) fun earlier => absent (due.mem_iff.mpr earlier)
  silent other absent := by
    have different : object ≠ other := by
      rintro rfl
      exact absent (retained ▸ traced.retained object member)
    rw [callsOf_cons calls, if_neg different]
    exact traced.silent other fun there => absent (retained ▸ there)

/-- The `on_will_disappear` of an action that was removed. -/
theorem Traced.disappear (traced : world.Traced) (due : (object :: after.due).Perm world.due)
    (calls : after.calls = (object, .onWillDisappear) :: world.calls)
    (retained : after.retained = world.retained)
    (appearing : ∀ other, after.Appearing other ↔ world.Appearing other)
    (appeared : ¬ world.Appearing object) : after.Traced := by
  have distinct := (due.map (·.context)).nodup_iff.mpr traced.distinct
  rw [List.map_cons, List.nodup_cons] at distinct
  have member : object ∈ world.due := due.mem_iff.mp List.mem_cons_self
  have kept {other : ActionObject} (there : other ∈ after.due) : other ∈ world.due :=
    due.mem_iff.mp (List.mem_cons_of_mem _ there)
  refine ⟨distinct.2, fun other there => retained ▸ traced.retained other (kept there),
    fun other there => ?_, fun other appears => ?_, fun other there absent => ?_,
    fun other absent => ?_⟩
  · have different : object ≠ other := by
      rintro rfl
      exact distinct.1 (List.mem_map.mpr ⟨object, there, rfl⟩)
    rw [callsOf_cons calls, if_neg different, appearing]
    exact traced.opened other (kept there)
  · have earlier := (appearing other).mp appears
    have different : object ≠ other := fun same => appeared (same ▸ earlier)
    rw [callsOf_cons calls, if_neg different]
    exact traced.unheard other earlier
  · rw [callsOf_cons calls]
    split
    · next same =>
      subst same
      exact ⟨_, rfl, (traced.opened object member).resolve_right appeared⟩
    · next different =>
      refine traced.closed other (retained ▸ there) fun earlier => absent ?_
      exact (List.mem_cons.mp (due.mem_iff.mpr earlier)).resolve_left (Ne.symm different)
  · have different : object ≠ other := by
      rintro rfl
      exact absent (retained ▸ traced.retained object member)
    rw [callsOf_cons calls, if_neg different]
    exact traced.silent other fun there => absent (retained ▸ there)

end Traces

section Places

variable {index : Nat} {dispatch : RoutedDispatch} {move : DispatchMove} {next : DispatchAdvance}

theorem located_set {event : StreamDockEvent} {pc : DispatchPc} {other : Nat} {beside : RoutedDispatch}
    (located : (world.dispatches.set index { event, pc })[other]? = some beside) :
    (other = index ∧ beside = { event, pc }) ∨
      (other ≠ index ∧ world.dispatches[other]? = some beside) := by
  by_cases same : other = index
  · subst same
    rw [List.getElem?_set_self'] at located
    obtain ⟨_, -, rfl⟩ := Option.map_eq_some_iff.mp located
    exact .inl ⟨rfl, rfl⟩
  · rw [List.getElem?_set_ne (Ne.symm same)] at located
    exact .inr ⟨same, located⟩

theorem Exclusive.advance (exclusive : world.Exclusive)
    (found : world.dispatches[index]? = some dispatch) (running : dispatch.pc.isEnded = false) :
    (world.advanced index dispatch.event next).Exclusive := by
  intro place other first second different here there active beside
  rcases located_set here with ⟨rfl, rfl⟩ | ⟨-, kept⟩ <;>
    rcases located_set there with ⟨rfl, rfl⟩ | ⟨-, keptToo⟩
  · exact absurd rfl different
  · exact exclusive place other dispatch second different found keptToo running beside
  · exact exclusive place other first dispatch different kept found active running
  · exact exclusive place other first second different kept keptToo active beside

/-- A dispatch that changes the manager is a barrier. -/
theorem barrier_of_fits {event : StreamDockEvent} {pc : DispatchPc} (fits : pc.Fits event)
    (place : pc = .creating ∨ pc = .removing ∨ ∃ object, pc = .rollback object) :
    isGlobalBarrier event = true := by
  rcases place with rfl | rfl | ⟨object, rfl⟩ <;> obtain ⟨appearance, rfl⟩ := fits <;> rfl

theorem Placed.idle_release (placed : world.Placed)
    (found : world.dispatches[index]? = some dispatch) (running : dispatch.pc.isEnded = false) :
    world.release = .idle := by
  by_contra begun
  have ended := (placed.released begun).1
  rw [idle, List.all_eq_true] at ended
  rw [ended dispatch (List.mem_of_getElem? found)] at running
  contradiction

/-- The other dispatches rely on nothing while a barrier is active. -/
theorem Placed.others_hold (placed : world.Placed)
    (found : world.dispatches[index]? = some dispatch) (running : dispatch.pc.isEnded = false)
    (barrier : isGlobalBarrier dispatch.event = true) (contexts : DefaultActionContextManager)
    {other : Nat} (different : other ≠ index) {beside : RoutedDispatch}
    (located : world.dispatches[other]? = some beside) :
    beside.pc.Holds contexts beside.event :=
  .ended (placed.exclusive.others_ended found running barrier located (Ne.symm different))

theorem Placed.advance (placed : world.Placed) {event : StreamDockEvent} {pc : DispatchPc}
    (found : world.dispatches[index]? = some { event, pc }) (running : pc.isEnded = false)
    (effect : DispatchEffect world.contexts event pc move next) :
    (world.advanced index event next).Placed := by
  have fitsHere : pc.Fits event := placed.fits _ (List.mem_of_getElem? found)
  have holdsHere : pc.Holds world.contexts event := placed.holds _ (List.mem_of_getElem? found)
  have keyed := placed.keyed
  have holdsAll (mine : next.pc.Holds next.contexts event)
      (others : ∀ other ≠ index, ∀ beside, world.dispatches[other]? = some beside →
        beside.pc.Holds next.contexts beside.event) :
      ∀ beside ∈ (world.advanced index event next).dispatches,
        beside.pc.Holds next.contexts beside.event := by
    intro beside member
    obtain ⟨place, located⟩ := List.mem_iff_getElem?.mp member
    rcases located_set located with ⟨-, rfl⟩ | ⟨elsewhere, there⟩
    · exact mine
    · exact others place elsewhere beside there
  refine ⟨?_, placed.exclusive.advance found running, fun beside member => ?_, ?_,
    fun begun => absurd (placed.idle_release found running) begun, ?_⟩
  · cases effect with
    | retain object missing named => exact keyed.retain missing
    | remove stage object metrics place found created removed => exact keyed.filter _ _
    | call stage object => exact keyed
    | calm quiet same fits holds settled unseen =>
        exact ⟨same.actions ▸ keyed.keys, same.actions ▸ keyed.distinct⟩
  · rcases List.mem_or_eq_of_mem_set member with kept | rfl
    · exact placed.fits beside kept
    · exact effect.fits fitsHere
  · cases effect with
    | retain object missing named =>
        have barrier := barrier_of_fits fitsHere (.inl rfl)
        refine holdsAll ⟨?_, named⟩ fun other different beside located =>
          placed.others_hold found running barrier _ different located
        simp [retain, snapshot]
    | remove stage object metrics place found_ created removed =>
        have barrier : isGlobalBarrier event = true := by
          refine barrier_of_fits fitsHere (.inr ?_)
          exact place.imp (·.1) fun there => ⟨object, there.1⟩
        refine holdsAll ?_ fun other different beside located =>
          placed.others_hold found running barrier _ different located
        rcases place with ⟨-, rfl⟩ | ⟨-, rfl⟩ <;> trivial
    | call stage object =>
        exact holdsAll holdsHere fun other different beside located =>
          placed.holds beside (List.mem_of_getElem? located)
    | calm quiet same fits holds settled unseen =>
        exact holdsAll (holds.same same) fun other different beside located =>
          (placed.holds beside (List.mem_of_getElem? located)).same same
  · have counted := placed.counted
    cases effect with
    | retain object missing named =>
        simp only [advanced, retain, List.length_append, List.length_singleton]
        omega
    | remove stage object metrics place found created removed =>
        have length := (keyed.split found).length_eq
        simp only [List.length_cons] at length
        simp only [advanced, created, removed]
        omega
    | call stage object => exact counted
    | calm quiet same fits holds settled unseen =>
        simpa only [advanced, same.actions, same.created, same.removed] using counted

end Places

section Advance

variable {index : Nat} {event : StreamDockEvent} {pc : DispatchPc} {move : DispatchMove}
  {next : DispatchAdvance}

variable (next) in
theorem due_advanced (found : world.dispatches[index]? = some { event, pc }) :
    ((world.advanced index event next).due ++ pc.due).Perm
      (next.contexts.snapshot ++ world.dispatches.flatMap (·.pc.due) ++ world.release.due ++
        next.pc.due) := by
  have moved := flatMap_set_perm (fun dispatch : RoutedDispatch => dispatch.pc.due)
    { event, pc := next.pc } found
  refine List.perm_iff_count.mpr fun object => ?_
  have counted := moved.count_eq object
  simp only [List.count_append] at counted
  simp only [due, advanced, List.count_append]
  omega

theorem appearing_advanced (found : world.dispatches[index]? = some { event, pc })
    (leaves : ∀ object, pc ≠ .invoking .appearing object) (object : ActionObject) :
    (world.advanced index event next).Appearing object ↔
      next.pc = .invoking .appearing object ∨ world.Appearing object := by
  constructor
  · rintro ⟨dispatch, member, place⟩
    rcases List.mem_or_eq_of_mem_set member with kept | rfl
    · exact .inr ⟨dispatch, kept, place⟩
    · exact .inl place
  · rintro (place | ⟨dispatch, member, place⟩)
    · exact ⟨_, mem_new_set _ found, place⟩
    · rcases mem_set_or { event, pc := next.pc } found member with rfl | kept
      · exact absurd place (leaves object)
      · exact ⟨dispatch, kept, place⟩

/-- A dispatch that runs is the one that an action appears in. -/
theorem Placed.not_appearing (placed : world.Placed)
    (found : world.dispatches[index]? = some { event, pc }) (running : pc.isEnded = false)
    (object : ActionObject) (differs : pc ≠ .invoking .appearing object) :
    ¬ world.Appearing object := by
  rintro ⟨dispatch, member, place⟩
  obtain ⟨other, located⟩ := List.mem_iff_getElem?.mp member
  have fits := placed.fits dispatch member
  rw [place] at fits
  obtain ⟨appearance, named⟩ := fits
  by_cases same : other = index
  · subst same
    rw [located] at found
    cases found
    exact differs place
  · have isOver := placed.exclusive.others_ended located (by rw [place]; rfl) (by rw [named]; rfl)
      found same
    rw [running] at isOver
    contradiction

theorem Traced.call (traced : world.Traced) (placed : world.Placed) {stage : DispatchStage}
    {object : ActionObject}
    (found : world.dispatches[index]? = some { event, pc := .invoking stage object })
    (after_ : (world.advanced index event {
      contexts := world.contexts, pc := .awaiting stage object
      call := some (object, stage.callback event) }).Placed) :
    (world.advanced index event {
      contexts := world.contexts, pc := .awaiting stage object
      call := some (object, stage.callback event) }).Traced := by
  have fits : stage.Fits event := placed.fits _ (List.mem_of_getElem? found)
  have holds : stage.Holds world.contexts event object :=
    placed.holds _ (List.mem_of_getElem? found)
  have due : ((world.advanced index event {
      contexts := world.contexts, pc := .awaiting stage object
      call := some (object, stage.callback event) }).due ++
        (DispatchPc.invoking stage object).due).Perm world.due := by
    refine (due_advanced _ found).trans (.of_eq ?_)
    exact List.append_nil _
  have isOver (other : ActionObject) := after_.not_appearing
    (List.getElem?_set_self (List.getElem?_eq_some_iff.mp found).1) rfl other (by simp)
  have snapshot (member : object ∈ world.contexts.snapshot) : object ∈ world.due :=
    List.mem_append_left _ (List.mem_append_left _ member)
  have elsewhere (differs : stage ≠ .appearing) (other : ActionObject) :
      ¬ world.Appearing other :=
    placed.not_appearing found rfl other (by rintro same; cases same; exact differs rfl)
  have between (plain : (stage.callback event).brackets = false) (settled : stage ≠ .rollingBack)
      (settledToo : stage ≠ .disappearing) (differs : stage ≠ .appearing)
      (member : object ∈ world.contexts.snapshot) :
      (world.advanced index event {
        contexts := world.contexts, pc := .awaiting stage object
        call := some (object, stage.callback event) }).Traced := by
    refine traced.between plain ?_ rfl rfl (fun other => iff_of_false (isOver other)
      (elsewhere differs other)) (snapshot member) (elsewhere differs object)
    cases stage with
    | rollingBack => exact absurd rfl settled
    | disappearing => exact absurd rfl settledToo
    | _ => simpa only [DispatchPc.due, List.append_nil] using due
  cases stage with
  | appearing =>
      obtain ⟨appearance, rfl⟩ := fits
      refine traced.appear (by simpa only [DispatchPc.due, List.append_nil] using due) rfl rfl
        ⟨_, List.mem_of_getElem? found, rfl⟩ (fun other appears => ?_) isOver (snapshot holds.1)
      by_contra different
      exact placed.not_appearing found rfl _
        (by rintro same; cases same; exact different rfl) appears
  | rollingBack =>
      refine traced.disappear ?_ rfl rfl (fun other => iff_of_false (isOver other)
        (elsewhere (by simp) other)) (elsewhere (by simp) object)
      exact List.perm_append_comm.trans due
  | disappearing =>
      obtain ⟨appearance, rfl⟩ := fits
      refine traced.disappear ?_ rfl rfl (fun other => iff_of_false (isOver other)
        (elsewhere (by simp) other)) (elsewhere (by simp) object)
      exact List.perm_append_comm.trans due
  | replaying => exact between rfl (by simp) (by simp) (by simp) holds.1
  | updating | titling => exact between rfl (by simp) (by simp) (by simp) holds
  | current => exact between fits (by simp) (by simp) (by simp) holds
  | broadcasting rest failed => exact between fits (by simp) (by simp) (by simp) holds.1

theorem Traced.advance (traced : world.Traced) (placed : world.Placed)
    (found : world.dispatches[index]? = some { event, pc }) (running : pc.isEnded = false)
    (effect : DispatchEffect world.contexts event pc move next)
    (new : ∀ object, move = .creates (.action object) → object ∉ world.retained) :
    (world.advanced index event next).Traced := by
  have placedAfter := placed.advance found running effect
  have due := due_advanced next found
  have idle := placed.idle_release found running
  cases effect with
  | retain object missing named =>
      have fits : DispatchPc.creating.Fits event := placed.fits _ (List.mem_of_getElem? found)
      have barrier := barrier_of_fits fits (.inl rfl)
      refine traced.retain object ?_ rfl rfl (fun other => ?_) (new object rfl)
        fun other member same => ?_
      · refine List.perm_iff_count.mpr fun other => ?_
        have counted := due.count_eq other
        have nothing : DispatchPc.creating.due = [] := rfl
        have nothingToo : (DispatchPc.invoking .appearing object).due = [] := rfl
        have snapshot : (world.contexts.retain object.context object).snapshot =
            world.contexts.snapshot ++ [object] := List.map_append
        rw [nothing, nothingToo, snapshot] at counted
        simp only [List.count_append, List.count_nil, List.count_singleton] at counted
        simp only [ActionsWorld.due, List.count_cons, List.count_append] at counted ⊢
        omega
      · rw [appearing_advanced found nofun]
        exact or_congr_left ⟨fun same => (DispatchPc.invoking.inj same).2.symm,
          fun same => same ▸ rfl⟩
      · rcases List.mem_append.mp member with inside | released
        · rcases List.mem_append.mp inside with kept | pending
          · obtain ⟨entry, there, rfl⟩ := List.mem_map.mp kept
            exact absent_of_get missing entry there ((placed.keyed.keys entry there).symm.trans same)
          · obtain ⟨beside, there, waits⟩ := List.mem_flatMap.mp pending
            obtain ⟨place, located⟩ := List.mem_iff_getElem?.mp there
            by_cases here : place = index
            · subst here
              rw [located] at found
              cases found
              contradiction
            · have ended := placed.exclusive.others_ended found running barrier located
                (Ne.symm here)
              obtain ⟨_, place_⟩ := beside
              cases place_ <;> contradiction
        · rw [idle] at released
          contradiction
  | remove stage object metrics place found_ created removed =>
      have leaves (other : ActionObject) : pc ≠ .invoking .appearing other := by
        rcases place with ⟨rfl, -⟩ | ⟨rfl, -⟩ <;> nofun
      have arrives (other : ActionObject) :
          DispatchPc.invoking stage object ≠ .invoking .appearing other := by
        rcases place with ⟨-, rfl⟩ | ⟨-, rfl⟩ <;> nofun
      refine traced.same ?_ rfl rfl fun other => ?_
      · have split := ((placed.keyed.split found_).map (·.2)).count_eq
        have nothing : pc.due = [] := by
          rcases place with ⟨rfl, -⟩ | ⟨rfl, -⟩ <;> rfl
        have pending : (DispatchPc.invoking stage object).due = [object] := by
          rcases place with ⟨-, rfl⟩ | ⟨-, rfl⟩ <;> rfl
        refine List.perm_iff_count.mpr fun other => ?_
        have counted := due.count_eq other
        have whole := split other
        rw [nothing, pending] at counted
        simp only [DefaultActionContextManager.snapshot, List.map_cons, List.count_cons,
          List.count_append, List.count_nil] at counted whole
        simp only [ActionsWorld.due, DefaultActionContextManager.snapshot,
          List.count_append] at counted ⊢
        omega
      · rw [appearing_advanced found leaves]
        exact or_iff_right (arrives other)
  | call stage object => exact traced.call placed found placedAfter
  | calm quiet same fits holds settled unseen =>
      refine traced.same ?_ rfl rfl fun other => ?_
      · have nothing : pc.due = [] := by
          cases pc <;> first | rfl | contradiction
        rw [nothing, settled, List.append_nil, List.append_nil, same.snapshot] at due
        exact due
      · rw [appearing_advanced found (by rintro object rfl; contradiction)]
        exact or_iff_right (unseen other)

end Advance

/-- The dispatches and the traces of a run. -/
structure LifecycleSound (world : ActionsWorld) : Prop where
  placed : world.Placed
  traced : world.Traced

theorem apart_comm (first second : StreamDockEvent) : apart first second = apart second first := by
  unfold apart
  cases scheduledContext? first <;> cases scheduledContext? second <;> simp [ne_comm]

theorem dispatch_sound (sound : world.LifecycleSound) {event : StreamDockEvent}
    (permitted : world.mayDispatch event = true) :
    { world with dispatches := world.dispatches ++ [RoutedDispatch.mk event .routing] }.LifecycleSound := by
  simp only [mayDispatch, Bool.and_eq_true, decide_eq_true_eq, List.all_eq_true,
    Bool.or_eq_true] at permitted
  obtain ⟨unreleased, free⟩ := permitted
  obtain ⟨placed, traced⟩ := sound
  constructor
  · refine ⟨placed.keyed, fun index other first second different here there active beside => ?_,
      fun dispatch member => ?_, fun dispatch member => ?_, fun begun => absurd unreleased begun,
      placed.counted⟩
    · have split {place : Nat} {dispatch : RoutedDispatch}
          (located : (world.dispatches ++ [RoutedDispatch.mk event .routing])[place]? = some dispatch) :
          world.dispatches[place]? = some dispatch ∨
            (place = world.dispatches.length ∧ dispatch = { event }) := by
        rw [List.getElem?_append] at located
        split at located
        · exact .inl located
        · next beyond =>
          rw [List.getElem?_singleton] at located
          split at located
          · next last => exact .inr ⟨by omega, (Option.some.inj located).symm⟩
          · contradiction
      have permits {dispatch : RoutedDispatch} (member : dispatch ∈ world.dispatches)
          (running : dispatch.pc.isEnded = false) : apart dispatch.event event = true :=
        (free dispatch member).resolve_left (by rw [running]; decide)
      rcases split here with kept | ⟨rfl, rfl⟩ <;> rcases split there with keptToo | ⟨rfl, rfl⟩
      · exact placed.exclusive index other first second different kept keptToo active beside
      · exact permits (List.mem_of_getElem? kept) active
      · rw [apart_comm]
        exact permits (List.mem_of_getElem? keptToo) beside
      · exact absurd rfl different
    · rcases List.mem_append.mp member with kept | fresh
      · exact placed.fits dispatch kept
      · rw [List.mem_singleton.mp fresh]
        trivial
    · rcases List.mem_append.mp member with kept | fresh
      · exact placed.holds dispatch kept
      · rw [List.mem_singleton.mp fresh]
        trivial
  · refine traced.same (.of_eq ?_) rfl rfl fun object => ⟨?_, ?_⟩
    · simp [due, List.flatMap_append, DispatchPc.due]
    · rintro ⟨dispatch, member, place⟩
      rcases List.mem_append.mp member with kept | fresh
      · exact ⟨dispatch, kept, place⟩
      · rw [List.mem_singleton.mp fresh] at place
        contradiction
    · rintro ⟨dispatch, member, place⟩
      exact ⟨dispatch, List.mem_append_left _ member, place⟩

theorem idle_not_appearing (idle : world.idle = true) (object : ActionObject) :
    ¬ world.Appearing object := by
  rintro ⟨dispatch, member, place⟩
  have ended := List.all_eq_true.mp idle dispatch member
  rw [place] at ended
  contradiction

theorem idle_due (idle : world.idle = true) :
    world.dispatches.flatMap (·.pc.due) = [] := by
  refine List.flatMap_eq_nil_iff.mpr fun dispatch member => ?_
  have ended := List.all_eq_true.mp idle dispatch member
  cases place : dispatch.pc with
  | ended reply => rfl
  | _ =>
      rw [place] at ended
      contradiction

/-- The step changes the release only. -/
theorem Placed.frame (placed : world.Placed) (begun : world.release ≠ .idle)
    (contexts : after.contexts = world.contexts) (dispatches : after.dispatches = world.dispatches) :
    after.Placed where
  keyed := contexts ▸ placed.keyed
  exclusive := by
    have exclusive := placed.exclusive
    rwa [Exclusive, ← dispatches] at exclusive
  fits := dispatches ▸ placed.fits
  holds := by
    rw [contexts, dispatches]
    exact placed.holds
  released _ := by
    rw [idle, contexts, dispatches]
    exact placed.released begun
  counted := by
    rw [contexts]
    exact placed.counted

theorem releaseStep_sound (sound : world.LifecycleSound) {move : DispatchMove}
    (stepped : world.releaseStep world.release move = some after) : after.LifecycleSound := by
  obtain ⟨placed, traced⟩ := sound
  have same (dispatches : after.dispatches = world.dispatches) (object : ActionObject) :
      after.Appearing object ↔ world.Appearing object := by
    rw [Appearing, Appearing, dispatches]
  unfold releaseStep at stepped
  split at stepped
  · next unreleased =>
    split at stepped
    · next idle =>
      cases stepped
      constructor
      · refine ⟨⟨List.forall_mem_nil _, List.nodup_nil⟩, placed.exclusive, placed.fits,
          fun dispatch member => .ended (List.all_eq_true.mp idle dispatch member),
          fun _ => ⟨idle, rfl⟩, ?_⟩
        have counted := placed.counted
        simp only [clear, List.length_nil]
        omega
      · refine traced.same (.of_eq ?_) rfl rfl (same rfl)
        have idle_ := idle_due idle
        simp only [due, clear, DefaultActionContextManager.snapshot, List.map_nil, ReleasePc.due,
          unreleased, idle_, List.nil_append, List.append_nil]
    · contradiction
  · next begun =>
    cases stepped
    exact ⟨placed.frame (by rw [begun]; nofun) rfl rfl,
      traced.same (.of_eq (by simp only [due, begun, ReleasePc.due])) rfl rfl (same rfl)⟩
  · next object rest begun =>
    cases stepped
    have idle := (placed.released (by rw [begun]; nofun)).1
    refine ⟨placed.frame (by rw [begun]; nofun) rfl rfl,
      traced.disappear ?_ rfl rfl (same rfl) (idle_not_appearing idle object)⟩
    refine List.perm_iff_count.mpr fun other => ?_
    simp only [due, begun, ReleasePc.due, List.count_cons, List.count_append]
    omega
  · next rest begun =>
    cases stepped
    exact ⟨placed.frame (by rw [begun]; nofun) rfl rfl,
      traced.same (.of_eq (by simp only [due, begun, ReleasePc.due])) rfl rfl (same rfl)⟩
  · next rest begun =>
    cases stepped
    exact ⟨placed.frame (by rw [begun]; nofun) rfl rfl,
      traced.same (.of_eq (by simp only [due, begun, ReleasePc.due])) rfl rfl (same rfl)⟩
  · next rest begun =>
    cases stepped
    exact ⟨placed.frame (by rw [begun]; nofun) rfl rfl,
      traced.same (.of_eq (by simp only [due, begun, ReleasePc.due])) rfl rfl (same rfl)⟩
  · contradiction

theorem LifecycleSound.step (sound : world.LifecycleSound) (new : world.NewActions label)
    (stepped : world.step label = some after) : after.LifecycleSound := by
  cases label with
  | dispatch event =>
      simp only [ActionsWorld.step] at stepped
      split at stepped
      · next permitted =>
        cases stepped
        exact dispatch_sound sound permitted
      · contradiction
  | advance index move =>
      simp only [ActionsWorld.step] at stepped
      split at stepped
      · contradiction
      · next dispatch found =>
        obtain ⟨next, advanced, rfl⟩ := Option.map_eq_some_iff.mp stepped
        obtain ⟨placed, traced⟩ := sound
        have member := List.mem_of_getElem? found
        have effect := advanceDispatch_effect placed.keyed (placed.fits dispatch member)
          (placed.holds dispatch member) advanced
        have running := advanceDispatch_running advanced
        refine ⟨placed.advance found running effect,
          traced.advance placed found running effect fun object same => ?_⟩
        exact new index object (same ▸ rfl)
  | release move => exact releaseStep_sound sound stepped

theorem lifecycleSound (reachable : actionsSystem.ReachableBy NewActions world) :
    world.LifecycleSound := by
  refine reachable.invariant ?_ fun _ _ _ new sound stepped => sound.step new stepped
  rintro first rfl
  have settled : ({} : ActionsWorld).due = [] := rfl
  have unseen (object : ActionObject) : ¬ ({} : ActionsWorld).Appearing object := by
    rintro ⟨dispatch, member, -⟩
    exact List.not_mem_nil member
  constructor
  · refine ⟨⟨List.forall_mem_nil _, List.nodup_nil⟩, fun index other first second _ here => ?_,
      List.forall_mem_nil _, List.forall_mem_nil _, fun begun => absurd rfl begun, rfl⟩
    exact absurd (List.mem_of_getElem? here) List.not_mem_nil
  · refine ⟨settled ▸ List.nodup_nil, settled ▸ List.forall_mem_nil _,
      settled ▸ List.forall_mem_nil _, fun object appears => absurd appears (unseen object),
      List.forall_mem_nil _, fun _ _ => rfl⟩

/-- Every action that was retained first gets `on_will_appear`, and `on_will_disappear` once
and last; after the release it has got both. -/
theorem action_lifecycle (reachable : actionsSystem.ReachableBy NewActions world) :
    (∀ object ∈ world.retained, world.callsOf object = [] ∨ Opened (world.callsOf object) ∨
      Closed (world.callsOf object)) ∧
    (∀ object, object ∉ world.retained → world.callsOf object = []) ∧
    (∀ object ∈ world.retained, world.release = .finished → Closed (world.callsOf object)) ∧
    (∀ object ∈ world.contexts.snapshot, object ∈ world.retained ∧
      ¬ Closed (world.callsOf object)) ∧
    (∀ object ∈ world.retained, ∀ other ∈ world.retained, object.context = other.context →
      ¬ Closed (world.callsOf object) → ¬ Closed (world.callsOf other) → object = other) ∧
    (world.contexts.actions.map (·.1)).Nodup ∧
    (world.contexts.metrics.actionInstancesCreated : Int) - world.contexts.metrics.actionsRemoved =
      world.contexts.snapshot.length := by
  obtain ⟨placed, traced⟩ := lifecycleSound reachable
  have open_ {object : ActionObject} (member : object ∈ world.due) :
      world.callsOf object = [] ∨ Opened (world.callsOf object) :=
    (traced.opened object member).symm.imp_left (traced.unheard object)
  have due_of_open {object : ActionObject} (member : object ∈ world.retained)
      (unclosed : ¬ Closed (world.callsOf object)) : object ∈ world.due := by
    by_contra absent
    exact unclosed (traced.closed object member absent)
  refine ⟨fun object member => ?_, traced.silent, fun object member finished => ?_,
    fun object member => ?_, fun object member other there same unclosed unclosedToo => ?_,
    placed.keyed.distinct, ?_⟩
  · by_cases there : object ∈ world.due
    · exact (open_ there).imp_right .inl
    · exact .inr (.inr (traced.closed object member there))
  · obtain ⟨idle, empty⟩ := placed.released (by rw [finished]; nofun)
    refine traced.closed object member ?_
    simp [due, idle_due idle, DefaultActionContextManager.snapshot, empty, finished, ReleasePc.due]
  · have there : object ∈ world.due :=
      List.mem_append_left _ (List.mem_append_left _ member)
    refine ⟨traced.retained object there, ?_⟩
    rcases open_ there with silent | opened
    · rw [silent]
      exact not_closed_nil
    · exact opened.open
  · exact List.inj_on_of_nodup_map traced.distinct (due_of_open member unclosed)
      (due_of_open there unclosedToo) same
  · have counted := placed.counted
    rw [DefaultActionContextManager.snapshot, List.length_map]
    omega

/-- `on_will_appear` and the replay of one action; a key event of it, and the failed appearance
of another. -/
def lifecycleRun (first second : AppearanceEvent) (pressed : KeyEvent) : List ActionsLabel :=
  [.dispatch (.willAppear first), .advance 0 .proceed,
    .advance 0 (.creates (.action ⟨0, first.action, first.context⟩)), .advance 0 .proceed,
    .advance 0 .returns, .advance 0 (.replays true), .advance 0 .proceed, .advance 0 .fails,
    .dispatch (.keyDown pressed), .advance 1 .proceed, .advance 1 .proceed, .advance 1 .proceed,
    .advance 1 .escapes, .dispatch (.willAppear second), .advance 2 .proceed,
    .advance 2 (.creates (.action ⟨1, second.action, second.context⟩)), .advance 2 .proceed,
    .advance 2 .fails, .advance 2 .proceed, .advance 2 .proceed, .advance 2 .returns,
    .release .proceed, .release .proceed, .release .escapes, .release .proceed]

def sampleAppearance (context : Nat) : AppearanceEvent where
  action := ⟨[]⟩
  context := ⟨List.replicate context 97⟩
  device := ⟨[]⟩
  settings := []
  coordinates := ⟨0, 0⟩
  controller := .keypad
  isInMultiAction := false
  state := none

def sampleKey : KeyEvent :=
  { (sampleAppearance 0).toActionPayloadEvent with
    isInMultiAction := false, controller := none, state := none, userDesiredState := none }

/-- The factory's new actions, decided. -/
def newActions (world : ActionsWorld) : ActionsLabel → Bool
  | .advance _ (.creates (.action object)) => object ∉ world.retained
  | _ => true

theorem newActions_of (holds : world.newActions label = true) : world.NewActions label := by
  rintro index object rfl
  simpa [newActions] using holds

def releasedWorld : ActionsWorld :=
  ((actionsSystem.restrict newActions).exec {}
    (lifecycleRun (sampleAppearance 0) (sampleAppearance 1) sampleKey)).get (by decide +kernel)

theorem releasedWorld_reachable : actionsSystem.ReachableBy NewActions releasedWorld :=
  have reachable : (actionsSystem.restrict newActions).Reachable releasedWorld :=
    System.Reachable.exec (.initial rfl) (Option.some_get _).symm
  reachable.restricted.weaken fun _ _ => newActions_of

theorem action_lifecycle_run :
    releasedWorld.release = .finished ∧
      releasedWorld.callsOf ⟨0, ⟨[]⟩, ⟨[]⟩⟩ =
        [.onWillDisappear, .onKeyDown, .onDidReceiveGlobalSettings, .onWillAppear] ∧
      releasedWorld.callsOf ⟨1, ⟨[]⟩, ⟨[97]⟩⟩ = [.onWillDisappear, .onWillAppear] ∧
      (∀ object ∈ releasedWorld.retained, Closed (releasedWorld.callsOf object)) :=
  ⟨by decide +kernel, by decide +kernel, by decide +kernel, fun object member =>
    (action_lifecycle releasedWorld_reachable).2.2.1 object member (by decide +kernel)⟩

end ActionsWorld

end StreamDockSdk.Runtime
