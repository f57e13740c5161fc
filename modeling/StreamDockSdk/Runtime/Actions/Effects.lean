import StreamDockSdk.Runtime.Actions
import Mathlib.Data.List.Perm.Basic
import Mathlib.Data.List.Perm.Lattice

namespace StreamDockSdk.Runtime

namespace DefaultActionContextManager

variable {contexts : DefaultActionContextManager} {context : Str} {object : ActionObject}

/-- Every action is kept once, under its own context. -/
structure Keyed (contexts : DefaultActionContextManager) : Prop where
  keys : ∀ entry ∈ contexts.actions, entry.2.context = entry.1
  distinct : (contexts.actions.map (·.1)).Nodup

theorem mem_of_get (found : contexts.get context = some object) :
    (context, object) ∈ contexts.actions := by
  obtain ⟨⟨key, value⟩, located, rfl⟩ := Option.map_eq_some_iff.mp found
  have same := List.find?_some located
  simp only [decide_eq_true_eq] at same
  subst same
  exact List.mem_of_find?_eq_some located

theorem mem_snapshot_of_get (found : contexts.get context = some object) :
    object ∈ contexts.snapshot :=
  List.mem_map.mpr ⟨_, mem_of_get found, rfl⟩

theorem absent_of_get (missing : contexts.get context = none) :
    ∀ entry ∈ contexts.actions, entry.1 ≠ context := by
  intro entry member same
  have none := Option.map_eq_none_iff.mp missing
  have differs := List.find?_eq_none.mp none entry member
  simp [same] at differs

theorem Keyed.context_of_get (keyed : contexts.Keyed) (found : contexts.get context = some object) :
    object.context = context :=
  keyed.keys _ (mem_of_get found)

theorem Keyed.get_of_mem (keyed : contexts.Keyed) (member : object ∈ contexts.snapshot) :
    contexts.get object.context = some object := by
  obtain ⟨⟨key, value⟩, entry, rfl⟩ := List.mem_map.mp member
  have here : value.context = key := keyed.keys _ entry
  cases found : contexts.get value.context with
  | none => exact absurd here.symm (absent_of_get found _ entry)
  | some other =>
      have there := mem_of_get found
      rw [here] at there
      have same := List.inj_on_of_nodup_map keyed.distinct there entry rfl
      rw [(Prod.mk.inj same).2]

/-- The entry of a context, and all others. -/
theorem Keyed.split (keyed : contexts.Keyed) (found : contexts.get context = some object) :
    contexts.actions.Perm
      ((context, object) :: contexts.actions.filter (·.1 ≠ context)) := by
  have member := mem_of_get found
  have distinct := keyed.distinct
  generalize contexts.actions = actions at member distinct
  induction actions with
  | nil => contradiction
  | cons entry rest ih =>
      rw [List.map_cons, List.nodup_cons] at distinct
      rcases List.mem_cons.mp member with rfl | inside
      · have others : rest.filter (·.1 ≠ context) = rest := by
          refine List.filter_eq_self.mpr fun other among => ?_
          have differs : other.1 ≠ context := fun same =>
            distinct.1 (List.mem_map.mpr ⟨other, among, same⟩)
          simpa using differs
        rw [List.filter_cons_of_neg (by simp), others]
      · have differs : entry.1 ≠ context := fun same =>
          distinct.1 (List.mem_map.mpr ⟨_, inside, same.symm⟩)
        rw [List.filter_cons_of_pos (by simpa using differs)]
        exact ((ih inside distinct.2).cons entry).trans (.swap _ _ _)

theorem Keyed.filter (keyed : contexts.Keyed) (keep : Str × ActionObject → Bool)
    (metrics : ActionContextMetrics) :
    Keyed { actions := contexts.actions.filter keep, metrics } where
  keys entry member := keyed.keys entry (List.mem_filter.mp member).1
  distinct := keyed.distinct.sublist (List.filter_sublist.map _)

theorem Keyed.retain (keyed : contexts.Keyed) (missing : contexts.get object.context = none) :
    (contexts.retain object.context object).Keyed where
  keys entry member := by
    rcases List.mem_append.mp member with kept | fresh
    · exact keyed.keys entry kept
    · rw [List.mem_singleton.mp fresh]
  distinct := by
    rw [DefaultActionContextManager.retain, List.map_append, List.nodup_append]
    refine ⟨keyed.distinct, List.nodup_singleton _, fun key kept other fresh same => ?_⟩
    obtain ⟨entry, member, rfl⟩ := List.mem_map.mp kept
    rw [List.map_singleton, List.mem_singleton] at fresh
    exact absent_of_get missing entry member (same.trans fresh)

/-- The actions are the same, and as many were created and removed. -/
structure SameActions (before after : DefaultActionContextManager) : Prop where
  actions : after.actions = before.actions
  created : after.metrics.actionInstancesCreated = before.metrics.actionInstancesCreated
  removed : after.metrics.actionsRemoved = before.metrics.actionsRemoved

theorem SameActions.refl (contexts : DefaultActionContextManager) : SameActions contexts contexts :=
  ⟨rfl, rfl, rfl⟩

theorem SameActions.snapshot {before after : DefaultActionContextManager}
    (same : SameActions before after) : after.snapshot = before.snapshot :=
  congrArg (List.map _) same.actions

end DefaultActionContextManager

open DefaultActionContextManager

/-- The first and the last callback of an action. -/
def CallbackName.brackets : CallbackName → Bool
  | .onWillAppear | .onWillDisappear => true
  | _ => false

/-- The events that reach a stage. -/
def DispatchStage.Fits (event : StreamDockEvent) : DispatchStage → Prop
  | .appearing | .rollingBack | .replaying => ∃ appearance, event = .willAppear appearance
  | .disappearing => ∃ appearance, event = .willDisappear appearance
  | .updating | .titling | .current => (routeCallback event).brackets = false
  | .broadcasting _ _ => (routeCallback event).brackets = false

def DispatchPc.Fits (event : StreamDockEvent) : DispatchPc → Prop
  | .creating | .rollback _ | .replayEvent _ => ∃ appearance, event = .willAppear appearance
  | .removing => ∃ appearance, event = .willDisappear appearance
  | .getting | .snapshotting _ | .broadcasting _ _ => (routeCallback event).brackets = false
  | .invoking stage _ | .awaiting stage _ => stage.Fits event
  | .routing | .receiving | .callingPlugin | .ended _ => True

/-- The actions that a dispatch has removed and still has to tell. -/
def DispatchPc.due : DispatchPc → List ActionObject
  | .invoking .rollingBack object | .invoking .disappearing object => [object]
  | _ => []

/-- The actions that a stage relies on. -/
def DispatchStage.Holds (contexts : DefaultActionContextManager) (event : StreamDockEvent)
    (object : ActionObject) : DispatchStage → Prop
  | .appearing | .replaying =>
      object ∈ contexts.snapshot ∧ event.actionContext? = some object.context
  | .updating | .titling | .current => object ∈ contexts.snapshot
  | .broadcasting rest _ => object ∈ contexts.snapshot ∧ ∀ other ∈ rest, other ∈ contexts.snapshot
  | .rollingBack | .disappearing => True

def DispatchPc.Holds (contexts : DefaultActionContextManager) (event : StreamDockEvent) :
    DispatchPc → Prop
  | .rollback object | .replayEvent object =>
      object ∈ contexts.snapshot ∧ event.actionContext? = some object.context
  | .broadcasting rest _ => ∀ other ∈ rest, other ∈ contexts.snapshot
  | .invoking stage object | .awaiting stage object => stage.Holds contexts event object
  | .routing | .receiving | .callingPlugin | .creating | .removing | .getting | .snapshotting _
  | .ended _ => True

theorem DispatchPc.Holds.same {before after : DefaultActionContextManager}
    {event : StreamDockEvent} {pc : DispatchPc} (holds : pc.Holds before event)
    (same : SameActions before after) : pc.Holds after event := by
  unfold DispatchPc.Holds DispatchStage.Holds at holds ⊢
  rw [same.snapshot]
  exact holds

/-- A position at which the next step begins no callback. -/
def DispatchPc.isQuiet : DispatchPc → Bool
  | .invoking _ _ => false
  | _ => true

inductive DispatchEffect (contexts : DefaultActionContextManager) (event : StreamDockEvent) :
    DispatchPc → DispatchMove → DispatchAdvance → Prop where
  | retain (object : ActionObject) (missing : contexts.get object.context = none)
      (named : event.actionContext? = some object.context) :
      DispatchEffect contexts event .creating (.creates (.action object)) {
        contexts := contexts.retain object.context object
        pc := .invoking .appearing object, retained := some object }
  | remove {pc : DispatchPc} {move : DispatchMove} (stage : DispatchStage) (object : ActionObject)
      (metrics : ActionContextMetrics)
      (place : pc = .removing ∧ stage = .disappearing ∨
        pc = .rollback object ∧ stage = .rollingBack)
      (found : contexts.get object.context = some object)
      (created : metrics.actionInstancesCreated = contexts.metrics.actionInstancesCreated)
      (removed : metrics.actionsRemoved = contexts.metrics.actionsRemoved + 1) :
      DispatchEffect contexts event pc move {
        contexts :=
          { actions := contexts.actions.filter (·.1 ≠ object.context), metrics }
        pc := .invoking stage object }
  | call (stage : DispatchStage) (object : ActionObject) :
      DispatchEffect contexts event (.invoking stage object) .proceed {
        contexts, pc := .awaiting stage object, call := some (object, stage.callback event) }
  | calm {pc next : DispatchPc} {move : DispatchMove} {after : DefaultActionContextManager}
      (quiet : pc.isQuiet = true) (same : SameActions contexts after)
      (fits : next.Fits event) (holds : next.Holds contexts event) (settled : next.due = [])
      (unseen : ∀ object, next ≠ .invoking .appearing object) :
      DispatchEffect contexts event pc move { contexts := after, pc := next }

section Steps

variable {contexts : DefaultActionContextManager} {event : StreamDockEvent} {pc : DispatchPc}
  {move : DispatchMove} {next : DispatchAdvance}

/-- The dispatch ends, and the actions are the same. -/
theorem DispatchEffect.end_ (pc : DispatchPc) (quiet : pc.isQuiet = true) {after : DefaultActionContextManager}
    (same : SameActions contexts after) (reply : DispatchReply) :
    DispatchEffect contexts event pc move { contexts := after, pc := .ended reply } :=
  .calm quiet same trivial trivial rfl nofun

theorem enterDispatch_effect :
    DispatchEffect contexts event .routing move { contexts, pc := enterDispatch event } := by
  refine .calm rfl (.refl _) ?_ ?_ ?_ ?_ <;>
    cases event <;> simp [enterDispatch, routeFor?, RuntimeEventRoute.ofAction,
      RuntimeEventRoute.ofBroadcast, DispatchPc.Fits, DispatchPc.Holds, DispatchPc.due,
      routeCallback, CallbackName.brackets]

theorem afterPlugin_effect {failed : Bool} :
    DispatchEffect contexts event .callingPlugin move
      { contexts, pc := afterPlugin event failed } := by
  refine .calm rfl (.refl _) ?_ ?_ ?_ ?_ <;>
    cases event <;> simp [afterPlugin, routeFor?, RuntimeEventRoute.ofAction,
      RuntimeEventRoute.ofBroadcast, DispatchPc.Fits, DispatchPc.Holds, DispatchPc.due,
      routeCallback, CallbackName.brackets]

theorem createStep_effect {target : ActionEvent} (located : event.actionEvent? = some target)
    {result : FactoryResult} :
    DispatchEffect contexts event .creating (.creates result)
      (createStep contexts target result) := by
  unfold createStep create
  cases found : contexts.get target.context with
  | some object =>
      refine .end_ .creating rfl ?_ _
      exact ⟨rfl, rfl, rfl⟩
  | none =>
      simp only [Option.isSome_none, Bool.false_eq_true, if_false]
      cases result with
      | unknown =>
          refine .end_ .creating rfl ?_ _
          exact ⟨rfl, rfl, rfl⟩
      | raises | escapes => exact .end_ .creating rfl (.refl _) _
      | action object =>
          dsimp only
          by_cases mismatch : object.action ≠ target.action ∨ object.context ≠ target.context
          · rw [if_pos mismatch]
            exact .end_ .creating rfl (.refl _) _
          · rw [if_neg mismatch]
            push Not at mismatch
            have named : event.actionContext? = some object.context := by
              rw [StreamDockEvent.actionContext?, located, Option.map_some, mismatch.2]
            rw [← mismatch.2] at found ⊢
            exact .retain object found named

theorem remove_removed {object : ActionObject}
    {expected : Option ActionObject} (found : contexts.get object.context = some object)
    (guarded : expected = none ∨ expected = some object) :
    contexts.remove object.context expected = (
      { actions := contexts.actions.filter (·.1 ≠ object.context)
        metrics := { contexts.metrics with
          actionsRemoved := contexts.metrics.actionsRemoved + 1 } }, some object) := by
  unfold DefaultActionContextManager.remove
  rw [found]
  dsimp only
  rw [if_neg]
  rcases guarded with rfl | rfl <;> simp

theorem removeStep_effect (keyed : contexts.Keyed) {target : ActionEvent} :
    DispatchEffect contexts event .removing move (removeStep contexts target) := by
  unfold removeStep
  cases found : contexts.get target.context with
  | none =>
      have nothing : contexts.remove target.context none = (contexts, none) := by
        rw [DefaultActionContextManager.remove, found]
      rw [nothing]
      refine .end_ .removing rfl ?_ _
      exact ⟨rfl, rfl, rfl⟩
  | some object =>
      have same := keyed.context_of_get found
      rw [← same] at found ⊢
      rw [remove_removed found (.inl rfl)]
      exact .remove .disappearing object _ (.inl ⟨rfl, rfl⟩) found rfl rfl

theorem getStep_effect (fits : (routeCallback event).brackets = false) {target : ActionEvent} :
    DispatchEffect contexts event .getting move (getStep contexts event target) := by
  unfold getStep
  cases found : contexts.get target.context with
  | none =>
      refine .end_ .getting rfl ?_ _
      exact ⟨rfl, rfl, rfl⟩
  | some object =>
      have member := mem_snapshot_of_get found
      have stage : currentStage event = .updating ∨ currentStage event = .titling ∨
          currentStage event = .current := by
        unfold currentStage
        split
        · split <;> simp
        · simp
      refine .calm rfl (.refl _) ?_ ?_ ?_ ?_ <;>
        rcases stage with stage | stage | stage <;>
        simp [stage, DispatchPc.Fits, DispatchStage.Fits, DispatchPc.Holds, DispatchStage.Holds,
          DispatchPc.due, fits, member]

theorem rollbackStep_effect (keyed : contexts.Keyed) {target : ActionEvent} {object : ActionObject}
    (member : object ∈ contexts.snapshot) (context : target.context = object.context) :
    DispatchEffect contexts event (.rollback object) move
      (rollbackStep contexts target object) := by
  unfold rollbackStep
  rw [context, remove_removed (keyed.get_of_mem member) (.inr rfl)]
  exact .remove .rollingBack object _ (.inr ⟨rfl, rfl⟩) (keyed.get_of_mem member) rfl rfl

theorem countCallback_same (stage : DispatchStage) (failed : Bool) :
    SameActions contexts
      { contexts with metrics := countCallback contexts.metrics failed stage } := by
  refine ⟨rfl, ?_, ?_⟩ <;> cases stage <;> cases failed <;> rfl

theorem endCallback_effect {stage : DispatchStage} {object : ActionObject} {failed : Bool}
    (fits : stage.Fits event) (holds : stage.Holds contexts event object) :
    DispatchEffect contexts event (.awaiting stage object) move
      (endCallback contexts stage object failed) := by
  have same := @countCallback_same contexts stage failed
  have calm (next : DispatchPc) (fits : next.Fits event) (holds : next.Holds contexts event)
      (settled : next.due = []) (unseen : ∀ other, next ≠ .invoking .appearing other) :
      DispatchEffect contexts event (.awaiting stage object) move {
        contexts := { contexts with metrics := countCallback contexts.metrics failed stage }
        pc := next } :=
    .calm rfl same fits holds settled unseen
  cases stage with
  | rollingBack | replaying | disappearing | current => exact calm (.ended _) trivial trivial rfl nofun
  | appearing =>
      cases failed
      · exact calm (.replayEvent object) fits holds rfl nofun
      · exact calm (.rollback object) fits holds rfl nofun
  | updating | titling =>
      cases failed
      · exact calm (.invoking .current object) fits holds rfl nofun
      · exact calm (.ended _) trivial trivial rfl nofun
  | broadcasting rest earlier =>
      exact calm (.broadcasting rest (earlier || failed)) fits holds.2 rfl nofun

theorem advanceDispatch_effect (keyed : contexts.Keyed) (fits : pc.Fits event)
    (holds : pc.Holds contexts event)
    (advanced : advanceDispatch contexts event pc move = some next) :
    DispatchEffect contexts event pc move next := by
  unfold advanceDispatch at advanced
  split at advanced
  · cases advanced
    exact enterDispatch_effect
  · cases advanced
    exact .calm rfl ⟨rfl, rfl, rfl⟩ trivial trivial rfl nofun
  · cases advanced
    exact .end_ _ rfl (.refl _) _
  · cases advanced
    exact afterPlugin_effect
  · cases advanced
    exact afterPlugin_effect
  · cases advanced
    exact .end_ _ rfl (.refl _) _
  · obtain ⟨target, located, rfl⟩ := Option.map_eq_some_iff.mp advanced
    exact createStep_effect located
  · obtain ⟨target, -, rfl⟩ := Option.map_eq_some_iff.mp advanced
    exact removeStep_effect keyed
  · obtain ⟨target, -, rfl⟩ := Option.map_eq_some_iff.mp advanced
    exact getStep_effect fits
  · obtain ⟨target, located, rfl⟩ := Option.map_eq_some_iff.mp advanced
    have named := holds.2
    rw [StreamDockEvent.actionContext?, located] at named
    exact rollbackStep_effect keyed holds.1 (Option.some.inj named)
  · cases advanced
    exact .calm rfl ⟨rfl, rfl, rfl⟩ fits holds rfl nofun
  · cases advanced
    exact .end_ _ rfl (.refl _) _
  · cases advanced
    exact .end_ _ rfl (.refl _) _
  · cases advanced
    exact .calm rfl ⟨rfl, rfl, rfl⟩ fits (fun _ member => member) rfl nofun
  · cases advanced
    exact .end_ _ rfl (.refl _) _
  · cases advanced
    exact .calm rfl (.refl _) fits (List.forall_mem_cons.mp holds) rfl nofun
  · cases advanced
    exact .end_ _ rfl (.refl _) _
  · cases advanced
    exact .call _ _
  · cases advanced
    exact endCallback_effect fits holds
  · cases advanced
    exact endCallback_effect fits holds
  · cases advanced
    exact .end_ _ rfl (.refl _) _
  · contradiction

theorem advanceDispatch_running
    (advanced : advanceDispatch contexts event pc move = some next) : pc.isEnded = false := by
  cases pc with
  | ended reply => cases advanced
  | _ => rfl

theorem DispatchPc.Holds.ended (isOver : pc.isEnded = true) : pc.Holds contexts event := by
  cases pc with
  | ended reply => trivial
  | _ => contradiction

theorem DispatchEffect.fits (effect : DispatchEffect contexts event pc move next)
    (fits : pc.Fits event) : next.pc.Fits event := by
  cases effect with
  | retain object missing named => exact fits
  | remove stage object metrics place found created removed =>
      rcases place with ⟨rfl, rfl⟩ | ⟨rfl, rfl⟩
      · exact fits
      · exact fits
  | call stage object => exact fits
  | calm quiet same fits_ holds settled unseen => exact fits_

end Steps

end StreamDockSdk.Runtime
