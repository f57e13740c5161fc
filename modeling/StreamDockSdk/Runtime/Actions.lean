import StreamDockSdk.Runtime.KeyedScheduler

namespace StreamDockSdk.Runtime

/-! # `DefaultActionContextManager` and the dispatchers over it

A dispatch goes from one call of user code, or of the manager, to the next.  The
world holds every dispatch that the scheduler has begun, and `_release_actions`.
-/

/-- An action that the factory made; `identity` is what `is` compares. -/
structure ActionObject where
  identity : Nat
  action : Str
  context : Str
deriving DecidableEq, Repr

structure ActionContextMetrics where
  actionInstancesCreated : Nat := 0
  duplicateAppearances : Nat := 0
  unknownActionUuids : Nat := 0
  missingContexts : Nat := 0
  actionsRemoved : Nat := 0
  appearanceRollbacks : Nat := 0
  settingsUpdates : Nat := 0
  settingsUpdateFailures : Nat := 0
  titleUpdates : Nat := 0
  broadcasts : Nat := 0
  broadcastTargets : Nat := 0
  broadcastFailures : Nat := 0
  globalSettingsUpdates : Nat := 0
  globalSettingsReplays : Nat := 0
deriving DecidableEq, Repr

/-- How a call of the factory's `create` ends. -/
inductive FactoryResult where
  | unknown
  | action (object : ActionObject)
  | raises
  /-- A `RuntimeActionIdentityError`, or what is no `Exception`. -/
  | escapes
deriving DecidableEq, Repr

/-- How a call of the manager's `create` ends. -/
inductive CreateReply where
  | ignored
  | created (object : ActionObject)
  | failed
  | escaped
deriving DecidableEq, Repr

structure DefaultActionContextManager where
  /-- In the order of insertion. -/
  actions : List (Str × ActionObject) := []
  metrics : ActionContextMetrics := {}
deriving DecidableEq, Repr

namespace DefaultActionContextManager

variable (contexts : DefaultActionContextManager)

def get (context : Str) : Option ActionObject :=
  (contexts.actions.find? (·.1 = context)).map (·.2)

def snapshot : List ActionObject :=
  contexts.actions.map (·.2)

def retain (context : Str) (object : ActionObject) : DefaultActionContextManager :=
  { actions := contexts.actions ++ [(context, object)]
    metrics := { contexts.metrics with
      actionInstancesCreated := contexts.metrics.actionInstancesCreated + 1 } }

def create (event : ActionEvent) (result : FactoryResult) :
    DefaultActionContextManager × CreateReply :=
  if (contexts.get event.context).isSome then
    ({ contexts with metrics := { contexts.metrics with
        duplicateAppearances := contexts.metrics.duplicateAppearances + 1 } }, .ignored)
  else match result with
    | .raises => (contexts, .failed)
    | .escapes => (contexts, .escaped)
    | .unknown =>
        ({ contexts with metrics := { contexts.metrics with
            unknownActionUuids := contexts.metrics.unknownActionUuids + 1 } }, .ignored)
    | .action object =>
        if object.action ≠ event.action ∨ object.context ≠ event.context then (contexts, .escaped)
        else (contexts.retain event.context object, .created object)

/-- `remove`; `expected` is `none` where the argument is `None`. -/
def remove (context : Str) (expected : Option ActionObject) :
    DefaultActionContextManager × Option ActionObject :=
  match contexts.get context with
  | none => (contexts, none)
  | some object =>
      if expected.isSome ∧ expected ≠ some object then (contexts, none)
      else (
        { actions := contexts.actions.filter (·.1 ≠ context)
          metrics := { contexts.metrics with
            actionsRemoved := contexts.metrics.actionsRemoved + 1 } },
        some object)

def clear : DefaultActionContextManager × List ActionObject :=
  ({ actions := []
     metrics := { contexts.metrics with
       actionsRemoved := contexts.metrics.actionsRemoved + contexts.actions.length } },
    contexts.snapshot)

end DefaultActionContextManager

/-- Which call of an action a dispatch is at. -/
inductive DispatchStage where
  | appearing
  | rollingBack
  | replaying
  | disappearing
  | updating
  | titling
  | current
  /-- The actions of the snapshot that are still to be called, and whether a callback failed. -/
  | broadcasting (rest : List ActionObject) (failed : Bool)
deriving DecidableEq, Repr

inductive DispatchPc where
  | routing
  | receiving
  | callingPlugin
  | creating
  | rollback (object : ActionObject)
  | replayEvent (object : ActionObject)
  | removing
  | getting
  | snapshotting (failed : Bool)
  | broadcasting (rest : List ActionObject) (failed : Bool)
  | invoking (stage : DispatchStage) (object : ActionObject)
  /-- Inside the callback. -/
  | awaiting (stage : DispatchStage) (object : ActionObject)
  | ended (reply : DispatchReply)
deriving DecidableEq, Repr

/-- What user code does: `fails` is an `Exception` whose report returns, `escapes`
what no handler of the dispatch catches. -/
inductive DispatchMove where
  | proceed
  | creates (result : FactoryResult)
  | replays (loaded : Bool)
  | returns
  | fails
  | escapes
deriving DecidableEq, Repr

/-- `route.callback`, and `on_unhandled_event` where there is no route. -/
def routeCallback (event : StreamDockEvent) : CallbackName :=
  match routeFor? event with
  | some route => route.callback
  | none => .onUnhandledEvent

def DispatchStage.callback (event : StreamDockEvent) : DispatchStage → CallbackName
  | .rollingBack => .onWillDisappear
  | .replaying => .onDidReceiveGlobalSettings
  | .updating => .updateSettingsFromWire
  | .titling => .updateTitle
  | .appearing | .disappearing | .current | .broadcasting _ _ => routeCallback event

def replyOf (failed : Bool) : DispatchReply :=
  .result (if failed then .callbackFailed else .handled)

/-- Where `dispatch` goes first. -/
def enterDispatch (event : StreamDockEvent) : DispatchPc :=
  match event, routeFor? event with
  | .unknown _ _, _ => .callingPlugin
  | _, none => .ended .error
  | _, some route =>
      match route.scope, route.transition with
      | .action, .createAction => .creating
      | .action, .removeAction => .removing
      | .action, _ => .getting
      | _, .updateGlobalSettings => .receiving
      | _, _ => .callingPlugin

/-- Where a dispatch goes when the plugin's callback is over. -/
def afterPlugin (event : StreamDockEvent) (failed : Bool) : DispatchPc :=
  match routeFor? event with
  | some route => if route.scope = .broadcast then .snapshotting failed else .ended (replyOf failed)
  | none => .ended (replyOf failed)

/-- The stage that follows the lookup of the current action. -/
def currentStage (event : StreamDockEvent) : DispatchStage :=
  match routeFor? event with
  | some route =>
      match route.transition with
      | .updateActionSettings => .updating
      | .updateActionTitle => .titling
      | _ => .current
  | none => .current

/-- Where a dispatch goes when a callback is over. -/
def afterCallback (object : ActionObject) (failed : Bool) : DispatchStage → DispatchPc
  | .appearing => if failed then .rollback object else .replayEvent object
  | .rollingBack => .ended (replyOf true)
  | .updating | .titling =>
      if failed then .ended (replyOf true) else .invoking .current object
  | .broadcasting rest earlier => .broadcasting rest (earlier || failed)
  | .replaying | .disappearing | .current => .ended (replyOf failed)

/-- The metrics that a callback's end changes. -/
def countCallback (metrics : ActionContextMetrics) (failed : Bool) :
    DispatchStage → ActionContextMetrics
  | .updating =>
      if failed then
        { metrics with settingsUpdateFailures := metrics.settingsUpdateFailures + 1 }
      else { metrics with settingsUpdates := metrics.settingsUpdates + 1 }
  | .titling =>
      if failed then metrics else { metrics with titleUpdates := metrics.titleUpdates + 1 }
  | .replaying | .broadcasting _ _ =>
      if failed then { metrics with broadcastFailures := metrics.broadcastFailures + 1 }
      else metrics
  | _ => metrics

/-- `_missing_context` -/
def missingContext (contexts : DefaultActionContextManager) : DefaultActionContextManager :=
  { contexts with metrics := { contexts.metrics with
      missingContexts := contexts.metrics.missingContexts + 1 } }

/-- What one step of a dispatch leaves behind, with the callback that it begins and
the action that it retains. -/
structure DispatchAdvance where
  contexts : DefaultActionContextManager
  pc : DispatchPc
  call : Option (ActionObject × CallbackName) := none
  retained : Option ActionObject := none

section Advance

variable (contexts : DefaultActionContextManager) (event : StreamDockEvent)

/-- `_create` up to the call of `on_will_appear`. -/
def createStep (target : ActionEvent) (result : FactoryResult) : DispatchAdvance :=
  match contexts.create target result with
  | (contexts, .ignored) => { contexts, pc := .ended (.result .ignored) }
  | (contexts, .created object) =>
      { contexts, pc := .invoking .appearing object, retained := some object }
  | (contexts, .failed) => { contexts, pc := .ended (replyOf true) }
  | (contexts, .escaped) => { contexts, pc := .ended .error }

/-- `_remove` up to the callback. -/
def removeStep (target : ActionEvent) : DispatchAdvance :=
  match contexts.remove target.context none with
  | (contexts, some object) => { contexts, pc := .invoking .disappearing object }
  | (contexts, none) =>
      { contexts := missingContext contexts, pc := .ended (.result .ignored) }

/-- The lookup of the current action. -/
def getStep (target : ActionEvent) : DispatchAdvance :=
  match contexts.get target.context with
  | some object => { contexts, pc := .invoking (currentStage event) object }
  | none => { contexts := missingContext contexts, pc := .ended (.result .ignored) }

/-- The removal of an action whose appearance failed. -/
def rollbackStep (target : ActionEvent) (object : ActionObject) : DispatchAdvance :=
  match contexts.remove target.context (some object) with
  | (contexts, some _) => {
      contexts := { contexts with metrics := { contexts.metrics with
        appearanceRollbacks := contexts.metrics.appearanceRollbacks + 1 } }
      pc := .invoking .rollingBack object }
  | (contexts, none) => { contexts, pc := .invoking .rollingBack object }

def countBroadcast : DefaultActionContextManager :=
  { contexts with metrics := { contexts.metrics with
      broadcasts := contexts.metrics.broadcasts + 1
      broadcastTargets := contexts.metrics.broadcastTargets + contexts.snapshot.length } }

def endCallback (stage : DispatchStage) (object : ActionObject) (failed : Bool) :
    DispatchAdvance where
  contexts := { contexts with metrics := countCallback contexts.metrics failed stage }
  pc := afterCallback object failed stage

/-- One step of `RuntimeEventRouter.dispatch`. -/
def advanceDispatch : DispatchPc → DispatchMove → Option DispatchAdvance
  | .routing, .proceed => some { contexts, pc := enterDispatch event }
  | .receiving, .returns => some {
      contexts := { contexts with metrics := { contexts.metrics with
        globalSettingsUpdates := contexts.metrics.globalSettingsUpdates + 1 } }
      pc := .callingPlugin }
  | .receiving, .escapes => some { contexts, pc := .ended .error }
  | .callingPlugin, .returns => some { contexts, pc := afterPlugin event false }
  | .callingPlugin, .fails => some { contexts, pc := afterPlugin event true }
  | .callingPlugin, .escapes => some { contexts, pc := .ended .error }
  | .creating, .creates result => event.actionEvent?.map fun target =>
      createStep contexts target result
  | .removing, .proceed => event.actionEvent?.map fun target => removeStep contexts target
  | .getting, .proceed => event.actionEvent?.map fun target => getStep contexts event target
  | .rollback object, .proceed => event.actionEvent?.map fun target =>
      rollbackStep contexts target object
  | .replayEvent object, .replays true => some {
      contexts := { contexts with metrics := { contexts.metrics with
        globalSettingsReplays := contexts.metrics.globalSettingsReplays + 1 } }
      pc := .invoking .replaying object }
  | .replayEvent _, .replays false => some { contexts, pc := .ended (replyOf false) }
  | .replayEvent _, .escapes => some { contexts, pc := .ended .error }
  | .snapshotting failed, .proceed => some {
      contexts := countBroadcast contexts
      pc := .broadcasting contexts.snapshot failed }
  | .broadcasting [] failed, .proceed => some { contexts, pc := .ended (replyOf failed) }
  | .broadcasting (object :: rest) failed, .proceed => some {
      contexts, pc := .invoking (.broadcasting rest failed) object }
  | .broadcasting (_ :: _) _, .escapes => some { contexts, pc := .ended .error }
  | .invoking stage object, .proceed => some {
      contexts, pc := .awaiting stage object, call := some (object, stage.callback event) }
  | .awaiting stage object, .returns => some (endCallback contexts stage object false)
  | .awaiting stage object, .fails => some (endCallback contexts stage object true)
  | .awaiting _ _, .escapes => some { contexts, pc := .ended .error }
  | _, _ => none

end Advance

structure RoutedDispatch where
  event : StreamDockEvent
  pc : DispatchPc := .routing
deriving Repr

def DispatchPc.isEnded : DispatchPc → Bool
  | .ended _ => true
  | _ => false

/-- Two events that the scheduler may have active together. -/
def apart (first second : StreamDockEvent) : Bool :=
  match scheduledContext? first, scheduledContext? second with
  | some context, some other => context ≠ other
  | _, _ => false

inductive ReleasePc where
  | idle
  | releasing (rest : List ActionObject)
  /-- Inside an `on_will_disappear`. -/
  | awaiting (rest : List ActionObject)
  | finished
deriving DecidableEq, Repr

/-- `retained` and `calls` are the actions that the manager has retained and the
callbacks that were called, newest first; no code reads them. -/
structure ActionsWorld where
  contexts : DefaultActionContextManager := {}
  dispatches : List RoutedDispatch := []
  release : ReleasePc := .idle
  retained : List ActionObject := []
  calls : List (ActionObject × CallbackName) := []

inductive ActionsLabel where
  /-- The scheduler calls `dispatch`. -/
  | dispatch (event : StreamDockEvent)
  | advance (index : Nat) (move : DispatchMove)
  | release (move : DispatchMove)
deriving Repr

namespace ActionsWorld

variable (world : ActionsWorld)

/-- What the scheduler guarantees when it calls `dispatch`. -/
def mayDispatch (event : StreamDockEvent) : Bool :=
  world.release = .idle &&
    world.dispatches.all fun dispatch => dispatch.pc.isEnded || apart dispatch.event event

def idle : Bool := world.dispatches.all (·.pc.isEnded)

def advanced (index : Nat) (event : StreamDockEvent) (next : DispatchAdvance) : ActionsWorld :=
  { world with
    contexts := next.contexts
    dispatches := world.dispatches.set index { event, pc := next.pc }
    retained := next.retained.toList ++ world.retained
    calls := next.call.toList ++ world.calls }

/-- One step of `_release_actions`, which `_cleanup` calls when the scheduler has stopped. -/
def releaseStep : ReleasePc → DispatchMove → Option ActionsWorld
  | .idle, .proceed =>
      if world.idle then some { world with
        contexts := world.contexts.clear.1, release := .releasing world.contexts.clear.2 }
      else none
  | .releasing [], .proceed => some { world with release := .finished }
  | .releasing (object :: rest), .proceed => some { world with
      release := .awaiting rest, calls := (object, .onWillDisappear) :: world.calls }
  | .awaiting rest, .returns | .awaiting rest, .fails | .awaiting rest, .escapes =>
      some { world with release := .releasing rest }
  | _, _ => none

def step : ActionsLabel → Option ActionsWorld
  | .dispatch event =>
      if world.mayDispatch event then
        some { world with dispatches := world.dispatches ++ [{ event }] }
      else none
  | .advance index move =>
      match world.dispatches[index]? with
      | none => none
      | some dispatch =>
          (advanceDispatch world.contexts dispatch.event dispatch.pc move).map
            (world.advanced index dispatch.event)
  | .release move => world.releaseStep world.release move

/-- The callbacks of an action, newest first. -/
def callsOf (object : ActionObject) : List CallbackName :=
  (world.calls.filter (·.1 = object)).map (·.2)

end ActionsWorld

def actionsSystem : Automaton.System ActionsWorld ActionsLabel where
  initial world := world = {}
  step := ActionsWorld.step

end StreamDockSdk.Runtime
