import StreamDockSdk.Events

namespace StreamDockSdk.Runtime

inductive DispatchOrdering where
  | context
  | globalBarrier
deriving DecidableEq, Repr

/-- `RUNTIME_EVENT_REGISTRY.route_for(event).ordering`: `none` where `route_for`
raises, because the event's class has no route. -/
def routeOrdering? : StreamDockEvent → Option DispatchOrdering
  | .willAppear _ | .willDisappear _ => some .globalBarrier
  | .didReceiveSettings _ | .titleParametersDidChange _ => some .context
  | .keyDown _ | .keyUp _ | .touchTap _ => some .context
  | .dialDown _ | .dialUp _ | .dialRotate _ => some .context
  | .propertyInspectorDidAppear _ | .propertyInspectorDidDisappear _ => some .context
  | .sendToPlugin _ => some .context
  | .didReceiveGlobalSettings _ => some .globalBarrier
  | .deviceDidConnect _ _ | .deviceDidDisconnect _ _ => some .globalBarrier
  | .applicationDidLaunch _ | .applicationDidTerminate _ => some .globalBarrier
  | .systemDidWakeUp => some .globalBarrier
  | .unknown _ _ | .unroutedAction _ | .unrouted _ => none

/-- `_is_global_barrier` -/
def isGlobalBarrier : StreamDockEvent → Bool
  | .unknown _ _ => true
  | event => routeOrdering? event == some .globalBarrier

/-- The context that an event is scheduled under; `none` for the events that
the scheduler runs as barriers. -/
def scheduledContext? (event : StreamDockEvent) : Option Str :=
  if isGlobalBarrier event then none else event.actionContext?

/-- The selector's test for a barrier: `not isinstance(event, ActionEvent) or
_is_global_barrier(event)`. -/
def isSelectionBarrier (event : StreamDockEvent) : Bool :=
  event.actionEvent?.isNone || isGlobalBarrier event

theorem isSelectionBarrier_eq (event : StreamDockEvent) :
    isSelectionBarrier event = (scheduledContext? event).isNone := by
  unfold isSelectionBarrier scheduledContext? StreamDockEvent.actionContext?
  cases isGlobalBarrier event <;> simp

inductive RuntimeEventScope where
  | action
  | broadcast
  | plugin
deriving DecidableEq, Repr

inductive RuntimeTransition where
  | unchanged
  | createAction
  | removeAction
  | updateActionSettings
  | updateActionTitle
  | updateGlobalSettings
deriving DecidableEq, Repr

/-- What the runtime calls on an action or on the plugin. -/
inductive CallbackName where
  | onWillAppear
  | onWillDisappear
  | updateSettingsFromWire
  /-- The assignments of `title` and `title_parameters`. -/
  | updateTitle
  | onDidReceiveSettings
  | onTitleParametersDidChange
  | onKeyDown
  | onKeyUp
  | onTouchTap
  | onDialDown
  | onDialUp
  | onDialRotate
  | onPropertyInspectorDidAppear
  | onPropertyInspectorDidDisappear
  | onSendToPlugin
  | onDidReceiveGlobalSettings
  | onDeviceDidConnect
  | onDeviceDidDisconnect
  | onApplicationDidLaunch
  | onApplicationDidTerminate
  | onSystemDidWakeUp
  | onUnhandledEvent
deriving DecidableEq, Repr

structure RuntimeEventRoute where
  scope : RuntimeEventScope
  ordering : DispatchOrdering
  callback : CallbackName
  transition : RuntimeTransition := .unchanged
  pluginCallback : Option CallbackName := none
deriving DecidableEq, Repr

/-- A route that calls the action of the event's context and changes nothing before. -/
def RuntimeEventRoute.ofAction (callback : CallbackName) : RuntimeEventRoute where
  scope := .action
  ordering := .context
  callback

/-- A route that calls the plugin first and every action after it. -/
def RuntimeEventRoute.ofBroadcast (callback : CallbackName) : RuntimeEventRoute where
  scope := .broadcast
  ordering := .globalBarrier
  callback
  pluginCallback := some callback

/-- `_DEFAULT_RUNTIME_EVENT_ROUTES`; `none` for unknown events and where `route_for` raises. -/
def routeFor? : StreamDockEvent → Option RuntimeEventRoute
  | .willAppear _ => some {
      RuntimeEventRoute.ofAction .onWillAppear with
      ordering := .globalBarrier, transition := .createAction }
  | .willDisappear _ => some {
      RuntimeEventRoute.ofAction .onWillDisappear with
      ordering := .globalBarrier, transition := .removeAction }
  | .didReceiveSettings _ => some {
      RuntimeEventRoute.ofAction .onDidReceiveSettings with transition := .updateActionSettings }
  | .titleParametersDidChange _ => some {
      RuntimeEventRoute.ofAction .onTitleParametersDidChange with
      transition := .updateActionTitle }
  | .keyDown _ => some (.ofAction .onKeyDown)
  | .keyUp _ => some (.ofAction .onKeyUp)
  | .touchTap _ => some (.ofAction .onTouchTap)
  | .dialDown _ => some (.ofAction .onDialDown)
  | .dialUp _ => some (.ofAction .onDialUp)
  | .dialRotate _ => some (.ofAction .onDialRotate)
  | .propertyInspectorDidAppear _ => some (.ofAction .onPropertyInspectorDidAppear)
  | .propertyInspectorDidDisappear _ => some (.ofAction .onPropertyInspectorDidDisappear)
  | .sendToPlugin _ => some (.ofAction .onSendToPlugin)
  | .didReceiveGlobalSettings _ => some {
      RuntimeEventRoute.ofBroadcast .onDidReceiveGlobalSettings with
      transition := .updateGlobalSettings }
  | .deviceDidConnect _ _ => some (.ofBroadcast .onDeviceDidConnect)
  | .deviceDidDisconnect _ _ => some (.ofBroadcast .onDeviceDidDisconnect)
  | .applicationDidLaunch _ => some (.ofBroadcast .onApplicationDidLaunch)
  | .applicationDidTerminate _ => some (.ofBroadcast .onApplicationDidTerminate)
  | .systemDidWakeUp => some (.ofBroadcast .onSystemDidWakeUp)
  | .unknown _ _ | .unroutedAction _ | .unrouted _ => none

theorem routeOrdering?_eq (event : StreamDockEvent) :
    routeOrdering? event = (routeFor? event).map (·.ordering) := by
  cases event <;> rfl

theorem routeFor?_action {event : StreamDockEvent} {route : RuntimeEventRoute}
    (found : routeFor? event = some route) :
    route.scope = .action ∧ event.actionEvent?.isSome ∨
      route.scope = .broadcast ∧ isGlobalBarrier event = true := by
  cases event <;> cases found <;> simp [RuntimeEventRoute.ofAction,
    RuntimeEventRoute.ofBroadcast, StreamDockEvent.actionEvent?, isGlobalBarrier, routeOrdering?]

end StreamDockSdk.Runtime
