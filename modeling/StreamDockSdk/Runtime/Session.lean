import StreamDockSdk.Automaton.System

namespace StreamDockSdk.Runtime

open Automaton

/-! # `SessionCoordinator` and its `SessionReadinessGate`

The lock of the events lets one call of `handle` on at a time.  Between its
regions, and while a `send` blocks, other threads may use the gate.
-/

inductive SessionState where
  | waitingConnected
  | initializing
  | ready
  | disconnected
  | failed
deriving DecidableEq, Repr

/-- `_SESSION_TRANSITIONS` -/
def sessionTransitions : SessionState → List SessionState
  | .waitingConnected => [.initializing]
  | .initializing => [.ready, .failed]
  | .ready => [.disconnected]
  | .disconnected => []
  | .failed => []

/-- `transition_session_state`; `none` is the `InvalidSessionStateTransitionError`. -/
def transitionSessionState (current target : SessionState) : Option SessionState :=
  if target ∈ sessionTransitions current then some target else none

/-- An exception, by its identity. -/
structure SessionError where
  identity : Nat
deriving DecidableEq, Repr

structure SessionReadinessGate where
  ready : Bool := false
  terminal : Bool := false
  failure : Option SessionError := none
deriving DecidableEq, Repr

namespace SessionReadinessGate

variable (gate : SessionReadinessGate)

/-- `none` is the `SessionReadinessStateError`. -/
def «open» : Option SessionReadinessGate :=
  if gate.ready then some gate
  else if gate.terminal then none
  else some { gate with ready := true }

def close : SessionReadinessGate := { gate with terminal := true }

def fail (error : SessionError) : SessionReadinessGate :=
  if gate.ready || gate.terminal then gate
  else { gate with failure := some error, terminal := true }

end SessionReadinessGate

inductive SessionEvent where
  | connected
  | disconnected (statusCode : Option Int) (reason : Option String)
  | transportError (error : SessionError)
  /-- An event of another class. -/
  | unsupported
deriving DecidableEq, Repr

/-- The commands of the initialization, with what they are made from. -/
inductive SessionCommand where
  | registerPlugin (registerEvent pluginUuid : String)
  | getGlobalSettings (pluginUuid : String)
deriving DecidableEq, Repr

/-- How a call of the sender's `send` ends. -/
inductive SendEnd where
  | returned
  | raised (error : SessionError)
  /-- A `BaseException` that is no `Exception`. -/
  | interrupted
deriving DecidableEq, Repr

/-- Where the call of `handle` is that holds the lock of the events. -/
inductive HandlePoint where
  | idle
  /-- In the first region of `_handle_connected`, before it looks at the gate. -/
  | connected
  /-- It found the gate not terminal. -/
  | starting
  /-- Inside the `send` of the registration. -/
  | registering
  | requesting
  /-- Both commands were sent. -/
  | initialized
  /-- Before the gate's `open`. -/
  | opening
  /-- Before the region of `_record_initialization_failure`. -/
  | failed (error : SessionError) (registration : Bool)
  /-- Before the gate's `fail`. -/
  | failing (error : SessionError)
  | disconnected (statusCode : Option Int) (reason : Option String)
  /-- Before the gate's `close`. -/
  | closing
deriving DecidableEq, Repr

structure SessionCoordinator where
  registerEvent : String
  pluginUuid : String
  readiness : SessionReadinessGate := {}
  state : SessionState := .waitingConnected
  lastCloseReason : Option String := none
  eventsReceived : Nat := 0
  connected : Nat := 0
  invalidTransitions : Nat := 0
  initializationStarted : Nat := 0
  initializationSucceeded : Nat := 0
  initializationFailed : Nat := 0
  registrationFailures : Nat := 0
  initialSettingsRequestFailures : Nat := 0
  disconnected : Nat := 0
  lastCloseCode : Option Int := none
  transportErrors : Nat := 0
deriving DecidableEq, Repr

/-- A coordinator with the call of `handle` that is on.  `attempts` and `sent` are
the commands that `send` was called with and those that it returned for, and
`forbidden` tells of an `InvalidSessionStateTransitionError`; no code reads them. -/
structure SessionWorld where
  coordinator : SessionCoordinator
  point : HandlePoint := .idle
  attempts : List SessionCommand := []
  sent : List SessionCommand := []
  forbidden : Bool := false
deriving DecidableEq, Repr

inductive SessionLabel where
  /-- `handle` gets the lock of the events. -/
  | handle (event : SessionEvent)
  /-- The next region of the call. -/
  | proceed
  /-- The `send` that the call is in ends. -/
  | sends (ending : SendEnd)
  /-- Another thread closes the gate. -/
  | close
  | fail (error : SessionError)
deriving DecidableEq, Repr

namespace SessionWorld

variable (world : SessionWorld)

def registration : SessionCommand :=
  .registerPlugin world.coordinator.registerEvent world.coordinator.pluginUuid

def settingsRequest : SessionCommand :=
  .getGlobalSettings world.coordinator.pluginUuid

def setGate (gate : SessionReadinessGate) : SessionWorld :=
  { world with coordinator := { world.coordinator with readiness := gate } }

/-- The call of `handle` returns or raises. -/
def leave : SessionWorld := { world with point := .idle }

/-- `transition_session_state`, whose error leaves `handle`. -/
def transition (target : SessionState) (go : SessionState → SessionWorld) : SessionWorld :=
  match transitionSessionState world.coordinator.state target with
  | some state => go state
  | none => { world.leave with forbidden := true }

def begin (event : SessionEvent) : SessionWorld :=
  let coordinator := world.coordinator
  let counted := { coordinator with eventsReceived := coordinator.eventsReceived + 1 }
  match event with
  | .connected => { world with coordinator := counted, point := .connected }
  | .disconnected statusCode reason =>
      { world with coordinator := counted, point := .disconnected statusCode reason }
  | .transportError _ => { world with
      coordinator := { counted with transportErrors := counted.transportErrors + 1 } }
  | .unsupported => { world with
      coordinator := { counted with invalidTransitions := counted.invalidTransitions + 1 } }

/-- The next region of the call of `handle`. -/
def proceed : Option SessionWorld :=
  let coordinator := world.coordinator
  match world.point with
  | .idle | .registering | .requesting => none
  | .connected =>
      let counted := { coordinator with connected := coordinator.connected + 1 }
      if coordinator.state != .waitingConnected || coordinator.readiness.terminal then
        some { world with
          coordinator := { counted with invalidTransitions := counted.invalidTransitions + 1 }
          point := .idle }
      else some { world with coordinator := counted, point := .starting }
  | .starting => some (world.transition .initializing fun state => { world with
      coordinator := { coordinator with
        state, initializationStarted := coordinator.initializationStarted + 1 }
      point := .registering
      attempts := world.attempts ++ [world.registration] })
  | .initialized => some (world.transition .ready fun state => { world with
      coordinator := { coordinator with
        state, initializationSucceeded := coordinator.initializationSucceeded + 1 }
      point := .opening })
  | .opening =>
      match coordinator.readiness.open with
      | some gate => some (world.setGate gate).leave
      | none => some world.leave
  | .failed error registration =>
      let counted := { coordinator with
        initializationFailed := coordinator.initializationFailed + 1
        registrationFailures := coordinator.registrationFailures + if registration then 1 else 0
        initialSettingsRequestFailures :=
          coordinator.initialSettingsRequestFailures + if registration then 0 else 1 }
      some ({ world with coordinator := counted }.transition .failed fun state => { world with
        coordinator := { counted with state }, point := .failing error })
  | .failing error => some (world.setGate (coordinator.readiness.fail error)).leave
  | .disconnected statusCode reason =>
      let counted := { coordinator with
        disconnected := coordinator.disconnected + 1
        lastCloseCode := statusCode
        lastCloseReason := reason }
      if coordinator.state = .ready then
        some ({ world with coordinator := counted }.transition .disconnected fun state => { world with
          coordinator := { counted with state }, point := .closing })
      else some { world with
        coordinator := { counted with invalidTransitions := counted.invalidTransitions + 1 }
        point := .closing }
  | .closing => some (world.setGate coordinator.readiness.close).leave

/-- The `send` of the call ends. -/
def sendEnds (ending : SendEnd) : Option SessionWorld :=
  match world.point, ending with
  | .registering, .returned => some { world with
      sent := world.sent ++ [world.registration]
      point := .requesting
      attempts := world.attempts ++ [world.settingsRequest] }
  | .registering, .raised error => some { world with point := .failed error true }
  | .requesting, .returned => some { world with
      sent := world.sent ++ [world.settingsRequest]
      point := .initialized }
  | .requesting, .raised error => some { world with point := .failed error false }
  | .registering, .interrupted | .requesting, .interrupted => some world.leave
  | _, _ => none

def step : SessionLabel → Option SessionWorld
  | .handle event => if world.point = .idle then some (world.begin event) else none
  | .proceed => world.proceed
  | .sends ending => world.sendEnds ending
  | .close => some (world.setGate world.coordinator.readiness.close)
  | .fail error => some (world.setGate (world.coordinator.readiness.fail error))

end SessionWorld

/-- Every run of a coordinator. -/
def sessionSystem (registerEvent pluginUuid : String) : System SessionWorld SessionLabel where
  initial world := world = { coordinator := { registerEvent, pluginUuid } }
  step := SessionWorld.step

end StreamDockSdk.Runtime
