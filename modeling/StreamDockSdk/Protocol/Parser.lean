import StreamDockSdk.Json.Clone
import StreamDockSdk.Json.Fields

namespace StreamDockSdk

/-! # `parse_stream_dock_event`

Where the type of a result says already that a required value is there, the
assertion of the source on it is left out.
-/

namespace Controller

def value : Controller → String
  | .keypad => "Keypad"
  | .encoder => "Encoder"
  | .knob => "Knob"
  | .information => "Information"
  | .secondaryScreen => "SecondaryScreen"

def members : List Controller := [.keypad, .encoder, .knob, .information, .secondaryScreen]

/-- `Controller(value)`, or `none` where it raises. -/
def ofValue? (raw : Str) : Option Controller :=
  members.find? fun controller => decide (raw = ⟨Str.ofString controller.value⟩)

end Controller

namespace TitleAlignment

def value : TitleAlignment → String
  | .bottom => "bottom"
  | .middle => "middle"
  | .top => "top"

def members : List TitleAlignment := [.bottom, .middle, .top]

/-- `TitleAlignment(value)`, or `none` where it raises. -/
def ofValue? (raw : Str) : Option TitleAlignment :=
  members.find? fun alignment => decide (raw = ⟨Str.ofString alignment.value⟩)

end TitleAlignment

inductive StreamDockEventType where
  | willAppear
  | willDisappear
  | didReceiveSettings
  | titleParametersDidChange
  | keyDown
  | keyUp
  | touchTap
  | dialDown
  | dialUp
  | dialRotate
  | propertyInspectorDidAppear
  | propertyInspectorDidDisappear
  | sendToPlugin
  | didReceiveGlobalSettings
  | deviceDidConnect
  | deviceDidDisconnect
  | applicationDidLaunch
  | applicationDidTerminate
  | systemDidWakeUp
deriving DecidableEq, Repr

namespace StreamDockEventType

def value : StreamDockEventType → String
  | .willAppear => "willAppear"
  | .willDisappear => "willDisappear"
  | .didReceiveSettings => "didReceiveSettings"
  | .titleParametersDidChange => "titleParametersDidChange"
  | .keyDown => "keyDown"
  | .keyUp => "keyUp"
  | .touchTap => "touchTap"
  | .dialDown => "dialDown"
  | .dialUp => "dialUp"
  | .dialRotate => "dialRotate"
  | .propertyInspectorDidAppear => "propertyInspectorDidAppear"
  | .propertyInspectorDidDisappear => "propertyInspectorDidDisappear"
  | .sendToPlugin => "sendToPlugin"
  | .didReceiveGlobalSettings => "didReceiveGlobalSettings"
  | .deviceDidConnect => "deviceDidConnect"
  | .deviceDidDisconnect => "deviceDidDisconnect"
  | .applicationDidLaunch => "applicationDidLaunch"
  | .applicationDidTerminate => "applicationDidTerminate"
  | .systemDidWakeUp => "systemDidWakeUp"

def members : List StreamDockEventType :=
  [.willAppear, .willDisappear, .didReceiveSettings, .titleParametersDidChange, .keyDown, .keyUp,
    .touchTap, .dialDown, .dialUp, .dialRotate, .propertyInspectorDidAppear,
    .propertyInspectorDidDisappear, .sendToPlugin, .didReceiveGlobalSettings, .deviceDidConnect,
    .deviceDidDisconnect, .applicationDidLaunch, .applicationDidTerminate, .systemDidWakeUp]

/-- `EVENT_CODEC_REGISTRY.get(name)` -/
def ofValue? (raw : Str) : Option StreamDockEventType :=
  members.find? fun kind => decide (raw = ⟨Str.ofString kind.value⟩)

end StreamDockEventType

inductive FieldReason where
  | text (reason : String)
  /-- "unsupported … …; expected one of …", with the values that are supported. -/
  | unsupported (what : String) (raw : Str) (supported : List String)
deriving DecidableEq, Repr

/-- What `parse_stream_dock_event` raises. -/
inductive EventError where
  /-- `MalformedEventError` -/
  | malformed (reason : String)
  /-- `InvalidFieldError` -/
  | invalidField (eventName : Option Str) (path : FieldPath) (reason : FieldReason)
  /-- `UnsupportedEventError` -/
  | unsupportedEvent (eventName : Str)
deriving DecidableEq, Repr

/-- A JSON object of an event: its value, and the container of the clone that holds it. -/
structure OwnedObject where
  entries : JsonObject
  root : PyValue
  built : PyHeap
deriving Repr

namespace Parser

/-- The entries of a dictionary. -/
abbrev Data := List (PyValue × PyValue)

def invalid (eventName : Option Str) (path : FieldPath) (reason : String) : EventError :=
  .invalidField eventName path (.text reason)

def cloneEventObject (heap : PyHeap) (value : PyValue) : Except EventError OwnedObject :=
  match cloneJsonObject heap value, cloneJsonValueInto heap maxJsonDepth [] value [] with
  | .ok entries, .ok (root, built) => .ok { entries, root, built }
  | .error .tooDeep, _ => .error (.malformed JsonError.tooDeep.message)
  | _, _ => .error (.malformed "message contains a non-JSON value")

section Helpers

variable (heap : PyHeap) (data : Data) (key : String) (event : Str) (path : FieldPath)

def requireString : Except EventError Str :=
  requireField (invalid (some event)) strOf "expected string" data key path

def optionalString : Except EventError (Option Str) :=
  optionalField (invalid (some event)) strOf "expected string" data key path

def requireInt : Except EventError Int :=
  requireField (invalid (some event)) intOf "expected integer" data key path

def optionalInt : Except EventError (Option Int) :=
  optionalField (invalid (some event)) intOf "expected integer" data key path

def requireBool : Except EventError Bool :=
  requireField (invalid (some event)) boolOf "expected boolean" data key path

def requireObject : Except EventError Data :=
  requireField (invalid (some event)) (dictEntries? heap) "expected object" data key path

/-- `_clone_event_object(_require_object(…))` -/
def requireOwned : Except EventError OwnedObject :=
  match requireObject heap data key event path, lookup data key with
  | .ok _, some value => cloneEventObject heap value
  | .ok _, none => .error (invalid (some event) (path ++ [.field key]) "required field is missing")
  | .error error, _ => .error error

end Helpers

def payloadPath : FieldPath := [.field "payload"]

/-- The conversion of `_controller`. -/
def controllerOf (event raw : Str) : Except EventError Controller :=
  match Controller.ofValue? raw with
  | some controller => .ok controller
  | none => .error (.invalidField (some event) (payloadPath ++ [.field "controller"])
      (.unsupported "controller" raw (Controller.members.map Controller.value)))

/-- `_controller` with `required=True`. -/
def requireController (payload : Data) (event : Str) : Except EventError Controller := do
  let raw ← requireString payload "controller" event payloadPath
  controllerOf event raw

/-- `_controller` with `required=False`. -/
def optionalController (payload : Data) (event : Str) : Except EventError (Option Controller) := do
  match ← optionalString payload "controller" event payloadPath with
  | none => return none
  | some raw =>
      let controller ← controllerOf event raw
      return some controller

def coordinates (heap : PyHeap) (payload : Data) (event : Str) : Except EventError Coordinates := do
  let value ← requireObject heap payload "coordinates" event payloadPath
  let path := payloadPath ++ [.field "coordinates"]
  let column ← requireInt value "column" event path
  let row ← requireInt value "row" event path
  return { column, row }

/-- `_device_info` with `required=True`. -/
def requireDeviceInfo (heap : PyHeap) (data : Data) (event : Str) : Except EventError DeviceInfo := do
  let path := [.field "deviceInfo"]
  let value ← requireObject heap data "deviceInfo" event []
  let size ← requireObject heap value "size" event path
  let name ← requireString value "name" event path
  let type ← requireInt value "type" event path
  let columns ← requireInt size "columns" event (path ++ [.field "size"])
  let rows ← requireInt size "rows" event (path ++ [.field "size"])
  return { name, type, size := { columns, rows } }

/-- `_device_info` with `required=False`. -/
def optionalDeviceInfo (heap : PyHeap) (data : Data) (event : Str) :
    Except EventError (Option DeviceInfo) :=
  match lookup data "deviceInfo" with
  | none => .ok none
  | some _ => do
      let info ← requireDeviceInfo heap data event
      return some info

def titlePath : FieldPath := payloadPath ++ [.field "titleParameters"]

/-- The conversion of `_title_parameters`. -/
def alignmentOf (event raw : Str) : Except EventError TitleAlignment :=
  match TitleAlignment.ofValue? raw with
  | some alignment => .ok alignment
  | none => .error (.invalidField (some event) (titlePath ++ [.field "titleAlignment"])
      (.unsupported "alignment" raw (TitleAlignment.members.map TitleAlignment.value)))

def titleParameters (heap : PyHeap) (payload : Data) (event : Str) :
    Except EventError TitleParameters := do
  let value ← requireObject heap payload "titleParameters" event payloadPath
  let raw ← requireString value "titleAlignment" event titlePath
  let alignment ← alignmentOf event raw
  let fontFamily ← requireString value "fontFamily" event titlePath
  let fontSize ← requireInt value "fontSize" event titlePath
  let fontStyle ← requireString value "fontStyle" event titlePath
  let fontUnderline ← requireBool value "fontUnderline" event titlePath
  let showTitle ← requireBool value "showTitle" event titlePath
  let color ← requireString value "titleColor" event titlePath
  return { fontFamily, fontSize, fontStyle, fontUnderline, showTitle, alignment, color }

/-- `_action_identity` with `require_device=True`. -/
def deviceIdentity (data : Data) (event : Str) : Except EventError DeviceActionEvent := do
  let action ← requireString data "action" event []
  let context ← requireString data "context" event []
  let device ← requireString data "device" event []
  return { action, context, device }

/-- The result of `_action_payload`. -/
structure ActionPayload where
  event : ActionPayloadEvent
  payload : Data
  object : OwnedObject

def actionPayload (heap : PyHeap) (data : Data) (event : Str) : Except EventError ActionPayload := do
  let identity ← deviceIdentity data event
  let payload ← requireObject heap data "payload" event []
  let object ← requireOwned heap payload "settings" event payloadPath
  let coordinates ← coordinates heap payload event
  return {
    event := { toDeviceActionEvent := identity, settings := object.entries, coordinates }
    payload
    object }

section Events

variable (heap : PyHeap) (data : Data) (event : Str)

def parseVisibilityEvent : Except EventError (AppearanceEvent × OwnedObject) := do
  let action ← actionPayload heap data event
  let controller ← requireController action.payload event
  let isInMultiAction ← requireBool action.payload "isInMultiAction" event payloadPath
  let state ← optionalInt action.payload "state" event payloadPath
  return ({ toActionPayloadEvent := action.event, controller, isInMultiAction, state },
    action.object)

def parseDidReceiveSettings : Except EventError (DidReceiveSettingsEvent × OwnedObject) := do
  let action ← actionPayload heap data event
  let isInMultiAction ← requireBool action.payload "isInMultiAction" event payloadPath
  let controller ← optionalController action.payload event
  let state ← optionalInt action.payload "state" event payloadPath
  return ({ toActionPayloadEvent := action.event, isInMultiAction, controller, state },
    action.object)

def parseKeyEvent : Except EventError (KeyEvent × OwnedObject) := do
  let action ← actionPayload heap data event
  let isInMultiAction ← requireBool action.payload "isInMultiAction" event payloadPath
  let controller ← optionalController action.payload event
  let state ← optionalInt action.payload "state" event payloadPath
  let userDesiredState ← optionalInt action.payload "userDesiredState" event payloadPath
  return ({ toActionPayloadEvent := action.event, isInMultiAction, controller, state,
            userDesiredState }, action.object)

def parseDialPressEvent : Except EventError (DialPressEvent × OwnedObject) := do
  let action ← actionPayload heap data event
  let controller ← requireController action.payload event
  return ({ toActionPayloadEvent := action.event, controller }, action.object)

def parseDialRotate : Except EventError (DialRotateEvent × OwnedObject) := do
  let action ← actionPayload heap data event
  let ticks ← requireInt action.payload "ticks" event payloadPath
  let pressed ← requireBool action.payload "pressed" event payloadPath
  let controller ← optionalController action.payload event
  return ({ toActionPayloadEvent := action.event, ticks, pressed, controller }, action.object)

def parseTitleParametersDidChange :
    Except EventError (TitleParametersDidChangeEvent × OwnedObject) := do
  let action ← actionPayload heap data event
  let title ← requireString action.payload "title" event payloadPath
  let titleParameters ← titleParameters heap action.payload event
  let controller ← optionalController action.payload event
  let state ← optionalInt action.payload "state" event payloadPath
  return ({ toActionPayloadEvent := action.event, title, titleParameters, controller, state },
    action.object)

/-- `_optional_string(message, "event", …)` -/
def messageName (message : JsonObject) : Except EventError (Option Str) :=
  match message.find? fun entry => decide (entry.1 = ⟨Str.ofString "event"⟩) with
  | none => .ok none
  | some (_, .str name) => .ok (some name)
  | some _ => .error (invalid (some event) (payloadPath ++ [.field "event"]) "expected string")

def parseSendToPlugin : Except EventError (SendToPluginEvent × OwnedObject) := do
  let action ← requireString data "action" event []
  let context ← requireString data "context" event []
  let device ← optionalString data "device" event []
  let object ← requireOwned heap data "payload" event []
  let name ← messageName event object.entries
  return ({ action, context, message := { name, value := object.entries }, device }, object)

def parseDidReceiveGlobalSettings : Except EventError OwnedObject := do
  let payload ← requireObject heap data "payload" event []
  requireOwned heap payload "settings" event payloadPath

def parseDeviceDidConnect : Except EventError (DeviceInfo × Str) := do
  let info ← requireDeviceInfo heap data event
  let device ← requireString data "device" event []
  return (info, device)

def parseDeviceDidDisconnect : Except EventError (Str × Option DeviceInfo) := do
  let device ← requireString data "device" event []
  let info ← optionalDeviceInfo heap data event
  return (device, info)

def parseApplicationEvent : Except EventError Str := do
  let payload ← requireObject heap data "payload" event []
  requireString payload "application" event payloadPath

/-- An event, with the clone of its JSON object. -/
abbrev Parsed := StreamDockEvent × Option OwnedObject

/-- An event class and its JSON object. -/
def withObject {α : Type} (build : α → StreamDockEvent) (parsed : α × OwnedObject) : Parsed :=
  (build parsed.1, some parsed.2)

/-- The parser of the descriptor. -/
def parserOf : StreamDockEventType → Except EventError Parsed
  | .willAppear => (parseVisibilityEvent heap data event).map (withObject .willAppear)
  | .willDisappear => (parseVisibilityEvent heap data event).map (withObject .willDisappear)
  | .didReceiveSettings =>
      (parseDidReceiveSettings heap data event).map (withObject .didReceiveSettings)
  | .titleParametersDidChange =>
      (parseTitleParametersDidChange heap data event).map (withObject .titleParametersDidChange)
  | .keyDown => (parseKeyEvent heap data event).map (withObject .keyDown)
  | .keyUp => (parseKeyEvent heap data event).map (withObject .keyUp)
  | .touchTap => (parseKeyEvent heap data event).map (withObject .touchTap)
  | .dialDown => (parseDialPressEvent heap data event).map (withObject .dialDown)
  | .dialUp => (parseDialPressEvent heap data event).map (withObject .dialUp)
  | .dialRotate => (parseDialRotate heap data event).map (withObject .dialRotate)
  | .propertyInspectorDidAppear =>
      (deviceIdentity data event).map fun parsed => (.propertyInspectorDidAppear parsed, none)
  | .propertyInspectorDidDisappear =>
      (deviceIdentity data event).map fun parsed => (.propertyInspectorDidDisappear parsed, none)
  | .sendToPlugin => (parseSendToPlugin heap data event).map (withObject .sendToPlugin)
  | .didReceiveGlobalSettings => (parseDidReceiveGlobalSettings heap data event).map fun object =>
      (.didReceiveGlobalSettings object.entries, some object)
  | .deviceDidConnect => (parseDeviceDidConnect heap data event).map fun parsed =>
      (.deviceDidConnect parsed.2 parsed.1, none)
  | .deviceDidDisconnect => (parseDeviceDidDisconnect heap data event).map fun parsed =>
      (.deviceDidDisconnect parsed.1 parsed.2, none)
  | .applicationDidLaunch => (parseApplicationEvent heap data event).map fun application =>
      (.applicationDidLaunch application, none)
  | .applicationDidTerminate => (parseApplicationEvent heap data event).map fun application =>
      (.applicationDidTerminate application, none)
  | .systemDidWakeUp => .ok (.systemDidWakeUp, none)

end Events

/-- `parse_stream_dock_event` for a dictionary, after its event name. -/
def parseEnvelope (heap : PyHeap) (value : PyValue) (data : Data) (allowUnknown : Bool)
    (rawEvent : Str) : Except EventError Parsed :=
  match StreamDockEventType.ofValue? rawEvent with
  | some kind => parserOf heap data rawEvent kind
  | none =>
      if !allowUnknown then
        if !isJsonValue heap value then .error (.malformed "message contains a non-JSON value")
        else .error (.unsupportedEvent rawEvent)
      else (cloneEventObject heap value).map fun object =>
        (.unknown rawEvent object.entries, some object)

def parseStreamDockEvent (heap : PyHeap) (value : PyValue) (allowUnknown : Bool) :
    Except EventError Parsed :=
  match dictEntries? heap value with
  | none =>
      if !isJsonValue heap value then .error (.malformed "message contains a non-JSON value")
      else .error (.malformed "expected event object")
  | some data => do
      let rawEvent ← requireField (invalid none) strOf "expected string" data "event" []
      parseEnvelope heap value data allowUnknown rawEvent

end Parser

end StreamDockSdk
