import Mathlib.Data.List.Basic

namespace StreamDockSdk

/-- A Python `str`: any sequence of code points, unpaired surrogates included. -/
structure Str where
  codePoints : List (Fin 0x110000)
deriving DecidableEq, Repr

/-- For the literals of code points. -/
instance (priority := 2000) codePoints_neZero : @NeZero Nat Zero.ofOfNat0 0x110000 :=
  ⟨by decide⟩

inductive JsonValue where
  | null
  | bool (value : Bool)
  | int (value : Int)
  /-- The bits of an IEEE double. -/
  | float (bits : BitVec 64)
  | str (value : Str)
  | list (items : List JsonValue)
  | dict (entries : List (Str × JsonValue))
deriving Repr

abbrev JsonObject := List (Str × JsonValue)

inductive Controller where
  | keypad
  | encoder
  | knob
  | information
  | secondaryScreen
deriving DecidableEq, Repr

inductive TitleAlignment where
  | bottom
  | middle
  | top
deriving DecidableEq, Repr

structure Coordinates where
  column : Int
  row : Int
deriving DecidableEq, Repr

structure DeviceSize where
  columns : Int
  rows : Int
deriving DecidableEq, Repr

structure DeviceInfo where
  name : Str
  type : Int
  size : DeviceSize
deriving DecidableEq, Repr

structure ActionEvent where
  action : Str
  context : Str
deriving DecidableEq, Repr

structure DeviceActionEvent extends ActionEvent where
  device : Str
deriving DecidableEq, Repr

structure ActionPayloadEvent extends DeviceActionEvent where
  settings : JsonObject
  coordinates : Coordinates
deriving Repr

/-- The common fields of `WillAppearEvent` and `WillDisappearEvent`. -/
structure AppearanceEvent extends ActionPayloadEvent where
  controller : Controller
  isInMultiAction : Bool
  state : Option Int
deriving Repr

structure DidReceiveSettingsEvent extends ActionPayloadEvent where
  isInMultiAction : Bool
  controller : Option Controller
  state : Option Int
deriving Repr

structure KeyEvent extends ActionPayloadEvent where
  isInMultiAction : Bool
  controller : Option Controller
  state : Option Int
  userDesiredState : Option Int
deriving Repr

structure DialPressEvent extends ActionPayloadEvent where
  controller : Controller
deriving Repr

structure DialRotateEvent extends ActionPayloadEvent where
  ticks : Int
  pressed : Bool
  controller : Option Controller
deriving Repr

structure PropertyInspectorMessage where
  name : Option Str
  value : JsonObject
deriving Repr

structure SendToPluginEvent extends ActionEvent where
  message : PropertyInspectorMessage
  device : Option Str
deriving Repr

structure TitleParameters where
  fontFamily : Str
  fontSize : Int
  fontStyle : Str
  fontUnderline : Bool
  showTitle : Bool
  alignment : TitleAlignment
  color : Str
deriving DecidableEq, Repr

structure TitleParametersDidChangeEvent extends ActionPayloadEvent where
  title : Str
  titleParameters : TitleParameters
  controller : Option Controller
  state : Option Int
deriving Repr

/-- Known events, unknown ones, and instances of `StreamDockEvent` subclasses
that the runtime has no route for. -/
inductive StreamDockEvent where
  | willAppear (event : AppearanceEvent)
  | willDisappear (event : AppearanceEvent)
  | didReceiveSettings (event : DidReceiveSettingsEvent)
  | titleParametersDidChange (event : TitleParametersDidChangeEvent)
  | keyDown (event : KeyEvent)
  | keyUp (event : KeyEvent)
  | touchTap (event : KeyEvent)
  | dialDown (event : DialPressEvent)
  | dialUp (event : DialPressEvent)
  | dialRotate (event : DialRotateEvent)
  | propertyInspectorDidAppear (event : DeviceActionEvent)
  | propertyInspectorDidDisappear (event : DeviceActionEvent)
  | sendToPlugin (event : SendToPluginEvent)
  | didReceiveGlobalSettings (settings : JsonObject)
  | deviceDidConnect (device : Str) (info : DeviceInfo)
  | deviceDidDisconnect (device : Str) (info : Option DeviceInfo)
  | applicationDidLaunch (application : Str)
  | applicationDidTerminate (application : Str)
  | systemDidWakeUp
  | unknown (event : Str) (data : JsonObject)
  | unroutedAction (event : ActionEvent)
  | unrouted (event : Str)
deriving Repr

namespace StreamDockEvent

/-- `event if isinstance(event, ActionEvent)`. -/
def actionEvent? : StreamDockEvent → Option ActionEvent
  | .willAppear event | .willDisappear event => some event.toActionEvent
  | .didReceiveSettings event => some event.toActionEvent
  | .titleParametersDidChange event => some event.toActionEvent
  | .keyDown event | .keyUp event | .touchTap event => some event.toActionEvent
  | .dialDown event | .dialUp event => some event.toActionEvent
  | .dialRotate event => some event.toActionEvent
  | .propertyInspectorDidAppear event | .propertyInspectorDidDisappear event =>
      some event.toActionEvent
  | .sendToPlugin event => some event.toActionEvent
  | .unroutedAction event => some event
  | .didReceiveGlobalSettings _ | .deviceDidConnect _ _ | .deviceDidDisconnect _ _
  | .applicationDidLaunch _ | .applicationDidTerminate _ | .systemDidWakeUp
  | .unknown _ _ | .unrouted _ => none

/-- `event.context if isinstance(event, ActionEvent) else None`. -/
def actionContext? (event : StreamDockEvent) : Option Str :=
  event.actionEvent?.map (·.context)

/-- `isinstance(event, DialRotateEvent)`. -/
def isDialRotate : StreamDockEvent → Bool
  | .dialRotate _ => true
  | _ => false

end StreamDockEvent

instance : Inhabited StreamDockEvent := ⟨.systemDidWakeUp⟩

end StreamDockSdk
