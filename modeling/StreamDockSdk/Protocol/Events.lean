import StreamDockSdk.Protocol.Schema

namespace StreamDockSdk

/-- The scalars that the schema names. -/
inductive PyScalar where
  | str (value : Str)
  | int (value : Int)
  | bool (value : Bool)
deriving DecidableEq, Repr

def PyScalar.value : PyScalar → PyValue
  | .str value => .str value
  | .int value => .int value
  | .bool value => .bool value

/-- Paths, with the scalar that stands there, if any. -/
abbrev WireFields := List (FieldPath × Option PyScalar)

namespace Parser

def actionWire (event : ActionEvent) : WireFields :=
  [([.field "action"], some (.str event.action)), ([.field "context"], some (.str event.context))]

def deviceActionWire (event : DeviceActionEvent) : WireFields :=
  actionWire event.toActionEvent ++ [([.field "device"], some (.str event.device))]

def coordinatesWire (coordinates : Coordinates) : WireFields :=
  [([.field "payload", .field "coordinates", .field "column"], some (.int coordinates.column)),
    ([.field "payload", .field "coordinates", .field "row"], some (.int coordinates.row))]

def actionPayloadWire (event : ActionPayloadEvent) : WireFields :=
  deviceActionWire event.toDeviceActionEvent ++ coordinatesWire event.coordinates

def controllerWire (controller : Option Controller) : FieldPath × Option PyScalar :=
  ([.field "payload", .field "controller"],
    controller.map fun controller => .str ⟨Str.ofString controller.value⟩)

def payloadWire (name : String) (value : Option PyScalar) : FieldPath × Option PyScalar :=
  ([.field "payload", .field name], value)

def multiActionWire (isInMultiAction : Bool) : FieldPath × Option PyScalar :=
  payloadWire "isInMultiAction" (some (.bool isInMultiAction))

def stateWire (state : Option Int) : FieldPath × Option PyScalar :=
  payloadWire "state" (state.map .int)

def visibilityWire (event : AppearanceEvent) : WireFields :=
  actionPayloadWire event.toActionPayloadEvent ++
    [controllerWire (some event.controller), multiActionWire event.isInMultiAction,
      stateWire event.state]

def didReceiveSettingsWire (event : DidReceiveSettingsEvent) : WireFields :=
  actionPayloadWire event.toActionPayloadEvent ++
    [multiActionWire event.isInMultiAction, controllerWire event.controller, stateWire event.state]

def keyWire (event : KeyEvent) : WireFields :=
  actionPayloadWire event.toActionPayloadEvent ++
    [multiActionWire event.isInMultiAction, controllerWire event.controller, stateWire event.state,
      payloadWire "userDesiredState" (event.userDesiredState.map .int)]

def dialPressWire (event : DialPressEvent) : WireFields :=
  actionPayloadWire event.toActionPayloadEvent ++ [controllerWire (some event.controller)]

def dialRotateWire (event : DialRotateEvent) : WireFields :=
  actionPayloadWire event.toActionPayloadEvent ++
    [payloadWire "ticks" (some (.int event.ticks)), payloadWire "pressed" (some (.bool event.pressed)),
      controllerWire event.controller]

def titleParametersWire (parameters : TitleParameters) : WireFields :=
  [(titlePath ++ [PathComponent.field "titleAlignment"],
      some (.str ⟨Str.ofString parameters.alignment.value⟩)),
    (titlePath ++ [PathComponent.field "fontFamily"], some (.str parameters.fontFamily)),
    (titlePath ++ [PathComponent.field "fontSize"], some (.int parameters.fontSize)),
    (titlePath ++ [PathComponent.field "fontStyle"], some (.str parameters.fontStyle)),
    (titlePath ++ [PathComponent.field "fontUnderline"], some (.bool parameters.fontUnderline)),
    (titlePath ++ [PathComponent.field "showTitle"], some (.bool parameters.showTitle)),
    (titlePath ++ [PathComponent.field "titleColor"], some (.str parameters.color))]

def titleWire (event : TitleParametersDidChangeEvent) : WireFields :=
  actionPayloadWire event.toActionPayloadEvent ++
    (payloadWire "title" (some (.str event.title)) ::
      (titleParametersWire event.titleParameters ++
        [controllerWire event.controller, stateWire event.state]))

def sendToPluginWire (event : SendToPluginEvent) : WireFields :=
  actionWire event.toActionEvent ++
    [([.field "device"], event.device.map .str), payloadWire "event" (event.message.name.map .str)]

def deviceInfoWire (info : DeviceInfo) : WireFields :=
  [([.field "deviceInfo", .field "name"], some (.str info.name)),
    ([.field "deviceInfo", .field "type"], some (.int info.type)),
    ([.field "deviceInfo", .field "size", .field "columns"], some (.int info.size.columns)),
    ([.field "deviceInfo", .field "size", .field "rows"], some (.int info.size.rows))]

def optionalDeviceInfoWire : Option DeviceInfo → WireFields
  | none => [([.field "deviceInfo"], none)]
  | some info => deviceInfoWire info

def deviceWire (device : Str) : FieldPath × Option PyScalar :=
  ([.field "device"], some (.str device))

end Parser

namespace StreamDockEvent

open StreamDockSdk.Parser

/-- The kind of a known event. -/
def kind? : StreamDockEvent → Option StreamDockEventType
  | .willAppear _ => some .willAppear
  | .willDisappear _ => some .willDisappear
  | .didReceiveSettings _ => some .didReceiveSettings
  | .titleParametersDidChange _ => some .titleParametersDidChange
  | .keyDown _ => some .keyDown
  | .keyUp _ => some .keyUp
  | .touchTap _ => some .touchTap
  | .dialDown _ => some .dialDown
  | .dialUp _ => some .dialUp
  | .dialRotate _ => some .dialRotate
  | .propertyInspectorDidAppear _ => some .propertyInspectorDidAppear
  | .propertyInspectorDidDisappear _ => some .propertyInspectorDidDisappear
  | .sendToPlugin _ => some .sendToPlugin
  | .didReceiveGlobalSettings _ => some .didReceiveGlobalSettings
  | .deviceDidConnect _ _ => some .deviceDidConnect
  | .deviceDidDisconnect _ _ => some .deviceDidDisconnect
  | .applicationDidLaunch _ => some .applicationDidLaunch
  | .applicationDidTerminate _ => some .applicationDidTerminate
  | .systemDidWakeUp => some .systemDidWakeUp
  | .unknown _ _ | .unroutedAction _ | .unrouted _ => none

/-- The scalar fields of an event at their paths. -/
def wire : StreamDockEvent → WireFields
  | .willAppear event | .willDisappear event => visibilityWire event
  | .didReceiveSettings event => didReceiveSettingsWire event
  | .titleParametersDidChange event => titleWire event
  | .keyDown event | .keyUp event | .touchTap event => keyWire event
  | .dialDown event | .dialUp event => dialPressWire event
  | .dialRotate event => dialRotateWire event
  | .propertyInspectorDidAppear event | .propertyInspectorDidDisappear event =>
      deviceActionWire event
  | .sendToPlugin event => sendToPluginWire event
  | .deviceDidConnect device info => deviceInfoWire info ++ [deviceWire device]
  | .deviceDidDisconnect device info => deviceWire device :: optionalDeviceInfoWire info
  | .applicationDidLaunch application | .applicationDidTerminate application =>
      [payloadWire "application" (some (.str application))]
  | .unknown event _ => [([.field "event"], some (.str event))]
  | .didReceiveGlobalSettings _ | .systemDidWakeUp | .unroutedAction _ | .unrouted _ => []

def settingsPath : FieldPath := [.field "payload", .field "settings"]

/-- The JSON object of an event and its path. -/
def object? : StreamDockEvent → Option (FieldPath × JsonObject)
  | .willAppear event | .willDisappear event => some (settingsPath, event.settings)
  | .didReceiveSettings event => some (settingsPath, event.settings)
  | .titleParametersDidChange event => some (settingsPath, event.settings)
  | .keyDown event | .keyUp event | .touchTap event => some (settingsPath, event.settings)
  | .dialDown event | .dialUp event => some (settingsPath, event.settings)
  | .dialRotate event => some (settingsPath, event.settings)
  | .sendToPlugin event => some ([.field "payload"], event.message.value)
  | .didReceiveGlobalSettings settings => some (settingsPath, settings)
  | .unknown _ data => some ([], data)
  | .propertyInspectorDidAppear _ | .propertyInspectorDidDisappear _ | .deviceDidConnect _ _
  | .deviceDidDisconnect _ _ | .applicationDidLaunch _ | .applicationDidTerminate _
  | .systemDidWakeUp | .unroutedAction _ | .unrouted _ => none

end StreamDockEvent

namespace Parser

variable {heap : PyHeap} {root : PyValue} {data : Data} {event : Str} {path : FieldPath}

/-- The scalars stand at their paths. -/
def Carries (heap : PyHeap) (root : PyValue) (fields : WireFields) : Prop :=
  ∀ field ∈ fields, fieldAt heap root field.1 = field.2.map PyScalar.value

@[simp] theorem carries_nil : Carries heap root [] :=
  fun _ => nofun

@[simp] theorem carries_cons {field : FieldPath × Option PyScalar} {fields : WireFields} :
    Carries heap root (field :: fields) ↔
      fieldAt heap root field.1 = field.2.map PyScalar.value ∧ Carries heap root fields :=
  List.forall_mem_cons

@[simp] theorem carries_append {fields others : WireFields} :
    Carries heap root (fields ++ others) ↔
      Carries heap root fields ∧ Carries heap root others :=
  List.forall_mem_append

theorem map_int_value (number : Option Int) :
    (number.map PyScalar.int).map PyScalar.value = number.map .int := by
  cases number <;> rfl

theorem map_str_value (text : Option Str) :
    (text.map PyScalar.str).map PyScalar.value = text.map .str := by
  cases text <;> rfl

/-- The object is a clone of what stands at the path. -/
def OwnedAt (heap : PyHeap) (root : PyValue) (path : FieldPath) (object : OwnedObject) : Prop :=
  ∃ value, fieldAt heap root path = some value ∧ cloneEventObject heap value = .ok object

theorem ofValue?_controller {raw : Str} {controller : Controller}
    (converted : Controller.ofValue? raw = some controller) :
    raw = ⟨Str.ofString controller.value⟩ := by
  unfold Controller.ofValue? at converted
  simpa using List.find?_some converted

theorem ofValue?_alignment {raw : Str} {alignment : TitleAlignment}
    (converted : TitleAlignment.ofValue? raw = some alignment) :
    raw = ⟨Str.ofString alignment.value⟩ := by
  unfold TitleAlignment.ofValue? at converted
  simpa using List.find?_some converted

theorem requireController_wire (located : DataAt heap root payloadPath data) :
    Reads heap root event [controllerField true] (requireController data event)
      fun controller => fieldAt heap root (controllerWire (some controller)).1 =
        (controllerWire (some controller)).2.map PyScalar.value := by
  refine (requireController_reads located).imp ?_
  rintro controller ⟨raw, found, converted⟩
  rw [ofValue?_controller converted] at found
  exact found

theorem optionalController_wire (located : DataAt heap root payloadPath data) :
    Reads heap root event [controllerField false] (optionalController data event)
      fun controller => fieldAt heap root (controllerWire controller).1 =
        (controllerWire controller).2.map PyScalar.value := by
  refine (optionalController_reads located).imp ?_
  rintro (- | controller) found
  · exact found
  · obtain ⟨raw, found, converted⟩ := found
    rw [ofValue?_controller converted] at found
    exact found

theorem coordinates_reads (located : DataAt heap root payloadPath data) :
    Reads heap root event coordinateFields (coordinates heap data event)
      fun parsed => Carries heap root (coordinatesWire parsed) := by
  refine .next (requireObject_reads located ⟨rfl, rfl, rfl, rfl⟩) fun value valueAt => ?_
  refine .next (requireInt_reads valueAt ⟨rfl, rfl, rfl, rfl⟩) fun column first => ?_
  refine .next (requireInt_reads valueAt ⟨rfl, rfl, rfl, rfl⟩) fun row second => .pure ?_
  simp only [coordinatesWire, carries_cons, carries_nil, and_true]
  exact ⟨first, second⟩

theorem deviceIdentity_reads (located : DataAt heap root [] data) :
    Reads heap root event deviceActionFields (deviceIdentity data event)
      fun parsed => Carries heap root (deviceActionWire parsed) := by
  refine .next (requireString_reads located ⟨rfl, rfl, rfl, rfl⟩) fun action first => ?_
  refine .next (requireString_reads located ⟨rfl, rfl, rfl, rfl⟩) fun context second => ?_
  refine .next (requireString_reads located ⟨rfl, rfl, rfl, rfl⟩) fun device third => .pure ?_
  simp only [deviceActionWire, actionWire, carries_append, carries_cons, carries_nil, and_true]
  exact ⟨⟨first, second⟩, third⟩

/-- The common part of the events of an action with a payload. -/
structure PayloadRead (heap : PyHeap) (root : PyValue) (action : ActionPayload) : Prop where
  carries : Carries heap root (actionPayloadWire action.event)
  payload : DataAt heap root payloadPath action.payload
  owned : OwnedAt heap root StreamDockEvent.settingsPath action.object
  settings : action.event.settings = action.object.entries

theorem actionPayload_reads (located : DataAt heap root [] data) :
    Reads heap root event actionPayloadFields (actionPayload heap data event)
      (PayloadRead heap root) := by
  refine .andThen (deviceIdentity_reads located) fun identity identified => ?_
  refine .next (requireObject_reads located ⟨rfl, rfl, rfl, rfl⟩) fun payload payloadAt => ?_
  refine .next (requireOwned_reads payloadAt ⟨rfl, rfl, rfl, rfl⟩) fun object owned => ?_
  refine .last (coordinates_reads payloadAt) fun coordinates placed => ?_
  exact ⟨carries_append.mpr ⟨identified, placed⟩, payloadAt, owned, rfl⟩

theorem requireDeviceInfo_reads (located : DataAt heap root [] data) {required : Bool}
    {within : FieldPath}
    (counted : required = true ∨ (fieldAt heap root [.field "deviceInfo"]).isSome = true)
    (present : (fieldAt heap root within).isSome = true) :
    Reads heap root event (deviceInfoFields required within) (requireDeviceInfo heap data event)
      fun parsed => Carries heap root (deviceInfoWire parsed) := by
  refine .next (requireObject_present located ⟨rfl, rfl, rfl, rfl⟩ counted) fun value valueAt => ?_
  refine .next (requireObject_reads valueAt ⟨rfl, rfl, rfl, present⟩) fun size sizeAt => ?_
  refine .next (requireString_reads valueAt ⟨rfl, rfl, rfl, present⟩) fun name first => ?_
  refine .next (requireInt_reads valueAt ⟨rfl, rfl, rfl, present⟩) fun type second => ?_
  refine .next (requireInt_reads sizeAt ⟨rfl, rfl, rfl, present⟩) fun columns third => ?_
  refine .next (requireInt_reads sizeAt ⟨rfl, rfl, rfl, present⟩) fun rows fourth => .pure ?_
  simp only [deviceInfoWire, carries_cons, carries_nil, and_true]
  exact ⟨first, second, third, fourth⟩

/-- Nothing is read where there is no device information. -/
theorem deviceInfoFields_absent
    (absent : fieldAt heap root [.field "deviceInfo"] = none) :
    firstFailure heap root ((deviceInfoFields false [.field "deviceInfo"]).flatMap
      (SchemaField.rules event)) = none := by
  have whole : fieldAt heap root [] = some root := rfl
  simp only [firstFailure, deviceInfoFields, List.flatMap_cons, List.flatMap_nil,
    SchemaField.rules, List.cons_append, List.nil_append, List.findSome?_cons,
    List.findSome?_nil, typeRule, FieldRule.given, absent, whole, Option.bind_none,
    Option.bind_some, optionalRule, Bool.false_eq_true, if_false]

theorem optionalDeviceInfo_reads (located : DataAt heap root [] data) :
    Reads heap root event (deviceInfoFields false [.field "deviceInfo"])
      (optionalDeviceInfo heap data event)
      fun parsed => Carries heap root (optionalDeviceInfoWire parsed) := by
  unfold optionalDeviceInfo
  rw [located.lookup, List.nil_append]
  cases found : fieldAt heap root [.field "deviceInfo"] with
  | none => exact ⟨deviceInfoFields_absent found, carries_cons.mpr ⟨found, carries_nil⟩⟩
  | some value =>
      have present : (fieldAt heap root [.field "deviceInfo"]).isSome = true := by rw [found]; rfl
      exact .last (requireDeviceInfo_reads located (.inr present) present) fun _ carries => carries

theorem requireAlignment_reads (located : DataAt heap root titlePath data) :
    Reads heap root event [{ path := titlePath ++ [.field "titleAlignment"], type := .alignment }]
      (requireString data "titleAlignment" event titlePath >>= alignmentOf event)
      fun alignment => fieldAt heap root (titlePath ++ [.field "titleAlignment"]) =
        some (.str ⟨Str.ofString alignment.value⟩) := by
  unfold Reads
  rw [List.flatMap_singleton]
  refine Checks.read ((requireField_type (fun _ => strOf) _ _ located rfl rfl (.inl rfl)).imp fun _ => bind_strOf.mp) fun raw found => ?_
  refine (alignmentOf_checks found).imp fun alignment converted => ?_
  rw [← ofValue?_alignment converted]
  exact found

theorem titleParameters_reads (located : DataAt heap root payloadPath data) :
    Reads heap root event titleParameterFields (titleParameters heap data event)
      fun parsed => Carries heap root (titleParametersWire parsed) := by
  refine .next (requireObject_reads located ⟨rfl, rfl, rfl, rfl⟩) fun value valueAt => ?_
  rw [← bind_assoc]
  refine .next (requireAlignment_reads valueAt) fun alignment first => ?_
  refine .next (requireString_reads valueAt ⟨rfl, rfl, rfl, rfl⟩) fun fontFamily second => ?_
  refine .next (requireInt_reads valueAt ⟨rfl, rfl, rfl, rfl⟩) fun fontSize third => ?_
  refine .next (requireString_reads valueAt ⟨rfl, rfl, rfl, rfl⟩) fun fontStyle fourth => ?_
  refine .next (requireBool_reads valueAt ⟨rfl, rfl, rfl, rfl⟩) fun fontUnderline fifth => ?_
  refine .next (requireBool_reads valueAt ⟨rfl, rfl, rfl, rfl⟩) fun showTitle sixth => ?_
  refine .next (requireString_reads valueAt ⟨rfl, rfl, rfl, rfl⟩) fun color seventh => .pure ?_
  simp only [titleParametersWire, carries_cons, carries_nil, and_true]
  exact ⟨first, second, third, fourth, fifth, sixth, seventh⟩

theorem DenotesJson.strOf_eq {depth : Nat} {value : PyValue} {tree : JsonValue}
    (denotes : DenotesJson heap depth value tree) :
    strOf value = match tree with
      | .str text => some text
      | _ => none := by
  by_cases flat : ∀ identity, value ≠ .container identity
  · rw [denotesJson_scalar flat] at denotes
    cases value with
    | float bits =>
        simp only [jsonScalar?] at denotes
        split at denotes <;> cases denotes
        rfl
    | container identity => exact absurd rfl (flat identity)
    | other => cases denotes
    | _ =>
        cases denotes
        rfl
  · push Not at flat
    obtain ⟨identity, rfl⟩ := flat
    cases depth with
    | zero => cases denotes
    | succ depth =>
        rcases denotes with ⟨_, _, _, rfl, _⟩ | ⟨_, _, _, rfl, _⟩ <;> rfl

/-- The name that is read in the clone is the one of the message. -/
theorem messageName_eq {depth : Nat} {entries : JsonObject}
    (related : List.Forall₂ (fun entry field =>
      entry.1 = .str field.1 ∧ DenotesJson heap depth entry.2 field.2) data entries) :
    messageName event entries = optionalString data "event" event payloadPath := by
  unfold messageName optionalString optionalField lookup
  induction related with
  | nil => rfl
  | @cons entry field data entries first _ ih =>
      simp only [List.find?_cons, first.1, PyValue.str.injEq]
      by_cases named : field.1 = ⟨Str.ofString "event"⟩
      · simp only [named, decide_true, Option.map_some]
        rw [DenotesJson.strOf_eq first.2]
        obtain ⟨name, tree⟩ := field
        cases tree <;> rfl
      · simp only [named, decide_false]
        exact ih

theorem messageName_reads {object : OwnedObject} (owned : OwnedAt heap root payloadPath object) :
    Reads heap root event
      [{ path := [.field "payload", .field "event"], type := .string, required := false }]
      (messageName event object.entries)
      fun name => fieldAt heap root [.field "payload", .field "event"] = name.map .str := by
  obtain ⟨value, found, cloned⟩ := owned
  have denotes := cloneJsonValue_denotes (cloneJsonObject_eq_ok (cloneEventObject_ok cloned).1)
  cases value with
  | container identity =>
      rcases denotes with ⟨_, _, _, same, _⟩ | ⟨data, entries, located, same, related⟩
      · cases same
      · cases same
        have payloadAt : DataAt heap root payloadPath data := by
          rw [DataAt, found, Option.bind_some, dictEntries?, located]
        rw [messageName_eq related]
        exact optionalString_reads payloadAt ⟨rfl, rfl, rfl, rfl⟩
  | float bits =>
      have scalar := (denotesJson_scalar (by simp)).mp denotes
      simp only [jsonScalar?] at scalar
      split at scalar <;> cases scalar
  | _ => cases (denotesJson_scalar (by simp)).mp denotes

/-- The event has the fields of the message, and a clone of its JSON object. -/
structure ParsedAs (heap : PyHeap) (root : PyValue) (kind : StreamDockEventType)
    (parsed : Parsed) : Prop where
  kind : parsed.1.kind? = some kind
  carries : Carries heap root parsed.1.wire
  object : match parsed.1.object?, parsed.2 with
    | some (path, entries), some object =>
        OwnedAt heap root path object ∧ entries = object.entries
    | none, none => True
    | _, _ => False

section Payloads

variable (located : DataAt heap root [] data)

/-- What is read for an event with settings. -/
def SettingsRead {α : Type} (heap : PyHeap) (root : PyValue) (wire : α → WireFields)
    (settings : α → JsonObject) (parsed : α × OwnedObject) : Prop :=
  Carries heap root (wire parsed.1) ∧ OwnedAt heap root StreamDockEvent.settingsPath parsed.2 ∧
    settings parsed.1 = parsed.2.entries

include located

theorem parseVisibilityEvent_reads :
    Reads heap root event visibilityFields (parseVisibilityEvent heap data event)
      (SettingsRead heap root visibilityWire (·.settings)) := by
  refine .andThen (actionPayload_reads located) fun action read => ?_
  refine .next (requireController_wire read.payload) fun controller first => ?_
  refine .next (requireBool_reads read.payload ⟨rfl, rfl, rfl, rfl⟩) fun multi second => ?_
  refine .next (optionalInt_reads read.payload ⟨rfl, rfl, rfl, rfl⟩) fun state third => .pure ?_
  refine ⟨?_, read.owned, read.settings⟩
  simp only [visibilityWire, carries_append, carries_cons, carries_nil, and_true]
  exact ⟨read.carries, first, second, third.trans (map_int_value state).symm⟩

theorem parseDidReceiveSettings_reads :
    Reads heap root event didReceiveSettingsFields (parseDidReceiveSettings heap data event)
      (SettingsRead heap root didReceiveSettingsWire (·.settings)) := by
  refine .andThen (actionPayload_reads located) fun action read => ?_
  refine .next (requireBool_reads read.payload ⟨rfl, rfl, rfl, rfl⟩) fun multi first => ?_
  refine .next (optionalController_wire read.payload) fun controller second => ?_
  refine .next (optionalInt_reads read.payload ⟨rfl, rfl, rfl, rfl⟩) fun state third => .pure ?_
  refine ⟨?_, read.owned, read.settings⟩
  simp only [didReceiveSettingsWire, carries_append, carries_cons, carries_nil, and_true]
  exact ⟨read.carries, first, second, third.trans (map_int_value state).symm⟩

theorem parseKeyEvent_reads :
    Reads heap root event keyFields (parseKeyEvent heap data event)
      (SettingsRead heap root keyWire (·.settings)) := by
  refine .andThen (actionPayload_reads located) fun action read => ?_
  refine .next (requireBool_reads read.payload ⟨rfl, rfl, rfl, rfl⟩) fun multi first => ?_
  refine .next (optionalController_wire read.payload) fun controller second => ?_
  refine .next (optionalInt_reads read.payload ⟨rfl, rfl, rfl, rfl⟩) fun state third => ?_
  refine .next (optionalInt_reads read.payload ⟨rfl, rfl, rfl, rfl⟩) fun desired fourth => .pure ?_
  refine ⟨?_, read.owned, read.settings⟩
  simp only [keyWire, carries_append, carries_cons, carries_nil, and_true]
  exact ⟨read.carries, first, second, third.trans (map_int_value state).symm,
    fourth.trans (map_int_value desired).symm⟩

theorem parseDialPressEvent_reads :
    Reads heap root event dialPressFields (parseDialPressEvent heap data event)
      (SettingsRead heap root dialPressWire (·.settings)) := by
  refine .andThen (actionPayload_reads located) fun action read => ?_
  refine .next (requireController_wire read.payload) fun controller first => .pure ?_
  refine ⟨?_, read.owned, read.settings⟩
  simp only [dialPressWire, carries_append, carries_cons, carries_nil, and_true]
  exact ⟨read.carries, first⟩

theorem parseDialRotate_reads :
    Reads heap root event dialRotateFields (parseDialRotate heap data event)
      (SettingsRead heap root dialRotateWire (·.settings)) := by
  refine .andThen (actionPayload_reads located) fun action read => ?_
  refine .next (requireInt_reads read.payload ⟨rfl, rfl, rfl, rfl⟩) fun ticks first => ?_
  refine .next (requireBool_reads read.payload ⟨rfl, rfl, rfl, rfl⟩) fun pressed second => ?_
  refine .next (optionalController_wire read.payload) fun controller third => .pure ?_
  refine ⟨?_, read.owned, read.settings⟩
  simp only [dialRotateWire, carries_append, carries_cons, carries_nil, and_true]
  exact ⟨read.carries, first, second, third⟩

theorem parseTitleParametersDidChange_reads :
    Reads heap root event titleFields (parseTitleParametersDidChange heap data event)
      (SettingsRead heap root titleWire (·.settings)) := by
  refine .andThen (actionPayload_reads located) fun action read => ?_
  refine .next (requireString_reads read.payload ⟨rfl, rfl, rfl, rfl⟩) fun title first => ?_
  refine .andThen (titleParameters_reads read.payload) fun parameters second => ?_
  refine .next (optionalController_wire read.payload) fun controller third => ?_
  refine .next (optionalInt_reads read.payload ⟨rfl, rfl, rfl, rfl⟩) fun state fourth => .pure ?_
  refine ⟨?_, read.owned, read.settings⟩
  simp only [titleWire, carries_append, carries_cons, carries_nil, and_true]
  exact ⟨read.carries, first, second, third, fourth.trans (map_int_value state).symm⟩

theorem parseSendToPlugin_reads :
    Reads heap root event sendToPluginFields (parseSendToPlugin heap data event)
      fun parsed => Carries heap root (sendToPluginWire parsed.1) ∧
        OwnedAt heap root payloadPath parsed.2 ∧
        parsed.1.message.value = parsed.2.entries := by
  refine .next (requireString_reads located ⟨rfl, rfl, rfl, rfl⟩) fun action first => ?_
  refine .next (requireString_reads located ⟨rfl, rfl, rfl, rfl⟩) fun context second => ?_
  refine .next (optionalString_reads located ⟨rfl, rfl, rfl, rfl⟩) fun device third => ?_
  refine .next (requireOwned_reads located ⟨rfl, rfl, rfl, rfl⟩) fun object owned => ?_
  refine .next (messageName_reads owned) fun name fourth => .pure ⟨?_, owned, rfl⟩
  simp only [sendToPluginWire, actionWire, carries_append, carries_cons, carries_nil, and_true]
  exact ⟨⟨first, second⟩, third.trans (map_str_value device).symm,
    fourth.trans (map_str_value name).symm⟩

theorem parseDidReceiveGlobalSettings_reads :
    Reads heap root event globalSettingsFields (parseDidReceiveGlobalSettings heap data event)
      (OwnedAt heap root StreamDockEvent.settingsPath) := by
  refine .next (requireObject_reads located ⟨rfl, rfl, rfl, rfl⟩) fun payload payloadAt => ?_
  exact requireOwned_reads payloadAt ⟨rfl, rfl, rfl, rfl⟩

theorem parseDeviceDidConnect_reads :
    Reads heap root event (deviceInfoFields true [] ++ [deviceField])
      (parseDeviceDidConnect heap data event)
      fun parsed => Carries heap root (deviceInfoWire parsed.1 ++ [deviceWire parsed.2]) := by
  refine .andThen (requireDeviceInfo_reads located (.inl rfl) rfl) fun info first => ?_
  refine .next (requireString_reads located ⟨rfl, rfl, rfl, rfl⟩) fun device second => .pure ?_
  simp only [carries_append, carries_cons, carries_nil, and_true]
  exact ⟨first, second⟩

theorem parseDeviceDidDisconnect_reads :
    Reads heap root event (deviceField :: deviceInfoFields false [.field "deviceInfo"])
      (parseDeviceDidDisconnect heap data event)
      fun parsed => Carries heap root
        (deviceWire parsed.1 :: optionalDeviceInfoWire parsed.2) := by
  refine .next (requireString_reads located ⟨rfl, rfl, rfl, rfl⟩) fun device first => ?_
  refine .last (optionalDeviceInfo_reads located) fun info second => ?_
  exact carries_cons.mpr ⟨first, second⟩

theorem parseApplicationEvent_reads :
    Reads heap root event applicationFields (parseApplicationEvent heap data event)
      fun application => Carries heap root
        [payloadWire "application" (some (.str application))] := by
  refine .next (requireObject_reads located ⟨rfl, rfl, rfl, rfl⟩) fun payload payloadAt => ?_
  refine (requireString_reads payloadAt ⟨rfl, rfl, rfl, rfl⟩).imp fun application found => ?_
  exact carries_cons.mpr ⟨found, carries_nil⟩

/-- The parser of each kind goes by the schema of the kind. -/
theorem parserOf_reads (kind : StreamDockEventType) :
    Reads heap root event (fieldsOf kind) (parserOf heap data event kind)
      (ParsedAs heap root kind) := by
  cases kind with
  | willAppear | willDisappear =>
      exact (parseVisibilityEvent_reads located).map fun _ read => ⟨rfl, read.1, read.2⟩
  | didReceiveSettings =>
      exact (parseDidReceiveSettings_reads located).map fun _ read => ⟨rfl, read.1, read.2⟩
  | titleParametersDidChange =>
      exact (parseTitleParametersDidChange_reads located).map fun _ read => ⟨rfl, read.1, read.2⟩
  | keyDown | keyUp | touchTap =>
      exact (parseKeyEvent_reads located).map fun _ read => ⟨rfl, read.1, read.2⟩
  | dialDown | dialUp =>
      exact (parseDialPressEvent_reads located).map fun _ read => ⟨rfl, read.1, read.2⟩
  | dialRotate =>
      exact (parseDialRotate_reads located).map fun _ read => ⟨rfl, read.1, read.2⟩
  | propertyInspectorDidAppear | propertyInspectorDidDisappear =>
      exact (deviceIdentity_reads located).map fun _ read => ⟨rfl, read, trivial⟩
  | sendToPlugin =>
      exact (parseSendToPlugin_reads located).map fun _ read => ⟨rfl, read.1, read.2⟩
  | didReceiveGlobalSettings =>
      exact (parseDidReceiveGlobalSettings_reads located).map fun _ owned =>
        ⟨rfl, carries_nil, owned, rfl⟩
  | deviceDidConnect =>
      exact (parseDeviceDidConnect_reads located).map fun _ read => ⟨rfl, read, trivial⟩
  | deviceDidDisconnect =>
      exact (parseDeviceDidDisconnect_reads located).map fun _ read => ⟨rfl, read, trivial⟩
  | applicationDidLaunch | applicationDidTerminate =>
      exact (parseApplicationEvent_reads located).map fun _ read => ⟨rfl, read, trivial⟩
  | systemDidWakeUp => exact .pure ⟨rfl, carries_nil, trivial⟩

end Payloads

end Parser

end StreamDockSdk
