import StreamDockSdk.Protocol.Parser

namespace StreamDockSdk.Parser

/-! # The schema of the events

For each kind of event its fields, in the order in which they are read.
-/

inductive FieldType where
  | string
  | integer
  | boolean
  | object
  /-- An object whose content is JSON as well. -/
  | jsonObject
  | controller
  | alignment
deriving DecidableEq, Repr

structure SchemaField where
  path : FieldPath
  type : FieldType
  required : Bool := true
  /-- The field counts where something stands at this path. -/
  within : FieldPath := []

def FieldType.accepts (heap : PyHeap) : FieldType → PyValue → Bool
  | .string, value => (strOf value).isSome
  | .integer, value => (intOf value).isSome
  | .boolean, value => (boolOf value).isSome
  | .object, value => (dictEntries? heap value).isSome
  | .jsonObject, value => (dictEntries? heap value).isSome && isJsonValue heap value
  | .controller, value => ((strOf value).bind Controller.ofValue?).isSome
  | .alignment, value => ((strOf value).bind TitleAlignment.ofValue?).isSome

/-- The field is missing though it is required, or of the wrong type. -/
def SchemaField.Fails (heap : PyHeap) (root : PyValue) (field : SchemaField) : Prop :=
  (fieldAt heap root field.within).isSome = true ∧
    match fieldAt heap root field.path with
    | none => field.required = true
    | some value => field.type.accepts heap value = false

section Kinds

def actionFields : List SchemaField :=
  [{ path := [.field "action"], type := .string }, { path := [.field "context"], type := .string }]

def deviceActionFields : List SchemaField :=
  actionFields ++ [{ path := [.field "device"], type := .string }]

def coordinateFields : List SchemaField :=
  [{ path := [.field "payload", .field "coordinates"], type := .object },
    { path := [.field "payload", .field "coordinates", .field "column"], type := .integer },
    { path := [.field "payload", .field "coordinates", .field "row"], type := .integer }]

def actionPayloadFields : List SchemaField :=
  deviceActionFields ++
    ([{ path := [.field "payload"], type := .object },
      { path := [.field "payload", .field "settings"], type := .jsonObject }] ++
    coordinateFields)

def controllerField (required : Bool) : SchemaField :=
  { path := [.field "payload", .field "controller"], type := .controller, required }

def multiActionField : SchemaField :=
  { path := [.field "payload", .field "isInMultiAction"], type := .boolean }

def stateField : SchemaField :=
  { path := [.field "payload", .field "state"], type := .integer, required := false }

def titleParameterFields : List SchemaField :=
  [{ path := titlePath, type := .object },
    { path := titlePath ++ [.field "titleAlignment"], type := .alignment },
    { path := titlePath ++ [.field "fontFamily"], type := .string },
    { path := titlePath ++ [.field "fontSize"], type := .integer },
    { path := titlePath ++ [.field "fontStyle"], type := .string },
    { path := titlePath ++ [.field "fontUnderline"], type := .boolean },
    { path := titlePath ++ [.field "showTitle"], type := .boolean },
    { path := titlePath ++ [.field "titleColor"], type := .string }]

/-- The device information, which counts where `within` is there. -/
def deviceInfoFields (required : Bool) (within : FieldPath) : List SchemaField :=
  [{ path := [.field "deviceInfo"], type := .object, required },
    { path := [.field "deviceInfo", .field "size"], type := .object, within },
    { path := [.field "deviceInfo", .field "name"], type := .string, within },
    { path := [.field "deviceInfo", .field "type"], type := .integer, within },
    { path := [.field "deviceInfo", .field "size", .field "columns"], type := .integer, within },
    { path := [.field "deviceInfo", .field "size", .field "rows"], type := .integer, within }]

def visibilityFields : List SchemaField :=
  actionPayloadFields ++ [controllerField true, multiActionField, stateField]

def didReceiveSettingsFields : List SchemaField :=
  actionPayloadFields ++ [multiActionField, controllerField false, stateField]

def keyFields : List SchemaField :=
  actionPayloadFields ++ [multiActionField, controllerField false, stateField,
    { path := [.field "payload", .field "userDesiredState"], type := .integer, required := false }]

def dialPressFields : List SchemaField :=
  actionPayloadFields ++ [controllerField true]

def dialRotateFields : List SchemaField :=
  actionPayloadFields ++
    [{ path := [.field "payload", .field "ticks"], type := .integer },
      { path := [.field "payload", .field "pressed"], type := .boolean },
      controllerField false]

def titleFields : List SchemaField :=
  actionPayloadFields ++
    ({ path := [.field "payload", .field "title"], type := .string } ::
      (titleParameterFields ++ [controllerField false, stateField]))

def sendToPluginFields : List SchemaField :=
  actionFields ++
    [{ path := [.field "device"], type := .string, required := false },
      { path := [.field "payload"], type := .jsonObject },
      { path := [.field "payload", .field "event"], type := .string, required := false }]

def globalSettingsFields : List SchemaField :=
  [{ path := [.field "payload"], type := .object },
    { path := [.field "payload", .field "settings"], type := .jsonObject }]

def applicationFields : List SchemaField :=
  [{ path := [.field "payload"], type := .object },
    { path := [.field "payload", .field "application"], type := .string }]

def deviceField : SchemaField :=
  { path := [.field "device"], type := .string }

/-- The schema of a kind. -/
def fieldsOf : StreamDockEventType → List SchemaField
  | .willAppear | .willDisappear => visibilityFields
  | .didReceiveSettings => didReceiveSettingsFields
  | .titleParametersDidChange => titleFields
  | .keyDown | .keyUp | .touchTap => keyFields
  | .dialDown | .dialUp => dialPressFields
  | .dialRotate => dialRotateFields
  | .propertyInspectorDidAppear | .propertyInspectorDidDisappear => deviceActionFields
  | .sendToPlugin => sendToPluginFields
  | .didReceiveGlobalSettings => globalSettingsFields
  | .deviceDidConnect => deviceInfoFields true [] ++ [deviceField]
  | .deviceDidDisconnect => deviceField :: deviceInfoFields false [.field "deviceInfo"]
  | .applicationDidLaunch | .applicationDidTerminate => applicationFields
  | .systemDidWakeUp => []

end Kinds

variable {heap : PyHeap} {root : PyValue} {data : Data} {event : Str} {path : FieldPath}

/-- A rule for the type of a field, which is read as some value. -/
def typeRule {α : Type} (event : Str) (field : SchemaField) (narrow : PyHeap → PyValue → Option α)
    (expected : String) : FieldRule EventError :=
  .given field.within (if field.required
    then requiredRule (invalid (some event)) narrow expected field.path
    else optionalRule (invalid (some event)) narrow expected field.path)

/-- A rule for a text that must be one of some values. -/
def memberRule {α : Type} (event : Str) (path : FieldPath) (what : String) (values : List String)
    (convert : Str → Option α) : FieldRule EventError where
  path
  failure heap root := ((fieldAt heap root path).bind strOf).bind fun raw =>
    if (convert raw).isSome then none
    else some (.invalidField (some event) path (.unsupported what raw values))

/-- A rule for the content of an object. -/
def contentRule (path : FieldPath) : FieldRule EventError where
  path
  failure heap root := ((fieldAt heap root path).filter fun value =>
    (dictEntries? heap value).isSome).bind fun value =>
      match cloneEventObject heap value with
      | .ok _ => none
      | .error error => some error

def SchemaField.rules (event : Str) (field : SchemaField) : List (FieldRule EventError) :=
  match field.type with
  | .string => [typeRule event field (fun _ => strOf) "expected string"]
  | .integer => [typeRule event field (fun _ => intOf) "expected integer"]
  | .boolean => [typeRule event field (fun _ => boolOf) "expected boolean"]
  | .object => [typeRule event field dictEntries? "expected object"]
  | .jsonObject =>
      [typeRule event field dictEntries? "expected object", contentRule field.path]
  | .controller =>
      [typeRule event field (fun _ => strOf) "expected string",
        memberRule event field.path "controller" (Controller.members.map Controller.value)
          Controller.ofValue?]
  | .alignment =>
      [typeRule event field (fun _ => strOf) "expected string",
        memberRule event field.path "alignment" (TitleAlignment.members.map TitleAlignment.value)
          TitleAlignment.ofValue?]

/-- A parser goes by the rules of the fields. -/
abbrev Reads {α : Type} (heap : PyHeap) (root : PyValue) (event : Str) (fields : List SchemaField)
    (result : Except EventError α) (condition : α → Prop) : Prop :=
  Checks heap root (fields.flatMap (SchemaField.rules event)) result condition

namespace Reads

variable {α β : Type} {fields others : List SchemaField} {field : SchemaField}
variable {result : Except EventError α} {condition : α → Prop} {final : β → Prop}

theorem pure {parsed : α} (holds : condition parsed) :
    Reads heap root event [] (.ok parsed) condition :=
  Checks.pure holds

theorem next {following : α → Except EventError β}
    (first : Reads heap root event [field] result condition)
    (rest : ∀ parsed, condition parsed → Reads heap root event others (following parsed) final) :
    Reads heap root event (field :: others) (result >>= following) final := by
  unfold Reads at first ⊢
  rw [List.flatMap_singleton] at first
  rw [List.flatMap_cons]
  exact first.bind rest

theorem andThen {following : α → Except EventError β}
    (first : Reads heap root event fields result condition)
    (rest : ∀ parsed, condition parsed → Reads heap root event others (following parsed) final) :
    Reads heap root event (fields ++ others) (result >>= following) final := by
  unfold Reads
  rw [List.flatMap_append]
  exact Checks.bind first rest

/-- The last parser of a chain. -/
theorem last {following : α → β} (first : Reads heap root event fields result condition)
    (rest : ∀ parsed, condition parsed → final (following parsed)) :
    Reads heap root event fields (result >>= fun parsed => .ok (following parsed)) final := by
  have whole := andThen first fun parsed holds => @pure _ _ event _ _ _ (rest parsed holds)
  rw [List.append_nil] at whole
  exact whole

theorem map {build : α → β} (first : Reads heap root event fields result condition)
    (rest : ∀ parsed, condition parsed → final (build parsed)) :
    Reads heap root event fields (result.map build) final := by
  cases result with
  | error error => exact first
  | ok parsed => exact ⟨first.1, rest parsed first.2⟩

end Reads

theorem Checks.congr {α : Type} {other : FieldRule EventError} (rule : FieldRule EventError)
    {result : Except EventError α} {condition : α → Prop} (same : rule.failure heap root = other.failure heap root)
    (checks : Checks heap root [rule] result condition) :
    Checks heap root [other] result condition := by
  unfold Checks firstFailure at checks ⊢
  simp only [List.findSome?_cons, same] at checks ⊢
  exact checks

section Reading

variable {α : Type} {narrow : PyHeap → PyValue → Option α} {expected key : String}
variable {field : SchemaField}

theorem typeRule_failure (present : (fieldAt heap root field.within).isSome = true) :
    (typeRule event field narrow expected).failure heap root =
      (if field.required then requiredRule (invalid (some event)) narrow expected field.path
        else optionalRule (invalid (some event)) narrow expected field.path).failure heap root := by
  obtain ⟨value, found⟩ := Option.isSome_iff_exists.mp present
  simp only [typeRule, FieldRule.given, found, Option.bind_some]

variable (narrow expected field) in
theorem requireField_type (located : DataAt heap root path data)
    (present : (fieldAt heap root field.within).isSome = true)
    (at_ : field.path = path ++ [.field key])
    (counted : field.required = true ∨ (fieldAt heap root field.path).isSome = true) :
    Checks heap root [typeRule event field narrow expected]
      (requireField (invalid (some event)) (narrow heap) expected data key path)
      fun narrowed => (fieldAt heap root field.path).bind (narrow heap) = some narrowed := by
  refine Checks.congr (requiredRule (invalid (some event)) narrow expected field.path) ?_ ?_
  · rw [typeRule_failure present]
    cases required : field.required with
    | true => rw [if_pos rfl]
    | false =>
        obtain ⟨value, found⟩ := Option.isSome_iff_exists.mp (counted.resolve_left (by simp [required]))
        simp only [Bool.false_eq_true, if_false, requiredRule, optionalRule, requiredFailure, found,
          Option.bind_some]
  · rw [at_]
    exact requireField_checks located (invalid (some event)) narrow expected key

variable (narrow expected field) in
theorem optionalField_type (located : DataAt heap root path data)
    (present : (fieldAt heap root field.within).isSome = true)
    (at_ : field.path = path ++ [.field key]) (required : field.required = false) :
    Checks heap root [typeRule event field narrow expected]
      (optionalField (invalid (some event)) (narrow heap) expected data key path)
      fun narrowed => (fieldAt heap root field.path).map (narrow heap) = narrowed.map some := by
  refine Checks.congr (optionalRule (invalid (some event)) narrow expected field.path) ?_ ?_
  · rw [typeRule_failure present, required]
    rfl
  · rw [at_]
    exact optionalField_checks located (invalid (some event)) narrow expected key

/-- The field counts, and stands at the key that is read. -/
structure Reading (heap : PyHeap) (root : PyValue) (path : FieldPath) (key : String)
    (type : FieldType) (required : Bool) (field : SchemaField) : Prop where
  path : field.path = path ++ [.field key]
  type : field.type = type
  required : field.required = required
  present : (fieldAt heap root field.within).isSome = true

theorem requireString_reads (located : DataAt heap root path data)
    (reading : Reading heap root path key .string true field) :
    Reads heap root event [field] (requireString data key event path)
      fun text => fieldAt heap root field.path = some (.str text) := by
  unfold Reads
  rw [List.flatMap_singleton, SchemaField.rules, reading.type]
  exact (requireField_type (fun _ => strOf) _ field located reading.present reading.path
    (.inl reading.required)).imp fun _ => bind_strOf.mp

theorem optionalString_reads (located : DataAt heap root path data)
    (reading : Reading heap root path key .string false field) :
    Reads heap root event [field] (optionalString data key event path)
      fun text => fieldAt heap root field.path = text.map .str := by
  unfold Reads
  rw [List.flatMap_singleton, SchemaField.rules, reading.type]
  exact (optionalField_type (fun _ => strOf) _ field located reading.present reading.path
    reading.required).imp fun _ => map_strOf.mp

theorem requireInt_reads (located : DataAt heap root path data)
    (reading : Reading heap root path key .integer true field) :
    Reads heap root event [field] (requireInt data key event path)
      fun number => fieldAt heap root field.path = some (.int number) := by
  unfold Reads
  rw [List.flatMap_singleton, SchemaField.rules, reading.type]
  exact (requireField_type (fun _ => intOf) _ field located reading.present reading.path
    (.inl reading.required)).imp fun _ => bind_intOf.mp

theorem optionalInt_reads (located : DataAt heap root path data)
    (reading : Reading heap root path key .integer false field) :
    Reads heap root event [field] (optionalInt data key event path)
      fun number => fieldAt heap root field.path = number.map .int := by
  unfold Reads
  rw [List.flatMap_singleton, SchemaField.rules, reading.type]
  exact (optionalField_type (fun _ => intOf) _ field located reading.present reading.path
    reading.required).imp fun _ => map_intOf.mp

theorem requireBool_reads (located : DataAt heap root path data)
    (reading : Reading heap root path key .boolean true field) :
    Reads heap root event [field] (requireBool data key event path)
      fun truth => fieldAt heap root field.path = some (.bool truth) := by
  unfold Reads
  rw [List.flatMap_singleton, SchemaField.rules, reading.type]
  exact (requireField_type (fun _ => boolOf) _ field located reading.present reading.path
    (.inl reading.required)).imp fun _ => bind_boolOf.mp

/-- An object that is required, or is there. -/
theorem requireObject_present (located : DataAt heap root path data) {required : Bool}
    (reading : Reading heap root path key .object required field)
    (counted : required = true ∨ (fieldAt heap root field.path).isSome = true) :
    Reads heap root event [field] (requireObject heap data key event path)
      (DataAt heap root field.path) := by
  unfold Reads
  rw [List.flatMap_singleton, SchemaField.rules, reading.type]
  exact requireField_type _ _ field located reading.present reading.path (reading.required ▸ counted)

theorem requireObject_reads (located : DataAt heap root path data)
    (reading : Reading heap root path key .object true field) :
    Reads heap root event [field] (requireObject heap data key event path)
      (DataAt heap root field.path) :=
  requireObject_present located reading (.inl rfl)

/-- A text that was read is converted to one of some values. -/
theorem member_checks {raw : Str} {what : String} {values : List String} {path : FieldPath}
    {convert : Str → Option α} {result : Except EventError α}
    (found : fieldAt heap root path = some (.str raw))
    (same : result = match convert raw with
      | some member => .ok member
      | none => .error (.invalidField (some event) path (.unsupported what raw values))) :
    Checks heap root [memberRule event path what values convert] result
      fun member => convert raw = some member := by
  subst same
  unfold Checks firstFailure
  simp only [List.findSome?_cons, memberRule, found, Option.bind_some, strOf]
  cases convert raw <;> simp

theorem controllerOf_checks {raw : Str} {required : Bool}
    (found : fieldAt heap root (controllerField required).path = some (.str raw)) :
    Checks heap root [memberRule event (controllerField required).path "controller"
      (Controller.members.map Controller.value) Controller.ofValue?] (controllerOf event raw)
      fun controller => Controller.ofValue? raw = some controller := by
  refine member_checks found ?_
  unfold controllerOf
  cases Controller.ofValue? raw <;> rfl

theorem alignmentOf_checks {raw : Str}
    (found : fieldAt heap root (titlePath ++ [.field "titleAlignment"]) = some (.str raw)) :
    Checks heap root [memberRule event (titlePath ++ [.field "titleAlignment"]) "alignment"
      (TitleAlignment.members.map TitleAlignment.value) TitleAlignment.ofValue?]
      (alignmentOf event raw) fun alignment => TitleAlignment.ofValue? raw = some alignment := by
  refine member_checks found ?_
  unfold alignmentOf
  cases TitleAlignment.ofValue? raw <;> rfl

/-- The value at the path is the text of a member. -/
def MemberAt (heap : PyHeap) (root : PyValue) (path : FieldPath) (convert : Str → Option α)
    (member : α) : Prop :=
  ∃ raw, fieldAt heap root path = some (.str raw) ∧ convert raw = some member

theorem requireController_reads (located : DataAt heap root payloadPath data) :
    Reads heap root event [controllerField true] (requireController data event)
      (MemberAt heap root (controllerField true).path Controller.ofValue?) := by
  unfold Reads
  rw [List.flatMap_singleton]
  refine Checks.read ((requireField_type (fun _ => strOf) _ (controllerField true) located rfl rfl
    (.inl rfl)).imp fun _ => bind_strOf.mp) fun raw found => ?_
  exact (controllerOf_checks found).imp fun member converted => ⟨raw, found, converted⟩

theorem optionalController_reads (located : DataAt heap root payloadPath data) :
    Reads heap root event [controllerField false] (optionalController data event)
      fun controller => match controller with
        | none => fieldAt heap root (controllerField false).path = none
        | some member => MemberAt heap root (controllerField false).path Controller.ofValue? member := by
  unfold Reads
  rw [List.flatMap_singleton]
  refine Checks.read ((optionalField_type (fun _ => strOf) _ (controllerField false) located rfl rfl
    rfl).imp fun _ => map_strOf.mp) fun raw found => ?_
  cases raw with
  | none =>
      refine .skip ?_ (.pure found)
      simp only [memberRule, found, Option.map_none, Option.bind_none]
  | some raw =>
      rw [← List.append_nil [memberRule _ _ _ _ _]]
      refine Checks.bind (controllerOf_checks found) fun member converted => .pure ?_
      exact ⟨raw, found, converted⟩

theorem cloneEventObject_ok {value : PyValue} {object : OwnedObject}
    (ok : cloneEventObject heap value = .ok object) :
    cloneJsonObject heap value = .ok object.entries ∧
      cloneJsonValueInto heap maxJsonDepth [] value [] = .ok (object.root, object.built) := by
  unfold cloneEventObject at ok
  split at ok
  · next plain into =>
    cases ok
    exact ⟨plain, into⟩
  · contradiction
  · contradiction

theorem requireOwned_reads (located : DataAt heap root path data)
    (reading : Reading heap root path key .jsonObject true field) :
    Reads heap root event [field] (requireOwned heap data key event path)
      fun object => ∃ value, fieldAt heap root field.path = some value ∧
        cloneEventObject heap value = .ok object := by
  have first : Checks heap root [typeRule event field dictEntries? "expected object"] _ _ :=
    requireField_type dictEntries? "expected object" field located reading.present reading.path
      (.inl reading.required)
  unfold Reads
  rw [List.flatMap_singleton, SchemaField.rules, reading.type]
  have found : lookup data key = fieldAt heap root field.path := by
    rw [located.lookup, reading.path]
  unfold requireOwned requireObject
  revert first
  generalize requireField (invalid (some event)) (dictEntries? heap) "expected object" data key
    path = result
  intro first
  cases result with
  | error error =>
      have failed : firstFailure heap root [typeRule event field dictEntries? "expected object"] =
          some error := first
      simp only [firstFailure, List.findSome?_cons, List.findSome?_nil] at failed
      refine .refuse ?_
      revert failed
      cases (typeRule event field dictEntries? "expected object").failure heap root <;> simp
  | ok entries =>
      obtain ⟨passes, narrowed⟩ := first
      simp only [firstFailure, List.findSome?_cons, List.findSome?_nil] at passes
      refine .skip ?_ ?_
      · revert passes
        cases (typeRule event field dictEntries? "expected object").failure heap root <;> simp
      · obtain ⟨value, there, narrowed⟩ := Option.bind_eq_some_iff.mp narrowed
        rw [found, there]
        have isDict : (dictEntries? heap value).isSome = true := by rw [narrowed]; rfl
        change Checks heap root [contentRule field.path] (cloneEventObject heap value) _
        cases cloned : cloneEventObject heap value with
        | error error =>
            refine .refuse ?_
            simp only [contentRule, there, Option.filter_some, isDict, if_true, Option.bind_some,
              cloned]
        | ok object =>
            refine .skip ?_ (.pure ⟨value, rfl, cloned⟩)
            simp only [contentRule, there, Option.filter_some, isDict, if_true, Option.bind_some,
              cloned]

end Reading

end StreamDockSdk.Parser
