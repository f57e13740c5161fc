import StreamDockSdk.Protocol.Decoder

namespace StreamDockSdk.Protocol

open StreamDockSdk.Parser

/-- `_SCHEMA_KEYS` -/
def schemaKeys : List String :=
  ["event", "action", "context", "device", "payload", "settings", "coordinates", "column", "row",
    "controller", "isInMultiAction", "state", "userDesiredState", "ticks", "pressed", "title",
    "titleParameters", "titleAlignment", "fontFamily", "fontSize", "fontStyle", "fontUnderline",
    "showTitle", "titleColor", "deviceInfo", "name", "type", "size", "columns", "rows",
    "application"]

/-- What `_safe_path` appends for a part. -/
def safePart (pluginKeys : Bool) : PathComponent → PathComponent
  | .index index => .index index
  | .field name =>
      if !pluginKeys && schemaKeys.contains name then .field name else .field "<key>"

/-- `part == "settings" or part not in _SCHEMA_KEYS` -/
def leavesSchema : PathComponent → Bool
  | .index _ => true
  | .field name => name == "settings" || !schemaKeys.contains name

/-- The loop of `_safe_path`. -/
def safeParts (pluginKeys : Bool) : FieldPath → FieldPath
  | [] => []
  | part :: rest => safePart pluginKeys part :: safeParts (pluginKeys || leavesSchema part) rest

/-- `_safe_path` of the path of a protocol error. -/
def safePath (path : FieldPath) : FieldPath :=
  safeParts false path

/-- `path` of the error -/
def errorPath : EventError → FieldPath
  | .malformed _ => []
  | .invalidField _ path _ => path
  | .unsupportedEvent _ => [.field "event"]

/-- A part of the schema that is not yet owned by the plugin. -/
def OfSchema (part : PathComponent) : Prop :=
  ∃ key ∈ schemaKeys, key ≠ "settings" ∧ part = .field key

theorem leavesSchema_eq_false {part : PathComponent} :
    leavesSchema part = false ↔ OfSchema part := by
  cases part with
  | index index => simp [leavesSchema, OfSchema]
  | field name =>
      simp only [leavesSchema, OfSchema, Bool.or_eq_false_iff, beq_eq_false_iff_ne, ne_eq,
        Bool.not_eq_false', List.contains_iff_mem, PathComponent.field.injEq]
      constructor
      · rintro ⟨other, known⟩
        exact ⟨name, known, other, rfl⟩
      · rintro ⟨key, known, other, rfl⟩
        exact ⟨other, known⟩

theorem safeParts_length (pluginKeys : Bool) (path : FieldPath) :
    (safeParts pluginKeys path).length = path.length := by
  induction path generalizing pluginKeys with
  | nil => rfl
  | cons part rest ih => rw [safeParts, List.length_cons, ih, List.length_cons]

theorem safeParts_getElem? (pluginKeys : Bool) (path : FieldPath) (index : Nat) :
    (safeParts pluginKeys path)[index]? =
      path[index]?.map (safePart (pluginKeys || (path.take index).any leavesSchema)) := by
  induction path generalizing pluginKeys index with
  | nil => rfl
  | cons part rest ih =>
      cases index with
      | zero => simp [safeParts]
      | succ index =>
          rw [safeParts, List.getElem?_cons_succ, ih, List.getElem?_cons_succ, List.take_succ_cons,
            List.any_cons, Bool.or_assoc]

theorem safePart_field {pluginKeys : Bool} {part : PathComponent} {name : String}
    (other : name ≠ "<key>") :
    safePart pluginKeys part = .field name ↔
      part = .field name ∧ name ∈ schemaKeys ∧ pluginKeys = false := by
  cases part with
  | index index => simp [safePart]
  | field key =>
      unfold safePart
      dsimp only
      by_cases shown : (!pluginKeys && schemaKeys.contains key) = true
      · rw [if_pos shown]
        simp only [Bool.and_eq_true, Bool.not_eq_true', List.contains_iff_mem] at shown
        constructor
        · intro same
          cases same
          exact ⟨rfl, shown.2, shown.1⟩
        · exact fun same => same.1
      · rw [if_neg shown]
        constructor
        · intro same
          exact absurd (PathComponent.field.inj same).symm other
        · rintro ⟨same, known, hidden⟩
          cases same
          simp [hidden, known] at shown

/-- A diagnostic shows the indexes of a path and no other key than those of the schema, each
only if all parts before it are keys of the schema that are not the plugin's. -/
theorem diagnostics_show (path : FieldPath) :
    (safePath path).length = path.length ∧
    (∀ position index : Nat, (safePath path)[position]? = some (PathComponent.index index) ↔
      path[position]? = some (PathComponent.index index)) ∧
    ∀ (position : Nat) (name : String), name ≠ "<key>" →
      ((safePath path)[position]? = some (PathComponent.field name) ↔
      path[position]? = some (PathComponent.field name) ∧ name ∈ schemaKeys ∧
        ∀ part ∈ path.take position, OfSchema part) := by
  have each (position : Nat) : (safePath path)[position]? =
      path[position]?.map (safePart ((path.take position).any leavesSchema)) :=
    safeParts_getElem? false path position
  refine ⟨?_, fun position index => ?_, fun position name other => ?_⟩
  · exact safeParts_length false path
  · rw [each, Option.map_eq_some_iff]
    constructor
    · rintro ⟨part, found, same⟩
      cases part with
      | index index =>
          cases same
          exact found
      | field name =>
          unfold safePart at same
          dsimp only at same
          split at same <;> cases same
    · exact fun found => ⟨_, found, rfl⟩
  · rw [each, Option.map_eq_some_iff]
    have before : (path.take position).any leavesSchema = false ↔
        ∀ part ∈ path.take position, OfSchema part := by
      rw [List.any_eq_false]
      simp only [Bool.not_eq_true, leavesSchema_eq_false]
    constructor
    · rintro ⟨part, found, same⟩
      obtain ⟨rfl, known, outside⟩ := (safePart_field other).mp same
      exact ⟨found, known, before.mp outside⟩
    · rintro ⟨found, known, outside⟩
      exact ⟨_, found, (safePart_field other).mpr ⟨rfl, known, before.mpr outside⟩⟩

theorem fieldsOf_shown (kind : StreamDockEventType) :
    ∀ field ∈ fieldsOf kind, safePath field.path = field.path := by
  cases kind <;> decide +kernel

/-- A diagnostic of a frame that is refused names the failing field in full. -/
theorem decode_error_shown {maxStrDigits depth : Nat} {frame : Str} {error : EventError}
    (raised : decode maxStrDigits depth frame = .error (.refused error)) :
    safePath (errorPath error) = errorPath error := by
  unfold decode at raised
  split at raised
  · cases raised
  next tree _ =>
  dsimp only at raised
  split at raised
  · next refused =>
    cases raised
    cases parseStreamDockEvent_error refused with
    | envelope => rfl
    | content => rfl
    | name => rfl
    | field _ _ member => exact fieldsOf_shown _ _ member
    | unsupported => rfl
  · cases raised

/-- A key is pressed, and the message lacks the action. -/
def incompleteMessage : JsonValue :=
  .dict [(text "event", .str (text "keyDown"))]

theorem decode_error_shown_run : ∃ frame error,
    decode 4300 1 frame = .error (.refused error) ∧ errorPath error = [.field "action"] ∧
      safePath (errorPath error) = [.field "action"] := by
  have formed : WellFormed 1 incompleteMessage := by
    refine .dict (by simp) fun entry member => ?_
    cases List.mem_singleton.mp member
    exact .str _
  obtain ⟨frame, encoded⟩ : ∃ frame, encodeValue 4300 incompleteMessage = some frame := by
    refine Option.isSome_iff_exists.mp ?_
    rw [encodeValue_isSome]
    decide +kernel
  obtain ⟨error, refused, path⟩ : ∃ error,
      parseStreamDockEvent (store incompleteMessage []).2 (store incompleteMessage []).1 true =
        .error error ∧ errorPath error = [.field "action"] :=
    ⟨_, rfl, rfl⟩
  have raised : decode 4300 1 ⟨frame⟩ = .error (.refused error) := by
    rw [decode, decode_encode formed encoded]
    dsimp only
    rw [refused]
  exact ⟨⟨frame⟩, error, raised, path, (decode_error_shown raised).trans path⟩

end StreamDockSdk.Protocol
