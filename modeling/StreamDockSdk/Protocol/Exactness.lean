import StreamDockSdk.Protocol.Events

namespace StreamDockSdk.Parser

variable {heap other : PyHeap} {root second : PyValue} {data : Data} {event : Str}
variable {field : SchemaField}

theorem typeRule_some {α : Type} {narrow : PyHeap → PyValue → Option α} {expected : String}
    {error : EventError}
    (refused : (typeRule event field narrow expected).failure heap root = some error) :
    (fieldAt heap root field.within).isSome = true ∧
      (∃ reason, error = .invalidField (some event) field.path reason) ∧
      match fieldAt heap root field.path with
      | none => field.required = true
      | some value => narrow heap value = none := by
  simp only [typeRule, FieldRule.given, Option.bind_eq_some_iff] at refused
  obtain ⟨_, present, refused⟩ := refused
  refine ⟨by rw [present]; rfl, ?_⟩
  cases required : field.required with
  | true =>
      rw [required, if_pos rfl] at refused
      simp only [requiredRule] at refused
      cases found : fieldAt heap root field.path with
      | none =>
          rw [found] at refused
          cases refused
          exact ⟨⟨_, rfl⟩, rfl⟩
      | some value =>
          simp only [found, requiredFailure] at refused
          cases narrowed : narrow heap value with
          | none =>
              simp only [narrowed, Option.isSome_none, Bool.false_eq_true, if_false,
                Option.some.injEq] at refused
              exact ⟨⟨_, refused.symm⟩, narrowed⟩
          | some _ => simp [narrowed] at refused
  | false =>
      rw [required, if_neg Bool.false_ne_true] at refused
      simp only [optionalRule, Option.bind_eq_some_iff] at refused
      obtain ⟨value, found, refused⟩ := refused
      rw [found]
      cases narrowed : narrow heap value with
      | none =>
          simp only [narrowed, Option.isSome_none, Bool.false_eq_true, if_false,
            Option.some.injEq] at refused
          exact ⟨⟨_, refused.symm⟩, narrowed⟩
      | some _ => simp [narrowed] at refused

theorem isDict_eq (value : PyValue) : isDict heap value = (dictEntries? heap value).isSome := by
  cases value with
  | container identity =>
      simp only [isDict, dictEntries?]
      cases heap[identity]? with
      | none => rfl
      | some container => cases container <;> rfl
  | _ => rfl

theorem cloneEventObject_isOk {value : PyValue} :
    (∃ object, cloneEventObject heap value = .ok object) ↔
      (dictEntries? heap value).isSome = true ∧ isJsonValue heap value = true := by
  rw [← isDict_eq, ← cloneJsonObject_isOk]
  constructor
  · rintro ⟨object, ok⟩
    exact ⟨object.entries, (cloneEventObject_ok ok).1⟩
  · rintro ⟨entries, ok⟩
    obtain ⟨cloned, built, into⟩ :=
      cloneJsonValueInto_isOk.mp (cloneJsonObject_isOk.mp ⟨entries, ok⟩).2
    exact ⟨⟨entries, cloned, built⟩, by rw [cloneEventObject, ok, into]⟩

theorem cloneEventObject_error {value : PyValue} {error : EventError}
    (raised : cloneEventObject heap value = .error error) :
    (∃ reason, error = .malformed reason) ∧
      ((dictEntries? heap value).isSome = true → isJsonValue heap value = false) := by
  constructor
  · unfold cloneEventObject at raised
    split at raised <;> cases raised <;> exact ⟨_, rfl⟩
  · intro dict
    by_contra valid
    obtain ⟨object, ok⟩ := cloneEventObject_isOk.mpr ⟨dict, by simpa using valid⟩
    rw [ok] at raised
    cases raised

/-- A field with rules beside that for its type counts always. -/
def SchemaField.Plain (field : SchemaField) : Prop :=
  field.within = [] ∨ (field.type ≠ .jsonObject ∧ field.type ≠ .controller ∧
    field.type ≠ .alignment)

theorem typeRule_fails {α : Type} {narrow : PyHeap → PyValue → Option α} {expected : String}
    {error : EventError}
    (refused : (typeRule event field narrow expected).failure heap root = some error)
    (weaker : ∀ value, narrow heap value = none → field.type.accepts heap value = false) :
    field.Fails heap root ∧ ∃ reason, error = .invalidField (some event) field.path reason := by
  obtain ⟨present, named, refuses⟩ := typeRule_some refused
  refine ⟨⟨present, ?_⟩, named⟩
  cases found : fieldAt heap root field.path with
  | none => simpa [found] using refuses
  | some value => exact weaker value (by simpa [found] using refuses)

theorem memberRule_fails {α : Type} {what : String} {values : List String}
    {convert : Str → Option α} {error : EventError} (always : field.within = [])
    (refused : (memberRule event field.path what values convert).failure heap root = some error)
    (weaker : ∀ value, ((strOf value).bind convert).isSome = false →
      field.type.accepts heap value = false) :
    field.Fails heap root ∧ ∃ reason, error = .invalidField (some event) field.path reason := by
  simp only [memberRule, Option.bind_eq_some_iff] at refused
  obtain ⟨raw, ⟨value, found, text⟩, refused⟩ := refused
  split at refused
  · cases refused
  · next unknown =>
    cases refused
    refine ⟨⟨by rw [always]; rfl, ?_⟩, _, rfl⟩
    rw [found]
    exact weaker value (by rw [text, Option.bind_some]; simpa using unknown)

theorem rules_some (plain : field.Plain) {rule : FieldRule EventError}
    (member : rule ∈ field.rules event) {error : EventError}
    (refused : rule.failure heap root = some error) :
    field.Fails heap root ∧
      ((∃ reason, error = .invalidField (some event) field.path reason) ∨
        field.type = .jsonObject ∧ ∃ reason, error = .malformed reason) := by
  have always (special : ¬(field.type ≠ .jsonObject ∧ field.type ≠ .controller ∧
      field.type ≠ .alignment)) : field.within = [] := plain.resolve_right special
  unfold SchemaField.rules at member
  cases type : field.type with
  | string | integer | boolean | object =>
      simp only [type, List.mem_singleton] at member
      subst member
      obtain ⟨fails, named⟩ := typeRule_fails refused fun value narrowed => by
        simp only [type, FieldType.accepts, narrowed]
        rfl
      exact ⟨fails, .inl named⟩
  | jsonObject =>
      simp only [type, List.mem_cons, List.not_mem_nil, or_false] at member
      rcases member with rfl | rfl
      · obtain ⟨fails, named⟩ := typeRule_fails refused fun value narrowed => by
          simp only [type, FieldType.accepts, narrowed]
          rfl
        exact ⟨fails, .inl named⟩
      · simp only [contentRule, Option.bind_eq_some_iff, Option.filter_eq_some_iff] at refused
        obtain ⟨value, ⟨found, dict⟩, refused⟩ := refused
        cases cloned : cloneEventObject heap value with
        | ok object =>
            rw [cloned] at refused
            cases refused
        | error raised =>
            rw [cloned] at refused
            cases refused
            obtain ⟨malformed, refuses⟩ := cloneEventObject_error cloned
            refine ⟨⟨by rw [always (by simp [type])]; rfl, ?_⟩, .inr ⟨rfl, malformed⟩⟩
            rw [found]
            simp only [type, FieldType.accepts, dict, refuses dict, Bool.and_false]
  | controller =>
      simp only [type, List.mem_cons, List.not_mem_nil, or_false] at member
      rcases member with rfl | rfl
      · obtain ⟨fails, named⟩ := typeRule_fails refused fun value narrowed => by
          simp only [type, FieldType.accepts, narrowed]
          rfl
        exact ⟨fails, .inl named⟩
      · obtain ⟨fails, named⟩ := memberRule_fails (always (by simp [type])) refused
          fun value unknown => by rw [type]; exact unknown
        exact ⟨fails, .inl named⟩
  | alignment =>
      simp only [type, List.mem_cons, List.not_mem_nil, or_false] at member
      rcases member with rfl | rfl
      · obtain ⟨fails, named⟩ := typeRule_fails refused fun value narrowed => by
          simp only [type, FieldType.accepts, narrowed]
          rfl
        exact ⟨fails, .inl named⟩
      · obtain ⟨fails, named⟩ := memberRule_fails (always (by simp [type])) refused
          fun value unknown => by rw [type]; exact unknown
        exact ⟨fails, .inl named⟩

theorem deviceInfoFields_plain {required : Bool} {within : FieldPath} :
    ∀ field ∈ deviceInfoFields required within, field.Plain := by
  simp [deviceInfoFields, SchemaField.Plain]

theorem actionPayloadFields_plain : ∀ field ∈ actionPayloadFields, field.Plain := by
  simp [actionPayloadFields, deviceActionFields, actionFields, coordinateFields,
    SchemaField.Plain]

theorem fieldsOf_plain (kind : StreamDockEventType) : ∀ field ∈ fieldsOf kind, field.Plain := by
  cases kind with
  | willAppear | willDisappear | didReceiveSettings | titleParametersDidChange | keyDown | keyUp
  | touchTap | dialDown | dialUp | dialRotate =>
      refine List.forall_mem_append.mpr ⟨actionPayloadFields_plain, ?_⟩
      simp [titleParameterFields, controllerField, multiActionField, stateField,
        SchemaField.Plain]
  | deviceDidConnect =>
      exact List.forall_mem_append.mpr ⟨deviceInfoFields_plain, by
        simp [deviceField, SchemaField.Plain]⟩
  | deviceDidDisconnect =>
      exact List.forall_mem_cons.mpr ⟨.inl rfl, deviceInfoFields_plain⟩
  | propertyInspectorDidAppear | propertyInspectorDidDisappear | sendToPlugin
  | didReceiveGlobalSettings | applicationDidLaunch | applicationDidTerminate | systemDidWakeUp =>
      simp [fieldsOf, deviceActionFields, actionFields, sendToPluginFields, globalSettingsFields,
        applicationFields, SchemaField.Plain]

/-- The event name of a message. -/
def nameAt (heap : PyHeap) (root : PyValue) : Option Str :=
  (fieldAt heap root [.field "event"]).bind strOf

/-- What may be raised for a message, and for what reason. -/
inductive RefusedFor (heap : PyHeap) (root : PyValue) (allowUnknown : Bool) : EventError → Prop
  | envelope {reason : String}
      (invalid : dictEntries? heap root = none ∨ isJsonValue heap root = false) :
      RefusedFor heap root allowUnknown (.malformed reason)
  | content {name : Str} {kind : StreamDockEventType} {field : SchemaField} {reason : String}
      (named : nameAt heap root = some name)
      (known : StreamDockEventType.ofValue? name = some kind)
      (member : field ∈ fieldsOf kind) (object : field.type = .jsonObject)
      (fails : field.Fails heap root) : RefusedFor heap root allowUnknown (.malformed reason)
  | name {reason : FieldReason} (unnamed : nameAt heap root = none) :
      RefusedFor heap root allowUnknown (.invalidField none [.field "event"] reason)
  | field {name : Str} {kind : StreamDockEventType} {field : SchemaField} {reason : FieldReason}
      (named : nameAt heap root = some name)
      (known : StreamDockEventType.ofValue? name = some kind)
      (member : field ∈ fieldsOf kind) (fails : field.Fails heap root) :
      RefusedFor heap root allowUnknown (.invalidField (some name) field.path reason)
  | unsupported {name : Str} (named : nameAt heap root = some name)
      (unknown : StreamDockEventType.ofValue? name = none) (refused : allowUnknown = false)
      (valid : isJsonValue heap root = true) :
      RefusedFor heap root allowUnknown (.unsupportedEvent name)

theorem parserOf_error (located : DataAt heap root [] data) {kind : StreamDockEventType}
    {error : EventError} (raised : parserOf heap data event kind = .error error) :
    ∃ field ∈ fieldsOf kind, field.Fails heap root ∧
      ((∃ reason, error = .invalidField (some event) field.path reason) ∨
        field.type = .jsonObject ∧ ∃ reason, error = .malformed reason) := by
  obtain ⟨rule, rules, refused⟩ := (parserOf_reads located kind).error raised
  obtain ⟨field, member, rules⟩ := List.mem_flatMap.mp rules
  exact ⟨field, member, rules_some (fieldsOf_plain kind field member) rules refused⟩

/-- The object is a clone of what stands at the path, with the entries. -/
structure ClonedAt (heap : PyHeap) (root : PyValue) (path : FieldPath) (object : OwnedObject)
    (value : PyValue) : Prop where
  found : fieldAt heap root path = some value
  content : DenotesJson heap maxJsonDepth value (.dict object.entries)
  cloned : ClonedJson heap value object.root object.built

theorem OwnedAt.clonedAt {path : FieldPath} {object : OwnedObject}
    (owned : OwnedAt heap root path object) : ∃ value, ClonedAt heap root path object value := by
  obtain ⟨value, found, ok⟩ := owned
  obtain ⟨plain, into⟩ := cloneEventObject_ok ok
  exact ⟨value, found, cloneJsonValue_denotes (cloneJsonObject_eq_ok plain),
    cloneJsonValueInto_cloned into⟩

/-- The event is that of the message: it has the name and the fields of the message, and a
clone of its JSON object. -/
structure Returned (heap : PyHeap) (root : PyValue) (parsed : Parsed) : Prop where
  kind : ∃ name, nameAt heap root = some name ∧
    match StreamDockEventType.ofValue? name with
    | some kind => parsed.1.kind? = some kind
    | none => ∃ entries, parsed.1 = .unknown name entries
  carries : Carries heap root parsed.1.wire
  object : match parsed.1.object?, parsed.2 with
    | some (path, entries), some object =>
        entries = object.entries ∧ ∃ value, ClonedAt heap root path object value
    | none, none => True
    | _, _ => False

theorem ParsedAs.returned {kind : StreamDockEventType} {name : Str} {parsed : Parsed}
    (read : ParsedAs heap root kind parsed) (named : nameAt heap root = some name)
    (known : StreamDockEventType.ofValue? name = some kind) : Returned heap root parsed where
  kind := ⟨name, named, by rw [known]; exact read.kind⟩
  carries := read.carries
  object := by
    have object := read.object
    generalize parsed.1.object? = place at object ⊢
    generalize parsed.2 = clone at object ⊢
    match place, clone, object with
    | some _, some _, owned => exact ⟨owned.2, owned.1.clonedAt⟩
    | none, none, _ => trivial

theorem nameAt_eq {name : Str} :
    nameAt heap root = some name ↔ fieldAt heap root [.field "event"] = some (.str name) :=
  bind_strOf

/-- The name of a message is read first. -/
theorem parseStreamDockEvent_cases (heap : PyHeap) (root : PyValue) (allowUnknown : Bool) :
    (dictEntries? heap root = none ∧ nameAt heap root = none ∧
      ∃ reason, parseStreamDockEvent heap root allowUnknown = .error (.malformed reason)) ∨
    (nameAt heap root = none ∧ ∃ reason, parseStreamDockEvent heap root allowUnknown =
      .error (.invalidField none [.field "event"] reason)) ∨
    ∃ data name, DataAt heap root [] data ∧ nameAt heap root = some name ∧
      parseStreamDockEvent heap root allowUnknown =
        parseEnvelope heap root data allowUnknown name := by
  unfold parseStreamDockEvent
  cases entries : dictEntries? heap root with
  | none =>
      refine .inl ⟨rfl, ?_, ?_⟩
      · simp only [nameAt, fieldAt, componentAt, entries, Option.bind_none]
      · cases isJsonValue heap root <;> exact ⟨_, rfl⟩
  | some data =>
      have located : DataAt heap root [] data := entries
      have checks := requireField_checks located (invalid none) (fun _ => strOf)
        "expected string" "event"
      have found := located.lookup "event"
      rw [List.nil_append] at found
      simp only [requireField, found, nameAt]
      cases there : fieldAt heap root [.field "event"] with
      | none => exact .inr (.inl ⟨rfl, _, rfl⟩)
      | some value =>
          simp only [Option.bind_some]
          cases text : strOf value with
          | none => exact .inr (.inl ⟨rfl, _, rfl⟩)
          | some name => exact .inr (.inr ⟨data, name, located, rfl, rfl⟩)

theorem parseStreamDockEvent_error {allowUnknown : Bool} {error : EventError}
    (raised : parseStreamDockEvent heap root allowUnknown = .error error) :
    RefusedFor heap root allowUnknown error := by
  rcases parseStreamDockEvent_cases heap root allowUnknown with
    ⟨outer, -, _, same⟩ | ⟨unnamed, _, same⟩ | ⟨data, name, located, named, same⟩
  · cases raised.symm.trans same
    exact .envelope (.inl outer)
  · cases raised.symm.trans same
    exact .name unnamed
  · rw [same, parseEnvelope] at raised
    cases known : StreamDockEventType.ofValue? name with
    | some kind =>
        rw [known] at raised
        obtain ⟨field, member, fails, ⟨reason, rfl⟩ | ⟨object, reason, rfl⟩⟩ :=
          parserOf_error located raised
        · exact .field named known member fails
        · exact .content named known member object fails
    | none =>
        rw [known] at raised
        cases allowUnknown with
        | false =>
            cases valid : isJsonValue heap root with
            | false =>
                rw [valid] at raised
                cases raised
                exact .envelope (.inr valid)
            | true =>
                rw [valid] at raised
                cases raised
                exact .unsupported named known rfl valid
        | true =>
            cases cloned : cloneEventObject heap root with
            | ok object =>
                rw [cloned] at raised
                cases raised
            | error refused =>
                rw [cloned] at raised
                cases raised
                obtain ⟨⟨reason, rfl⟩, refuses⟩ := cloneEventObject_error cloned
                refine .envelope (.inr (refuses ?_))
                rw [show dictEntries? heap root = some data from located]
                rfl

theorem parseStreamDockEvent_returned {allowUnknown : Bool} {parsed : Parsed}
    (returned : parseStreamDockEvent heap root allowUnknown = .ok parsed) :
    Returned heap root parsed := by
  rcases parseStreamDockEvent_cases heap root allowUnknown with
    ⟨-, -, _, same⟩ | ⟨-, _, same⟩ | ⟨data, name, located, named, same⟩
  · cases returned.symm.trans same
  · cases returned.symm.trans same
  · rw [same, parseEnvelope] at returned
    cases known : StreamDockEventType.ofValue? name with
    | some kind =>
        rw [known] at returned
        exact ((parserOf_reads located kind).ok returned).returned named known
    | none =>
        rw [known] at returned
        cases allowUnknown with
        | false =>
            cases valid : isJsonValue heap root <;> rw [valid] at returned <;> cases returned
        | true =>
            cases cloned : cloneEventObject heap root with
            | error refused =>
                rw [cloned] at returned
                cases returned
            | ok object =>
                rw [cloned] at returned
                cases returned
                have owned : OwnedAt heap root [] object := ⟨root, rfl, cloned⟩
                refine ⟨⟨name, named, by rw [known]; exact ⟨_, rfl⟩⟩, ?_, rfl, owned.clonedAt⟩
                exact carries_cons.mpr ⟨nameAt_eq.mp named, carries_nil⟩

end StreamDockSdk.Parser
