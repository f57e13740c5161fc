import StreamDockSdk.Protocol.Exactness

namespace StreamDockSdk.Parser

variable {heap other : PyHeap} {root second : PyValue} {data : Data} {event : Str}
variable {field : SchemaField} {fields others : List SchemaField}

/-- What the schema sees of a value. -/
inductive Observation where
  | scalar (value : PyScalar)
  | object
  | json (content : Except EventError JsonObject)

/-- What is seen of a value, or `none` for one of another type. -/
def FieldType.observe (heap : PyHeap) (value : PyValue) : FieldType → Option Observation
  | .string | .controller | .alignment => (strOf value).map fun text => .scalar (.str text)
  | .integer => (intOf value).map fun number => .scalar (.int number)
  | .boolean => (boolOf value).map fun truth => .scalar (.bool truth)
  | .object => (dictEntries? heap value).map fun _ => .object
  | .jsonObject => (dictEntries? heap value).map fun _ =>
      .json ((cloneEventObject heap value).map OwnedObject.entries)

/-- What is seen at the field, if it is there. -/
def SchemaField.observe (heap : PyHeap) (root : PyValue) (field : SchemaField) :
    Option (Option Observation) :=
  (fieldAt heap root field.path).map fun value => field.type.observe heap value

/-- Two messages do not differ in the fields. -/
def SameFields (heap : PyHeap) (root : PyValue) (other : PyHeap) (second : PyValue)
    (fields : List SchemaField) : Prop :=
  ∀ field ∈ fields, field.observe heap root = field.observe other second

/-- The scalars that a field of the type may hold. -/
def FieldType.names : FieldType → PyScalar → Bool
  | .string, .str _ | .controller, .str _ | .alignment, .str _ | .integer, .int _
  | .boolean, .bool _ => true
  | _, _ => false

theorem observe_scalar {type : FieldType} {scalar : PyScalar} {value : PyValue}
    (names : type.names scalar = true) :
    type.observe heap value = some (.scalar scalar) ↔ value = scalar.value := by
  cases type <;> cases scalar <;> cases names <;> cases value <;>
    simp [FieldType.observe, strOf, intOf, boolOf, PyScalar.value]

theorem observe_found {value : PyValue}
    (same : field.observe heap root = field.observe other second)
    (found : fieldAt heap root field.path = some value) :
    ∃ there, fieldAt other second field.path = some there ∧
      field.type.observe other there = field.type.observe heap value := by
  simp only [SchemaField.observe, found, Option.map_some] at same
  exact Option.map_eq_some_iff.mp same.symm

theorem observe_missing (same : field.observe heap root = field.observe other second)
    (missing : fieldAt heap root field.path = none) : fieldAt other second field.path = none := by
  simp only [SchemaField.observe, missing, Option.map_none] at same
  exact Option.map_eq_none_iff.mp same.symm

theorem observe_isSome (same : field.observe heap root = field.observe other second) :
    (fieldAt heap root field.path).isSome = (fieldAt other second field.path).isSome := by
  have there := congrArg Option.isSome same
  simpa only [SchemaField.observe, Option.isSome_map] using there

theorem typeRule_congr {α : Type} {narrow : PyHeap → PyValue → Option α} {expected : String}
    (present : (fieldAt heap root field.within).isSome =
      (fieldAt other second field.within).isSome)
    (same : field.observe heap root = field.observe other second)
    (seen : ∀ heap value, (narrow heap value).isSome = (field.type.observe heap value).isSome) :
    (typeRule event field narrow expected).failure heap root =
      (typeRule event field narrow expected).failure other second := by
  cases there : (fieldAt heap root field.within).isSome with
  | false =>
      have missing := Option.not_isSome_iff_eq_none.mp (Bool.eq_false_iff.mp there)
      have also := Option.not_isSome_iff_eq_none.mp (Bool.eq_false_iff.mp (present ▸ there))
      simp only [typeRule, FieldRule.given, missing, also, Option.bind_none]
  | true =>
      rw [typeRule_failure there, typeRule_failure (present ▸ there)]
      cases found : fieldAt heap root field.path with
      | none =>
          have missing := observe_missing same found
          cases field.required <;>
            simp [requiredRule, optionalRule, requiredFailure, found, missing]
      | some value =>
          obtain ⟨counterpart, also, equal⟩ := observe_found same found
          cases field.required <;>
            simp [requiredRule, optionalRule, requiredFailure, found, also, seen, equal]

theorem memberRule_congr {α : Type} {what : String} {values : List String}
    {convert : Str → Option α} (same : field.observe heap root = field.observe other second)
    (text : ∀ heap value, field.type.observe heap value =
      (strOf value).map fun text => .scalar (.str text)) :
    (memberRule event field.path what values convert).failure heap root =
      (memberRule event field.path what values convert).failure other second := by
  have raw : (fieldAt heap root field.path).bind strOf =
      (fieldAt other second field.path).bind strOf := by
    cases found : fieldAt heap root field.path with
    | none => rw [observe_missing same found]
    | some value =>
        obtain ⟨counterpart, also, equal⟩ := observe_found same found
        rw [also, Option.bind_some, Option.bind_some]
        rw [text, text] at equal
        exact (Option.map_injective (fun _ _ equal => by simpa using equal) equal).symm
  simp only [memberRule, raw]

theorem contentRule_congr (same : field.observe heap root = field.observe other second)
    (type : field.type = .jsonObject) :
    (contentRule field.path).failure heap root = (contentRule field.path).failure other second := by
  simp only [contentRule]
  cases found : fieldAt heap root field.path with
  | none =>
      rw [observe_missing same found]
      rfl
  | some value =>
      obtain ⟨counterpart, also, equal⟩ := observe_found same found
      rw [also]
      simp only [type, FieldType.observe] at equal
      cases dict : dictEntries? heap value with
      | none =>
          have refused : dictEntries? other counterpart = none := by simpa [dict] using equal
          simp [Option.filter_some, dict, refused]
      | some data =>
          rw [dict, Option.map_some] at equal
          obtain ⟨entries, there, content⟩ := Option.map_eq_some_iff.mp equal
          simp only [Option.filter_some, dict, there, Option.isSome_some, if_true,
            Option.bind_some]
          injection content with content
          revert content
          cases cloneEventObject heap value <;> cases cloneEventObject other counterpart <;>
            simp [Except.map, eq_comm]

theorem rules_congr (present : (fieldAt heap root field.within).isSome =
      (fieldAt other second field.within).isSome)
    (same : field.observe heap root = field.observe other second) :
    ∀ rule ∈ field.rules event, rule.failure heap root = rule.failure other second := by
  unfold SchemaField.rules
  cases type : field.type with
  | string | integer | boolean | object =>
      refine List.forall_mem_singleton.mpr (typeRule_congr present same fun heap value => ?_)
      simp only [type, FieldType.observe, Option.isSome_map]
  | jsonObject =>
      refine List.forall_mem_cons.mpr ⟨typeRule_congr present same fun heap value => ?_,
        List.forall_mem_singleton.mpr (contentRule_congr same type)⟩
      simp only [type, FieldType.observe, Option.isSome_map]
  | controller | alignment =>
      refine List.forall_mem_cons.mpr ⟨typeRule_congr present same fun heap value => ?_,
        List.forall_mem_singleton.mpr (memberRule_congr same fun heap value => ?_)⟩
      · simp only [type, FieldType.observe, Option.isSome_map]
      · simp only [type, FieldType.observe]

/-- A field counts always, or with another field of the kind. -/
theorem fieldsOf_within (kind : StreamDockEventType) :
    ∀ field ∈ fieldsOf kind,
      field.within = [] ∨ ∃ guard ∈ fieldsOf kind, guard.path = field.within := by
  cases kind with
  | deviceDidDisconnect => simp [fieldsOf, deviceField, deviceInfoFields]
  | _ =>
      refine fun field member => .inl ?_
      revert member field
      simp [fieldsOf, visibilityFields, didReceiveSettingsFields, titleFields, keyFields,
        dialPressFields, dialRotateFields, sendToPluginFields, globalSettingsFields,
        applicationFields, actionPayloadFields, deviceActionFields, actionFields,
        coordinateFields, titleParameterFields, controllerField, multiActionField, stateField,
        deviceInfoFields, deviceField]

theorem firstFailure_congr {ε : Type} {rules : List (FieldRule ε)}
    (same : ∀ rule ∈ rules, rule.failure heap root = rule.failure other second) :
    firstFailure heap root rules = firstFailure other second rules := by
  induction rules with
  | nil => rfl
  | cons rule rest ih =>
      obtain ⟨first, later⟩ := List.forall_mem_cons.mp same
      unfold firstFailure at ih ⊢
      rw [List.findSome?_cons, List.findSome?_cons, first, ih later]

theorem SameFields.firstFailure {kind : StreamDockEventType}
    (same : SameFields heap root other second (fieldsOf kind)) :
    firstFailure heap root ((fieldsOf kind).flatMap (SchemaField.rules event)) =
      firstFailure other second ((fieldsOf kind).flatMap (SchemaField.rules event)) := by
  refine firstFailure_congr fun rule rules => ?_
  obtain ⟨field, member, rules⟩ := List.mem_flatMap.mp rules
  refine rules_congr ?_ (same field member) rule rules
  rcases fieldsOf_within kind field member with always | ⟨guard, guards, path⟩
  · rw [always]
    rfl
  · rw [← path]
    exact observe_isSome (same guard guards)

/-- Each scalar of the event is a field of the schema. -/
def Named (fields : List SchemaField) (wire : WireFields) : Prop :=
  ∀ entry ∈ wire, ∃ field ∈ fields, field.path = entry.1 ∧
    ∀ scalar, entry.2 = some scalar → field.type.names scalar = true

theorem Named.append {wire more : WireFields} (first : Named fields wire)
    (rest : Named others more) : Named (fields ++ others) (wire ++ more) := by
  refine List.forall_mem_append.mpr ⟨fun entry member => ?_, fun entry member => ?_⟩
  · obtain ⟨field, there, names⟩ := first entry member
    exact ⟨field, List.mem_append_left _ there, names⟩
  · obtain ⟨field, there, names⟩ := rest entry member
    exact ⟨field, List.mem_append_right _ there, names⟩

theorem Named.cons {wire : WireFields} {entry : FieldPath × Option PyScalar}
    (path : field.path = entry.1)
    (names : ∀ scalar, entry.2 = some scalar → field.type.names scalar = true)
    (rest : Named fields wire) : Named (field :: fields) (entry :: wire) :=
  (@append [field] _ [entry])
    (List.forall_mem_singleton.mpr ⟨field, List.mem_singleton_self field, path, names⟩) rest

theorem Named.nil : Named fields [] :=
  fun _ => nofun

/-- A field that holds no scalar. -/
theorem Named.skip {wire : WireFields} (rest : Named fields wire) :
    Named (field :: fields) wire := by
  intro entry member
  obtain ⟨field, there, names⟩ := rest entry member
  exact ⟨field, List.mem_cons_of_mem _ there, names⟩

/-- What an event carries of one message stands in the other. -/
theorem Named.carries {wire : WireFields} (named : Named fields wire)
    (same : SameFields heap root other second fields) (carries : Carries heap root wire) :
    Carries other second wire := by
  intro entry member
  obtain ⟨field, there, path, names⟩ := named entry member
  have found := carries entry member
  rw [← path] at found ⊢
  cases value : entry.2 with
  | none =>
      rw [value] at found
      exact observe_missing (same field there) found
  | some scalar =>
      rw [value] at found
      obtain ⟨counterpart, also, equal⟩ := observe_found (same field there) found
      rw [(observe_scalar (names scalar value)).mpr rfl, observe_scalar (names scalar value)]
        at equal
      rw [also, equal]
      rfl

section Members

variable {wire : WireFields} (rest : Named fields wire)
include rest

end Members

theorem value_injective : Function.Injective PyScalar.value := by
  intro first second same
  cases first <;> cases second <;> simp_all [PyScalar.value]

/-- A message has one list of scalars for a list of paths. -/
theorem Carries.unique {wire more : WireFields} (carries : Carries heap root wire)
    (also : Carries heap root more) (paths : wire.map Prod.fst = more.map Prod.fst) :
    wire = more := by
  induction wire generalizing more with
  | nil =>
      cases more with
      | nil => rfl
      | cons entry rest => cases paths
  | cons entry rest ih =>
      cases more with
      | nil => cases paths
      | cons counterpart others =>
          rw [List.map_cons, List.map_cons, List.cons.injEq] at paths
          obtain ⟨found, later⟩ := carries_cons.mp carries
          obtain ⟨there, others⟩ := carries_cons.mp also
          rw [← paths.1, found] at there
          have value := Option.map_injective value_injective there
          rw [ih later others paths.2, Prod.ext paths.1 value]

/-- The JSON object of an event is that of its kind. -/
theorem object?_path {kind : StreamDockEventType} (event : StreamDockEvent)
    (known : event.kind? = some kind) :
    event.object?.map Prod.fst =
      ((fieldsOf kind).find? fun field => decide (field.type = .jsonObject)).map
        SchemaField.path := by
  cases event <;> cases known <;> rfl

theorem OwnedAt.same {object counterpart : OwnedObject}
    (owned : OwnedAt heap root field.path object)
    (also : OwnedAt other second field.path counterpart)
    (same : field.observe heap root = field.observe other second)
    (type : field.type = .jsonObject) : object.entries = counterpart.entries := by
  obtain ⟨value, found, cloned⟩ := owned
  obtain ⟨_, there, clones⟩ := also
  obtain ⟨_, again, equal⟩ := observe_found same found
  cases there.symm.trans again
  obtain ⟨_, first⟩ := Option.isSome_iff_exists.mp
    (cloneEventObject_isOk.mp ⟨object, cloned⟩).1
  obtain ⟨_, second⟩ := Option.isSome_iff_exists.mp
    (cloneEventObject_isOk.mp ⟨counterpart, clones⟩).1
  simp only [type, FieldType.observe, first, second, cloned, clones, Except.map, Option.map_some,
    Option.some.injEq, Observation.json.injEq, Except.ok.injEq] at equal
  exact equal.symm

theorem ParsedAs.objects {kind : StreamDockEventType} {parsed counterpart : Parsed}
    (read : ParsedAs heap root kind parsed) (also : ParsedAs other second kind counterpart)
    (same : SameFields heap root other second (fieldsOf kind)) :
    parsed.1.object?.map Prod.snd = counterpart.1.object?.map Prod.snd := by
  have path := object?_path parsed.1 read.kind
  have there := object?_path counterpart.1 also.kind
  have object := read.object
  have clone := also.object
  generalize parsed.1.object? = first at path object ⊢
  generalize counterpart.1.object? = last at there clone ⊢
  generalize parsed.2 = held at object
  generalize counterpart.2 = kept at clone
  cases found : (fieldsOf kind).find? fun field => decide (field.type = .jsonObject) with
  | none =>
      rw [found, Option.map_none, Option.map_eq_none_iff] at path there
      rw [path, there]
  | some field =>
      have type : field.type = .jsonObject := by simpa using List.find?_some found
      rw [found] at path there
      match first, last, held, kept, path, there, object, clone with
      | some (_, _), some (_, _), some _, some _, path, there, object, clone =>
          cases path
          cases there
          rw [Option.map_some, Option.map_some, object.2, clone.2]
          exact congrArg some
            (object.1.same clone.1 (same field (List.mem_of_find?_eq_some found)) type)

end StreamDockSdk.Parser
