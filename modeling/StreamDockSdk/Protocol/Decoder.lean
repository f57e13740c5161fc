import StreamDockSdk.Json.Decoded
import StreamDockSdk.Protocol.Encoder
import StreamDockSdk.Protocol.Independence

namespace StreamDockSdk.Protocol

open StreamDockSdk.Parser

inductive DecodeError where
  /-- `MalformedEventError` with the text "invalid JSON: …" -/
  | invalidJson (failure : JsonDecodeFailure)
  /-- What `parse_stream_dock_event` raises. -/
  | refused (error : EventError)
deriving DecidableEq, Repr

/-- `decode`; the first numbers are the limit of `int` and how deep the interpreter lets the
scanner call itself. -/
def decode (maxStrDigits depth : Nat) (frame : Str) : Except DecodeError Parsed :=
  match decodeText maxStrDigits depth frame.codePoints with
  | .error failure => .error (.invalidJson failure)
  | .ok value =>
      let stored := store value []
      match parseStreamDockEvent stored.2 stored.1 true with
      | .error error => .error (.refused error)
      | .ok parsed => .ok parsed

theorem text_inj {first second : String} : text first = text second ↔ first = second := by
  refine ⟨fun same => ?_, congrArg text⟩
  have points : Str.ofString first = Str.ofString second := congrArg Str.codePoints same
  rw [ofString_eq, ofString_eq] at points
  refine String.toList_inj.mp (List.map_injective_iff.mpr (fun first second same => ?_) points)
  have value := congrArg Fin.val same
  rw [pointOf_val, pointOf_val] at value
  exact Char.toNat_inj.mp value

/-- What a scalar is in JSON. -/
def scalarJson : PyScalar → JsonValue
  | .str value => .str value
  | .int value => .int value
  | .bool value => .bool value

section

variable {maxStrDigits depth : Nat} {frame : Str} {parsed : Parsed} {tree : JsonValue}

theorem decode_ok (decoded : decode maxStrDigits depth frame = .ok parsed) :
    ∃ tree, decodeText maxStrDigits depth frame.codePoints = .ok tree ∧
      parseStreamDockEvent (store tree []).2 (store tree []).1 true = .ok parsed := by
  unfold decode at decoded
  split at decoded
  · cases decoded
  next tree found =>
  dsimp only at decoded
  split at decoded
  · cases decoded
  · next accepted =>
    cases decoded
    exact ⟨tree, found, accepted⟩

theorem store_root (tree : JsonValue) : Stored (store tree []).2 (store tree []).1 tree := by
  obtain ⟨made, after, stored⟩ := store_stored tree []
  rw [after]
  simpa using stored []

theorem stored_scalar {heap : PyHeap} {found : Option PyValue} {within : Option JsonValue}
    {scalar : Option PyScalar} (stored : Option.Rel (Stored heap) found within)
    (same : found = scalar.map PyScalar.value) : within = scalar.map scalarJson := by
  subst same
  cases scalar with
  | none =>
      cases stored
      rfl
  | some scalar =>
      cases stored with
      | some stored => cases scalar <;> cases stored <;> rfl

/-- A scalar field of a decoded event is what stands at its path in the text. -/
theorem decoded_scalars (accepted : parseStreamDockEvent (store tree []).2 (store tree []).1 true =
    .ok parsed) : ∀ entry ∈ parsed.1.wire, tree.valueAt entry.1 = entry.2.map scalarJson := by
  intro entry member
  have returned := parseStreamDockEvent_returned accepted
  exact stored_scalar ((store_root tree).fieldAt entry.1) (returned.carries entry member)

theorem decoded_object (accepted : parseStreamDockEvent (store tree []).2 (store tree []).1 true =
    .ok parsed) {path : FieldPath} {entries : JsonObject}
    (carried : parsed.1.object? = some (path, entries)) :
    tree.valueAt path = some (.dict entries) ∧
      ∀ bits, .float bits ∈ (JsonValue.dict entries).scalars → isFinite bits = true := by
  have returned := (parseStreamDockEvent_returned accepted).object
  rw [carried] at returned
  cases held : parsed.2 with
  | none =>
      rw [held] at returned
      contradiction
  | some object =>
      rw [held] at returned
      obtain ⟨rfl, value, clone⟩ := returned
      have stored := (store_root tree).fieldAt path
      rw [clone.found] at stored
      generalize tree.valueAt path = within at stored ⊢
      cases stored with
      | some stored =>
          exact ⟨congrArg some (stored.denotes clone.content).symm,
            fun bits member => clone.content.finite member⟩

/-- A decoded event has the name and the fields of the frame's text; its JSON object is that of
the text, and can be written again to a text that is read as the same object. -/
theorem decoded_event (decoded : decode maxStrDigits depth frame = .ok parsed) :
    ∃ tree, decodeText maxStrDigits depth frame.codePoints = .ok tree ∧
      (∀ entry ∈ parsed.1.wire, tree.valueAt entry.1 = entry.2.map scalarJson) ∧
      ∀ path entries, parsed.1.object? = some (path, entries) →
        tree.valueAt path = some (.dict entries) ∧
        ∃ written, encodeValue maxStrDigits (.dict entries) = some written ∧
          decodeText maxStrDigits depth written = .ok (.dict entries) := by
  obtain ⟨tree, found, accepted⟩ := decode_ok decoded
  refine ⟨tree, found, decoded_scalars accepted, fun path entries carried => ?_⟩
  obtain ⟨within, finite⟩ := decoded_object accepted carried
  exact ⟨within, ((decodeText_decoded found).valueAt within).rewritten finite⟩

end

def sampleMessage : JsonValue :=
  .dict [(text "event", .str (text "didReceiveGlobalSettings")),
    (text "payload", .dict [(text "settings", .dict [(text "n", .int 2)])])]

theorem sampleMessage_formed : WellFormed 3 sampleMessage := by
  refine .dict (by simp [text_inj]) fun entry member => ?_
  rcases List.mem_cons.mp member with rfl | member
  · exact .str _
  · cases List.mem_singleton.mp member
    refine .dict (by simp) fun entry member => ?_
    cases List.mem_singleton.mp member
    refine .dict (by simp) fun entry member => ?_
    cases List.mem_singleton.mp member
    exact .int 2

theorem sampleMessage_decoded : ∃ frame parsed object, decode 4300 3 frame = .ok parsed ∧
    parsed.1.object? = some (StreamDockEvent.settingsPath, [(text "n", .int 2)]) ∧
    parsed.2 = some object ∧ object.entries = [(text "n", .int 2)] := by
  obtain ⟨frame, encoded⟩ : ∃ frame, encodeValue 4300 sampleMessage = some frame := by
    refine Option.isSome_iff_exists.mp ?_
    rw [encodeValue_isSome]
    decide +kernel
  obtain ⟨parsed, object, accepted, carried, owned, content⟩ : ∃ parsed object,
      parseStreamDockEvent (store sampleMessage []).2 (store sampleMessage []).1 true = .ok parsed ∧
        parsed.1.object? = some (StreamDockEvent.settingsPath, [(text "n", .int 2)]) ∧
        parsed.2 = some object ∧ object.entries = [(text "n", .int 2)] :=
    ⟨_, _, rfl, rfl, rfl, rfl⟩
  refine ⟨⟨frame⟩, parsed, object, ?_, carried, owned, content⟩
  rw [decode, decode_encode sampleMessage_formed encoded]
  dsimp only
  rw [accepted]

theorem decoded_event_run : ∃ frame parsed written,
    decode 4300 3 frame = .ok parsed ∧
    encodeValue 4300 (.dict [(text "n", .int 2)]) = some written ∧
    decodeText 4300 3 written = .ok (.dict [(text "n", .int 2)]) := by
  obtain ⟨frame, parsed, object, decoded, carried, _⟩ := sampleMessage_decoded
  obtain ⟨tree, _, _, objects⟩ := decoded_event decoded
  obtain ⟨_, written, encoded, read⟩ := objects _ _ carried
  exact ⟨frame, parsed, written, decoded, encoded, read⟩

section

variable {maxStrDigits depth : Nat} {heap : PyHeap} {command : StreamDockCommand}

theorem keyed_newDict (keyed : Keyed heap) {entries : List (PyValue × PyValue)}
    (distinct : (entries.map Prod.fst).Nodup) : Keyed (newDict heap entries).1 := by
  intro others member
  rcases List.mem_append.mp member with earlier | new
  · exact keyed others earlier
  · cases List.mem_singleton.mp new
    exact distinct

theorem keyed_withPayload (keyed : Keyed heap) {envelope payload : List (PyValue × PyValue)}
    (distinct : (payload.map Prod.fst).Nodup)
    (routing : (envelope.map Prod.fst ++ [PyValue.str (text "payload")]).Nodup) :
    Keyed (withPayload heap envelope payload).1 := by
  refine keyed_newDict (keyed_newDict keyed distinct) ?_
  rw [List.map_append]
  exact routing

theorem keyed_toWire (keyed : Keyed heap) : Keyed (command.toWire heap).1 := by
  have titled (name : String) (other : name ≠ "target" ∧ name ≠ "state")
      (value target state : PyValue) :
      (([field name value, field "target" target] ++ stateField state).map Prod.fst).Nodup := by
    cases state <;> simp [stateField, field, text_inj, other]
  cases command with
  | custom wire => exact keyed
  | uncertified => exact keyed
  | setState context state =>
      exact keyed_withPayload keyed (by simp) (by simp [event, field, text_inj])
  | setTitle context title target state =>
      exact keyed_withPayload keyed (titled "title" (by decide) _ _ _)
        (by simp [event, field, text_inj])
  | setImage context image target state =>
      exact keyed_withPayload keyed (titled "image" (by decide) _ _ _)
        (by simp [event, field, text_inj])
  | openUrl url => exact keyed_withPayload keyed (by simp) (by simp [event, field, text_inj])
  | logMessage message =>
      exact keyed_withPayload keyed (by simp) (by simp [event, field, text_inj])
  | _ => exact keyed_newDict keyed (by simp [event, field, text_inj])

theorem fromOwnedPayload_formed (keyed : Keyed heap) {payload : Nat}
    {routing : List (String × Str)} {envelope : JsonObject}
    (distinct : (routing.map Prod.fst ++ ["payload"]).Nodup)
    (ok : fromOwnedPayload heap payload routing = .ok envelope) :
    WellFormed (maxJsonDepth + 1) (.dict envelope) := by
  obtain ⟨snapshot, cloned, rfl⟩ := fromOwnedPayload_eq_ok.mp ok
  have content := (cloneJsonValue_denotes (cloneJsonObject_eq_ok cloned)).formed keyed
  refine .dict ?_ fun entry member => ?_
  · have keys := distinct.map fun _ _ => text_inj.mp
    simpa [Function.comp_def] using keys
  · rcases List.mem_append.mp member with route | last
    · obtain ⟨field, _, rfl⟩ := List.mem_map.mp route
      exact .str _
    · cases List.mem_singleton.mp last
      exact content

theorem toValidatedWire_formed (keyed : Keyed heap) {envelope : JsonObject}
    (ok : command.toValidatedWire heap = .ok envelope) :
    WellFormed (maxJsonDepth + 1) (.dict envelope) := by
  have plain (ok : translate (cloneJsonObject (command.toWire heap).1 (command.toWire heap).2) =
      .ok envelope) : WellFormed (maxJsonDepth + 1) (.dict envelope) :=
    ((cloneJsonValue_denotes (cloneJsonObject_eq_ok (translate_isOk.mp ok))).formed
      (keyed_toWire keyed)).mono (Nat.le_succ _)
  cases command with
  | sendToPropertyInspector action context payload =>
      exact fromOwnedPayload_formed keyed (by simp) ok
  | setSettings context settings => exact fromOwnedPayload_formed keyed (by simp) ok
  | setGlobalSettings context settings => exact fromOwnedPayload_formed keyed (by simp) ok
  | uncertified => cases ok
  | _ => exact plain ok

theorem encode_ok {frame : Str} (ok : encode maxStrDigits heap command = .ok frame) :
    ∃ envelope, command.toValidatedWire heap = .ok envelope ∧
      encodeValue maxStrDigits (.dict envelope) = some frame.codePoints := by
  unfold encode at ok
  split at ok
  · cases ok
  next envelope validated =>
  split at ok
  · cases ok
  · next encoded =>
    cases ok
    exact ⟨envelope, validated, encoded⟩

/-- The strict decoder reads the frame of a command as the validated envelope of the command,
so that no command with another envelope has the same frame. -/
theorem command_frame_decodes (maxStrDigits depth : Nat) (deep : maxJsonDepth < depth)
    (heap : PyHeap) (keyed : Keyed heap) (command : StreamDockCommand) (frame : Str)
    (ok : encode maxStrDigits heap command = .ok frame) :
    ∃ envelope, command.toValidatedWire heap = .ok envelope ∧
      decodeText maxStrDigits depth frame.codePoints = .ok (.dict envelope) ∧
      ∀ other, Keyed other → ∀ second : StreamDockCommand,
        encode maxStrDigits other second = .ok frame →
        second.toValidatedWire other = .ok envelope := by
  have read {heap : PyHeap} (keyed : Keyed heap) {command : StreamDockCommand}
      (ok : encode maxStrDigits heap command = .ok frame) :
      ∃ envelope, command.toValidatedWire heap = .ok envelope ∧
        decodeText maxStrDigits depth frame.codePoints = .ok (.dict envelope) := by
    obtain ⟨envelope, validated, encoded⟩ := encode_ok ok
    have formed := (toValidatedWire_formed keyed validated).mono deep
    exact ⟨envelope, validated, decode_encode formed encoded⟩
  obtain ⟨envelope, validated, decoded⟩ := read keyed ok
  refine ⟨envelope, validated, decoded, fun other keyed second same => ?_⟩
  obtain ⟨again, validated, repeated⟩ := read keyed same
  cases decoded.symm.trans repeated
  exact validated

end

/-- A dictionary that holds a list. -/
def sampleSettings : PyHeap :=
  [.dict [(.str (text "n"), .container 1)], .list [.int 2, .none]]

def sampleCommand : StreamDockCommand :=
  .setGlobalSettings (text "plugin") 0

theorem command_frame_decodes_run : ∃ frame envelope,
    encode 4300 sampleSettings sampleCommand = .ok frame ∧
    decodeText 4300 65 frame.codePoints = .ok (.dict envelope) := by
  have keyed : Keyed sampleSettings := by
    intro entries member
    simp only [sampleSettings, List.mem_cons, PyContainer.dict.injEq, reduceCtorEq, List.not_mem_nil,
      or_false] at member
    subst member
    simp
  have ok : encode 4300 sampleSettings sampleCommand = .ok ⟨Str.ofString
      "\x7b\"event\": \"setGlobalSettings\", \"context\": \"plugin\", \"payload\": \x7b\"n\": [2, null]\x7d\x7d"⟩ := by
    decide +kernel
  obtain ⟨envelope, _, decoded, _⟩ :=
    command_frame_decodes 4300 65 (by decide) sampleSettings keyed sampleCommand _ ok
  exact ⟨_, envelope, ok, decoded⟩

section

variable {maxStrDigits depth : Nat} {heap : PyHeap}

theorem isDict_of_denotes {value : PyValue} {entries : JsonObject}
    (denotes : DenotesJson heap depth value (.dict entries)) :
    isDict heap value = true ∧ ∃ identity, value = .container identity := by
  by_cases flat : ∀ identity, value ≠ .container identity
  · have scalar := (denotesJson_scalar flat).mp denotes
    cases value <;> simp [jsonScalar?] at scalar
  push Not at flat
  obtain ⟨identity, rfl⟩ := flat
  refine ⟨?_, identity, rfl⟩
  cases depth with
  | zero => cases denotes
  | succ depth =>
      rcases denotes with ⟨items, trees, _, other, _⟩ | ⟨values, fields, found, _, _⟩
      · cases other
      · simp only [isDict, found]

theorem cloneJsonObject_denotes {value : PyValue} {entries : JsonObject}
    (denotes : DenotesJson heap maxJsonDepth value (.dict entries)) :
    cloneJsonObject heap value = .ok entries := by
  obtain ⟨others, cloned⟩ := cloneJsonObject_isOk.mpr
    ⟨(isDict_of_denotes denotes).1, isJsonValueWithin_iff.mpr ⟨_, denotes⟩⟩
  have same := (cloneJsonValue_denotes (cloneJsonObject_eq_ok cloned)).unique denotes
  rw [cloned, JsonValue.dict.inj same]

/-- The clone that an event owns is the object of the event. -/
theorem owned_denotes {root : PyValue} {path : FieldPath} {object : OwnedObject} {value : PyValue}
    (clone : ClonedAt heap root path object value) :
    DenotesJson (heap ++ object.built) maxJsonDepth object.root (.dict object.entries) := by
  obtain ⟨tree, original, copy⟩ := clone.cloned.equal
  rw [clone.content.unique original]
  exact copy

/-- The envelope of an owned payload. -/
def routed (routing : List (String × Str)) (entries : JsonObject) : JsonObject :=
  routing.map (fun field => (text field.1, .str field.2)) ++ [(text "payload", .dict entries)]

theorem routed_scalars {routing : List (String × Str)} {entries : JsonObject} {scalar : PyValue}
    (member : scalar ∈ (JsonValue.dict (routed routing entries)).scalars) :
    (∃ string, scalar = .str string) ∨ scalar ∈ (JsonValue.dict entries).scalars := by
  rw [JsonValue.scalars, scalarsOfEntries_eq, List.mem_flatMap] at member
  obtain ⟨entry, within, member⟩ := member
  rcases List.mem_cons.mp member with key | member
  · exact .inl ⟨_, key⟩
  · rcases List.mem_append.mp within with route | last
    · obtain ⟨field, _, rfl⟩ := List.mem_map.mp route
      exact .inl ⟨_, List.mem_singleton.mp member⟩
    · cases List.mem_singleton.mp last
      exact .inr member

theorem routed_decoded {routing : List (String × Str)} {entries : JsonObject}
    (distinct : (routing.map Prod.fst ++ ["payload"]).Nodup)
    (decoded : Decoded maxStrDigits depth (.dict entries)) :
    Decoded maxStrDigits (depth + 1) (.dict (routed routing entries)) := by
  refine ⟨.dict ?_ fun entry member => ?_, fun scalar member => ?_⟩
  · have keys := distinct.map fun _ _ => text_inj.mp
    simpa [routed, Function.comp_def] using keys
  · rcases List.mem_append.mp member with route | last
    · obtain ⟨field, _, rfl⟩ := List.mem_map.mp route
      exact .str _
    · cases List.mem_singleton.mp last
      exact decoded.formed
  · rcases routed_scalars member with ⟨string, rfl⟩ | within
    · rfl
    · exact decoded.readable scalar within

/-- The JSON object of a decoded event can be sent back as settings: the clone that the event
owns is accepted as the payload of a command, the command is encoded, and its frame is read as
an envelope around the object that was received. -/
theorem received_object_resent {maxStrDigits depth : Nat} {frame : Str} {parsed : Parsed}
    {object : OwnedObject} (decoded : decode maxStrDigits depth frame = .ok parsed)
    (owned : parsed.2 = some object) :
    ∃ tree payload, decodeText maxStrDigits depth frame.codePoints = .ok tree ∧
      object.root = .container payload ∧
      ∀ context, ∀ sent ∈ [("setSettings", StreamDockCommand.setSettings context payload),
          ("setGlobalSettings", .setGlobalSettings context payload)],
        ∃ answer, encode maxStrDigits ((store tree []).2 ++ object.built) sent.2 = .ok answer ∧
          decodeText maxStrDigits (depth + 1) answer.codePoints =
            .ok (.dict [(text "event", .str (text sent.1)), (text "context", .str context),
              (text "payload", .dict object.entries)]) := by
  obtain ⟨tree, found, accepted⟩ := decode_ok decoded
  have returned := (parseStreamDockEvent_returned accepted).object
  rw [owned] at returned
  cases carried : parsed.1.object? with
  | none =>
      rw [carried] at returned
      contradiction
  | some place =>
      rw [carried] at returned
      obtain ⟨path, entries⟩ := place
      obtain ⟨rfl, value, clone⟩ := returned
      obtain ⟨within, finite⟩ := decoded_object accepted carried
      have readable := (decodeText_decoded found).valueAt within
      have denotes := owned_denotes clone
      obtain ⟨_, payload, same⟩ := isDict_of_denotes denotes
      have cloned := cloneJsonObject_denotes denotes
      rw [same] at cloned
      refine ⟨tree, payload, found, same, fun context sent member => ?_⟩
      have answered (name : String) (command : StreamDockCommand)
          (wire : command.toValidatedWire ((store tree []).2 ++ object.built) =
            fromOwnedPayload ((store tree []).2 ++ object.built) payload
              [("event", text name), ("context", context)]) :
          ∃ answer, encode maxStrDigits ((store tree []).2 ++ object.built) command = .ok answer ∧
            decodeText maxStrDigits (depth + 1) answer.codePoints =
              .ok (.dict (routed [("event", text name), ("context", context)] object.entries)) := by
        have keys : ([("event", text name), ("context", context)].map Prod.fst ++
            ["payload"]).Nodup := by simp
        obtain ⟨written, encoded, read⟩ :=
          (routed_decoded keys readable).rewritten fun bits member => by
            rcases routed_scalars member with ⟨string, other⟩ | inside
            · cases other
            · exact finite bits inside
        refine ⟨⟨written⟩, ?_, read⟩
        have validated : fromOwnedPayload ((store tree []).2 ++ object.built) payload
            [("event", text name), ("context", context)] =
              .ok (routed [("event", text name), ("context", context)] object.entries) :=
          fromOwnedPayload_eq_ok.mpr ⟨_, cloned, rfl⟩
        rw [encode, wire, validated]
        dsimp only
        rw [encoded]
      rcases List.mem_cons.mp member with rfl | member
      · exact answered _ _ rfl
      · cases List.mem_singleton.mp member
        exact answered _ _ rfl

end

theorem received_object_resent_run : ∃ heap payload answer,
    encode 4300 heap (.setSettings (text "context") payload) = .ok answer ∧
    decodeText 4300 4 answer.codePoints =
      .ok (.dict [(text "event", .str (text "setSettings")),
        (text "context", .str (text "context")),
        (text "payload", .dict [(text "n", .int 2)])]) := by
  obtain ⟨frame, parsed, object, decoded, _, owned, content⟩ := sampleMessage_decoded
  obtain ⟨tree, payload, _, _, sends⟩ := received_object_resent decoded owned
  obtain ⟨answer, encoded, read⟩ := sends (text "context") _ List.mem_cons_self
  rw [content] at read
  exact ⟨_, payload, answer, encoded, read⟩

end StreamDockSdk.Protocol
