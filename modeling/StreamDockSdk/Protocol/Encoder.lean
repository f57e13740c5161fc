import StreamDockSdk.Json.Text
import StreamDockSdk.Protocol.Commands

namespace StreamDockSdk.Protocol

variable (maxStrDigits : Nat) (heap : PyHeap) (command : StreamDockCommand)

/-- `encode` -/
def encode : Except EncodeError Str :=
  match command.toValidatedWire heap with
  | .error error => .error error
  | .ok envelope =>
      match encodeValue maxStrDigits (.dict envelope) with
      | none => .error .notJson
      | some frame => .ok ⟨frame⟩

/-- The raw queue's check of a frame's size. -/
def accepts (maxMessageBytes : Nat) (payload : Str) : Bool :=
  utf8Size payload maxMessageBytes ≤ maxMessageBytes

inductive SendResult where
  | sent (bytes : List Nat)
  /-- `send` raised, and `_abort_transport` ends the session. -/
  | aborted
deriving DecidableEq, Repr

/-- What `_send_frame` does with the content of a frame on an open connection. -/
def sendFrame (payload : Str) : SendResult :=
  match payload.encode .strict with
  | some bytes => .sent bytes
  | none => .aborted

/-- Only the command fails, or its text can be sent. -/
def EncodesSafely : Prop :=
  match encode maxStrDigits heap command with
  | .error error => error.raised = .valueError ∨ error.raised = .typeError
  | .ok payload => ∃ bytes, payload.encode .strict = some bytes ∧ sendFrame payload = .sent bytes

variable {maxStrDigits heap command}

theorem translate_isOk {cloned : Except JsonError JsonObject} {object : JsonObject} :
    translate cloned = .ok object ↔ cloned = .ok object := by
  cases cloned with
  | ok other => simp [translate]
  | error error => cases error <;> simp [translate]

theorem fromOwnedPayload_eq_ok {payload : Nat} {routing : List (String × Str)}
    {envelope : JsonObject} :
    fromOwnedPayload heap payload routing = .ok envelope ↔
      ∃ snapshot, cloneJsonObject heap (.container payload) = .ok snapshot ∧
        envelope = routing.map (fun (name, value) => (text name, .str value)) ++
          [(text "payload", .dict snapshot)] := by
  unfold fromOwnedPayload
  cases translated : translate (cloneJsonObject heap (.container payload)) with
  | error error =>
      have none : ∀ snapshot, cloneJsonObject heap (.container payload) ≠ .ok snapshot := by
        intro snapshot ok
        rw [translate_isOk.mpr ok] at translated
        cases translated
      simp [Except.map, none]
  | ok snapshot =>
      rw [translate_isOk.mp translated]
      simp [Except.map, eq_comm]

/-- The envelope of a command that carries an owned payload. -/
theorem owned_scalars {payload : Nat} {routing : List (String × Str)} {envelope : JsonObject}
    (ok : fromOwnedPayload heap payload routing = .ok envelope) (scalar : PyValue) :
    scalar ∈ (JsonValue.dict envelope).scalars ↔
      Contains (newDict heap (routing.map (fun (name, value) => field name (.str value)) ++
        [field "payload" (.container payload)])).1 (.container heap.length) scalar := by
  obtain ⟨snapshot, cloned, rfl⟩ := fromOwnedPayload_eq_ok.mp ok
  have valid := (cloneJsonObject_isOk.mp ⟨snapshot, cloned⟩).2
  have found : (newDict heap (routing.map (fun (name, value) => field name (.str value)) ++
      [field "payload" (.container payload)])).1[heap.length]? =
        some (.dict (routing.map (fun (name, value) => field name (.str value)) ++
          [field "payload" (.container payload)])) := by
    simp [newDict]
  rw [contains_dict found, JsonValue.scalars, scalarsOfEntries_eq, List.flatMap_append,
    List.mem_append]
  simp only [List.mem_append, or_and_right, exists_or, List.mem_singleton, exists_eq_left]
  refine or_congr ?_ ?_
  · simp [field, JsonValue.scalars, contains_scalar]
  · simp only [List.flatMap_cons, List.flatMap_nil, List.append_nil, List.mem_cons, field, newDict]
    rw [cloneJsonObject_scalars cloned, contains_append valid]

/-- Validation keeps the scalars of the envelope. -/
theorem toValidatedWire_scalars {envelope : JsonObject}
    (ok : command.toValidatedWire heap = .ok envelope) (scalar : PyValue) :
    scalar ∈ (JsonValue.dict envelope).scalars ↔ command.Mentions heap scalar := by
  cases command with
  | sendToPropertyInspector action context payload => exact owned_scalars ok scalar
  | setSettings context settings => exact owned_scalars ok scalar
  | setGlobalSettings context settings => exact owned_scalars ok scalar
  | uncertified => cases ok
  | _ => exact cloneJsonObject_scalars (translate_isOk.mp ok) scalar

theorem toValidatedWire_finite {envelope : JsonObject}
    (ok : command.toValidatedWire heap = .ok envelope) {bits : BitVec 64}
    (member : .float bits ∈ (JsonValue.dict envelope).scalars) : isFinite bits = true := by
  have owned : ∀ payload routing, fromOwnedPayload heap payload routing = .ok envelope →
      isFinite bits = true := by
    intro payload routing ok
    obtain ⟨snapshot, cloned, rfl⟩ := fromOwnedPayload_eq_ok.mp ok
    refine cloneJsonObject_finite cloned ?_
    simpa [JsonValue.scalars, scalarsOfEntries_eq] using member
  cases command with
  | sendToPropertyInspector action context payload => exact owned _ _ ok
  | setSettings context settings => exact owned _ _ ok
  | setGlobalSettings context settings => exact owned _ _ ok
  | uncertified => cases ok
  | _ => exact cloneJsonObject_finite (translate_isOk.mp ok) member

theorem toValidatedWire_isOk :
    (∃ envelope, command.toValidatedWire heap = .ok envelope) ↔ command.valid heap = true := by
  have owned : ∀ payload routing,
      (∃ envelope, fromOwnedPayload heap payload routing = .ok envelope) ↔
        (isDict heap (.container payload) && isJsonValue heap (.container payload)) = true := by
    intro payload routing
    rw [Bool.and_eq_true, ← cloneJsonObject_isOk]
    simp only [fromOwnedPayload_eq_ok]
    constructor
    · rintro ⟨_, snapshot, cloned, _⟩
      exact ⟨snapshot, cloned⟩
    · rintro ⟨snapshot, cloned⟩
      exact ⟨_, snapshot, cloned, rfl⟩
  cases command with
  | sendToPropertyInspector action context payload => exact owned _ _
  | setSettings context settings => exact owned _ _
  | setGlobalSettings context settings => exact owned _ _
  | uncertified => simp [StreamDockCommand.toValidatedWire, StreamDockCommand.valid]
  | _ =>
      simp only [StreamDockCommand.toValidatedWire, StreamDockCommand.valid, translate_isOk,
        cloneJsonObject_isOk, Bool.and_eq_true]

/-- A command is encoded when its envelope is valid and its integers can be written. -/
theorem encode_isOk :
    (∃ payload, encode maxStrDigits heap command = .ok payload) ↔
      command.valid heap = true ∧
        ∀ value, command.Mentions heap (.int value) → printable maxStrDigits value = true := by
  rw [← toValidatedWire_isOk]
  unfold encode
  cases validated : command.toValidatedWire heap with
  | error error => simp
  | ok envelope =>
      have texts := @encodeValue_isSome maxStrDigits (.dict envelope)
      have integers : (∀ value, command.Mentions heap (.int value) →
          printable maxStrDigits value = true) ↔
            (JsonValue.dict envelope).scalars.all (PyValue.hasText maxStrDigits) = true := by
        simp only [← toValidatedWire_scalars validated, List.all_eq_true]
        constructor
        · intro each scalar member
          cases scalar with
          | int value => exact each value member
          | float bits => exact toValidatedWire_finite validated member
          | _ => rfl
        · exact fun each value member => each _ member
      rw [integers, ← texts]
      cases encoded : encodeValue maxStrDigits (.dict envelope) <;> simp [encoded]

/-- The surrogates of the text are those of the command's strings. -/
theorem encode_surrogate {payload : Str} (ok : encode maxStrDigits heap command = .ok payload) :
    payload.hasSurrogate = true ↔
      ∃ string, command.Mentions heap (.str string) ∧ string.hasSurrogate = true := by
  unfold encode at ok
  split at ok
  · cases ok
  next envelope validated =>
  split at ok
  · cases ok
  next frame encoded =>
  cases ok
  have surrogates : Str.hasSurrogate ⟨frame⟩ = _ := encodeValue_surrogate _ _ encoded
  rw [surrogates, List.any_eq_true]
  simp only [toValidatedWire_scalars validated]
  constructor
  · rintro ⟨scalar, mentioned, surrogate⟩
    cases scalar with
    | str string => exact ⟨string, mentioned, surrogate⟩
    | _ => cases surrogate
  · rintro ⟨string, mentioned, surrogate⟩
    exact ⟨.str string, mentioned, surrogate⟩

theorem sendFrame_sent {payload : Str} :
    (∃ bytes, payload.encode .strict = some bytes ∧ sendFrame payload = .sent bytes) ↔
      payload.hasSurrogate = false := by
  have strict := payload.encode_strict_isSome
  unfold sendFrame
  cases encoded : payload.encode .strict with
  | none => simp_all
  | some bytes => simp_all

/-- A command cannot end the session exactly when no string in its envelope has a surrogate,
unless the encoder refuses it for another reason. -/
theorem encodes_safely_iff (maxStrDigits : Nat) (heap : PyHeap) (command : StreamDockCommand) :
    EncodesSafely maxStrDigits heap command ↔
      (command.valid heap = true →
        (∀ value, command.Mentions heap (.int value) → printable maxStrDigits value = true) →
          ∀ string, command.Mentions heap (.str string) → string.hasSurrogate = false) := by
  have possible := @encode_isOk maxStrDigits heap command
  unfold EncodesSafely
  cases encoded : encode maxStrDigits heap command with
  | error error =>
      rw [encoded] at possible
      have refused : error.raised = .valueError ∨ error.raised = .typeError := by
        cases error <;> simp [EncodeError.raised]
      simp only [refused, true_iff]
      intro valid integers
      obtain ⟨payload, ok⟩ := possible.mpr ⟨valid, integers⟩
      cases ok
  | ok payload =>
      obtain ⟨valid, integers⟩ := possible.mp ⟨payload, encoded⟩
      have surrogates := encode_surrogate encoded
      simp only [sendFrame_sent]
      constructor
      · intro clean _ _ string mentioned
        by_contra surrogate
        rw [surrogates.mpr ⟨string, mentioned, by simpa using surrogate⟩] at clean
        cases clean
      · intro clean
        by_contra surrogate
        obtain ⟨string, mentioned, found⟩ := surrogates.mp (by simpa using surrogate)
        rw [clean valid integers string mentioned] at found
        cases found

/-- A title that is one unpaired surrogate. -/
def surrogateTitle : StreamDockCommand :=
  .setTitle (.str (text "context")) (.str ⟨[0xD800]⟩) (.int 0) .none

/-- The command is encoded, its frame fits, and sending the frame ends the session. -/
theorem unconditional_encoding_fails :
    ¬ (∀ maxStrDigits heap command, EncodesSafely maxStrDigits heap command) ∧
      ∃ payload, encode 4300 [] surrogateTitle = .ok payload ∧
        accepts (8 * 1024 * 1024) payload = true ∧ sendFrame payload = .aborted := by
  have aborts : ∃ payload, encode 4300 [] surrogateTitle = .ok payload ∧
      accepts (8 * 1024 * 1024) payload = true ∧ sendFrame payload = .aborted := by
    refine ⟨⟨Str.ofString "\x7b\"event\": \"setTitle\", \"context\": \"context\", \"payload\": \x7b\"title\": \"" ++
      [0xD800] ++ Str.ofString "\", \"target\": 0\x7d\x7d"⟩, ?_, ?_, ?_⟩ <;> decide +kernel
  refine ⟨fun always => ?_, aborts⟩
  obtain ⟨payload, ok, _, aborted⟩ := aborts
  have safe := always 4300 [] surrogateTitle
  rw [EncodesSafely, ok] at safe
  obtain ⟨bytes, _, sent⟩ := safe
  rw [aborted] at sent
  cases sent

end StreamDockSdk.Protocol
