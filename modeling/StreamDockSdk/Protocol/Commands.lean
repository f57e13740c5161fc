import StreamDockSdk.Json.Values

namespace StreamDockSdk.Protocol

/-! # Commands and their wire envelopes

A field that the command's class does not check may be any Python object.  The
payloads are `OwnedJsonPayload`s, named by their identity: native mutations may
have put anything into them since they were validated.
-/

inductive StreamDockCommand where
  | registerPlugin (event uuid : PyValue)
  | sendToPropertyInspector (action context : Str) (payload : Nat)
  | setState (context state : PyValue)
  | setTitle (context title target state : PyValue)
  | setSettings (context : Str) (settings : Nat)
  | getSettings (context : PyValue)
  | setImage (context image target state : PyValue)
  | showOk (context : PyValue)
  | showAlert (context : PyValue)
  | openUrl (url : PyValue)
  | logMessage (message : PyValue)
  | setGlobalSettings (context : Str) (settings : Nat)
  | getGlobalSettings (context : PyValue)
  /-- A command of another class, with what its `to_wire` returns. -/
  | custom (wire : PyValue)
  /-- One whose `to_validated_wire` returns no `ValidatedWireMessage`. -/
  | uncertified
deriving DecidableEq, Repr

def text (literal : String) : Str :=
  ⟨Str.ofString literal⟩

/-- An entry whose key is a literal of the source. -/
def field (name : String) (value : PyValue) : PyValue × PyValue :=
  (.str (text name), value)

/-- A dictionary that a `to_wire` builds. -/
def newDict (heap : PyHeap) (entries : List (PyValue × PyValue)) : PyHeap × PyValue :=
  (heap ++ [.dict entries], .container heap.length)

/-- An envelope around a dictionary that the same `to_wire` builds. -/
def withPayload (heap : PyHeap) (envelope payload : List (PyValue × PyValue)) : PyHeap × PyValue :=
  let (heap, payload) := newDict heap payload
  newDict heap (envelope ++ [field "payload" payload])

def event (name : String) : PyValue × PyValue :=
  field "event" (.str (text name))

/-- `if self.state is not None: payload["state"] = self.state` -/
def stateField : PyValue → List (PyValue × PyValue)
  | .none => []
  | state => [field "state" state]

namespace StreamDockCommand

/-- `to_wire` -/
def toWire (heap : PyHeap) : StreamDockCommand → PyHeap × PyValue
  | .registerPlugin event uuid => newDict heap [field "event" event, field "uuid" uuid]
  | .sendToPropertyInspector action context payload => newDict heap
      [event "sendToPropertyInspector", field "action" (.str action), field "context" (.str context),
        field "payload" (.container payload)]
  | .setState context state => withPayload heap [event "setState", field "context" context]
      [field "state" state]
  | .setTitle context title target state => withPayload heap
      [event "setTitle", field "context" context]
      ([field "title" title, field "target" target] ++ stateField state)
  | .setSettings context settings => newDict heap
      [event "setSettings", field "context" (.str context), field "payload" (.container settings)]
  | .getSettings context => newDict heap [event "getSettings", field "context" context]
  | .setImage context image target state => withPayload heap
      [event "setImage", field "context" context]
      ([field "image" image, field "target" target] ++ stateField state)
  | .showOk context => newDict heap [event "showOk", field "context" context]
  | .showAlert context => newDict heap [event "showAlert", field "context" context]
  | .openUrl url => withPayload heap [event "openUrl"] [field "url" url]
  | .logMessage message => withPayload heap [event "logMessage"] [field "message" message]
  | .setGlobalSettings context settings => newDict heap
      [event "setGlobalSettings", field "context" (.str context),
        field "payload" (.container settings)]
  | .getGlobalSettings context => newDict heap
      [event "getGlobalSettings", field "context" context]
  | .custom wire => (heap, wire)
  | .uncertified => (heap, .none)

end StreamDockCommand

inductive PythonError where
  | valueError
  | typeError
deriving DecidableEq, Repr

/-- What encoding a command raises. -/
inductive EncodeError where
  | tooDeep
  | notJson
  | notValidated
deriving DecidableEq, Repr

namespace EncodeError

def raised : EncodeError → PythonError
  | .tooDeep | .notJson => .valueError
  | .notValidated => .typeError

def message : EncodeError → String
  | .tooDeep => JsonError.tooDeep.message
  | .notJson => "Stream Dock command contains a non-JSON value"
  | .notValidated => "command.to_validated_wire() must return ValidatedWireMessage"

end EncodeError

/-- `except _JsonDepthError: raise`, and the other validation errors translated. -/
def translate : Except JsonError JsonObject → Except EncodeError JsonObject
  | .ok object => .ok object
  | .error .tooDeep => .error .tooDeep
  | .error _ => .error .notJson

/-- `ValidatedWireMessage.from_owned_payload` with routing fields in the order of the call. -/
def fromOwnedPayload (heap : PyHeap) (payload : Nat) (routing : List (String × Str)) :
    Except EncodeError JsonObject :=
  (translate (cloneJsonObject heap (.container payload))).map fun snapshot =>
    routing.map (fun (name, value) => (text name, .str value)) ++ [(text "payload", .dict snapshot)]

namespace StreamDockCommand

/-- `to_validated_wire`, with the object of the message. -/
def toValidatedWire (heap : PyHeap) : StreamDockCommand → Except EncodeError JsonObject
  | .sendToPropertyInspector action context payload => fromOwnedPayload heap payload
      [("event", text "sendToPropertyInspector"), ("action", action), ("context", context)]
  | .setSettings context settings => fromOwnedPayload heap settings
      [("event", text "setSettings"), ("context", context)]
  | .setGlobalSettings context settings => fromOwnedPayload heap settings
      [("event", text "setGlobalSettings"), ("context", context)]
  | .uncertified => .error .notValidated
  | command =>
      let (heap, wire) := command.toWire heap
      translate (cloneJsonObject heap wire)

/-- What the validation accepts. -/
def valid (heap : PyHeap) : StreamDockCommand → Bool
  | .sendToPropertyInspector _ _ payload | .setSettings _ payload | .setGlobalSettings _ payload =>
      isDict heap (.container payload) && isJsonValue heap (.container payload)
  | .uncertified => false
  | command =>
      let (heap, wire) := command.toWire heap
      isDict heap wire && isJsonValue heap wire

/-- The scalar stands in the command's envelope. -/
def Mentions (heap : PyHeap) (command : StreamDockCommand) (scalar : PyValue) : Prop :=
  Contains (command.toWire heap).1 (command.toWire heap).2 scalar

end StreamDockCommand

end StreamDockSdk.Protocol
