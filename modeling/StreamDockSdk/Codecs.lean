import StreamDockSdk.Json.Clone
import StreamDockSdk.Json.Fields

namespace StreamDockSdk.Codecs

/-! # Codecs

A codec converts JSON objects to values of a plugin and back.  The runtime has ways of
its own to do so, which copy less often than those that a plugin calls.
-/

inductive ExceptionKind where
  /-- `JsonCodecDecodeError` -/
  | decodeError
  /-- `JsonCodecEncodeError` -/
  | encodeError
  /-- Any other `JsonCodecError`. -/
  | codecError
  | typeError
  /-- `_JsonDepthError` -/
  | depthError
  /-- Any other `ValueError`. -/
  | valueError
  /-- Any other exception. -/
  | otherError
deriving DecidableEq, Repr

/-- An exception with `type(exc).__name__`. -/
inductive PyException where
  /-- `str(exc)` is the text. -/
  | printable (kind : ExceptionKind) (className text : Str)
  /-- `str(exc)` raises instead, through a `__str__` of the class. -/
  | unprintable (kind : ExceptionKind) (className : Str) (instead : PyException)
deriving DecidableEq, Repr

namespace PyException

variable (raised : PyException)

def kind : PyException → ExceptionKind
  | .printable kind _ _ | .unprintable kind _ _ => kind

def className : PyException → Str
  | .printable _ className _ | .unprintable _ className _ => className

/-- `str(exc)` -/
def str : PyException → Except PyException Str
  | .printable _ _ text => .ok text
  | .unprintable _ _ instead => .error instead

def isCodecError : Bool :=
  match raised.kind with
  | .decodeError | .encodeError | .codecError => true
  | _ => false

def isValueError : Bool :=
  match raised.kind with
  | .typeError | .otherError => false
  | _ => true

/-- `str(exc) or type(exc).__name__` -/
def reason : Except PyException Str :=
  raised.str.map fun text => if text.codePoints = [] then raised.className else text

/-- What `except (TypeError, ValueError)` catches behind `except JsonCodecError`. -/
def isHandled : Bool :=
  !raised.isCodecError && (raised.kind = .typeError || raised.isValueError)

end PyException

inductive Direction where
  | decoding
  | encoding
deriving DecidableEq, Repr

/-- `error_type(reason)` -/
def Direction.error (reason : Str) : Direction → PyException
  | .decoding => .printable .decodeError ⟨Str.ofString "JsonCodecDecodeError"⟩ reason
  | .encoding => .printable .encodeError ⟨Str.ofString "JsonCodecEncodeError"⟩ reason

/-- `raise error_type(reason)`; where the reason itself raises, that is raised. -/
def Direction.report (direction : Direction) : Except PyException Str → PyException
  | .ok reason => direction.error reason
  | .error instead => instead

/-- `except JsonCodecError: raise` and `except (TypeError, ValueError)` -/
def Direction.translate (direction : Direction) (raised : PyException) : PyException :=
  if raised.isHandled then direction.report raised.reason else raised

/-- The handlers of `_copy_json_object`. -/
def Direction.refuse (direction : Direction) (raised : PyException) : PyException :=
  if raised.kind = .depthError then direction.report raised.str
  else if raised.isValueError then direction.error ⟨Str.ofString "expected a JSON object"⟩
  else raised

def jsonException (error : JsonError) : PyException :=
  let text : Str := ⟨Str.ofString error.message⟩
  match error with
  | .tooDeep => .printable .depthError ⟨Str.ofString "_JsonDepthError"⟩ text
  | _ => .printable .valueError ⟨Str.ofString "ValueError"⟩ text

inductive JsonInput where
  | value (value : PyValue)
  /-- A dictionary that holds, or is, a container whose own methods raise when it is read. -/
  | raising (raised : PyException)
deriving DecidableEq, Repr

/-- An object, and the containers that there are. -/
structure Located where
  heap : PyHeap
  object : JsonInput
deriving DecidableEq, Repr

/-- `clone_json_object`, with the containers that it builds. -/
def cloneJsonObjectInto (heap : PyHeap) (value : PyValue) : Except JsonError (PyValue × PyHeap) :=
  if !isDict heap value then .error .notObject
  else cloneJsonValueInto heap maxJsonDepth [] value []

namespace Located

variable (located : Located)

def clone : Except PyException Located :=
  match located.object with
  | .raising raised => .error raised
  | .value value =>
      match cloneJsonObjectInto located.heap value with
      | .error error => .error (jsonException error)
      | .ok (cloned, built) => .ok { heap := located.heap ++ built, object := .value cloned }

/-- `_copy_json_object` -/
def copyJsonObject (direction : Direction) : Except PyException Located :=
  located.clone.mapError direction.refuse

/-- The JSON object that a plugin reads of the object. -/
def content : Option JsonObject :=
  match located.object with
  | .raising _ => none
  | .value value => (cloneJsonObject located.heap value).toOption

end Located

/-- A value of a plugin may be a dictionary itself. -/
class PluginValue (T : Type) where
  asObject : T → Located

export PluginValue (asObject)

inductive JsonCodec (T : Type) where
  /-- `FunctionalJsonCodec` -/
  | functional (decoder : JsonObject → Except PyException T)
      (encoder : T → Except PyException Located)
  /-- `JsonObjectCodec` -/
  | jsonObject
  | custom (decode : JsonObject → Except PyException T) (encode : T → Except PyException Located)

inductive Decoded (T : Type) where
  | typed (value : T)
  | object (located : Located)

/-- What a codec comes to, and the object that the plugin got from it. -/
structure Decoding (T : Type) where
  handed : Option Located
  result : Except PyException (Decoded T)

/-- The handlers around a decoder. -/
def Decoding.translate {T : Type} (decoding : Decoding T) : Decoding T :=
  { decoding with result := decoding.result.mapError Direction.decoding.translate }

namespace JsonCodec

variable {T : Type} (codec : JsonCodec T)

/-- `type(codec) is FunctionalJsonCodec` -/
def isFunctional : Bool :=
  match codec with
  | .functional _ _ => true
  | .jsonObject | .custom _ _ => false

/-- `type(codec) in (FunctionalJsonCodec, JsonObjectCodec)` -/
def builtIn : Bool :=
  match codec with
  | .functional _ _ | .jsonObject => true
  | .custom _ _ => false

/-- The decoder of a plugin gets an object. -/
def hand (decoder : JsonObject → Except PyException T) (located : Located) : Decoding T where
  handed := some located
  result := (decoder (located.content.getD [])).map .typed

/-- `decode` of the codec, with what it is given. -/
def decode (located : Located) : Decoding T :=
  match codec with
  | .functional decoder _ =>
      match located.copyJsonObject .decoding with
      | .error raised => Decoding.translate { handed := none, result := .error raised }
      | .ok copy => (hand decoder copy).translate
  | .jsonObject =>
      match located.copyJsonObject .decoding with
      | .error raised => { handed := none, result := .error raised }
      | .ok copy => { handed := some copy, result := .ok (.object copy) }
  | .custom decode _ => hand decode located

/-- `decode_with_codec` -/
def decodeWithCodec (located : Located) : Decoding T :=
  if codec.builtIn then (codec.decode located).translate
  else
    match located.copyJsonObject .decoding with
    | .error raised => Decoding.translate { handed := none, result := .error raised }
    | .ok copy => (codec.decode copy).translate

/-- `_decode_isolated_with_codec` -/
def decodeIsolatedWithCodec (isolated : Located) : Decoding T :=
  match codec with
  | .functional decoder _ => (hand decoder isolated).translate
  | .jsonObject => { handed := some isolated, result := .ok (.object isolated) }
  | .custom decode _ => (hand decode isolated).translate

variable [PluginValue T]

/-- The object that the encoder of a plugin returns, or the value that is an object itself. -/
def encoderReturns (value : T) : Except PyException Located :=
  match codec with
  | .functional _ encoder => encoder value
  | .jsonObject => .ok (asObject value)
  | .custom _ encode => encode value

/-- `encode` of the codec. -/
def encode (value : T) : Except PyException Located :=
  match codec with
  | .functional _ encoder =>
      match (encoder value).mapError Direction.encoding.translate with
      | .error raised => .error raised
      | .ok encoded => encoded.copyJsonObject .encoding
  | .jsonObject => (asObject value).copyJsonObject .encoding
  | .custom _ encode => encode value

/-- `encode_with_codec` -/
def encodeWithCodec (value : T) : Except PyException Located :=
  match (codec.encode value).mapError Direction.encoding.translate with
  | .error raised => .error raised
  | .ok encoded => if codec.builtIn then .ok encoded else encoded.copyJsonObject .encoding

/-- `_encode_with_codec_source` -/
def encodeWithCodecSource (value : T) : Except PyException Located :=
  match (codec.encoderReturns value).mapError Direction.encoding.translate with
  | .error raised => .error raised
  | .ok encoded => encoded.clone.mapError Direction.encoding.refuse

/-- `OwnedJsonPayload(source)`: a dictionary of its own over another copy. -/
def ownedJsonPayload (source : Located) : Except PyException Located :=
  match source.clone with
  | .error raised => .error raised
  | .ok copy =>
      let entries :=
        match copy.object with
        | .value value => (dictEntries? copy.heap value).getD []
        | .raising _ => []
      .ok { heap := copy.heap ++ [.dict entries], object := .value (.container copy.heap.length) }

/-- `_encode_with_codec_payload` -/
def encodeWithCodecPayload (value : T) : Except PyException Located :=
  match codec.encodeWithCodecSource value with
  | .error raised => .error raised
  | .ok source => ownedJsonPayload source

end JsonCodec

/-- `decode_settings` of a class. -/
inductive DecodeSettings (T : Type) where
  | inherited
  /-- `decode_settings = Other.decode_settings`: the method is bound to the other class, which
  inherits it and has the codec. -/
  | borrowed (codec : JsonCodec T)
  | overridden (decode : JsonObject → Except PyException T)

structure ActionType (T : Type) where
  settingsCodec : JsonCodec T
  decodeSettings : DecodeSettings T

/-- The arguments of the constructor of an action. -/
structure Creation (T D : Type) where
  action : Str
  context : Str
  settings : Decoded T
  dependencies : D

variable {T D : Type}

/-- `action_type.decode_settings(settings)` -/
def ActionType.decode (actionType : ActionType T) (settings : Located) :
    Except PyException (Decoded T) :=
  match actionType.decodeSettings with
  | .inherited => (actionType.settingsCodec.decodeWithCodec settings).result
  | .borrowed codec => (codec.decodeWithCodec settings).result
  | .overridden decode => (decode (settings.content.getD [])).map .typed

/-- `decode_settings.__func__` is that of `Action`. -/
def ActionType.isDefault (actionType : ActionType T) : Bool :=
  match actionType.decodeSettings with
  | .inherited | .borrowed _ => true
  | .overridden _ => false

abbrev ActionRegistry (T : Type) := List (Str × ActionType T)

namespace ActionRegistry

variable (registry : ActionRegistry T) (action context : Str)

def find (action : Str) : Option (ActionType T) :=
  (List.find? (fun entry => entry.1 = action) registry).map (·.2)

/-- `create`, up to the call of the constructor. -/
def create (settings : Located) (dependencies : D) :
    Except PyException (Option (Creation T D)) :=
  match find registry action with
  | none => .ok none
  | some actionType =>
      (actionType.decode settings).map fun settings =>
        some { action, context, settings, dependencies }

/-- `_create_from_owned_settings`, up to the call of the constructor. -/
def createFromOwnedSettings (settings : Located) (dependencies : D) :
    Except PyException (Option (Creation T D)) :=
  match find registry action with
  | none => .ok none
  | some actionType =>
      if actionType.isDefault then
        (actionType.settingsCodec.decodeIsolatedWithCodec settings).result.map fun settings =>
          some { action, context, settings, dependencies }
      else create registry action context settings dependencies

end ActionRegistry

end StreamDockSdk.Codecs
