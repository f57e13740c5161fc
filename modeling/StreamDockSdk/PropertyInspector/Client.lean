import Mathlib.Data.List.Basic
import StreamDockSdk.Automaton.System

namespace StreamDockSdk.PropertyInspector

/-! # `MiraBoxPropertyInspectorClient`

The client with its sockets and the stack of JavaScript calls.  A listener may make
any call of the client before it returns, and the next event of a socket comes when
the stack is empty.
-/

/-- The UTF-16 code units of a string. -/
structure JsString where
  codeUnits : List (Fin 65536)
deriving DecidableEq, Repr

def JsString.ofString (text : String) : JsString :=
  ⟨text.toList.map fun character => Fin.ofNat 65536 character.toNat⟩

def maxMessageBytes : Nat := 8 * 1024 * 1024

def queueByteLimit : Nat := 16 * 1024 * 1024

def pendingMessageLimit : Nat := 1024

def isHighSurrogate (code : Fin 65536) : Bool := 0xd800 ≤ code.val && code.val ≤ 0xdbff

def isLowSurrogate (code : Fin 65536) : Bool := 0xdc00 ≤ code.val && code.val ≤ 0xdfff

/-- The bytes of a code unit that starts no surrogate pair. -/
def unitSize (code : Fin 65536) : Nat :=
  if code.val < 0x80 then 1 else if code.val < 0x800 then 2 else 3

/-- The loop of `utf8Size`. -/
def utf8SizeFrom (limit size : Nat) : List (Fin 65536) → Nat
  | [] => size
  | [code] => size + unitSize code
  | code :: next :: rest =>
      if isHighSurrogate code && isLowSurrogate next then
        if limit < size + 4 then size + 4 else utf8SizeFrom limit (size + 4) rest
      else if limit < size + unitSize code then size + unitSize code
      else utf8SizeFrom limit (size + unitSize code) (next :: rest)

def utf8Size (text : JsString) (limit : Nat) : Nat := utf8SizeFrom limit 0 text.codeUnits

/-- What the client uses of the engine's values. -/
structure JavaScript (Value : Type) where
  isObject : Value → Bool
  /-- The string that a value is. -/
  string? : Value → Option JsString
  ofString : JsString → Value
  /-- `none` where the property is `undefined`. -/
  property : Value → String → Option Value
  /-- An object literal. -/
  object : List (String × Option Value) → Value
  /-- The literal that spreads two objects; `none` where it throws. -/
  spread : Value → Value → Option Value
  /-- `none` where `JSON.stringify` throws, `some none` where it returns `undefined`. -/
  stringify : Value → Option (Option JsString)
  /-- `none` where `JSON.parse` throws. -/
  parse : JsString → Option Value

namespace JavaScript

variable {Value : Type} (js : JavaScript Value)

/-- `parseObject` of a string. -/
def parseText (text : JsString) : Option Value :=
  (js.parse text).filter js.isObject

def parseObject (value : Value) : Option Value :=
  match js.string? value with
  | some text => js.parseText text
  | none => if js.isObject value then some value else none

def snapshotObject (value : Value) : Option Value :=
  match js.stringify value with
  | some (some text) => js.parseText text
  | _ => none

/-- `typeof value === "string"` with a positive length. -/
def nonEmpty? (value : Value) : Option JsString :=
  (js.string? value).filter fun text => text.codeUnits ≠ []

end JavaScript

/-- A message that waits for its socket; `token` tells the accepted calls of `send`
apart, and no code reads it. -/
structure PendingMessage where
  data : JsString
  token : Nat
deriving DecidableEq, Repr

/-- Objects are numbered; the client's settings are one of them. -/
structure MiraBoxPropertyInspectorClient where
  listeners : List (JsString × List Nat) := []
  pendingMessages : List PendingMessage := []
  pendingBytes : Nat := 0
  peakPendingBytes : Nat := 0
  peakPendingDepth : Nat := 0
  rejectedFull : Nat := 0
  rejectedOversized : Nat := 0
  websocket : Option Nat := none
  action : Option JsString := none
  context : Option JsString := none
  settings : Nat
  info : Nat
  actionInfo : Nat
deriving DecidableEq, Repr

inductive ReadyState where
  | connecting
  | open
  | closing
  | closed
deriving DecidableEq, Repr

/-- A frame that a socket's `send` took; `token` is `none` for the registration. -/
structure SentFrame where
  data : JsString
  token : Option Nat
deriving DecidableEq, Repr

/-- A socket, with what its open handler has of the call of `connect` that made it. -/
structure InspectorSocket where
  propertyInspectorUUID : JsString
  registerEvent : JsString
  readyState : ReadyState := .connecting
  /-- Its open or its close event was handled. -/
  handled : Bool := false
  frames : List SentFrame := []
deriving DecidableEq, Repr

namespace InspectorSocket

def sends (frame : SentFrame) (socket : InspectorSocket) : InspectorSocket :=
  { socket with frames := socket.frames ++ [frame] }

/-- `close` of a socket. -/
def closing (socket : InspectorSocket) : InspectorSocket :=
  match socket.readyState with
  | .connecting | .open => { socket with readyState := .closing }
  | _ => socket

/-- Its open or its close event is dispatched. -/
def settle (readyState : ReadyState) (socket : InspectorSocket) : InspectorSocket :=
  { socket with readyState, handled := true }

/-- The tokens of the messages that a socket took. -/
def tokens (socket : InspectorSocket) : List Nat :=
  socket.frames.filterMap (·.token)

end InspectorSocket

/-- One call on the stack. -/
inductive JsFrame (Value : Type) where
  | listener
  /-- The loop of `_emit`. -/
  | emitting (listeners : List Nat) (guard : Option Nat) (event : JsString)
  /-- The loop over the queued messages in the open handler. -/
  | flushing (websocket : Nat) (rest : List PendingMessage)
  /-- The open handler, before its `_rejectPendingMessages`. -/
  | registrationFailed (websocket : Nat)
  /-- The loop of `_rejectPendingMessages`, or the last one of `connect`. -/
  | rejecting (rest : List PendingMessage)
  /-- The close handler, before it emits `disconnected`. -/
  | disconnecting (websocket : Nat)
  /-- `_receive`, before it emits `message`. -/
  | receiving (websocket : Nat) (message : Value)

def JsFrame.isListener {Value : Type} : JsFrame Value → Bool
  | .listener => true
  | _ => false

/-- A call of `send` that did not throw.  `ahead` are the queued messages of the same
socket that the open handler has still to send. -/
structure Acceptance where
  websocket : Nat
  immediate : Bool
  data : JsString
  ahead : List Nat
deriving DecidableEq, Repr

inductive ClientEvent where
  | connected (websocket : Nat)
  /-- A listener is called; `guard` is the socket of a socket's event. -/
  | delivered (guard : Option Nat) (event : JsString) (listener : Nat)
deriving DecidableEq, Repr

/-- What a call of a socket finds: its `bufferedAmount`, and whether its `send` throws. -/
structure Wire where
  bufferedAmount : Nat := 0
  raises : Bool := false
deriving DecidableEq, Repr

/-- `accepted`, `sendErrors`, `trace`, `written` and `uncaught` are what happened so far;
no code reads them. -/
structure InspectorWorld (Value : Type) where
  client : MiraBoxPropertyInspectorClient
  objects : List Value
  /-- The objects that the application has got. -/
  known : List Nat
  sockets : List InspectorSocket := []
  /-- The innermost call first. -/
  stack : List (JsFrame Value) := []
  accepted : List Acceptance := []
  /-- The messages of the emitted `sendError`s, newest first; `none` for a registration. -/
  sendErrors : List (Option Nat) := []
  /-- Newest first. -/
  trace : List ClientEvent := []
  /-- What the settings were last set to. -/
  written : Value
  /-- An exception has left a loop of the client. -/
  uncaught : Bool := false

/-- The arguments of `connect`; `port` is the integer that `Number(port)` is. -/
structure ConnectArguments where
  port : Option Int
  propertyInspectorUUID : Nat
  registerEvent : Nat
  info : Nat
  actionInfo : Nat
  /-- `new WebSocket` throws. -/
  raises : Bool := false
deriving Repr

inductive ClientCall where
  | on (event : JsString) (listener : Nat)
  | off (event : JsString) (listener : Nat)
  | connect (arguments : ConnectArguments)
  | send (message : Nat)
  | sendToPlugin (payload : Nat)
  | setSettings (settings : Nat)
  | updateSettings (patch : Nat)
  | getSettings
deriving Repr

inductive CallResult where
  | raised
  | sent (immediate : Bool)
  | done
deriving DecidableEq, Repr

namespace MiraBoxPropertyInspectorClient

variable (client : MiraBoxPropertyInspectorClient)

def listenersOf (event : JsString) : List Nat :=
  ((client.listeners.find? (·.1 = event)).map (·.2)).getD []

def on (event : JsString) (listener : Nat) : MiraBoxPropertyInspectorClient :=
  if client.listeners.any (·.1 = event) then
    { client with listeners := client.listeners.map fun entry =>
        if entry.1 = event ∧ listener ∉ entry.2 then (entry.1, entry.2 ++ [listener]) else entry }
  else { client with listeners := client.listeners ++ [(event, [listener])] }

def off (event : JsString) (listener : Nat) : MiraBoxPropertyInspectorClient :=
  let left := client.listeners.map fun entry =>
    if entry.1 = event then (entry.1, entry.2.erase listener) else entry
  { client with listeners := left.filter fun entry => entry.1 ≠ event || !entry.2.isEmpty }

/-- `_messageSize`; `data` is `none` where it is no string. -/
def messageSize (data : Option JsString) : MiraBoxPropertyInspectorClient × Option Nat :=
  match data with
  | none => (client, none)
  | some text =>
      if maxMessageBytes < utf8Size text maxMessageBytes then
        ({ client with rejectedOversized := client.rejectedOversized + 1 }, none)
      else (client, some (utf8Size text maxMessageBytes))

/-- The queue is full for a message of the size. -/
def isFull (size : Nat) : Bool :=
  pendingMessageLimit ≤ client.pendingMessages.length ||
    queueByteLimit < client.pendingBytes + size

def countFull : MiraBoxPropertyInspectorClient :=
  { client with rejectedFull := client.rejectedFull + 1 }

def queue (message : PendingMessage) (size : Nat) : MiraBoxPropertyInspectorClient :=
  { client with
    pendingMessages := client.pendingMessages ++ [message]
    pendingBytes := client.pendingBytes + size
    peakPendingBytes := max client.peakPendingBytes (client.pendingBytes + size)
    peakPendingDepth := max client.peakPendingDepth (client.pendingMessages.length + 1) }

/-- `this._pendingMessages.splice(0)`, with the bytes. -/
def splice : MiraBoxPropertyInspectorClient :=
  { client with pendingMessages := [], pendingBytes := 0 }

end MiraBoxPropertyInspectorClient

namespace InspectorWorld

variable {Value : Type} (js : JavaScript Value) (world : InspectorWorld Value)

def readyState (websocket : Nat) : ReadyState :=
  (world.sockets[websocket]?.map (·.readyState)).getD .closed

def setSocket (websocket : Nat) (update : InspectorSocket → InspectorSocket) :
    InspectorWorld Value :=
  { world with sockets := world.sockets.modify websocket update }

def setClient (client : MiraBoxPropertyInspectorClient) : InspectorWorld Value :=
  { world with client }

def push (frame : JsFrame Value) : InspectorWorld Value :=
  { world with stack := frame :: world.stack }

/-- `_emit` up to its loop. -/
def emit (event : JsString) (guard : Option Nat) : InspectorWorld Value :=
  world.push (.emitting (world.client.listenersOf event) guard event)

/-- `_emit("sendError", …)` -/
def emitSendError (token : Option Nat) : InspectorWorld Value :=
  { world.emit (.ofString "sendError") none with sendErrors := token :: world.sendErrors }

/-- An exception leaves a loop, up to the listener whose call it is in. -/
def unwind : InspectorWorld Value :=
  { world with stack := world.stack.dropWhile (!·.isListener), uncaught := true }

/-- `_sendData`, and whether it returns. -/
def sendData (websocket : Nat) (frame : SentFrame) (size : Nat) (wire : Wire) :
    InspectorWorld Value × Bool :=
  if world.client.websocket ≠ some websocket then (world, false)
  else if world.readyState websocket ≠ .open then (world, false)
  else if queueByteLimit < wire.bufferedAmount + size then
    (world.setClient world.client.countFull, false)
  else if wire.raises then (world, false)
  else (world.setSocket websocket (.sends frame), true)

/-- The queued messages that the open handler of a socket has still to send. -/
def waiting (websocket : Nat) : List Nat :=
  world.stack.flatMap fun frame =>
    match frame with
    | .flushing other rest => if other = websocket then rest.map (·.token) else []
    | _ => []

def accept (websocket : Nat) (immediate : Bool) (data : JsString) : InspectorWorld Value :=
  { world with accepted := world.accepted ++
      [{ websocket, immediate, data, ahead := world.waiting websocket }] }

/-- `send`, when the message is serialized and its size is known. -/
def sendSized (websocket : Nat) (data : JsString) (size : Nat) (wire : Wire) :
    InspectorWorld Value × CallResult :=
  if world.readyState websocket = .open then
    match world.sendData websocket { data, token := some world.accepted.length } size wire with
    | (world, true) => (world.accept websocket true data, .sent true)
    | (world, false) => (world, .raised)
  else if world.client.isFull size then (world.setClient world.client.countFull, .raised)
  else
    ((world.setClient
      (world.client.queue { data, token := world.accepted.length } size)).accept
        websocket false data, .sent false)

def send (message : Value) (wire : Wire) : InspectorWorld Value × CallResult :=
  if !js.isObject message then (world, .raised)
  else match world.client.websocket with
    | none => (world, .raised)
    | some websocket =>
        if world.readyState websocket ≠ .open ∧ world.readyState websocket ≠ .connecting then
          (world, .raised)
        else match js.stringify message with
          | none => (world, .raised)
          | some data =>
              match world.client.messageSize data, data with
              | (client, some size), some data =>
                  if (js.parseText data).isSome then
                    (world.setClient client).sendSized websocket data size wire
                  else (world.setClient client, .raised)
              | (client, _), _ => (world.setClient client, .raised)

def stringOf (value : Option JsString) : Option Value :=
  value.map js.ofString

def sendToPlugin (payload : Value) (wire : Wire) : InspectorWorld Value × CallResult :=
  if !js.isObject payload then (world, .raised)
  else world.send js (js.object [
    ("event", some (js.ofString (.ofString "sendToPlugin"))),
    ("action", stringOf js world.client.action),
    ("context", stringOf js world.client.context), ("payload", some payload)]) wire

/-- The message of `setSettings`. -/
def settingsMessage (payload : Value) : Value :=
  js.object [("event", some (js.ofString (.ofString "setSettings"))),
    ("context", stringOf js world.client.context), ("payload", some payload)]

/-- An owned object becomes the settings. -/
def assignSettings (settings : Value) : InspectorWorld Value :=
  { world with
    objects := world.objects ++ [settings]
    client := { world.client with settings := world.objects.length }
    written := settings }

def setSettings (settings : Value) (wire : Wire) : InspectorWorld Value × CallResult :=
  if !js.isObject settings then (world, .raised)
  else match js.snapshotObject settings with
    | none => (world, .raised)
    | some snapshot =>
        match world.send js (world.settingsMessage js snapshot) wire with
        | (world, .sent immediate) => (world.assignSettings snapshot, .sent immediate)
        | (world, result) => (world, result)

def read (object : Nat) : Value :=
  (world.objects[object]?).getD (js.object [])

def updateSettings (patch : Value) (wire : Wire) : InspectorWorld Value × CallResult :=
  if !js.isObject patch then (world, .raised)
  else match js.spread (world.read js world.client.settings) patch with
    | none => (world, .raised)
    | some merged => world.setSettings js merged wire

def getSettings (wire : Wire) : InspectorWorld Value × CallResult :=
  world.send js (js.object [
    ("event", some (js.ofString (.ofString "getSettings"))),
    ("context", stringOf js world.client.context)]) wire

/-- What the checks of `connect` make of its arguments. -/
structure Session (Value : Type) where
  propertyInspectorUUID : JsString
  registerEvent : JsString
  /-- An object of the caller, or a new one. -/
  info : Nat ⊕ Value
  actionInfo : Nat ⊕ Value
  action : JsString
  settings : Value

/-- `parseObject` of an argument. -/
def parseArgument (object : Nat) : Option (Nat ⊕ Value) :=
  match js.string? (world.read js object) with
  | some text => (js.parseText text).map .inr
  | none => if js.isObject (world.read js object) then some (.inl object) else none

def argument (parsed : Nat ⊕ Value) : Value :=
  match parsed with
  | .inl object => world.read js object
  | .inr value => value

/-- The settings of an object's payload; `none` where the snapshot throws. -/
def payloadSettings (value : Value) : Option Value :=
  match (js.property value "payload").bind (js.property · "settings") with
  | some settings =>
      if js.isObject settings then js.snapshotObject settings else some (js.object [])
  | none => some (js.object [])

/-- `connect` up to `new WebSocket`. -/
def validate (arguments : ConnectArguments) : Option (Session Value) := do
  let port ← arguments.port
  guard (1 ≤ port ∧ port ≤ 65535)
  let propertyInspectorUUID ← js.nonEmpty? (world.read js arguments.propertyInspectorUUID)
  let registerEvent ← js.nonEmpty? (world.read js arguments.registerEvent)
  let info ← world.parseArgument js arguments.info
  let actionInfo ← world.parseArgument js arguments.actionInfo
  let action ← (js.property (world.argument js actionInfo) "action").bind js.nonEmpty?
  let settings ← payloadSettings js (world.argument js actionInfo)
  guard !arguments.raises
  return { propertyInspectorUUID, registerEvent, info, actionInfo, action, settings }

/-- The number that a parsed argument has. -/
def place (parsed : Nat ⊕ Value) : InspectorWorld Value × Nat :=
  match parsed with
  | .inl object => (world, object)
  | .inr value =>
      ({ world with
        objects := world.objects ++ [value], known := world.objects.length :: world.known },
        world.objects.length)

def closeSocket (websocket : Nat) : InspectorWorld Value :=
  world.setSocket websocket .closing

def connect (arguments : ConnectArguments) : InspectorWorld Value × CallResult :=
  match world.validate js arguments with
  | none => (world, .raised)
  | some session =>
      let (placed, info) := world.place session.info
      let (placed, actionInfo) := placed.place session.actionInfo
      let assigned := placed.assignSettings session.settings
      let replaced : InspectorWorld Value := { assigned with
        client := { assigned.client.splice with
          websocket := some world.sockets.length
          info, actionInfo, action := some session.action
          context := some session.propertyInspectorUUID }
        sockets := world.sockets ++ [{
          propertyInspectorUUID := session.propertyInspectorUUID
          registerEvent := session.registerEvent }]
        trace := .connected world.sockets.length :: world.trace }
      let closed := match world.client.websocket with
        | none => replaced
        | some previous => replaced.closeSocket previous
      (closed.push (.rejecting world.client.pendingMessages), .done)

/-- The objects that a call is given. -/
def given : ClientCall → List Nat
  | .connect arguments => [arguments.propertyInspectorUUID, arguments.registerEvent,
      arguments.info, arguments.actionInfo]
  | .send object | .sendToPlugin object | .setSettings object | .updateSettings object => [object]
  | .on _ _ | .off _ _ | .getSettings => []

def perform (wire : Wire) : ClientCall → InspectorWorld Value × CallResult
  | .on event listener =>
      if event.codeUnits = [] then (world, .raised)
      else (world.setClient (world.client.on event listener), .done)
  | .off event listener => (world.setClient (world.client.off event listener), .done)
  | .connect arguments => world.connect js arguments
  | .send message => world.send js (world.read js message) wire
  | .sendToPlugin payload => world.sendToPlugin js (world.read js payload) wire
  | .setSettings settings => world.setSettings js (world.read js settings) wire
  | .updateSettings patch => world.updateSettings js (world.read js patch) wire
  | .getSettings => world.getSettings js wire

/-- The registration of the open handler, and whether it was sent. -/
def register (websocket : Nat) (socket : InspectorSocket) (wire : Wire) :
    InspectorWorld Value × Bool :=
  match js.stringify (js.object [("event", some (js.ofString socket.registerEvent)),
      ("uuid", some (js.ofString socket.propertyInspectorUUID))]) with
  | none => (world, false)
  | some data =>
      match world.client.messageSize data, data with
      | (client, some size), some data =>
          (world.setClient client).sendData websocket { data, token := none } size wire
      | (client, _), _ => (world.setClient client, false)

/-- A socket opens, up to the loops of its open handler. -/
def opens (websocket : Nat) (socket : InspectorSocket) (wire : Wire) : InspectorWorld Value :=
  let opened := world.setSocket websocket (.settle .open)
  if world.client.websocket ≠ some websocket then opened
  else match opened.register js websocket socket wire with
    | (sent, true) =>
        (sent.setClient sent.client.splice).push (.flushing websocket sent.client.pendingMessages)
    | (failed, false) =>
        ((failed.closeSocket websocket).push (.registrationFailed websocket)).emitSendError none

/-- `_receive`, with the delivery of `protocolError`. -/
def receive (websocket : Nat) (data : Value) : InspectorWorld Value :=
  if world.client.websocket ≠ some websocket then world
  else match world.client.messageSize (js.string? data) with
    | (client, none) => (world.setClient client).emit (.ofString "protocolError") (some websocket)
    | (client, some _) =>
        let world := world.setClient client
        match js.parseObject data with
        | none => world.emit (.ofString "protocolError") (some websocket)
        | some message =>
            match (js.property message "event").bind js.string? with
            | none => world.emit (.ofString "message") (some websocket)
            | some event =>
                let received : Option (InspectorWorld Value) :=
                  if event = .ofString "didReceiveSettings" then
                    (payloadSettings js message).map world.assignSettings
                  else some world
                match received with
                | none => world
                | some world =>
                    (world.push (.receiving websocket message)).emit event (some websocket)

/-- The close handler. -/
def closes (websocket : Nat) : InspectorWorld Value :=
  let closed := world.setSocket websocket (.settle .closed)
  if world.client.websocket ≠ some websocket then closed
  else ((closed.setClient world.client.splice).push (.disconnecting websocket)).push
    (.rejecting world.client.pendingMessages)

/-- The next queued message of the open handler, and whether it was sent. -/
def flush (websocket : Nat) (message : PendingMessage) (wire : Wire) :
    InspectorWorld Value × Bool :=
  match world.client.messageSize (some message.data) with
  | (client, none) => (world.setClient client, false)
  | (client, some size) =>
      (world.setClient client).sendData websocket
        { data := message.data, token := some message.token } size wire

/-- The report of a message that was not sent. -/
def report (message : PendingMessage) : InspectorWorld Value :=
  match js.parse message.data with
  | none => world.unwind
  | some _ => world.emitSendError (some message.token)

/-- The innermost call goes on. -/
def proceed (wire : Wire) : Option (InspectorWorld Value) :=
  match world.stack with
  | [] | .listener :: _ => none
  | .emitting [] _ _ :: rest => some { world with stack := rest }
  | .emitting (listener :: listeners) guard event :: rest =>
      if guard.isSome ∧ world.client.websocket ≠ guard then some { world with stack := rest }
      else some { world with
        stack := .listener :: .emitting listeners guard event :: rest
        trace := .delivered guard event listener :: world.trace }
  | .flushing websocket [] :: rest =>
      let left := { world with stack := rest }
      if world.client.websocket ≠ some websocket ∨ world.readyState websocket ≠ .open then some left
      else match js.snapshotObject (world.read js world.client.settings) with
        | none => some left
        | some _ => some (left.emit (.ofString "connected") (some websocket))
  | .flushing websocket (message :: messages) :: rest =>
      let next := { world with stack := .flushing websocket messages :: rest }
      match next.flush websocket message wire with
      | (sent, true) => some sent
      | (failed, false) => some (failed.report js message)
  | .registrationFailed websocket :: rest =>
      let left := { world with stack := rest }
      if world.client.websocket ≠ some websocket then some left
      else some ((left.setClient world.client.splice).push
        (.rejecting world.client.pendingMessages))
  | .rejecting [] :: rest => some { world with stack := rest }
  | .rejecting (message :: messages) :: rest =>
      some ({ world with stack := .rejecting messages :: rest }.report js message)
  | .disconnecting websocket :: rest =>
      some ({ world with stack := rest }.emit (.ofString "disconnected") (some websocket))
  | .receiving websocket _ :: rest =>
      some ({ world with stack := rest }.emit (.ofString "message") (some websocket))

/-- Code of the application runs, in a listener or outside of all calls. -/
def applicationRuns : Bool :=
  match world.stack with
  | [] | .listener :: _ => true
  | _ => false

end InspectorWorld

inductive SocketEvent (Value : Type) where
  | opens
  | message (data : Value)
  | error
  | closes
deriving Repr

inductive InspectorLabel (Value : Type) where
  /-- The application makes an object. -/
  | create (value : Value)
  | mutate (object : Nat) (value : Value)
  | call (call : ClientCall) (wire : Wire)
  /-- A listener returns or throws. -/
  | finish
  | proceed (wire : Wire)
  | event (websocket : Nat) (event : SocketEvent Value) (wire : Wire)
  /-- The closing handshake of a socket starts. -/
  | closing (websocket : Nat)
deriving Repr

namespace InspectorWorld

variable {Value : Type} (js : JavaScript Value) (world : InspectorWorld Value)

def handle (websocket : Nat) (socket : InspectorSocket) (wire : Wire) :
    SocketEvent Value → Option (InspectorWorld Value)
  | .opens =>
      if socket.readyState = .connecting then some (world.opens js websocket socket wire) else none
  | .message data => some (world.receive js websocket data)
  | .error => some (world.emit (.ofString "error") (some websocket))
  | .closes => if socket.readyState ≠ .closed then some (world.closes websocket) else none

def step : InspectorLabel Value → Option (InspectorWorld Value)
  | .create value =>
      if world.applicationRuns then some { world with
        objects := world.objects ++ [value], known := world.objects.length :: world.known }
      else none
  | .mutate object value =>
      if world.applicationRuns ∧ object ∈ world.known then
        some { world with objects := world.objects.set object value }
      else none
  | .call call wire =>
      if world.applicationRuns ∧ ∀ object ∈ given call, object ∈ world.known then
        some (world.perform js wire call).1
      else none
  | .finish =>
      match world.stack with
      | .listener :: rest => some { world with stack := rest }
      | _ => none
  | .proceed wire => world.proceed js wire
  | .event websocket event wire =>
      match world.stack, world.sockets[websocket]? with
      | [], some socket => world.handle js websocket socket wire event
      | _, _ => none
  | .closing websocket => some (world.closeSocket websocket)

/-- A new client. -/
def start : InspectorWorld Value where
  client := { settings := 0, info := 1, actionInfo := 2 }
  objects := [js.object [], js.object [], js.object []]
  known := [1, 2]
  written := js.object []

end InspectorWorld

def inspectorSystem {Value : Type} (js : JavaScript Value) :
    Automaton.System (InspectorWorld Value) (InspectorLabel Value) where
  initial world := world = InspectorWorld.start js
  step := InspectorWorld.step js

end StreamDockSdk.PropertyInspector
