import StreamDockSdk.Transport.Frames

namespace StreamDockSdk.Transport

/-- Where the sender's thread is between the calls that it makes. -/
inductive SenderPoint (Payload : Type) where
  | created
  | waiting
  | receiving
  /-- The queue's `TimeoutError`; `offered` is how many frames it had accepted
  then, which no code reads. -/
  | idling (offered : Nat)
  /-- The queue's `TransportQueueClosedError`. -/
  | closed
  | holding (frame : OutboundFrame Payload)
  | unsent (frame : OutboundFrame Payload)
  | guarding (frame : OutboundFrame Payload)
  | beginning (frame : OutboundFrame Payload)
  | sending (frame : OutboundFrame Payload)
  | awaiting (frame : OutboundFrame Payload)
  | sent (frame : OutboundFrame Payload)
  | failed (frame : OutboundFrame Payload)
  | dropping (frame : OutboundFrame Payload)
  | clearing (frame : OutboundFrame Payload) (keepRunning : Bool)
  | exiting
  | exited
deriving DecidableEq

structure WebSocketClientConnector (Payload : Type) where
  point : SenderPoint Payload := .created
  connected : Bool := false
  closing : Bool := false
  terminal : Bool := false
  drainRequested : Bool := false
  stopRequested : Bool := false
  senderStopped : Bool := false
  outboundDrained : Bool := false
  /-- The completion of the frame in flight. -/
  inFlight : Option Nat := none

namespace WebSocketClientConnector

variable {Payload : Type} (connector : WebSocketClientConnector Payload)

/-- `_started`, which no code resets once the sender runs. -/
def started : Bool :=
  match connector.point with
  | .created => false
  | _ => true

/-- `_clear_in_flight`. -/
def clearInFlight (completion : Nat) : WebSocketClientConnector Payload :=
  if connector.inFlight = some completion then { connector with inFlight := none } else connector

/-- The region of `_receive_outbound_frame` after its receive found nothing. -/
def markDrained : WebSocketClientConnector Payload :=
  if connector.drainRequested && !connector.stopRequested then
    { connector with outboundDrained := true }
  else connector

/-- The region with which the connection is given up. -/
def disconnect : WebSocketClientConnector Payload :=
  { connector with connected := false, stopRequested := true }

variable {connector} {completion : Nat}

@[simp] theorem clearInFlight_point :
    (connector.clearInFlight completion).point = connector.point := by
  unfold clearInFlight
  split <;> rfl

@[simp] theorem clearInFlight_closing :
    (connector.clearInFlight completion).closing = connector.closing := by
  unfold clearInFlight
  split <;> rfl

@[simp] theorem clearInFlight_drainRequested :
    (connector.clearInFlight completion).drainRequested = connector.drainRequested := by
  unfold clearInFlight
  split <;> rfl

@[simp] theorem clearInFlight_stopRequested :
    (connector.clearInFlight completion).stopRequested = connector.stopRequested := by
  unfold clearInFlight
  split <;> rfl

@[simp] theorem clearInFlight_outboundDrained :
    (connector.clearInFlight completion).outboundDrained = connector.outboundDrained := by
  unfold clearInFlight
  split <;> rfl

end WebSocketClientConnector

end StreamDockSdk.Transport
