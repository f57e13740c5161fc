import StreamDockSdk.Messaging.Outbound
import StreamDockSdk.Transport.Frames

namespace StreamDockSdk.Messaging

open Transport

/-- Where the worker's thread is between the calls that it makes. -/
inductive WriterPoint (Command Payload : Type) where
  | created
  | receiving
  /-- The source's `TimeoutError`. -/
  | idling
  /-- The source's `OutboundCommandQueueClosedError`. -/
  | closed
  | received (submission : CommandSubmission Command)
  | beginning (submission : CommandSubmission Command)
  /-- The encoder raised an `Exception`. -/
  | failing (completion : Nat)
  | encoded (frame : OutboundFrame Payload)
  | registering (frame : OutboundFrame Payload)
  | attaching (frame : OutboundFrame Payload)
  | checking (frame : OutboundFrame Payload)
  | timing (frame : OutboundFrame Payload)
  | expired (frame : OutboundFrame Payload)
  | claiming (frame : OutboundFrame Payload) (timeout : Option Nat)
  | offering (frame : OutboundFrame Payload) (limit : Option Nat)
  /-- The raw queue is full. -/
  | waiting (frame : OutboundFrame Payload) (limit : Option Nat)
  | offered (frame : OutboundFrame Payload)
  | refused (frame : OutboundFrame Payload)
  /-- The `except` branch of the submission. -/
  | failed (frame : OutboundFrame Payload) (error : CommandError)
  | leaving (completion : Nat)
  /-- A `BaseException` came out of `_process`. -/
  | crashed (completion : Nat)
  | dropping
  | ending
  | exiting
  /-- `_fail_pending_locked` at the end of `_run`. -/
  | stopping
  | exited
  /-- An observer raised a `BaseException` in the last `finally`. -/
  | dead
deriving DecidableEq

namespace WriterPoint

variable {Command Payload : Type} (point : WriterPoint Command Payload)

/-- The thread has ended. -/
def isOver : Bool :=
  match point with
  | .exited | .dead => true
  | _ => false

/-- Where a `BaseException` of an observer takes the worker. -/
def unwound : WriterPoint Command Payload :=
  match point with
  | .failing completion | .leaving completion | .crashed completion => .crashed completion
  | .received submission | .beginning submission => .crashed submission.completion
  | .encoded frame | .registering frame | .attaching frame | .checking frame | .timing frame
  | .expired frame | .claiming frame _ | .offering frame _ | .waiting frame _ | .offered frame
  | .refused frame | .failed frame _ => .crashed frame.completion
  | .stopping => .dead
  | point => point

end WriterPoint

structure CommandWriter (Command Payload : Type) where
  point : WriterPoint Command Payload := .created
  stopRequested : Bool := false
  stopped : Bool := false
  sourceIdle : Bool := false
  inFlight : Option Nat := none
  /-- The completions of `_pending`, in the order in which they were entered. -/
  pending : List Nat := []

namespace CommandWriter

variable {Command Payload : Type} (writer : CommandWriter Command Payload)

/-- `_started`, which no code resets once the thread runs. -/
def started : Bool :=
  match writer.point with
  | .created => false
  | _ => true

/-- `_pending.pop(receipt, None)`. -/
def popPending (completion : Nat) : CommandWriter Command Payload :=
  { writer with pending := writer.pending.filter (· != completion) }

/-- `_is_drained_locked`. -/
def isDrained : Bool :=
  if writer.stopped then writer.inFlight.isNone && writer.pending.isEmpty
  else writer.started && writer.sourceIdle && writer.inFlight.isNone && writer.pending.isEmpty

variable {writer}

theorem created_of_unstarted (unstarted : writer.started = false) : writer.point = .created := by
  unfold started at unstarted
  split at unstarted
  · assumption
  · contradiction

end CommandWriter

end StreamDockSdk.Messaging
