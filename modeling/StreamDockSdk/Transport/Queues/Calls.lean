import Mathlib.Data.List.Perm.Basic
import StreamDockSdk.Automaton.System
import StreamDockSdk.Transport.Queues

namespace StreamDockSdk.Transport

open Automaton

/-! # Calls on a `_BoundedTransportQueue`

An item is a reference, so that Lean's equality of items is `is`; their `==` is a
parameter.  Each call runs one region under the condition, or one look of a
waiting loop, at a time.
-/

variable {Item : Type} [DecidableEq Item]

namespace BoundedTransportQueue

/-- The `==` of two entries, which are tuples. -/
def entryEquals (equals : Item → Item → Bool) (first second : Item × Nat) : Bool :=
  (decide (first.1 = second.1) || equals first.1 second.1) && first.2 == second.2

variable (queue : BoundedTransportQueue Item) (equals : Item → Item → Bool)

/-- The entry that the search of `discard` stops at. -/
def entryOf (item : Item) : Option (Item × Nat) :=
  queue.queue.find? fun entry => decide (entry.1 = item)

/-- Where `deque.remove` finds the entry. -/
def removalIndex (item : Item) : Option Nat :=
  (queue.entryOf item).bind fun entry => queue.queue.findIdx? (entryEquals equals · entry)

/-- `discard`, which searches by `is` and removes by `==`. -/
def discardItem (item : Item) : BoundedTransportQueue Item :=
  match queue.entryOf item with
  | none => queue
  | some entry => { queue with
      queue := queue.queue.eraseP (entryEquals equals · entry)
      currentBytes := queue.currentBytes - entry.2 }

end BoundedTransportQueue

/-- The fields of an `OutboundFrame`, whose receipt and guard are references. -/
structure FrameFields (Payload : Type) where
  payload : Payload
  receipt : Nat
  beginSend : Option Nat
deriving DecidableEq, Repr

/-- The `==` of the dataclass. -/
def frameEquals {Payload : Type} [DecidableEq Payload] (fields : Item → FrameFields Payload)
    (first second : Item) : Bool :=
  decide (fields first = fields second)

/-- Where a call on a queue is. -/
inductive QueueCall (Item : Type) where
  | submit (item : Item)
  /-- In the wait of `submit`, with whether it was notified since. -/
  | waits (item : Item) (notified : Bool)
  /-- `submit` is over; it returned true or not. -/
  | submitted (item : Item) (accepted : Bool)
  | receive
  /-- `receive` is over; it raised when there is no item. -/
  | received (item : Option Item)
  | discard (item : Item)
  | stopAccepting
  | wakeProducers
  | drain
  | shutdown
  /-- `shutdown` inside its `drain`. -/
  | drainsLast
  /-- After that `drain` has timed out. -/
  | clears
  | returned
deriving DecidableEq, Repr

namespace QueueCall

/-- A call that has not begun. -/
def starts : QueueCall Item → Bool
  | .submit _ | .receive | .discard _ | .stopAccepting | .wakeProducers | .drain | .shutdown => true
  | _ => false

/-- What `notify_all` does to a call. -/
def notify : QueueCall Item → QueueCall Item
  | .waits item _ => .waits item true
  | call => call

/-- The item of a call of `submit`. -/
def submits : QueueCall Item → Option Item
  | .submit item | .waits item _ | .submitted item _ => some item
  | _ => none

end QueueCall

/-- An append to a queue: the call of `submit` that made it, and its item. -/
abbrev QueueAppend (Item : Type) := Nat × Item

/-- A queue with the calls on it.  No code reads what follows the calls: the appends so
far, those behind the entries of the queue, and those that have left it in each way. -/
structure QueueWorld (Item : Type) where
  queue : BoundedTransportQueue Item := {}
  calls : List (QueueCall Item) := []
  appended : List (QueueAppend Item) := []
  line : List (QueueAppend Item) := []
  received : List (QueueAppend Item) := []
  discarded : List (QueueAppend Item) := []
  cleared : List (QueueAppend Item) := []
deriving DecidableEq, Repr

inductive QueueLabel (Item : Type) where
  | begins (call : QueueCall Item)
  /-- The next region of a call, with what its `cancelled` tells and whether its
  deadline has passed. -/
  | proceeds (call : Nat) (cancelled expired : Bool)
deriving DecidableEq, Repr

namespace QueueWorld

variable (config : TransportQueueConfig Item) (equals : Item → Item → Bool)
variable (world : QueueWorld Item)

def setCall (index : Nat) (call : QueueCall Item) : QueueWorld Item :=
  { world with calls := world.calls.set index call }

def notifyAll : QueueWorld Item :=
  { world with calls := world.calls.map QueueCall.notify }

/-- A look of `submit` at the queue. -/
def looks (index : Nat) (item : Item) (look : BoundedTransportQueue Item × SubmitDecision) :
    QueueWorld Item :=
  let seen := { world with queue := look.1 }
  match look.2 with
  | .rejected _ | .cancelled => seen.setCall index (.submitted item false)
  | .waits => seen.setCall index (.waits item false)
  | .accepted =>
      ({ seen with
        appended := world.appended ++ [(index, item)]
        line := world.line ++ [(index, item)] }.setCall index (.submitted item true)).notifyAll

def receives (index : Nat) (expired : Bool) : Option (QueueWorld Item) :=
  match world.queue.receive with
  | some (queue, item) =>
      some ({ world with
        queue
        received := world.received ++ world.line.take 1
        line := world.line.drop 1 }.setCall index (.received (some item))).notifyAll
  | none =>
      if !world.queue.accepting || expired then some (world.setCall index (.received none))
      else none

def discards (index : Nat) (item : Item) : QueueWorld Item :=
  match world.queue.removalIndex equals item with
  | none => world.setCall index .returned
  | some place =>
      ({ world with
        queue := world.queue.discardItem equals item
        discarded := world.discarded ++ world.line[place]?.toList
        line := world.line.eraseIdx place }.setCall index .returned).notifyAll

/-- A look of `drain`; `late` is where the call is after a time-out. -/
def drains (index : Nat) (expired : Bool) (late : QueueCall Item) : Option (QueueWorld Item) :=
  if world.queue.queue.isEmpty then some (world.setCall index .returned)
  else if expired then some (world.setCall index late)
  else none

def proceed (index : Nat) (cancelled expired : Bool) : Option (QueueWorld Item) :=
  match world.calls[index]? with
  | some (.submit item) =>
      some (world.looks index item (world.queue.submit config item cancelled expired))
  | some (.waits item _) =>
      some (world.looks index item (world.queue.resubmit config item cancelled expired))
  | some .receive => world.receives index expired
  | some (.discard item) => some (world.discards equals index item)
  | some .stopAccepting =>
      some ({ world with queue := world.queue.stopAccepting }.setCall index .returned).notifyAll
  | some .wakeProducers => some (world.setCall index .returned).notifyAll
  | some .drain => world.drains index expired .returned
  | some .shutdown =>
      some ({ world with queue := world.queue.stopAccepting }.setCall index .drainsLast).notifyAll
  | some .drainsLast => world.drains index expired .clears
  | some .clears =>
      some ({ world with
        queue := world.queue.clear
        cleared := world.cleared ++ world.line
        line := [] }.setCall index .returned).notifyAll
  | some (.submitted _ _) | some (.received _) | some .returned | none => none

def step : QueueLabel Item → Option (QueueWorld Item)
  | .begins call =>
      if call.starts then some { world with calls := world.calls ++ [call] } else none
  | .proceeds index cancelled expired => world.proceed config equals index cancelled expired

end QueueWorld

/-- Every run of the calls on a queue that is empty at first. -/
def queueSystem (config : TransportQueueConfig Item) (equals : Item → Item → Bool) :
    System (QueueWorld Item) (QueueLabel Item) where
  initial world := world = {}
  step world := world.step config equals

end StreamDockSdk.Transport
