import Mathlib.Data.List.Basic

namespace StreamDockSdk.Transport

/-! # `_BoundedTransportQueue`

`submit` is cut where it waits for room: at its first look at the queue and at
each look after it was woken.
-/

structure TransportQueueConfig (Item : Type) where
  queueLimit : Nat
  /-- Zero for a queue without a limit on its bytes. -/
  byteLimit : Nat
  maxMessageBytes : Nat
  /-- `item_size`, which may stop counting above the limit that it is given. -/
  itemSize : Item → Nat → Nat

structure BoundedTransportQueue (Item : Type) where
  queue : List (Item × Nat) := []
  accepting : Bool := true
  peakDepth : Nat := 0
  submitted : Nat := 0
  enqueued : Nat := 0
  dequeued : Nat := 0
  backpressured : Nat := 0
  rejectedFull : Nat := 0
  rejectedAfterShutdown : Nat := 0
  discardedDuringShutdown : Nat := 0
  currentBytes : Nat := 0
  peakBytes : Nat := 0
  rejectedOversized : Nat := 0
deriving DecidableEq, Repr

/-- What `_reject_item` is called with. -/
inductive TransportQueueError where
  | closed
  | tooLarge
  | full
deriving DecidableEq, Repr

/-- How a look of `submit` at the queue ends. -/
inductive SubmitDecision where
  | rejected (error : TransportQueueError)
  /-- `cancelled` returned true. -/
  | cancelled
  | waits
  | accepted
deriving DecidableEq, Repr

namespace TransportQueueConfig

variable {Item : Type} (config : TransportQueueConfig Item)

/-- `_max_message_bytes` as the constructor keeps it. -/
def messageLimit : Nat := min config.maxMessageBytes config.byteLimit

def size (item : Item) : Nat := config.itemSize item config.messageLimit

end TransportQueueConfig

namespace BoundedTransportQueue

variable {Item : Type} (queue : BoundedTransportQueue Item)

def items : List Item := queue.queue.map (·.1)

/-- The condition of the waiting loop. -/
def full (config : TransportQueueConfig Item) (size : Nat) : Bool :=
  decide (config.queueLimit ≤ queue.queue.length) ||
    (config.byteLimit != 0 && decide (config.byteLimit < queue.currentBytes + size))

def append (item : Item) (size : Nat) : BoundedTransportQueue Item :=
  { queue with
    queue := queue.queue ++ [(item, size)]
    currentBytes := queue.currentBytes + size
    peakBytes := max queue.peakBytes (queue.currentBytes + size)
    enqueued := queue.enqueued + 1
    peakDepth := max queue.peakDepth (queue.queue.length + 1) }

/-- One round of the waiting loop, or what follows it. -/
def attempt (config : TransportQueueConfig Item) (item : Item) (cancelled expired first : Bool) :
    BoundedTransportQueue Item × SubmitDecision :=
  if queue.full config (config.size item) then
    if cancelled then (queue, .cancelled)
    else if expired then
      ({ queue with rejectedFull := queue.rejectedFull + 1 }, .rejected .full)
    else (if first then { queue with backpressured := queue.backpressured + 1 } else queue, .waits)
  else if cancelled then (queue, .cancelled)
  else (queue.append item (config.size item), .accepted)

/-- `submit` until it returns or waits for the first time. -/
def submit (config : TransportQueueConfig Item) (item : Item) (cancelled expired : Bool) :
    BoundedTransportQueue Item × SubmitDecision :=
  let queue := { queue with submitted := queue.submitted + 1 }
  if !queue.accepting then
    ({ queue with rejectedAfterShutdown := queue.rejectedAfterShutdown + 1 }, .rejected .closed)
  else if config.messageLimit < config.size item then
    ({ queue with rejectedOversized := queue.rejectedOversized + 1 }, .rejected .tooLarge)
  else queue.attempt config item cancelled expired true

/-- `submit` from where it was woken until it returns or waits again. -/
def resubmit (config : TransportQueueConfig Item) (item : Item) (cancelled expired : Bool) :
    BoundedTransportQueue Item × SubmitDecision :=
  if !queue.accepting then
    ({ queue with rejectedAfterShutdown := queue.rejectedAfterShutdown + 1 }, .rejected .closed)
  else queue.attempt config item cancelled expired false

/-- The region of `receive` in which the queue is not empty. -/
def receive : Option (BoundedTransportQueue Item × Item) :=
  match queue.queue with
  | [] => none
  | (item, size) :: rest =>
      some ({ queue with
        queue := rest
        currentBytes := queue.currentBytes - size
        dequeued := queue.dequeued + 1 }, item)

def stopAccepting : BoundedTransportQueue Item :=
  { queue with accepting := false }

/-- `discard` of the items that satisfy the test, of which the first is removed. -/
def discard (is : Item → Bool) : BoundedTransportQueue Item :=
  match queue.queue.find? fun entry => is entry.1 with
  | none => queue
  | some entry =>
      { queue with
        queue := queue.queue.eraseP fun entry => is entry.1
        currentBytes := queue.currentBytes - entry.2 }

/-- The region in which `shutdown` empties the queue. -/
def clear : BoundedTransportQueue Item :=
  { queue with
    queue := []
    currentBytes := 0
    discardedDuringShutdown := queue.discardedDuringShutdown + queue.queue.length }

variable {queue}

@[simp] theorem items_stopAccepting : queue.stopAccepting.items = queue.items := rfl

@[simp] theorem items_clear : queue.clear.items = [] := rfl

theorem items_discard_sublist (is : Item → Bool) : (queue.discard is).items.Sublist queue.items := by
  unfold discard
  split
  · exact List.Sublist.refl _
  · exact List.Sublist.map _ List.eraseP_sublist

@[simp] theorem accepting_discard (is : Item → Bool) :
    (queue.discard is).accepting = queue.accepting := by
  unfold discard
  split <;> rfl

theorem receive_some {after : BoundedTransportQueue Item} {item : Item}
    (received : queue.receive = some (after, item)) :
    queue.items = item :: after.items ∧ after.accepting = queue.accepting := by
  unfold receive at received
  split at received
  · contradiction
  · next size rest line =>
    cases received
    exact ⟨by simp [items, line], rfl⟩

theorem receive_none (received : queue.receive = none) : queue.items = [] := by
  unfold receive at received
  split at received
  · next line => simp [items, line]
  · contradiction

/-- A look of `submit` changes the line only where it accepts the item. -/
structure Attempts (queue : BoundedTransportQueue Item) (item : Item)
    (after : BoundedTransportQueue Item) (decision : SubmitDecision) : Prop where
  accepting : after.accepting = queue.accepting
  items : after.items = if decision = .accepted then queue.items ++ [item] else queue.items
  taken : decision = .accepted → queue.accepting = true

theorem attempt_attempts (config : TransportQueueConfig Item) (item : Item)
    (cancelled expired first : Bool) (accepts : queue.accepting = true) :
    queue.Attempts item (queue.attempt config item cancelled expired first).1
      (queue.attempt config item cancelled expired first).2 := by
  unfold attempt
  split
  · split
    · exact ⟨rfl, rfl, nofun⟩
    · split
      · exact ⟨rfl, rfl, nofun⟩
      · cases first <;> exact ⟨rfl, rfl, nofun⟩
  · split
    · exact ⟨rfl, rfl, nofun⟩
    · exact ⟨rfl, by simp [append, items], fun _ => accepts⟩

theorem submit_attempts (queue : BoundedTransportQueue Item) (config : TransportQueueConfig Item) (item : Item)
    (cancelled expired : Bool) :
    queue.Attempts item (queue.submit config item cancelled expired).1
      (queue.submit config item cancelled expired).2 := by
  unfold submit
  dsimp only
  split
  · exact ⟨rfl, rfl, nofun⟩
  · next accepts =>
    split
    · exact ⟨rfl, rfl, nofun⟩
    · have attempts := (@attempt_attempts _ { queue with submitted := queue.submitted + 1 })
        config item cancelled expired true (by simpa using accepts)
      exact ⟨attempts.accepting, attempts.items, attempts.taken⟩

theorem resubmit_attempts (queue : BoundedTransportQueue Item) (config : TransportQueueConfig Item) (item : Item)
    (cancelled expired : Bool) :
    queue.Attempts item (queue.resubmit config item cancelled expired).1
      (queue.resubmit config item cancelled expired).2 := by
  unfold resubmit
  split
  · exact ⟨rfl, rfl, nofun⟩
  · next accepts => exact attempt_attempts config item cancelled expired false (by simpa using accepts)

end BoundedTransportQueue

end StreamDockSdk.Transport
