import Mathlib.Logic.Function.Basic
import StreamDockSdk.Automaton.System
import StreamDockSdk.Messaging.Models

namespace StreamDockSdk.Messaging

/-! # `InboundEventQueue`

The deque and the index by context refer to the same mutable entries, so the
entries are objects of a store and both hold their references.  Functions on
`InboundEventQueue` are parts of one locked region; `InboundWorld` adds the
calls that wait inside `submit` and `shutdown`.
-/

inductive InboundOverflowPolicy where
  | dropNewest
  | dropOldest
deriving DecidableEq, Repr

structure InboundConfig where
  queueLimit : Nat
  overflowPolicy : InboundOverflowPolicy
  coalesceDialRotations : Bool
  byteLimit : Nat
  queueLimit_pos : 0 < queueLimit
  byteLimit_pos : 0 < byteLimit

structure InboundEventQueue where
  config : InboundConfig
  objects : Nat → SizedEvent := fun _ => default
  allocated : Nat := 0
  queue : List Nat := []
  lastQueuedByContext : Str → Option Nat := fun _ => none
  accepting : Bool := true
  inFlight : Nat := 0
  peakDepth : Nat := 0
  submitted : Nat := 0
  enqueued : Nat := 0
  coalesced : Nat := 0
  dequeued : Nat := 0
  acknowledged : Nat := 0
  backpressured : Nat := 0
  droppedNewest : Nat := 0
  droppedOldest : Nat := 0
  rejectedFull : Nat := 0
  rejectedAfterShutdown : Nat := 0
  discardedDuringShutdown : Nat := 0
  currentBytes : Nat := 0
  peakBytes : Nat := 0
  rejectedOversized : Nat := 0

/-- A call of `submit`, numbered in the order in which the calls are counted. -/
structure Submission where
  number : Nat
  event : StreamDockEvent
deriving Repr

structure SubmitCall where
  submission : Submission
  size : Nat
deriving Repr

inductive InboundEvent where
  | submitted (submission : Submission)
  | enqueued (submission : Submission) (ref : Nat)
  | coalesced (submission : Submission) (ref : Nat)
  | refused (submission : Submission)
  | evicted (ref : Nat) (item : SizedEvent)
  | received (ref : Nat) (item : SizedEvent)
  | discarded (ref : Nat)
deriving Repr

/-- `_coalescing_context` -/
def coalescingContext? : StreamDockEvent → Option Str
  | .willAppear _ | .willDisappear _ => none
  | event => event.actionContext?

/-- The comparison of `_coalesce`. -/
def sameRotation (previous event : DialRotateEvent) : Bool :=
  previous.action == event.action && previous.device == event.device &&
    previous.coordinates == event.coordinates && previous.pressed == event.pressed &&
    previous.controller == event.controller

/-- What a part of `submit` leaves behind: the events newest first, and whether
the call goes on waiting. -/
structure SubmitResult where
  queue : InboundEventQueue
  events : List InboundEvent
  waits : Bool := false

namespace InboundEventQueue

variable (queue : InboundEventQueue)

/-- The condition of the waiting loop in `submit`. -/
def isFull (size : Nat) : Bool :=
  decide (queue.config.queueLimit ≤ queue.queue.length) ||
    decide (queue.config.byteLimit < queue.currentBytes + size)

/-- `_break_context_coalescing` -/
def breakContextCoalescing (event : StreamDockEvent) : InboundEventQueue :=
  match coalescingContext? event with
  | none => { queue with lastQueuedByContext := fun _ => none }
  | some context =>
      { queue with lastQueuedByContext := Function.update queue.lastQueuedByContext context none }

/-- `_forget_queued_event` -/
def forgetQueuedEvent (ref : Nat) : InboundEventQueue :=
  match coalescingContext? (queue.objects ref).event with
  | none => queue
  | some context =>
      if queue.lastQueuedByContext context = some ref then
        { queue with
          lastQueuedByContext := Function.update queue.lastQueuedByContext context none }
      else queue

/-- The entry at the index leaves the deque and the byte count. -/
def removeAt (index ref : Nat) : InboundEventQueue :=
  { queue with
    queue := queue.queue.eraseIdx index
    currentBytes := queue.currentBytes - (queue.objects ref).size }.forgetQueuedEvent ref

/-- `_coalesce`: the entry that took the rotation, which keeps its reference. -/
def coalesce (event : StreamDockEvent) (replacementSize : Nat) :
    Option (InboundEventQueue × Nat) :=
  match event with
  | .dialRotate rotation =>
      if !queue.config.coalesceDialRotations then none
      else match queue.lastQueuedByContext rotation.context with
        | none => none
        | some ref =>
            match (queue.objects ref).event with
            | .dialRotate previous =>
                let replacement := { rotation with ticks := previous.ticks + rotation.ticks }
                let replacementBytes :=
                  queue.currentBytes - (queue.objects ref).size + replacementSize
                if !sameRotation previous rotation then none
                else if queue.config.byteLimit < replacementBytes then none
                else some ({ queue with
                  objects := Function.update queue.objects ref
                    { event := .dialRotate replacement, size := replacementSize }
                  currentBytes := replacementBytes
                  peakBytes := max queue.peakBytes replacementBytes }, ref)
            | _ => none
  | _ => none

def isRotation (ref : Nat) : Bool :=
  (queue.objects ref).event.isDialRotate

/-- The index that the search of `_drop_queued_rotation` stops at. -/
def rotationIndex? : Option Nat :=
  match queue.config.overflowPolicy with
  | .dropNewest =>
      (queue.queue.reverse.findIdx? queue.isRotation).map fun offset =>
        queue.queue.length - offset - 1
  | .dropOldest => queue.queue.findIdx? queue.isRotation

def countDropped : InboundEventQueue :=
  match queue.config.overflowPolicy with
  | .dropNewest => { queue with droppedNewest := queue.droppedNewest + 1 }
  | .dropOldest => { queue with droppedOldest := queue.droppedOldest + 1 }

/-- `_drop_queued_rotation` -/
def dropQueuedRotation : Option (InboundEventQueue × Nat) :=
  match queue.rotationIndex? with
  | none => none
  | some index =>
      match queue.queue[index]? with
      | none => none
      | some ref => some ((queue.removeAt index ref).countDropped, ref)

/-- The end of `submit`, after its waiting loop. -/
def enqueue (call : SubmitCall) : SubmitResult :=
  let ref := queue.allocated
  let event := call.submission.event
  let entries := queue.queue ++ [ref]
  let currentBytes := queue.currentBytes + call.size
  { queue := { queue with
      objects := Function.update queue.objects ref { event, size := call.size }
      allocated := ref + 1
      queue := entries
      currentBytes
      peakBytes := max queue.peakBytes currentBytes
      lastQueuedByContext :=
        match coalescingContext? event with
        | none => fun _ => none
        | some context => Function.update queue.lastQueuedByContext context (some ref)
      enqueued := queue.enqueued + 1
      peakDepth := max queue.peakDepth entries.length }
    events := [.enqueued call.submission ref] }

/-- `submit` returns `False`; the refused event breaks the run of its context. -/
def refuse (submission : Submission) : SubmitResult where
  queue := queue.breakContextCoalescing submission.event
  events := [.refused submission]

/-- One pass of the waiting loop in `submit`, up to its wait.  Each turn that
goes on evicts an entry, so the depth of the queue bounds the turns. -/
def admitCall (call : SubmitCall) (expired firstWait : Bool) : Nat → InboundEventQueue → SubmitResult
  | turns, queue =>
      let newest := { queue with droppedNewest := queue.droppedNewest + 1 }
      let discardable := call.submission.event.isDialRotate
      if !queue.isFull call.size then queue.enqueue call
      else if discardable && queue.config.overflowPolicy == .dropNewest then
        newest.refuse call.submission
      else match turns, queue.dropQueuedRotation with
        | turns + 1, some (next, ref) =>
            let rest := admitCall call expired firstWait turns next
            { rest with events := rest.events ++ [.evicted ref (queue.objects ref)] }
        | _, _ =>
            if discardable then newest.refuse call.submission
            else if expired then
              { queue with rejectedFull := queue.rejectedFull + 1 }.refuse call.submission
            else {
              queue := { queue with
                backpressured := queue.backpressured + if firstWait then 1 else 0 }
              events := []
              waits := true }

/-- `submit` up to its first wait. -/
def submit (call : SubmitCall) (replacementSize : Nat) (expired : Bool) : SubmitResult :=
  let queue := { queue with submitted := queue.submitted + 1 }
  if !queue.accepting then {
    queue := { queue with rejectedAfterShutdown := queue.rejectedAfterShutdown + 1 }
    events := [.refused call.submission] }
  else if queue.config.byteLimit < call.size then
    { queue with rejectedOversized := queue.rejectedOversized + 1 }.refuse call.submission
  else match queue.coalesce call.submission.event replacementSize with
    | some (next, ref) => {
        queue := { next with coalesced := next.coalesced + 1 }
        events := [.coalesced call.submission ref] }
    | none => admitCall call expired true queue.queue.length queue

/-- `submit` from the return of a wait to the next one. -/
def resumeSubmit (call : SubmitCall) (expired : Bool) : SubmitResult :=
  if !queue.accepting then
    { queue with rejectedAfterShutdown := queue.rejectedAfterShutdown + 1 }.refuse call.submission
  else admitCall call expired false queue.queue.length queue

/-- The removal in `_receive`, for a selector that answers `index`. -/
def takeAt (index : Nat) : Option (InboundEventQueue × Nat) :=
  match queue.queue[index]? with
  | none => none
  | some ref =>
      let next := queue.removeAt index ref
      some ({ next with dequeued := next.dequeued + 1, inFlight := next.inFlight + 1 }, ref)

/-- `task_done`; it raises where the result is `none`. -/
def taskDone : Option InboundEventQueue :=
  if queue.inFlight = 0 then none
  else some { queue with inFlight := queue.inFlight - 1, acknowledged := queue.acknowledged + 1 }

def stopAccepting : InboundEventQueue :=
  { queue with accepting := false }

/-- The condition that `drain` waits for. -/
def isDrained : Bool :=
  queue.queue.isEmpty && queue.inFlight == 0

/-- The last locked region of `shutdown`. -/
def discardQueued : InboundEventQueue :=
  { queue with
    discardedDuringShutdown := queue.discardedDuringShutdown + queue.queue.length
    queue := []
    currentBytes := 0
    lastQueuedByContext := fun _ => none }

end InboundEventQueue

structure InboundWorld where
  queue : InboundEventQueue
  /-- The calls parked in the wait of `submit`. -/
  waiting : List SubmitCall := []
  /-- The calls of `shutdown` inside their `drain`, and those past its time-out. -/
  draining : Nat := 0
  discarding : Nat := 0
  /-- Newest first. -/
  history : List InboundEvent := []

inductive InboundLabel where
  | submit (event : StreamDockEvent) (size replacementSize : Nat) (expired : Bool)
  | resume (index : Nat) (expired : Bool)
  | receive (selected : Option Int)
  | taskDone
  | stopAccepting
  | shutdown
  | drained
  | drainTimeout
  | discard

namespace InboundWorld

variable (world : InboundWorld)

/-- The world after a part of `submit` for the call, which is not in `waiting`. -/
def settle (call : SubmitCall) (result : SubmitResult) : InboundWorld :=
  { world with
    queue := result.queue
    waiting := if result.waits then world.waiting ++ [call] else world.waiting
    history := result.events ++ world.history }

/-- `_receive` once its selector has answered; `none` where it waits or raises. -/
def receiveAt (index : Nat) : Option (InboundWorld × SizedEvent) :=
  match world.queue.takeAt index with
  | none => none
  | some (queue, ref) =>
      let item := world.queue.objects ref
      some ({ world with queue, history := .received ref item :: world.history }, item)

def step : InboundLabel → Option InboundWorld
  | .submit event size replacementSize expired =>
      let submission : Submission := { number := world.queue.submitted + 1, event }
      let call : SubmitCall := { submission, size }
      some ({ world with history := .submitted submission :: world.history }.settle call
        (world.queue.submit call replacementSize expired))
  | .resume index expired =>
      match world.waiting[index]? with
      | none => none
      | some call =>
          some ({ world with waiting := world.waiting.eraseIdx index }.settle call
            (world.queue.resumeSubmit call expired))
  | .receive none => some world
  | .receive (some (.negSucc _)) => some world
  | .receive (some (.ofNat index)) =>
      match world.receiveAt index with
      | none => some world
      | some (next, _) => some next
  | .taskDone =>
      match world.queue.taskDone with
      | none => some world
      | some queue => some { world with queue }
  | .stopAccepting => some { world with queue := world.queue.stopAccepting }
  | .shutdown => some { world with
      queue := world.queue.stopAccepting
      draining := world.draining + 1 }
  | .drained =>
      if 0 < world.draining ∧ world.queue.isDrained = true then
        some { world with draining := world.draining - 1 }
      else none
  | .drainTimeout =>
      if 0 < world.draining ∧ world.queue.isDrained = false then
        some { world with draining := world.draining - 1, discarding := world.discarding + 1 }
      else none
  | .discard =>
      if 0 < world.discarding then some { world with
        queue := world.queue.discardQueued
        discarding := world.discarding - 1
        history := (world.queue.queue.map .discarded).reverse ++ world.history }
      else none

end InboundWorld

/-- Every run of a queue built with `config`. -/
def inboundSystem (config : InboundConfig) : Automaton.System InboundWorld InboundLabel where
  initial world := world = { queue := { config } }
  step := InboundWorld.step

end StreamDockSdk.Messaging
