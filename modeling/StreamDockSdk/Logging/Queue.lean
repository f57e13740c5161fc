import Mathlib.Data.List.Basic
import StreamDockSdk.Automaton.System

namespace StreamDockSdk.Logging

/-! # The queue between the loggers and their destination

Records of level `ERROR` and above have a lane of their own, which is emptied first.  A
record that finds the queue full takes the place of another one or is dropped.
-/

inductive LoggingOverflowPolicy where
  | dropNewest
  | dropOldest
deriving DecidableEq, Repr

/-- `logging.ERROR` -/
def errorLevel : Int := 40

structure LogRecord where
  /-- How many records were put before this one. -/
  created : Nat
  levelno : Int
deriving DecidableEq, Repr

def LogRecord.urgent (record : LogRecord) : Bool :=
  decide (errorLevel ≤ record.levelno)

structure BoundedPriorityLogQueue where
  limit : Nat
  overflowPolicy : LoggingOverflowPolicy
  priorityRecords : List LogRecord
  regularRecords : List LogRecord
  sentinelPending : Bool
deriving DecidableEq, Repr

namespace BoundedPriorityLogQueue

def fresh (limit : Nat) (overflowPolicy : LoggingOverflowPolicy) : BoundedPriorityLogQueue where
  limit
  overflowPolicy
  priorityRecords := []
  regularRecords := []
  sentinelPending := false

variable (queue : BoundedPriorityLogQueue)

def depth : Nat :=
  queue.priorityRecords.length + queue.regularRecords.length

def records : List LogRecord :=
  queue.priorityRecords ++ queue.regularRecords

/-- The lane of the records that are urgent, or of those that are not. -/
def recordsFor : Bool → List LogRecord
  | true => queue.priorityRecords
  | false => queue.regularRecords

def setRecordsFor (records : List LogRecord) : Bool → BoundedPriorityLogQueue
  | true => { queue with priorityRecords := records }
  | false => { queue with regularRecords := records }

def append (record : LogRecord) : BoundedPriorityLogQueue :=
  queue.setRecordsFor (queue.recordsFor record.urgent ++ [record]) record.urgent

/-- The record that leaves a full queue for the new one, and the queue without it. -/
def displace (record : LogRecord) : Option (LogRecord × BoundedPriorityLogQueue) :=
  match record.urgent, queue.regularRecords with
  | true, oldest :: rest => some (oldest, queue.setRecordsFor rest false)
  | urgent, _ =>
      match queue.overflowPolicy, queue.recordsFor urgent with
      | .dropOldest, oldest :: rest => some (oldest, queue.setRecordsFor rest urgent)
      | _, _ => none

/-- The queue after `put_nowait`, and the record that was dropped. -/
def putNowait (record : LogRecord) : BoundedPriorityLogQueue × Option LogRecord :=
  if queue.limit ≤ queue.depth then
    match queue.displace record with
    | some (oldest, trimmed) => (trimmed.append record, some oldest)
    | none => (queue, some record)
  else
    (queue.append record, none)

/-- What a turn of the loop of `get` comes to. -/
inductive Turn where
  | record (record : LogRecord) (queue : BoundedPriorityLogQueue)
  | sentinel (queue : BoundedPriorityLogQueue)
  | empty
deriving DecidableEq, Repr

def get : Turn :=
  match queue.priorityRecords, queue.regularRecords with
  | next :: rest, _ => .record next { queue with priorityRecords := rest }
  | [], next :: rest => .record next { queue with regularRecords := rest }
  | [], [] =>
      if queue.sentinelPending then .sentinel { queue with sentinelPending := false }
      else .empty

end BoundedPriorityLogQueue

inductive LogEvent where
  | put (record : LogRecord)
  /-- A record was dropped by the call that put the incoming one. -/
  | dropped (record incoming : LogRecord)
  | stopRequested
  | delivered (record : LogRecord)
  /-- `get` returned `None`. -/
  | ended
deriving DecidableEq, Repr

structure LogQueueWorld where
  queue : BoundedPriorityLogQueue
  /-- What `dropped_log_records` reads, for all the queues of the process. -/
  droppedLogRecords : Nat
  /-- Calls of `put_nowait` that dropped a record and have not counted it yet. -/
  uncounted : Nat
  /-- The share of `droppedLogRecords` that other queues counted. -/
  elsewhere : Nat
  /-- Calls of `get` that wait for a record. -/
  parked : Nat
  history : List LogEvent
deriving DecidableEq, Repr

/-- The records that were put, oldest first. -/
def puts : List LogEvent → List LogRecord
  | [] => []
  | .put record :: older => puts older ++ [record]
  | _ :: older => puts older

def deliveries : List LogEvent → List LogRecord
  | [] => []
  | .delivered record :: older => deliveries older ++ [record]
  | _ :: older => deliveries older

def losses : List LogEvent → List LogRecord
  | [] => []
  | .dropped record _ :: older => losses older ++ [record]
  | _ :: older => losses older

namespace LogQueueWorld

variable (world : LogQueueWorld)

def putRecord (levelno : Int) : LogQueueWorld :=
  let record : LogRecord := { created := (puts world.history).length, levelno }
  match world.queue.putNowait record with
  | (queue, none) => { world with queue, history := .put record :: world.history }
  | (queue, some dropped) =>
      { world with
        queue
        uncounted := world.uncounted + 1
        history := .dropped dropped record :: .put record :: world.history }

def putNone : LogQueueWorld :=
  { world with
    queue := { world.queue with sentinelPending := true }
    history := .stopRequested :: world.history }

/-- A turn of `get` that does not wait. -/
def takeTurn : Option LogQueueWorld :=
  match world.queue.get with
  | .record next queue =>
      some { world with queue, history := .delivered next :: world.history }
  | .sentinel queue => some { world with queue, history := .ended :: world.history }
  | .empty => none

def get (block : Bool) : LogQueueWorld :=
  match world.takeTurn with
  | some after => after
  | none => if block then { world with parked := world.parked + 1 } else world

/-- A waiting call wakes up. -/
def wake : Option LogQueueWorld :=
  if world.parked = 0 then none
  else
    match world.takeTurn with
    | some after => some { after with parked := after.parked - 1 }
    | none => some world

def incrementDroppedLogRecords : Option LogQueueWorld :=
  if world.uncounted = 0 then none
  else
    some { world with
      uncounted := world.uncounted - 1
      droppedLogRecords := world.droppedLogRecords + 1 }

end LogQueueWorld

inductive LogQueueCall where
  | putRecord (levelno : Int)
  | incrementDroppedLogRecords
  | putNone
  | get (block : Bool)
  | wake
  | incrementElsewhere
deriving DecidableEq, Repr

def LogQueueWorld.step (world : LogQueueWorld) : LogQueueCall → Option LogQueueWorld
  | .putRecord levelno => some (world.putRecord levelno)
  | .incrementDroppedLogRecords => world.incrementDroppedLogRecords
  | .putNone => some world.putNone
  | .get block => some (world.get block)
  | .wake => world.wake
  | .incrementElsewhere =>
      some { world with
        droppedLogRecords := world.droppedLogRecords + 1
        elsewhere := world.elsewhere + 1 }

def LogQueueWorld.fresh (limit : Nat) (overflowPolicy : LoggingOverflowPolicy) (earlier : Nat) :
    LogQueueWorld where
  queue := .fresh limit overflowPolicy
  droppedLogRecords := earlier
  uncounted := 0
  elsewhere := earlier
  parked := 0
  history := []

/-- A queue with the calls that any number of threads make of it. -/
def logQueueSystem (limit : Nat) (overflowPolicy : LoggingOverflowPolicy) :
    Automaton.System LogQueueWorld LogQueueCall where
  initial world := ∃ earlier, world = .fresh limit overflowPolicy earlier
  step := LogQueueWorld.step

end StreamDockSdk.Logging
