import StreamDockSdk.Messaging.Inbound
import StreamDockSdk.Runtime.KeyedScheduler

namespace StreamDockSdk.Runtime

open Messaging

/-! # `RuntimeEventPump` between the inbound queue and the keyed scheduler

The pump selects with `select_sized_event` while it holds the queue's lock, so
a selection and the removal it leads to are one step.
-/

/-- Where the pump's thread is in `_run`; a reference names the queue entry that
it owns. -/
inductive PumpPc where
  | polling
  | owning (ref : Nat) (item : SizedEvent)
  | submitting (ref : Nat) (item : SizedEvent)
  | blocked (ref : Nat) (item : SizedEvent)
  | stopped

structure PumpWorld where
  inbound : InboundWorld
  keyed : KeyedWorld
  pump : PumpPc := .polling
  stopRequested : Bool := false
  /-- The entries whose events the scheduler accepted, newest first. -/
  handoffs : List (Nat × ScheduledWork) := []

inductive PumpLabel where
  | inbound (label : InboundLabel)
  | keyed (label : KeyedLabel)
  | requestStop
  | poll (retainedSize : StreamDockEvent → Nat)
  | proceed

/-- The labels of the queue that belong to other threads than its consumer. -/
def isForeignInbound : InboundLabel → Bool
  | .receive _ => false
  | _ => true

/-- The labels of the scheduler that belong to other threads than its producer. -/
def isForeignKeyed : KeyedLabel → Bool
  | .submit _ | .resume _ | .select _ _ => false
  | _ => true

namespace PumpWorld

variable (world : PumpWorld)

/-- The queue's entries as the selector sees them. -/
def offered : List SizedEvent :=
  world.inbound.queue.queue.map world.inbound.queue.objects

/-- One pass of the loop in `_run` up to the return of `_receive_event`. -/
def poll (retainedSize : StreamDockEvent → Nat) : PumpWorld :=
  if world.stopRequested then { world with pump := .stopped }
  else if world.inbound.queue.queue.isEmpty then
    if world.inbound.queue.accepting then world else { world with pump := .stopped }
  else match world.keyed.scheduler.selectSizedEvent retainedSize world.offered with
    | .error _ => { world with pump := .stopped, stopRequested := true }
    | .ok (scheduler, selected) =>
        let keyed := { world.keyed with scheduler }
        match selected with
        | none => { world with keyed }
        | some index =>
            match world.inbound.queue.queue[index]?, world.inbound.receiveAt index with
            | some ref, some (inbound, item) =>
                { world with keyed, inbound, pump := .owning ref item }
            | _, _ => { world with keyed, pump := .stopped, stopRequested := true }

/-- The pump's side of an admission decision. -/
def handOff (ref : Nat) (item : SizedEvent) (keyed : KeyedWorld) : Admission → PumpWorld
  | .accepted work =>
      { world with keyed, pump := .polling, handoffs := (ref, work) :: world.handoffs }
  | .blocked => { world with keyed, pump := .blocked ref item }
  | .discarded | .oversized => { world with keyed, pump := .polling }

/-- The pump's next step with the event that it owns. -/
def proceed : Option PumpWorld :=
  match world.pump with
  | .polling | .stopped => none
  | .owning ref item =>
      if world.stopRequested then some { world with pump := .stopped }
      else some { world with pump := .submitting ref item }
  | .submitting ref item =>
      match world.keyed.scheduler.submitSized item with
      | .error _ => some { world with pump := .polling, stopRequested := true }
      | .ok decision =>
          some (world.handOff ref item (world.keyed.admitted item decision) decision.2)
  | .blocked ref item =>
      let decision := world.keyed.scheduler.resumeSubmission item
      let unparked := { world.keyed with blocked := world.keyed.blocked.eraseIdx 0 }
      some (world.handOff ref item (unparked.admitted item decision) decision.2)

def step : PumpLabel → Option PumpWorld
  | .inbound label =>
      if isForeignInbound label then
        (world.inbound.step label).map fun inbound => { world with inbound }
      else none
  | .keyed label =>
      if isForeignKeyed label then (world.keyed.step label).map fun keyed => { world with keyed }
      else none
  | .requestStop => some { world with stopRequested := true }
  | .poll retainedSize =>
      match world.pump with
      | .polling => some (world.poll retainedSize)
      | _ => none
  | .proceed => world.proceed

end PumpWorld

/-- Every run of a pump that is the queue's only consumer and the scheduler's
only producer. -/
def pumpSystem (inbound : InboundConfig) (scheduler : SchedulerConfig) :
    Automaton.System PumpWorld PumpLabel where
  initial world := world = {
    inbound := { queue := { config := inbound } }
    keyed := { scheduler := { config := scheduler } } }
  step := PumpWorld.step

end StreamDockSdk.Runtime
