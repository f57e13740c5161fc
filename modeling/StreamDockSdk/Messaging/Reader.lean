import StreamDockSdk.Automaton.System
import StreamDockSdk.Transport.Queues

namespace StreamDockSdk.Messaging

open Automaton Transport

/-- Where the worker's thread is between the calls that it makes. -/
inductive ReaderPoint (Frame Event : Type) where
  | created
  | receiving
  /-- The source's `TimeoutError`. -/
  | idling
  /-- The source's `TransportQueueClosedError`. -/
  | closed
  | received (frame : Frame)
  | decoding (frame : Frame)
  | submitting (frame : Frame) (event : Event)
  | leaving
  /-- A `BaseException` came out of `_process`. -/
  | crashed
  | exiting
  | exited
deriving DecidableEq, Repr

structure EventReader (Frame Event : Type) where
  point : ReaderPoint Frame Event := .created
  stopRequested : Bool := false
  stopped : Bool := false
  sourceIdle : Bool := false
  inFlight : Bool := false
deriving DecidableEq, Repr

namespace EventReader

variable {Frame Event : Type} (reader : EventReader Frame Event)

/-- `_started`, which no code resets once the thread runs. -/
def started : Bool :=
  match reader.point with
  | .created => false
  | _ => true

/-- `_is_drained_locked`; `drain` returns true where it holds. -/
def isDrained : Bool :=
  if reader.stopped then !reader.inFlight
  else reader.started && reader.sourceIdle && !reader.inFlight

end EventReader

structure ReaderConfig (Frame Event : Type) where
  source : TransportQueueConfig Frame
  /-- `none` where the decoder raises an `Exception`. -/
  decode : Frame → Option Event

/-- How a call of the worker into its surroundings ends. -/
inductive ReaderTurn where
  | proceed
  | timesOut
  /-- It raises an `Exception`. -/
  | fails
  /-- It raises a `BaseException`. -/
  | crashes
deriving DecidableEq, Repr

inductive ReaderLabel (Frame : Type) where
  | start
  | stop
  | stopAccepting
  /-- One look of a producer's `submit`, the first or one after it was woken. -/
  | submit (frame : Frame) (expired woken : Bool)
  | work (turn : ReaderTurn)
deriving DecidableEq, Repr

/-- The fields from `accepted` on are read by no code. -/
structure ReaderWorld (Frame Event : Type) where
  reader : EventReader Frame Event := {}
  source : BoundedTransportQueue Frame := {}
  /-- The frames that the source accepted, in order. -/
  accepted : List Frame := []
  /-- The frames for which `_process` has returned. -/
  processed : List Frame := []
  /-- How many frames had been accepted when the worker last found the source empty. -/
  observed : Nat := 0
  /-- A `BaseException` came out of `_process`. -/
  crashed : Bool := false

namespace ReaderWorld

variable {Frame Event : Type} (config : ReaderConfig Frame Event) (world : ReaderWorld Frame Event)

def goTo (point : ReaderPoint Frame Event) : ReaderWorld Frame Event :=
  { world with reader := { world.reader with point } }

/-- `_process` returns. -/
def finish (frame : Frame) : ReaderWorld Frame Event :=
  { world.goTo .leaving with processed := world.processed ++ [frame] }

/-- The next region of the worker's thread. -/
def workerStep (turn : ReaderTurn) : Option (ReaderWorld Frame Event) :=
  match world.reader.point with
  | .created | .exited => none
  | .receiving =>
      match turn, world.source.receive with
      | .proceed, some (source, frame) => some ({ world with source }.goTo (.received frame))
      | .proceed, none =>
          if world.source.accepting then none
          else some { world.goTo .closed with observed := world.accepted.length }
      | .timesOut, none =>
          if world.source.accepting then
            some { world.goTo .idling with observed := world.accepted.length }
          else none
      | _, _ => none
  | .idling => some { world with reader := { world.reader with
      sourceIdle := true
      point := if world.reader.stopRequested then .exiting else .receiving } }
  | .closed => some { world with reader := { world.reader with
      sourceIdle := true
      point := .exiting } }
  | .received frame => some { world with reader := { world.reader with
      sourceIdle := false
      inFlight := true
      point := .decoding frame } }
  | .decoding frame =>
      match turn with
      | .proceed => some (match config.decode frame with
          | none => world.finish frame
          | some event => world.goTo (.submitting frame event))
      | .crashes => some { world.goTo .crashed with crashed := true }
      | _ => none
  | .submitting frame _ =>
      match turn with
      | .proceed | .fails => some (world.finish frame)
      | .crashes => some { world.goTo .crashed with crashed := true }
      | .timesOut => none
  | .leaving => some { world with reader := { world.reader with
      inFlight := false
      point := .receiving } }
  | .crashed => some { world with reader := { world.reader with
      inFlight := false
      point := .exiting } }
  | .exiting => some { world with reader := { world.reader with
      stopped := true
      sourceIdle := true
      inFlight := false
      point := .exited } }

def offer (frame : Frame) (expired woken : Bool) : ReaderWorld Frame Event :=
  let outcome :=
    if woken then world.source.resubmit config.source frame false expired
    else world.source.submit config.source frame false expired
  { world with
    source := outcome.1
    accepted := if outcome.2 = .accepted then world.accepted ++ [frame] else world.accepted }

def step : ReaderLabel Frame → Option (ReaderWorld Frame Event)
  | .start =>
      if world.reader.started && !world.reader.stopped then some world
      else if world.reader.stopped || world.reader.stopRequested then none
      else some (world.goTo .receiving)
  | .stop =>
      if world.reader.stopped then some world
      else if world.reader.started then
        some { world with reader := { world.reader with stopRequested := true } }
      else some { world with reader := { world.reader with
        stopRequested := true
        stopped := true
        sourceIdle := true } }
  | .stopAccepting => some { world with source := world.source.stopAccepting }
  | .submit frame expired woken => some (world.offer config frame expired woken)
  | .work turn => world.workerStep config turn

/-- Every frame that the source accepted is decoded and submitted, or was refused by
the decoder or the sink. -/
def Finished : Prop := world.processed = world.accepted

/-- Nothing was accepted since the worker last found the source empty, and no
`BaseException` has ended the worker. -/
def upToDate : Bool := !world.crashed && decide (world.observed = world.accepted.length)

end ReaderWorld

def readerSystem {Frame Event : Type} (config : ReaderConfig Frame Event) :
    System (ReaderWorld Frame Event) (ReaderLabel Frame) where
  initial world := world = {}
  step := ReaderWorld.step config

namespace ReaderPoint

variable {Frame Event : Type}

/-- The frame that the worker has taken and not yet processed. -/
def hand : ReaderPoint Frame Event → List Frame
  | .received frame | .decoding frame | .submitting frame _ => [frame]
  | _ => []

/-- The points between the region that marks a frame in flight and the one that
clears the mark. -/
def busy : ReaderPoint Frame Event → Bool
  | .decoding _ | .submitting _ _ | .leaving | .crashed => true
  | _ => false

/-- The worker has found the source empty, and has not said so yet. -/
def observes : ReaderPoint Frame Event → Bool
  | .idling | .closed => true
  | _ => false

/-- The worker will receive nothing more. -/
def ends : ReaderPoint Frame Event → Bool
  | .crashed | .exiting | .exited => true
  | _ => false

end ReaderPoint

namespace ReaderWorld

variable {Frame Event : Type} {config : ReaderConfig Frame Event}
variable {world after : ReaderWorld Frame Event}

/-- What is known of the worker in every run. -/
structure Reads (world : ReaderWorld Frame Event) : Prop where
  line : world.crashed = false →
    world.processed ++ (world.reader.point.hand ++ world.source.items) = world.accepted
  lost : world.crashed = true →
    world.processed.length < world.accepted.length ∧ world.reader.point.ends = true
  busy : world.reader.point.busy = true →
    world.reader.inFlight = true ∧ world.reader.sourceIdle = false
  alive : world.reader.point = .crashed → world.crashed = true
  idle : world.crashed = false →
    (world.reader.sourceIdle = true ∨ world.reader.point.observes = true) →
    world.processed.length = world.observed
  exits : world.crashed = false → world.reader.point = .exiting → world.reader.sourceIdle = true
  stopped : world.reader.stopped = true → world.reader.sourceIdle = true ∧
    (world.reader.point = .created ∨ world.reader.point = .exited)
  fresh : world.reader.point = .created → world.processed.length = world.observed

/-- A worker that goes on has not met a `BaseException`. -/
theorem Reads.running (reads : world.Reads) (goes : world.reader.point.ends = false) :
    world.crashed = false := by
  cases crashed : world.crashed with
  | false => rfl
  | true =>
      have ended := (reads.lost crashed).2
      rw [goes] at ended
      contradiction

theorem Reads.unstopped (reads : world.Reads) (left : world.reader.point ≠ .created)
    (goes : world.reader.point ≠ .exited) : world.reader.stopped = false := by
  cases stopped : world.reader.stopped with
  | false => rfl
  | true => exact absurd ((reads.stopped stopped).2.resolve_left left) goes

/-- A step that neither accepts a frame nor ends in an exception. -/
theorem Reads.carry (reads : world.Reads) (goes : world.crashed = false)
    (crashed : after.crashed = world.crashed) (accepted : after.accepted = world.accepted)
    (line : after.processed ++ (after.reader.point.hand ++ after.source.items) =
      world.processed ++ (world.reader.point.hand ++ world.source.items))
    (busy : after.reader.point.busy = true →
      after.reader.inFlight = true ∧ after.reader.sourceIdle = false)
    (alive : after.reader.point ≠ .crashed) (left : after.reader.point ≠ .created)
    (idle : after.reader.sourceIdle = true ∨ after.reader.point.observes = true →
      after.processed.length = after.observed)
    (exits : after.reader.point = .exiting → after.reader.sourceIdle = true)
    (stopped : after.reader.stopped = true → after.reader.sourceIdle = true ∧
      (after.reader.point = .created ∨ after.reader.point = .exited)) : after.Reads := by
  refine ⟨fun _ => ?_, fun impossible => ?_, busy, fun same => absurd same alive, fun _ => idle,
    fun _ => exits, stopped, fun same => absurd same left⟩
  · rw [line, accepted]
    exact reads.line goes
  · rw [crashed, goes] at impossible
    contradiction

/-- The worker finds the source empty. -/
theorem Reads.observe (reads : world.Reads) {point : ReaderPoint Frame Event}
    (receiving : world.reader.point = .receiving) (none_left : world.source.items = [])
    (observes : point = .idling ∨ point = .closed) :
    Reads { world.goTo point with observed := world.accepted.length } := by
  have running := reads.running (by rw [receiving]; rfl)
  have unstopped := reads.unstopped (by rw [receiving]; nofun) (by rw [receiving]; nofun)
  have finished : world.processed = world.accepted := by
    simpa [receiving, ReaderPoint.hand, none_left] using reads.line running
  have stays : world.reader.stopped ≠ true := by simp [unstopped]
  rcases observes with rfl | rfl
  all_goals
    refine reads.carry running rfl rfl ?_ nofun nofun nofun (fun _ => congrArg _ finished) nofun
      (fun same => absurd same stays)
    rw [receiving]
    rfl

theorem Reads.finish (reads : world.Reads) {frame : Frame}
    (hand : world.reader.point.hand = [frame]) (busy : world.reader.point.busy = true)
    (goes : world.reader.point.ends = false) : (world.finish frame).Reads := by
  have marked := reads.busy busy
  have moves : world.reader.point ≠ .created ∧ world.reader.point ≠ .exited := by
    constructor <;> (intro same; rw [same] at busy; contradiction)
  have unstopped := reads.unstopped moves.1 moves.2
  refine reads.carry (reads.running goes) rfl rfl ?_ (fun _ => marked) nofun nofun ?_ nofun ?_
  · show world.processed ++ [frame] ++ ([] ++ world.source.items) = _
    rw [hand, List.nil_append, List.append_assoc]
  · rintro (idle | impossible)
    · rw [show world.reader.sourceIdle = true from idle] at marked
      exact absurd marked.2 nofun
    · contradiction
  · intro stopped
    rw [show world.reader.stopped = true from stopped] at unstopped
    contradiction

theorem Reads.crash (reads : world.Reads) {frame : Frame}
    (hand : world.reader.point.hand = [frame]) (busy : world.reader.point.busy = true)
    (goes : world.reader.point.ends = false) :
    Reads { world.goTo .crashed with crashed := true } := by
  have line := reads.line (reads.running goes)
  have moves : world.reader.point ≠ .created ∧ world.reader.point ≠ .exited := by
    constructor <;> (intro same; rw [same] at busy; contradiction)
  have unstopped := reads.unstopped moves.1 moves.2
  refine ⟨nofun, fun _ => ⟨?_, rfl⟩, fun _ => reads.busy busy, fun _ => rfl, nofun, nofun, ?_,
    nofun⟩
  · show world.processed.length < world.accepted.length
    rw [← line, hand]
    simp
  · intro stopped
    rw [show world.reader.stopped = true from stopped] at unstopped
    contradiction

/-- The worker goes on to the end of `_run`. -/
theorem Reads.leave (reads : world.Reads) {reader : EventReader Frame Event}
    (crashed : world.crashed = true) (ends : reader.point.ends = true)
    (busy : reader.point.busy = false) (left : reader.point ≠ .created)
    (stopped : reader.stopped = true → reader.sourceIdle = true ∧
      (reader.point = .created ∨ reader.point = .exited)) : Reads { world with reader } := by
  refine ⟨fun running => ?_, fun _ => ⟨(reads.lost crashed).1, ends⟩, fun impossible => ?_,
    fun _ => crashed, fun running => ?_, fun running => ?_, stopped, fun same => absurd same left⟩
  · exact nomatch crashed.symm.trans running
  · exact nomatch busy.symm.trans impossible
  · exact nomatch crashed.symm.trans running
  · exact nomatch crashed.symm.trans running

theorem Reads.work (reads : world.Reads) {turn : ReaderTurn}
    (stepped : world.workerStep config turn = some after) : after.Reads := by
  have unstopped (point : ReaderPoint Frame Event) (here : world.reader.point = point)
      (left : point ≠ .created) (goes : point ≠ .exited) (stopped : world.reader.stopped = true) :
      False := by
    have free := reads.unstopped (here ▸ left) (here ▸ goes)
    exact nomatch free.symm.trans stopped
  unfold workerStep at stepped
  split at stepped
  case h_1 | h_2 => contradiction
  case h_3 point =>
    split at stepped
    · next source frame received =>
      cases stepped
      have items := (BoundedTransportQueue.receive_some received).1
      have running := reads.running (by rw [point]; rfl)
      refine reads.carry running rfl rfl ?_ nofun nofun nofun ?_ nofun ?_
      · rw [point, items]
        rfl
      · exact fun idle => reads.idle running (.inl (idle.resolve_right nofun))
      · exact fun stopped => (unstopped _ point nofun nofun stopped).elim
    · next none_left =>
      split at stepped
      · contradiction
      · cases stepped
        exact reads.observe point (BoundedTransportQueue.receive_none none_left) (.inr rfl)
    · next none_left =>
      split at stepped
      · cases stepped
        exact reads.observe point (BoundedTransportQueue.receive_none none_left) (.inl rfl)
      · contradiction
    · contradiction
  case h_4 point =>
    cases stepped
    have running := reads.running (by rw [point]; rfl)
    have counted := reads.idle running (.inr (by rw [point]; rfl))
    have stays := unstopped _ point nofun nofun
    cases requested : world.reader.stopRequested with
    | true =>
        refine reads.carry running rfl rfl ?_ nofun nofun nofun (fun _ => counted) (fun _ => rfl)
          fun stopped => (stays stopped).elim
        rw [point]
        rfl
    | false =>
        refine reads.carry running rfl rfl ?_ nofun nofun nofun (fun _ => counted) nofun
          fun stopped => (stays stopped).elim
        rw [point]
        rfl
  case h_5 point =>
    cases stepped
    have running := reads.running (by rw [point]; rfl)
    have counted := reads.idle running (.inr (by rw [point]; rfl))
    refine reads.carry running rfl rfl ?_ nofun nofun nofun (fun _ => counted) (fun _ => rfl)
      fun stopped => (unstopped _ point nofun nofun stopped).elim
    rw [point]
    rfl
  case h_6 frame point =>
    cases stepped
    refine reads.carry (reads.running (by rw [point]; rfl)) rfl rfl ?_ (fun _ => ⟨rfl, rfl⟩) nofun nofun
      (fun idle => ?_) nofun fun stopped => (unstopped _ point nofun nofun stopped).elim
    · rw [point]
      rfl
    · rcases idle with impossible | impossible <;> contradiction
  case h_7 frame point =>
    have hand : world.reader.point.hand = [frame] := by rw [point]; rfl
    have busy : world.reader.point.busy = true := by rw [point]; rfl
    have goes : world.reader.point.ends = false := by rw [point]; rfl
    cases turn with
    | proceed =>
        cases stepped
        split
        · exact reads.finish hand busy goes
        · next event _ =>
          refine reads.carry (reads.running goes) rfl rfl ?_ (fun _ => reads.busy busy) nofun nofun
            (fun idle => ?_) nofun fun stopped => (unstopped _ point nofun nofun stopped).elim
          · rw [point]
            rfl
          · have lowered : world.reader.sourceIdle = false := (reads.busy busy).2
            exact nomatch lowered.symm.trans (idle.resolve_right nofun)
    | crashes =>
        cases stepped
        exact reads.crash hand busy goes
    | timesOut | fails => contradiction
  case h_8 frame event point =>
    have hand : world.reader.point.hand = [frame] := by rw [point]; rfl
    have busy : world.reader.point.busy = true := by rw [point]; rfl
    have goes : world.reader.point.ends = false := by rw [point]; rfl
    cases turn with
    | proceed | fails =>
        cases stepped
        exact reads.finish hand busy goes
    | crashes =>
        cases stepped
        exact reads.crash hand busy goes
    | timesOut => contradiction
  case h_9 point =>
    cases stepped
    have lowered : world.reader.sourceIdle = false := (reads.busy (by rw [point]; rfl)).2
    refine reads.carry (reads.running (by rw [point]; rfl)) rfl rfl ?_ nofun nofun nofun
      (fun idle => ?_) nofun fun stopped => (unstopped _ point nofun nofun stopped).elim
    · rw [point]
      rfl
    · exact nomatch lowered.symm.trans (idle.resolve_right nofun)
  case h_10 point =>
    cases stepped
    exact reads.leave (reads.alive point) rfl rfl nofun
      fun stopped => (unstopped _ point nofun nofun stopped).elim
  case h_11 point =>
    cases stepped
    rcases Bool.eq_false_or_eq_true world.crashed with crashed | running
    · refine reads.leave crashed rfl rfl nofun ?_
      exact fun _ => ⟨rfl, .inr rfl⟩
    · have counted := reads.idle running (.inl (reads.exits running point))
      refine reads.carry running rfl rfl ?_ nofun nofun nofun (fun _ => counted) nofun
        fun _ => ⟨rfl, .inr rfl⟩
      rw [point]
      rfl

theorem Reads.take (reads : world.Reads) {frame : Frame} {source : BoundedTransportQueue Frame}
    {decision : SubmitDecision} (attempts : world.source.Attempts frame source decision) :
    Reads { world with
      source
      accepted := if decision = .accepted then world.accepted ++ [frame] else world.accepted } := by
  have grown : world.accepted.length ≤
      (if decision = .accepted then world.accepted ++ [frame] else world.accepted).length := by
    split <;> simp
  refine ⟨fun running => ?_, fun crashed => ?_, reads.busy, reads.alive, reads.idle, reads.exits,
    reads.stopped, reads.fresh⟩
  · have line := reads.line running
    show world.processed ++ (world.reader.point.hand ++ source.items) = _
    rw [attempts.items]
    split
    · rw [← line]
      simp
    · exact line
  · exact ⟨Nat.lt_of_lt_of_le (reads.lost crashed).1 grown, (reads.lost crashed).2⟩

theorem Reads.step (reads : world.Reads) {label : ReaderLabel Frame}
    (stepped : world.step config label = some after) : after.Reads := by
  cases label with
  | start =>
      simp only [ReaderWorld.step] at stepped
      split at stepped
      · cases stepped
        exact reads
      · next unstarted =>
        split at stepped
        · contradiction
        · next free =>
          cases stepped
          simp only [Bool.or_eq_true, not_or, Bool.not_eq_true] at free
          have created : world.reader.point = .created := by
            simp only [free.1, Bool.not_false, Bool.and_true] at unstarted
            unfold EventReader.started at unstarted
            split at unstarted
            · assumption
            · contradiction
          have running := reads.running (by rw [created]; rfl)
          refine reads.carry running rfl rfl ?_ nofun nofun nofun (fun _ => reads.fresh created)
            nofun fun stopped => nomatch free.1.symm.trans stopped
          rw [created]
          rfl
  | stop =>
      simp only [ReaderWorld.step] at stepped
      split at stepped
      · cases stepped
        exact reads
      · next running =>
        rw [Bool.not_eq_true] at running
        split at stepped
        · cases stepped
          have unstopped : world.reader.stopped ≠ true := by simp [running]
          exact ⟨reads.line, reads.lost, reads.busy, reads.alive, reads.idle, reads.exits,
            fun stopped => absurd stopped unstopped, reads.fresh⟩
        · next unstarted =>
          cases stepped
          have created : world.reader.point = .created := by
            unfold EventReader.started at unstarted
            split at unstarted
            · assumption
            · contradiction
          refine ⟨reads.line, reads.lost, ?_, reads.alive, fun _ _ => reads.fresh created,
            fun _ _ => rfl, fun _ => ⟨rfl, .inl created⟩, reads.fresh⟩
          intro busy
          rw [show (EventReader.point _).busy = world.reader.point.busy from rfl, created] at busy
          contradiction
  | stopAccepting =>
      cases stepped
      exact ⟨reads.line, reads.lost, reads.busy, reads.alive, reads.idle, reads.exits, reads.stopped,
        reads.fresh⟩
  | submit frame expired woken =>
      cases stepped
      cases woken with
      | true => exact reads.take (BoundedTransportQueue.resubmit_attempts _ _ _ _ _)
      | false => exact reads.take (BoundedTransportQueue.submit_attempts _ _ _ _ _)
  | work turn => exact reads.work stepped

theorem reachable_reads (reachable : (readerSystem config).Reachable world) : world.Reads := by
  refine System.Reachable.invariant reachable ?_ ?_
  · rintro first rfl
    exact ⟨fun _ => rfl, nofun, nofun, nofun, fun _ _ => rfl, nofun, nofun, fun _ => rfl⟩
  · exact fun before label after reads stepped => reads.step stepped

/-- Where `drain` returns true, the worker has said that it found the source empty. -/
theorem Reads.drained (reads : world.Reads) (drained : world.reader.isDrained = true) :
    world.reader.sourceIdle = true := by
  unfold EventReader.isDrained at drained
  split at drained
  · next stopped => exact (reads.stopped stopped).1
  · simp only [Bool.and_eq_true] at drained
    exact drained.1.2

/-- Where `drain` returns true, every accepted frame is processed exactly when the last
look at the source is up to date. -/
theorem reader_drains (reachable : (readerSystem config).Reachable world)
    (drained : world.reader.isDrained = true) : world.Finished ↔ world.upToDate = true := by
  have reads := reachable_reads reachable
  have idle := reads.drained drained
  simp only [upToDate, Finished, Bool.and_eq_true, Bool.not_eq_true', decide_eq_true_eq]
  constructor
  · intro finished
    have running : world.crashed = false := by
      by_contra crashed
      rw [Bool.not_eq_false] at crashed
      have fewer := (reads.lost crashed).1
      rw [finished] at fewer
      omega
    exact ⟨running, (reads.idle running (.inl idle)).symm.trans (congrArg List.length finished)⟩
  · rintro ⟨running, current⟩
    have counted := reads.idle running (.inl idle)
    have line := reads.line running
    have whole := congrArg List.length line
    rw [List.length_append] at whole
    have none_left : world.reader.point.hand ++ world.source.items = [] :=
      List.eq_nil_of_length_eq_zero (by omega)
    rwa [none_left, List.append_nil] at line

end ReaderWorld

end StreamDockSdk.Messaging
