import StreamDockSdk.Automaton.Exclusion
import StreamDockSdk.Boundary.Composition

namespace StreamDockSdk.Boundary

open Automaton

namespace WorkerLifecycle

variable {worker : WorkerLifecycle}

/-- The worker has left its loop exactly when it says so. -/
structure Sound (worker : WorkerLifecycle) : Prop where
  left : worker.stopped = true → worker.thread ≠ some .running
  stopped : worker.thread = some .leaving ∨ worker.thread = some .exited → worker.stopped = true

theorem start_stopped (threadStarts : Bool) (stopped : worker.stopped = true) :
    worker.start threadStarts = (worker, false) := by
  simp [start, stopped]

theorem start_sound (sound : worker.Sound) (threadStarts : Bool) :
    (worker.start threadStarts).1.Sound := by
  unfold start
  split
  · exact sound
  · split
    · exact sound
    · next refused =>
      simp only [Bool.or_eq_true, not_or, Bool.not_eq_true] at refused
      split
      · exact ⟨fun stopped => by rw [refused.1] at stopped; contradiction, by simp⟩
      · exact ⟨fun _ => nofun, by simp⟩

theorem requestStop_sound (sound : worker.Sound) : worker.requestStop.1.Sound := by
  unfold requestStop
  split
  · exact sound
  · split
    · next absent =>
      rw [Option.isNone_iff_eq_none] at absent
      exact ⟨fun _ => by simp [absent], fun _ => rfl⟩
    · exact ⟨sound.left, sound.stopped⟩

theorem requestStop_returned (returned : worker.requestStop.2 = true) :
    worker.requestStop.1.stopped = true := by
  unfold requestStop at returned ⊢
  split
  · assumption
  · next running =>
    rw [if_neg running] at returned
    split
    · rfl
    · next present =>
      rw [if_neg present] at returned
      contradiction

theorem requestStop_stopped (stopped : worker.stopped = true) :
    worker.requestStop = (worker, true) := if_pos stopped

theorem advance_sound (sound : worker.Sound) {after : WorkerLifecycle}
    (advanced : worker.advance = some after) : after.Sound ∧ after.stopped = true := by
  unfold advance at advanced
  split at advanced
  · cases advanced
    exact ⟨⟨fun _ => nofun, fun _ => rfl⟩, rfl⟩
  · next leaving =>
    have stopped := sound.stopped (.inl leaving)
    cases advanced
    exact ⟨⟨fun _ => nofun, fun _ => stopped⟩, stopped⟩
  · contradiction

end WorkerLifecycle

namespace ComposedStreamDockBoundary

variable {boundary : ComposedStreamDockBoundary}

/-- The named forms of a step of `close`. -/
inductive CloseSteps (boundary : ComposedStreamDockBoundary) :
    CloseCallPc → ComposedStreamDockBoundary × CloseCallPc → Prop
  | late : CloseSteps boundary .entering (boundary, .ended)
  | join : CloseSteps boundary .entering (boundary, .asking)
  | own : boundary.closing = false →
      CloseSteps boundary .entering ({ boundary with closing := true }, .spawning)
  | asked {next : CloseCallPc} : next ≠ .spawning → CloseSteps boundary .asking (boundary, next)
  | spawn : CloseSteps boundary .spawning
      ({ boundary with finish := .owned .drainingInbound }, .awaiting)
  | unspawned : CloseSteps boundary .spawning ({ boundary with closeCompleted := true }, .awaiting)
  | waited : CloseSteps boundary .awaiting (boundary, .ended)

theorem advanceClose_cases {pc : CloseCallPc} {move : BoundaryMove}
    {result : ComposedStreamDockBoundary × CloseCallPc}
    (advanced : boundary.advanceClose pc move = some result) : CloseSteps boundary pc result := by
  unfold advanceClose at advanced
  split at advanced
  · split at advanced
    · cases advanced
      exact .late
    · split at advanced
      · cases advanced
        exact .join
      · next open_ =>
        cases advanced
        exact .own (by simpa using open_)
  · split at advanced <;> cases advanced
    exact .asked nofun
  · split at advanced <;> cases advanced
    exact .asked nofun
  · cases advanced
    exact .spawn
  · cases advanced
    exact .unspawned
  · split at advanced <;> cases advanced
    exact .waited
  · cases advanced
    exact .waited
  · contradiction

/-- Steps of a call that leave the boundary alone. -/
inductive CallMoves : BoundaryCallPc → BoundaryCallPc → Prop
  | again : CallMoves .entering .ended
  | connected : CallMoves .connecting .leaving
  | looped : CallMoves .looping .finalizing
  | closed : CallMoves (.closing .ended) .forgetting
  | forgot : CallMoves .forgetting .ended

/-- The named forms of a step of a call. -/
inductive CallSteps (boundary : ComposedStreamDockBoundary) (index : Nat) :
    BoundaryCallPc → ComposedStreamDockBoundary × BoundaryCallPc → Prop
  | moves {pc next : BoundaryCallPc} : CallMoves pc next →
      CallSteps boundary index pc (boundary, next)
  | enter : boundary.stateOwner = none → boundary.runStarted = false →
      CallSteps boundary index .entering
        ({ boundary with stateOwner := some index }, .checkingClosed)
  | refuse : CallSteps boundary index .checkingClosed ({ boundary with stateOwner := none }, .ended)
  | pass : boundary.closing = false →
      CallSteps boundary index .checkingClosed (boundary, .marking)
  | mark : CallSteps boundary index .marking ({ boundary with runStarted := true }, .beginningStart)
  | begins : CallSteps boundary index .beginningStart
      ({ boundary with commands := boundary.commands.beginStarting }, .starting .reader)
  | start (name : WorkerName) (threadStarts : Bool) : CallSteps boundary index (.starting name)
      (boundary.setWorker ((boundary.worker name).start threadStarts).1 name, .markingStarted name)
  | startFails (name : WorkerName) (threadStarts : Bool) :
      CallSteps boundary index (.starting name) ({
        boundary.setWorker ((boundary.worker name).start threadStarts).1 name with
        stateOwner := none }, .leaving)
  | markStarted (name : WorkerName) : CallSteps boundary index (.markingStarted name)
      (boundary.markStarted name, afterStart name)
  | markReady : CallSteps boundary index .markingReady
      ({ boundary with commands := boundary.commands.markReady }, .unlocking)
  | unlock : CallSteps boundary index .unlocking ({ boundary with stateOwner := none }, .connecting)
  | connect : boundary.connector.conditionOwner = none → CallSteps boundary index .connecting
      ({ boundary with connector := { boundary.connector with conditionOwner := some index } },
        .checkingConnector)
  | refuseConnector : CallSteps boundary index .checkingConnector
      (boundary.release boundary.connector, .leaving)
  | passConnector : boundary.connector.terminal = false → boundary.connector.closing = false →
      CallSteps boundary index .checkingConnector (boundary, .creatingSender)
  | createSender : CallSteps boundary index .creatingSender ({ boundary with
      connector := { boundary.connector with senderThread := some .created, started := true } },
      .startingSender)
  | startSender : CallSteps boundary index .startingSender
      (boundary.release { boundary.connector with senderThread := some .running }, .looping)
  | senderFails : CallSteps boundary index .startingSender
      (boundary.release { boundary.connector with senderThread := none, started := false },
        .leaving)
  | finalize : CallSteps boundary index .finalizing
      ({ boundary with connector := { boundary.connector with terminal := true } },
        .completing boundary.connector.closing)
  | complete (closeInProgress completed : Bool) :
      CallSteps boundary index (.completing closeInProgress) ({ boundary with
        connector := { boundary.connector with closeCompleted := completed } }, .leaving)
  | leave : CallSteps boundary index .leaving
      ({ boundary with connectorRunFinished := true }, .closing .entering)
  | closing {pc next : CloseCallPc} {after : ComposedStreamDockBoundary} :
      CloseSteps boundary pc (after, next) →
      CallSteps boundary index (.closing pc) (after, .closing next)
  | close {pc next : CloseCallPc} {after : ComposedStreamDockBoundary} :
      CloseSteps boundary pc (after, next) →
      CallSteps boundary index (.close pc) (after, .close next)

theorem startWorker_steps (index : Nat) (name : WorkerName) (threadStarts : Bool) :
    CallSteps boundary index (.starting name) (boundary.startWorker name threadStarts) := by
  unfold startWorker
  split
  · next lifecycle started =>
    have same := congrArg Prod.fst started
    subst same
    exact .start name threadStarts
  · next lifecycle refused =>
    have same := congrArg Prod.fst refused
    subst same
    exact .startFails name threadStarts

theorem advanceCall_cases {index : Nat} {pc : BoundaryCallPc} {move : BoundaryMove}
    {result : ComposedStreamDockBoundary × BoundaryCallPc}
    (advanced : boundary.advanceCall index pc move = some result) :
    CallSteps boundary index pc result := by
  unfold advanceCall at advanced
  split at advanced
  · split at advanced
    · contradiction
    · next free =>
      split at advanced
      · cases advanced
        exact .moves .again
      · next fresh =>
        cases advanced
        exact .enter (by simpa using free) (by simpa using fresh)
  · split at advanced
    · cases advanced
      exact .refuse
    · next open_ =>
      cases advanced
      simp only [Bool.or_eq_true, not_or, Bool.not_eq_true] at open_
      exact .pass open_.1
  · cases advanced
    exact .mark
  · cases advanced
    exact .begins
  · cases advanced
    exact startWorker_steps index _ true
  · cases advanced
    exact startWorker_steps index _ false
  · cases advanced
    exact .markStarted _
  · cases advanced
    exact .markReady
  · cases advanced
    exact .unlock
  · split at advanced
    · contradiction
    · next free =>
      split at advanced
      · cases advanced
        exact .moves .connected
      · cases advanced
        exact .connect (by simpa using free)
  · split at advanced
    · cases advanced
      exact .refuseConnector
    · next open_ =>
      cases advanced
      simp only [Bool.or_eq_true, not_or, Bool.not_eq_true] at open_
      exact .passConnector open_.1 open_.2
  · cases advanced
    exact .createSender
  · cases advanced
    exact .startSender
  · cases advanced
    exact .senderFails
  · cases advanced
    exact .moves .looped
  · cases advanced
    exact .moves .looped
  · cases advanced
    exact .moves .looped
  · split at advanced <;> cases advanced
    exact .finalize
  · cases advanced
    exact .complete _ _
  · cases advanced
    exact .leave
  · cases advanced
    exact .moves .closed
  · simp only [Option.map_eq_some_iff] at advanced
    obtain ⟨⟨after, next⟩, closes, rfl⟩ := advanced
    exact .closing (advanceClose_cases closes)
  · split at advanced <;> cases advanced
    exact .moves .forgot
  · simp only [Option.map_eq_some_iff] at advanced
    obtain ⟨⟨after, next⟩, closes, rfl⟩ := advanced
    exact .close (advanceClose_cases closes)
  · contradiction

/-- Steps of `_close_owned` that only go on. -/
inductive StageMoves (boundary : ComposedStreamDockBoundary) : CloseStage → CloseStage → Prop
  | drainInbound : StageMoves boundary .drainingInbound .drainingReader
  | drainReader : StageMoves boundary .drainingReader (.requesting .reader false)
  | stopped (name : WorkerName) (final : Bool) :
      (boundary.worker name).thread = some .exited →
      StageMoves boundary (.awaiting name final) (afterStop name final)
  | stopTimesOut (name : WorkerName) :
      StageMoves boundary (.awaiting name false) (afterStop name false)
  | shutInbound : StageMoves boundary .shuttingInbound .beginningStop
  | drainCommands : StageMoves boundary .drainingCommands .drainingWriter
  | drainWriter : StageMoves boundary .drainingWriter (.requesting .writer false)
  | drainOutbound : StageMoves boundary .drainingOutbound .closingConnector
  | completed : boundary.connector.closeCompleted = true →
      StageMoves boundary .closingConnector (.checkingRun true)
  | joinClose : boundary.connector.closing = true →
      StageMoves boundary .closingConnector .askingConnector
  | asked : boundary.connector.conditionOwner = none →
      StageMoves boundary .askingConnector (.checkingRun true)
  | notified : boundary.connector.conditionOwner = none →
      StageMoves boundary .notifyingConnector .closingSocket
  | run (first : Bool) : boundary.stateOwner = none →
      StageMoves boundary (.checkingRun first) (.awaitingRun first)
  | unrun (first : Bool) : boundary.stateOwner = none →
      StageMoves boundary (.checkingRun first) .shuttingQueues
  | waited (first : Bool) : StageMoves boundary (.awaitingRun first) .shuttingQueues
  | waitAgain (first : Bool) : StageMoves boundary (.awaitingRun first) (.checkingRun false)
  | shutQueues : StageMoves boundary .shuttingQueues (.requesting .reader true)
  | noSender : boundary.connector.senderThread = none →
      StageMoves boundary .readingSender .checkingStarted
  | sender : StageMoves boundary .readingSender .joiningSender
  | joined : boundary.connector.senderThread = some .exited →
      StageMoves boundary .joiningSender .checkingStarted
  | unstarted : boundary.runStarted = false → StageMoves boundary .checkingStarted .settingStopped
  | started : StageMoves boundary .checkingStarted .awaitingFinish
  | finished : boundary.connectorRunFinished = true →
      StageMoves boundary .awaitingFinish .settingStopped

/-- The named forms of a step of the thread that finishes the close. -/
inductive FinishSteps (boundary : ComposedStreamDockBoundary) :
    FinishPc → ComposedStreamDockBoundary → Prop
  | stage {stage next : CloseStage} : StageMoves boundary stage next →
      FinishSteps boundary (.owned stage) (boundary.goto next)
  | stop (name : WorkerName) (final : Bool) {next : CloseStage} :
      (next = .awaiting name final ∨ (boundary.worker name).requestStop.2 = true ∧
        next = afterStop name final) →
      FinishSteps boundary (.owned (.requesting name final))
        ((boundary.setWorker (boundary.worker name).requestStop.1 name).goto next)
  | beginStopping : FinishSteps boundary (.owned .beginningStop)
      ({ boundary with commands := boundary.commands.beginStopping }.goto .drainingCommands)
  | closeConnector : FinishSteps boundary (.owned .closingConnector)
      ({ boundary with connector := { boundary.connector with closing := true } }.goto
        .notifyingConnector)
  | connectorClosed (terminal : Bool) : (boundary.connector.terminal = true → terminal = true) →
      FinishSteps boundary (.owned .closingSocket) ({ boundary with
        connector := { boundary.connector with terminal, closeCompleted := true } }.goto
          (.checkingRun true))
  | settle : FinishSteps boundary (.owned .settingStopped)
      { boundary with workersStopped := true, finish := .closing }
  | escape (stage : CloseStage) :
      FinishSteps boundary (.owned stage) { boundary with finish := .closing }
  | close : FinishSteps boundary .closing { boundary with closed := true, finish := .markingClosed }
  | markClosed : FinishSteps boundary .markingClosed
      { boundary with commands := .closed, finish := .completing }
  | complete : FinishSteps boundary .completing
      { boundary with closeCompleted := true, finish := .finished }

theorem advanceStage_cases {stage : CloseStage} {move : BoundaryMove}
    {after : ComposedStreamDockBoundary}
    (advanced : boundary.advanceStage stage move = some after) :
    FinishSteps boundary (.owned stage) after := by
  unfold advanceStage at advanced
  split at advanced
  · cases advanced
    exact .stage .drainInbound
  · cases advanced
    exact .stage .drainReader
  · next name final =>
    split at advanced
    · next lifecycle returned =>
      cases advanced
      have same := congrArg Prod.fst returned
      subst same
      exact .stop name final (.inr ⟨congrArg Prod.snd returned, rfl⟩)
    · next lifecycle requested =>
      cases advanced
      have same := congrArg Prod.fst requested
      subst same
      exact .stop name final (.inl rfl)
  · split at advanced
    · next exited =>
      cases advanced
      exact .stage (.stopped _ _ exited)
    · contradiction
  · cases advanced
    exact .stage (.stopTimesOut _)
  · cases advanced
    exact .stage .shutInbound
  · cases advanced
    exact .beginStopping
  · cases advanced
    exact .stage .drainCommands
  · cases advanced
    exact .stage .drainWriter
  · cases advanced
    exact .stage .drainOutbound
  · split at advanced
    · next completed =>
      cases advanced
      exact .stage (.completed completed)
    · split at advanced
      · next closing =>
        cases advanced
        exact .stage (.joinClose closing)
      · cases advanced
        exact .closeConnector
  · split at advanced
    · contradiction
    · next free =>
      cases advanced
      exact .stage (.asked (by simpa using free))
  · split at advanced
    · contradiction
    · next free =>
      cases advanced
      exact .stage (.notified (by simpa using free))
  · split at advanced <;> cases advanced
    exact .connectorClosed _ fun terminal => by rw [terminal, Bool.true_or]
  · cases advanced
    exact .connectorClosed _ id
  · split at advanced
    · contradiction
    · next free =>
      have free : boundary.stateOwner = none := by simpa using free
      split at advanced
      · cases advanced
        exact .stage (.run _ free)
      · cases advanced
        exact .stage (.unrun _ free)
  · split at advanced <;> cases advanced
    exact .stage (.waited _)
  · next first =>
    cases advanced
    cases first with
    | true => exact .stage (.waitAgain true)
    | false => exact .stage (.waited false)
  · cases advanced
    exact .stage .shutQueues
  · cases advanced
    split
    · exact .stage .sender
    · next absent => exact .stage (.noSender (by simpa using absent))
  · split at advanced
    · next exited =>
      cases advanced
      exact .stage (.joined exited)
    · contradiction
  · cases advanced
    split
    · exact .stage .started
    · next unstarted => exact .stage (.unstarted (by simpa using unstarted))
  · split at advanced
    · next finished =>
      cases advanced
      exact .stage (.finished finished)
    · contradiction
  · cases advanced
    exact .settle
  · cases advanced
    exact .escape _
  · contradiction

theorem advanceFinish_cases {pc : FinishPc} {move : BoundaryMove}
    {after : ComposedStreamDockBoundary}
    (advanced : boundary.advanceFinish pc move = some after) : FinishSteps boundary pc after := by
  unfold advanceFinish at advanced
  split at advanced
  · exact advanceStage_cases advanced
  · split at advanced <;> cases advanced
    exact .close
  · cases advanced
    exact .markClosed
  · cases advanced
    exact .complete
  · contradiction

end ComposedStreamDockBoundary

end StreamDockSdk.Boundary
