import StreamDockSdk.Automaton.Threads
import StreamDockSdk.Runtime.Composition

namespace StreamDockSdk.Runtime

open Automaton

namespace RunPc

/-- The call was let in by the single-run check. -/
def entered : RunPc → Bool
  | .entering | .rejected => false
  | _ => true

/-- The call may still start the boundary's thread. -/
def prior : RunPc → Bool
  | .startingScheduler | .checking _ | .starting _ | .announcing => true
  | .checkingBoundary | .startingBoundary => true
  | _ => false

/-- The call has passed the start of the cleanup thread. -/
def late : RunPc → Bool
  | .awaitingCleanup _ | .concluding _ | .settling _ | .ended _ => true
  | _ => false

end RunPc

/-- The call found the runtime not yet run. -/
def ClosePc.beforeRun : ClosePc → Bool
  | .ensuring beforeRun _ | .awaitingClose beforeRun => beforeRun
  | .awaitingAgain | .settling | .releasing | .announcing => true
  | _ => false

/-- `run_forever` of the boundary has been called and has not returned. -/
def BoundaryRunPc.active : BoundaryRunPc → Bool
  | .idle | .finished => false
  | _ => true

theorem transitionRuntimeState_eq {current target state : RuntimeLifecycleState}
    (allowed : transitionRuntimeState current target = some state) :
    state = target ∧ target ∈ current.targets := by
  unfold transitionRuntimeState at allowed
  split at allowed
  · next listed => exact ⟨(Option.some.inj allowed).symm, listed⟩
  · contradiction

namespace ComposedStreamDockRuntime

variable {runtime : ComposedStreamDockRuntime}

/-- Steps of `run_forever` that leave the runtime alone. -/
inductive RunMoves (runtime : ComposedStreamDockRuntime) : RunPc → RunPc → Prop
  | started : RunMoves runtime .startingScheduler (afterStart .scheduler)
  | failed : RunMoves runtime .startingScheduler .judging
  | interrupted : RunMoves runtime .startingScheduler (.finalizing true)
  | skip (worker : RuntimeWorker) : runtime.shutdownRequested = true →
      RunMoves runtime (.checking worker) (afterSkip worker)
  | go (worker : RuntimeWorker) : runtime.shutdownRequested = false →
      RunMoves runtime (.checking worker) (.starting worker)
  | startFailed (worker : RuntimeWorker) : RunMoves runtime (.starting worker) .judging
  | startInterrupted (worker : RuntimeWorker) :
      RunMoves runtime (.starting worker) (.finalizing true)
  | unannounced : runtime.shutdownRequested = true →
      RunMoves runtime .announcing .checkingBoundary
  | misannounced : RunMoves runtime .announcing .judging
  | unneeded : runtime.shutdownRequested = true →
      RunMoves runtime .checkingBoundary (.finalizing false)
  | woken : RunMoves runtime .waiting .awaitingBoundary
  | waitInterrupted : RunMoves runtime .waiting (.finalizing true)
  | waited (interrupted : Bool) : RunMoves runtime .awaitingBoundary (.finalizing interrupted)
  | judged : runtime.shutdownRequested = true → RunMoves runtime .judging .judgingFailure
  | blamed : runtime.shutdownRequested = false → RunMoves runtime .judging .recording
  | blamedAgain : runtime.primaryFailure.isSome = true →
      RunMoves runtime .judgingFailure .recording
  | excused : RunMoves runtime .judgingFailure (.finalizing false)
  | unlaunched (interrupted : Bool) :
      RunMoves runtime (.launchingCleanup interrupted) (.awaitingCleanup interrupted)
  | cleaned (interrupted : Bool) :
      RunMoves runtime (.awaitingCleanup interrupted) (.concluding interrupted)
  | abandoned (interrupted : Bool) :
      RunMoves runtime (.awaitingCleanup interrupted) (.ended .interrupted)

/-- The named forms of a step of `run_forever`. -/
inductive Runs (runtime : ComposedStreamDockRuntime) :
    RunPc → ComposedStreamDockRuntime × RunPc → Prop
  | reject : runtime.state ≠ .new ∨ runtime.shutdownRequested = true →
      Runs runtime .entering (runtime, .rejected)
  | enter : runtime.state = .new → runtime.shutdownRequested = false →
      Runs runtime .entering (
        { runtime with state := .starting, attempted := fun worker => worker == .scheduler },
        .startingScheduler)
  | moves {pc next : RunPc} : RunMoves runtime pc next → Runs runtime pc (runtime, next)
  | start (worker : RuntimeWorker) :
      Runs runtime (.starting worker) (runtime.markStarted worker, afterStart worker)
  | announce {state : RuntimeLifecycleState} : runtime.shutdownRequested = false →
      transitionRuntimeState runtime.state .running = some state →
      Runs runtime .announcing ({ runtime with state }, .checkingBoundary)
  | clear : runtime.shutdownRequested = false →
      Runs runtime .checkingBoundary
        ({ runtime with boundaryRunComplete := false }, .startingBoundary)
  | startBoundary :
      Runs runtime .startingBoundary ({ runtime with boundaryRun := .running }, .waiting)
  | failBoundary {next : RunPc} : next = .judging ∨ next = .finalizing true →
      Runs runtime .startingBoundary ({ runtime with boundaryRunComplete := true }, next)
  | record : Runs runtime .recording (runtime.recordPrimaryFailure .startup, .finalizing false)
  | finalize (interrupted : Bool) {state : RuntimeLifecycleState} :
      ((runtime.state = .starting ∨ runtime.state = .running) ∧ state = .stopping ∨
        ¬ (runtime.state = .starting ∨ runtime.state = .running) ∧ state = runtime.state) →
      Runs runtime (.finalizing interrupted)
        ({ runtime with state, shutdownRequested := true }, .launchingCleanup interrupted)
  | launch (interrupted : Bool) : Runs runtime (.launchingCleanup interrupted)
      ({ runtime with cleanup := .ensuring }, .awaitingCleanup interrupted)
  | conclude (interrupted : Bool) {state : RuntimeLifecycleState} {outcome : RunOutcome} :
      transitionRuntimeState runtime.state
        (if (runtime.primaryFailure.or runtime.sharedFailure).isSome then .failed else .stopped) =
          some state →
      (outcome = if interrupted then .interrupted else
        match runtime.primaryFailure.or runtime.sharedFailure with
        | none => .returned
        | some failure => .raised failure) →
      Runs runtime (.concluding interrupted) ({ runtime with
        primaryFailure := runtime.primaryFailure.or runtime.sharedFailure, state },
        .settling outcome)
  | misconclude (interrupted : Bool) :
      transitionRuntimeState runtime.state
        (if (runtime.primaryFailure.or runtime.sharedFailure).isSome then .failed else .stopped) =
          none →
      Runs runtime (.concluding interrupted) ({ runtime with
        primaryFailure := runtime.primaryFailure.or runtime.sharedFailure },
        .ended .invalidTransition)
  | settle (outcome : RunOutcome) :
      Runs runtime (.settling outcome) ({ runtime with terminal := true }, .ended outcome)

theorem enterRun_runs : Runs runtime .entering runtime.enterRun := by
  unfold enterRun
  split
  · next refused => exact .reject (by simpa using refused)
  · next accepted =>
    simp only [not_or, not_not] at accepted
    simp only [accepted.1, transitionRuntimeState, RuntimeLifecycleState.targets,
      List.mem_cons, true_or, if_true]
    exact .enter accepted.1 (by simpa using accepted.2)

theorem finalizeRun_runs (interrupted : Bool) :
    Runs runtime (.finalizing interrupted) (runtime.finalizeRun interrupted) := by
  unfold finalizeRun
  split
  · next active =>
    have allowed : transitionRuntimeState runtime.state .stopping = some .stopping := by
      rcases active with state | state <;> rw [state] <;> rfl
    rw [allowed]
    exact .finalize interrupted (.inl ⟨active, rfl⟩)
  · next inactive => exact .finalize interrupted (.inr ⟨inactive, rfl⟩)

theorem advanceRun_cases {pc : RunPc} {move : RuntimeMove}
    {result : ComposedStreamDockRuntime × RunPc}
    (advanced : runtime.advanceRun pc move = some result) : Runs runtime pc result := by
  unfold advanceRun at advanced
  split at advanced
  all_goals
    first
      | contradiction
      | (simp only [Option.some.injEq] at advanced; subst advanced)
      | skip
  · exact enterRun_runs
  · exact .moves .started
  · exact .moves .failed
  · exact .moves .interrupted
  · next worker =>
    split
    · next requested => exact .moves (.skip worker requested)
    · next running => exact .moves (.go worker (by simpa using running))
  · exact .start _
  · exact .moves (.startFailed _)
  · exact .moves (.startInterrupted _)
  · unfold announce
    split
    · next requested => exact .moves (.unannounced requested)
    · next running =>
      split
      · exact .moves .misannounced
      · next state allowed => exact .announce (by simpa using running) allowed
  · split at advanced
    · next requested =>
      cases advanced
      exact .moves (.unneeded requested)
    · next running =>
      cases advanced
      exact .clear (by simpa using running)
  · exact .startBoundary
  · exact .failBoundary (.inl rfl)
  · exact .failBoundary (.inr rfl)
  · split at advanced
    · cases advanced
      exact .moves .woken
    · contradiction
  · exact .moves .waitInterrupted
  · split at advanced
    · cases advanced
      exact .moves (.waited false)
    · contradiction
  · exact .moves (.waited false)
  · exact .moves (.waited true)
  · split
    · next requested => exact .moves (.judged requested)
    · next running => exact .moves (.blamed (by simpa using running))
  · split
    · next failed => exact .moves (.blamedAgain failed)
    · exact .moves .excused
  · exact .record
  · exact finalizeRun_runs _
  · exact .launch _
  · exact .moves (.unlaunched _)
  · split at advanced
    · cases advanced
      exact .moves (.cleaned _)
    · contradiction
  · exact .moves (.cleaned _)
  · exact .moves (.abandoned _)
  · next interrupted =>
    unfold concludeRun
    dsimp only
    split
    · next refused => exact .misconclude interrupted refused
    · next allowed => exact .conclude interrupted allowed rfl
  · exact .settle _

/-- The named forms of a step of `close` or `_on_fatal_error`. -/
inductive Closes (runtime : ComposedStreamDockRuntime) :
    ClosePc → ComposedStreamDockRuntime × ClosePc → Prop
  | record (failure : RuntimeFailure) :
      Closes runtime (.recording failure) (runtime.onFatalError failure, .ensuring false true)
  | late (fromWorker : Bool) : runtime.state.terminal = true →
      Closes runtime (.entering fromWorker) (runtime, .ended)
  | request (fromWorker : Bool) : runtime.state.terminal = false →
      Closes runtime (.entering fromWorker)
        ({ runtime with shutdownRequested := true },
          .ensuring (decide (runtime.state = .new)) fromWorker)
  | ensure (beforeRun nonblocking threadStarts : Bool) :
      Closes runtime (.ensuring beforeRun nonblocking)
        (runtime.ensureBoundaryClosed threadStarts, afterEnsuring beforeRun nonblocking)
  | waited (beforeRun : Bool) :
      Closes runtime (.awaitingClose beforeRun) (runtime, afterClose beforeRun)
  | waitedAgain : Closes runtime .awaitingAgain (runtime, .settling)
  | settle : Closes runtime .settling (runtime.settleUnrun, .releasing)
  | release : Closes runtime .releasing (runtime.setReleased, .announcing)
  | announce : Closes runtime .announcing ({ runtime with terminal := true }, .ended)
  | leave : Closes runtime .awaitingTerminal (runtime, .ended)

theorem advanceClose_cases {pc : ClosePc} {move : RuntimeMove}
    {result : ComposedStreamDockRuntime × ClosePc}
    (advanced : runtime.advanceClose pc move = some result) : Closes runtime pc result := by
  unfold advanceClose at advanced
  split at advanced
  all_goals
    first
      | contradiction
      | (simp only [Option.some.injEq] at advanced; subst advanced)
      | skip
  · exact .record _
  · unfold enterClose
    split
    · next isOver => exact .late _ isOver
    · next open_ => exact .request _ (by simpa using open_)
  · exact .ensure _ _ true
  · exact .ensure _ _ false
  · split at advanced
    · cases advanced
      exact .waited _
    · contradiction
  · exact .waited _
  · split at advanced
    · cases advanced
      exact .waitedAgain
    · contradiction
  · exact .waitedAgain
  · exact .settle
  · exact .release
  · exact .announce
  · split at advanced
    · cases advanced
      exact .leave
    · contradiction
  · exact .leave

/-- The stages before the boundary's workers are known to have ended. -/
inductive Stage : CleanupPc → CleanupPc → Prop
  | waited : Stage .awaitingClose .drainingEvents
  | drained (drained : Bool) : Stage .drainingEvents (.stoppingAccepting drained)
  | stopAccepting : Stage (.stoppingAccepting true) (.draining .sessionPump)
  | undrained : Stage (.stoppingAccepting false) .requestingStop
  | requestStop : Stage .requestingStop (.draining .sessionPump)
  | drain (worker : RuntimeWorker) : Stage (.draining worker) (.stopping worker)
  | unstopped (worker : RuntimeWorker) : Stage (.stopping worker) (afterStop worker)
  | closed : Stage .awaitingBoundaryClose .awaitingBoundaryWorkers

/-- The named forms of a step of the cleanup thread. -/
inductive Cleans (runtime : ComposedStreamDockRuntime) :
    CleanupPc → ComposedStreamDockRuntime → Prop
  | ensure (threadStarts : Bool) : Cleans runtime .ensuring
      { runtime.ensureBoundaryClosed threadStarts with cleanup := .awaitingClose }
  | stage {pc next : CleanupPc} : Stage pc next → Cleans runtime pc { runtime with cleanup := next }
  | stop (worker : RuntimeWorker) : Cleans runtime (.stopping worker)
      { runtime.markStopped worker with cleanup := afterStop worker }
  | failStop (worker : RuntimeWorker) : Cleans runtime (.stopping worker)
      { runtime.failStop worker with cleanup := afterStop worker }
  | decide (complete : Bool) : Cleans runtime .deciding
      { runtime with cleanupWaitComplete := complete, cleanup := .awaitingBoundaryClose }
  | boundaryWorkers : runtime.boundaryWorkersStopped = true →
      Cleans runtime .awaitingBoundaryWorkers { runtime with cleanup := .awaitingBoundaryRun }
  | boundaryRun : runtime.boundaryRunComplete = true →
      Cleans runtime .awaitingBoundaryRun { runtime with cleanup := .checkingFailures }
  | unfailed : runtime.failedWorkerStops = [] →
      Cleans runtime .checkingFailures { runtime with cleanup := .retrying .scheduler }
  | giveUp : Cleans runtime .checkingFailures { runtime with cleanup := .finishing }
  | skip (worker : RuntimeWorker) : runtime.settled worker = true →
      Cleans runtime (.retrying worker) { runtime with cleanup := afterRetry worker }
  | retry (worker : RuntimeWorker) : Cleans runtime (.retrying worker)
      { runtime.markStopped worker with cleanup := afterRetry worker }
  | retryFails (worker : RuntimeWorker) :
      Cleans runtime (.retrying worker) { runtime with cleanup := .finishing }
  | retryRaises (worker : RuntimeWorker) :
      Cleans runtime (.retrying worker) { runtime.failStop worker with cleanup := .finishing }
  | clear (actions : Nat) : Cleans runtime .clearing
      { runtime with calls := .clearContexts :: runtime.calls, cleanup := .releasing 0 actions }
  | clearFails : Cleans runtime .clearing
      { runtime with calls := .clearContexts :: runtime.calls, cleanup := .stoppingPlugin }
  | disappear (next actions : Nat) : Cleans runtime (.releasing next actions)
      { runtime with
        calls := .willDisappear next :: runtime.calls, cleanup := .releasing (next + 1) actions }
  | disappeared (next actions : Nat) : Cleans runtime (.releasing next actions)
      { runtime with cleanup := .stoppingPlugin }
  | onStop : Cleans runtime .stoppingPlugin
      { runtime with calls := .onStop :: runtime.calls, cleanup := .settingReleased }
  | noStop : Cleans runtime .stoppingPlugin { runtime with cleanup := .settingReleased }
  | release : Cleans runtime .settingReleased { runtime.setReleased with cleanup := .finishing }
  | finish : Cleans runtime .finishing
      { runtime with cleanupWaitComplete := true, cleanup := .finished }

theorem advanceCleanup_cases {pc : CleanupPc} {move : RuntimeMove}
    {after : ComposedStreamDockRuntime}
    (advanced : runtime.advanceCleanup pc move = some after) : Cleans runtime pc after := by
  unfold advanceCleanup at advanced
  split at advanced
  · cases advanced
    exact .ensure true
  · cases advanced
    exact .ensure false
  · split at advanced <;> cases advanced
    exact .stage .waited
  · cases advanced
    exact .stage .waited
  · split at advanced <;> cases advanced
    exact .stage (.drained true)
  · split at advanced <;> cases advanced
    exact .stage (.drained _)
  · split at advanced <;> cases advanced
    exact .stage (.drained false)
  · next drained =>
    cases advanced
    cases drained with
    | true => exact .stage .stopAccepting
    | false => exact .stage .undrained
  · cases advanced
    exact .stage .requestStop
  · cases advanced
    exact .stage (.drain _)
  · split at advanced <;> cases advanced
    exact .stage (.unstopped _)
  · split at advanced
    · split at advanced
      · cases advanced
        exact .stop _
      · cases advanced
        exact .stage (.unstopped _)
    · contradiction
  · split at advanced <;> cases advanced
    exact .failStop _
  · cases advanced
    exact .decide _
  · split at advanced <;> cases advanced
    exact .stage .closed
  · split at advanced
    · next stopped =>
      cases advanced
      exact .boundaryWorkers stopped
    · contradiction
  · split at advanced
    · next complete =>
      cases advanced
      exact .boundaryRun complete
    · contradiction
  · cases advanced
    by_cases unfailed : runtime.failedWorkerStops.isEmpty = true
    · rw [if_pos unfailed]
      exact .unfailed (List.isEmpty_iff.mp unfailed)
    · rw [if_neg unfailed]
      exact .giveUp
  · split at advanced
    · next settled =>
      cases advanced
      exact .skip _ settled
    · contradiction
  · split at advanced
    · contradiction
    · split at advanced
      · cases advanced
        exact .retry _
      · cases advanced
        exact .retryFails _
  · split at advanced <;> cases advanced
    exact .retryRaises _
  · cases advanced
    exact .clear _
  · cases advanced
    exact .clearFails
  · split at advanced
    · cases advanced
      exact .disappear _ _
    · cases advanced
      exact .disappeared _ _
  · split at advanced
    · cases advanced
      exact .onStop
    · cases advanced
      exact .noStop
  · cases advanced
    exact .release
  · cases advanced
    exact .finish
  · contradiction

end ComposedStreamDockRuntime

end StreamDockSdk.Runtime
