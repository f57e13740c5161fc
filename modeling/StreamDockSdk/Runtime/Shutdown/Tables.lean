import StreamDockSdk.Runtime.Composition.Release
import StreamDockSdk.Runtime.Shutdown

namespace StreamDockSdk.Runtime

namespace ShutdownState

variable {state : ShutdownState} {call : ShutdownCall} {stage : ShutdownStage}

theorem mem_pending_apply : stage ∈ (state.apply call).pending ↔
    call = .pending stage true ∨ stage ∈ state.pending ∧ call ≠ .pending stage false := by
  match call with
  | .begin => simp [apply]
  | .worker other stopped => simp [apply]
  | .pending other true =>
      simp only [apply]
      split
      · next known =>
        constructor
        · exact fun member => .inr ⟨member, nofun⟩
        · rintro (same | ⟨member, -⟩)
          · cases same
            exact known
          · exact member
      · simp [or_comm, eq_comm]
  | .pending other false =>
      have different : stage ≠ other ↔ other ≠ stage := ne_comm
      simp [apply, different]

theorem mem_workers_apply {stopped : Bool} : (stage, stopped) ∈ (state.apply call).workers ↔
    call = .worker stage stopped ∨
      (stage, stopped) ∈ state.workers ∧ ∀ value, call ≠ .worker stage value := by
  match call with
  | .begin => simp [apply]
  | .worker other value =>
      by_cases same : stage = other
      · subst same
        simp [apply, eq_comm]
      · have different : ¬ other = stage := fun other_eq => same other_eq.symm
        simp [apply, same, different]
  | .pending other true => simp [apply]
  | .pending other false => simp [apply]

theorem finished_iff : state.finished = true ↔
    (∀ stage, (stage, false) ∉ state.workers) ∧ ∀ stage, stage ∉ state.pending := by
  simp only [finished, workersStopped, Bool.and_eq_true, List.all_eq_true, List.isEmpty_iff]
  refine and_congr ⟨fun stopped stage member => ?_, fun stopped entry member => ?_⟩
    List.eq_nil_iff_forall_not_mem
  · exact Bool.false_ne_true (stopped _ member)
  · obtain ⟨stage, value⟩ := entry
    cases value with
    | true => rfl
    | false => exact absurd member (stopped stage)

/-- A worker that the table knows, whether stopped or not. -/
def Knows (state : ShutdownState) (stage : ShutdownStage) : Prop :=
  ∃ stopped, (stage, stopped) ∈ state.workers

theorem Knows.apply (knows : state.Knows stage) : (state.apply call).Knows stage := by
  obtain ⟨stopped, member⟩ := knows
  by_cases named : ∃ value, call = .worker stage value
  · obtain ⟨value, rfl⟩ := named
    exact ⟨value, mem_workers_apply.mpr (.inl rfl)⟩
  · push Not at named
    exact ⟨stopped, mem_workers_apply.mpr (.inr ⟨member, named⟩)⟩

/-- A call of `begin` leaves the tables alone. -/
@[simp] theorem workers_begin : (state.apply .begin).workers = state.workers := rfl

@[simp] theorem pending_begin : (state.apply .begin).pending = state.pending := rfl

@[simp] theorem applyAll_nil : state.applyAll [] = state := rfl

@[simp] theorem applyAll_cons {rest : List ShutdownCall} :
    state.applyAll (call :: rest) = (state.apply call).applyAll rest := rfl

end ShutdownState

/-- `_cleanup_owned` is on. -/
def CleanupPc.inside : CleanupPc → Bool
  | .idle | .finished => false
  | _ => true

namespace ComposedStreamDockRuntime

variable {runtime after : ComposedStreamDockRuntime}

/-- A step that starts or ends none of the threads. -/
structure Calm (before after : ComposedStreamDockRuntime) : Prop where
  started : after.boundaryCloseStarted = before.boundaryCloseStarted
  closer : after.boundaryCloser = before.boundaryCloser
  boundaryRun : after.boundaryRun = before.boundaryRun
  cleanup : after.cleanup = before.cleanup
  stopped : after.stopped = before.stopped
  attempted : before.attempted .scheduler = true → after.attempted .scheduler = true
  requested : before.shutdownRequested = true → after.shutdownRequested = true

theorem Calm.refl (runtime : ComposedStreamDockRuntime) : Calm runtime runtime :=
  ⟨rfl, rfl, rfl, rfl, rfl, id, id⟩

/-- What the call of `run_forever` at the position may have outstanding. -/
inductive Owes : RunPc → List ShutdownCall → Prop
  | nothing (pc : RunPc) : Owes pc []
  | scheduler : Owes .startingScheduler [.worker (.workerStop .scheduler) false]
  | pump {pc : RunPc} (worker : RuntimeWorker) : pc = afterStart worker →
      Owes pc [.worker (.workerStop worker) false]
  | boundary : Owes .startingBoundary [.worker .boundaryRun false]
  | unstarted {pc : RunPc} : pc = .judging ∨ pc = .finalizing true →
      Owes pc [.worker .boundaryRun true]
  | cleanup (interrupted : Bool) :
      Owes (.launchingCleanup interrupted) [.begin, .pending .runtimeCleanup true]
  | cleanupOnly (interrupted : Bool) :
      Owes (.launchingCleanup interrupted) [.pending .runtimeCleanup true]

theorem Owes.tail {pc : RunPc} {call : ShutdownCall} {rest : List ShutdownCall}
    (owes : Owes pc (call :: rest)) : Owes pc rest := by
  cases owes with
  | cleanup interrupted => exact .cleanupOnly interrupted
  | _ => exact .nothing _

/-- Only a call that was let in and has not launched the cleanup owes anything. -/
theorem Owes.early {pc : RunPc} {calls : List ShutdownCall} (owes : Owes pc calls)
    (some_ : calls ≠ []) : pc.entered = true ∧ pc.late = false := by
  cases owes with
  | nothing => exact absurd rfl some_
  | pump worker place => cases worker <;> rw [place] <;> exact ⟨rfl, rfl⟩
  | unstarted place => rcases place with rfl | rfl <;> exact ⟨rfl, rfl⟩
  | _ => exact ⟨rfl, rfl⟩

/-- What one step of `run_forever` means for the threads and for the shutdown state. -/
inductive RunEffect (runtime : ComposedStreamDockRuntime) (pc : RunPc) :
    ComposedStreamDockRuntime → RunPc → List ShutdownCall → Prop
  | calm {after : ComposedStreamDockRuntime} {next : RunPc} {calls : List ShutdownCall}
      (calm : Calm runtime after) (owes : Owes next calls)
      (boundary : next = .startingBoundary → calls ≠ [])
      (cleanup : ∀ interrupted, next = .launchingCleanup interrupted →
        calls ≠ [] ∧ after.shutdownRequested = true)
      (unstarted : .worker .boundaryRun true ∈ calls → pc = .startingBoundary) :
      RunEffect runtime pc after next calls
  | startBoundary : pc = .startingBoundary →
      RunEffect runtime pc { runtime with boundaryRun := .running } .waiting []
  | launch (interrupted : Bool) : pc = .launchingCleanup interrupted →
      RunEffect runtime pc { runtime with cleanup := .ensuring } (.awaitingCleanup interrupted) []

theorem RunEffect.quiet {pc next : RunPc} (calm : Calm runtime after)
    (boundary : next ≠ .startingBoundary) (cleanup : ∀ interrupted, next ≠ .launchingCleanup interrupted) :
    RunEffect runtime pc after next [] :=
  .calm calm (.nothing _) (fun same => absurd same boundary)
    (fun interrupted same => absurd same (cleanup interrupted)) nofun

theorem enterRun_effect (move : RuntimeMove) :
    RunEffect runtime .entering runtime.enterRun.1 runtime.enterRun.2
      (runnerCalls .entering move runtime.enterRun.2) := by
  unfold enterRun
  split
  · exact .quiet (.refl _) nofun nofun
  · split
    · exact .quiet (.refl _) nofun nofun
    · exact .calm ⟨rfl, rfl, rfl, rfl, rfl, fun _ => rfl, id⟩ .scheduler nofun nofun
        (by simp [runnerCalls])

theorem announce_effect (move : RuntimeMove) :
    RunEffect runtime .announcing runtime.announce.1 runtime.announce.2
      (runnerCalls .announcing move runtime.announce.2) := by
  unfold announce
  split
  · exact .quiet (.refl _) nofun nofun
  · split
    · exact .quiet (.refl _) nofun nofun
    · exact .quiet ⟨rfl, rfl, rfl, rfl, rfl, id, id⟩ nofun nofun

theorem finalizeRun_effect (interrupted : Bool) (move : RuntimeMove) :
    RunEffect runtime (.finalizing interrupted) (runtime.finalizeRun interrupted).1
      (runtime.finalizeRun interrupted).2
      (runnerCalls (.finalizing interrupted) move (runtime.finalizeRun interrupted).2) := by
  have launches (state : RuntimeLifecycleState) :
      RunEffect runtime (.finalizing interrupted) { runtime with state, shutdownRequested := true }
        (.launchingCleanup interrupted) [.begin, .pending .runtimeCleanup true] :=
    .calm ⟨rfl, rfl, rfl, rfl, rfl, id, fun _ => rfl⟩ (.cleanup interrupted) nofun
      (fun _ _ => ⟨nofun, rfl⟩) (by simp)
  unfold finalizeRun
  split
  · split
    · exact .quiet (.refl _) nofun nofun
    · exact launches _
  · exact launches runtime.state

theorem concludeRun_effect (interrupted : Bool) (move : RuntimeMove) :
    RunEffect runtime (.concluding interrupted) (runtime.concludeRun interrupted).1
      (runtime.concludeRun interrupted).2
      (runnerCalls (.concluding interrupted) move (runtime.concludeRun interrupted).2) := by
  unfold concludeRun
  dsimp only
  split <;> exact .quiet ⟨rfl, rfl, rfl, rfl, rfl, id, id⟩ nofun nofun

theorem advanceRun_effect {pc : RunPc} {move : RuntimeMove}
    {result : ComposedStreamDockRuntime × RunPc}
    (advanced : runtime.advanceRun pc move = some result) :
    RunEffect runtime pc result.1 result.2 (runnerCalls pc move result.2) := by
  have failed {next : RunPc} (place : next = .judging ∨ next = .finalizing true) :
      RunEffect runtime .startingBoundary { runtime with boundaryRunComplete := true } next
        [.worker .boundaryRun true] := by
    refine .calm ⟨rfl, rfl, rfl, rfl, rfl, id, id⟩ (.unstarted place) nofun ?_ fun _ => rfl
    rcases place with rfl | rfl <;> nofun
  unfold advanceRun at advanced
  split at advanced
  · cases advanced
    exact enterRun_effect _
  · cases advanced
    exact .quiet (.refl _) nofun nofun
  · cases advanced
    exact .quiet (.refl _) nofun nofun
  · cases advanced
    exact .quiet (.refl _) nofun nofun
  · next worker =>
    cases advanced
    split
    · cases worker <;> exact .quiet (.refl _) nofun nofun
    · exact .quiet (.refl _) nofun nofun
  · next worker =>
    cases advanced
    refine .calm ⟨rfl, rfl, rfl, rfl, rfl, fun attempted => ?_, id⟩ (.pump worker rfl) ?_ ?_
      (by simp [runnerCalls])
    · simp [markStarted, attempted]
    · cases worker <;> nofun
    · cases worker <;> nofun
  · cases advanced
    exact .quiet (.refl _) nofun nofun
  · cases advanced
    exact .quiet (.refl _) nofun nofun
  · cases advanced
    exact announce_effect _
  · split at advanced
    · cases advanced
      exact .quiet (.refl _) nofun nofun
    · cases advanced
      exact .calm ⟨rfl, rfl, rfl, rfl, rfl, id, id⟩ .boundary nofun nofun (by simp [runnerCalls])
  · cases advanced
    exact .startBoundary rfl
  · cases advanced
    exact failed (.inl rfl)
  · cases advanced
    exact failed (.inr rfl)
  · split at advanced
    · cases advanced
      exact .quiet (.refl _) nofun nofun
    · contradiction
  · cases advanced
    exact .quiet (.refl _) nofun nofun
  · split at advanced
    · cases advanced
      exact .quiet (.refl _) nofun nofun
    · contradiction
  · cases advanced
    exact .quiet (.refl _) nofun nofun
  · cases advanced
    exact .quiet (.refl _) nofun nofun
  · cases advanced
    dsimp only
    split <;> exact .quiet (.refl _) nofun nofun
  · cases advanced
    dsimp only
    split <;> exact .quiet (.refl _) nofun nofun
  · cases advanced
    exact .quiet ⟨rfl, rfl, rfl, rfl, rfl, id, fun _ => rfl⟩ nofun nofun
  · cases advanced
    exact finalizeRun_effect _ _
  · cases advanced
    exact .launch _ rfl
  · cases advanced
    exact .quiet (.refl _) nofun nofun
  · split at advanced
    · cases advanced
      exact .quiet (.refl _) nofun nofun
    · contradiction
  · cases advanced
    exact .quiet (.refl _) nofun nofun
  · cases advanced
    exact .quiet (.refl _) nofun nofun
  · cases advanced
    exact concludeRun_effect _ _
  · cases advanced
    exact .quiet ⟨rfl, rfl, rfl, rfl, rfl, id, id⟩ nofun nofun
  · contradiction

/-- What one step of `close` or `_on_fatal_error` means for the threads. -/
inductive CloseEffect (runtime : ComposedStreamDockRuntime) (pc : ClosePc) :
    ComposedStreamDockRuntime → ClosePc → Prop
  | calm {after : ComposedStreamDockRuntime} {next : ClosePc} (calm : Calm runtime after)
      (elsewhere : ∀ beforeRun nonblocking, pc ≠ .ensuring beforeRun nonblocking)
      (requested : ∀ beforeRun nonblocking, next = .ensuring beforeRun nonblocking →
        after.shutdownRequested = true) : CloseEffect runtime pc after next
  | ensure (beforeRun nonblocking threadStarts : Bool) : pc = .ensuring beforeRun nonblocking →
      CloseEffect runtime pc (runtime.ensureBoundaryClosed threadStarts)
        (afterEnsuring beforeRun nonblocking)

theorem setReleased_calm : Calm runtime runtime.setReleased := by
  unfold setReleased
  split <;> exact ⟨rfl, rfl, rfl, rfl, rfl, id, id⟩

theorem settleUnrun_calm : Calm runtime runtime.settleUnrun := by
  unfold settleUnrun
  split <;> exact ⟨rfl, rfl, rfl, rfl, rfl, id, id⟩

theorem Closes.effect {pc : ClosePc} {result : ComposedStreamDockRuntime × ClosePc}
    (closes : Closes runtime pc result) : CloseEffect runtime pc result.1 result.2 := by
  cases closes with
  | record failure => exact .calm ⟨rfl, rfl, rfl, rfl, rfl, id, fun _ => rfl⟩ nofun fun _ _ _ => rfl
  | late fromWorker => exact .calm (.refl _) nofun nofun
  | request fromWorker =>
      exact .calm ⟨rfl, rfl, rfl, rfl, rfl, id, fun _ => rfl⟩ nofun fun _ _ _ => rfl
  | ensure beforeRun nonblocking threadStarts => exact .ensure _ _ threadStarts rfl
  | waited beforeRun => exact .calm (.refl _) nofun (by cases beforeRun <;> nofun)
  | waitedAgain => exact .calm (.refl _) nofun nofun
  | settle => exact .calm settleUnrun_calm nofun nofun
  | release => exact .calm setReleased_calm nofun nofun
  | announce => exact .calm ⟨rfl, rfl, rfl, rfl, rfl, id, id⟩ nofun nofun
  | leave => exact .calm (.refl _) nofun nofun

/-- What one step of `_run_boundary` means for the threads. -/
inductive BoundaryRunEffect (runtime : ComposedStreamDockRuntime) :
    ComposedStreamDockRuntime → Prop
  | moves {after : ComposedStreamDockRuntime} (next : BoundaryRunPc)
      (calm : Calm runtime { after with boundaryRun := runtime.boundaryRun })
      (leaves : runtime.boundaryRun.active = true ∧ runtime.boundaryRun ≠ .ensuring ∧
        runtime.boundaryRun ≠ .finishing)
      (arrives : after.boundaryRun = next ∧ next.active = true)
      (requested : next = .ensuring → after.shutdownRequested = true) :
      BoundaryRunEffect runtime after
  | ensure (threadStarts : Bool) : runtime.boundaryRun = .ensuring → BoundaryRunEffect runtime
      { runtime.ensureBoundaryClosed threadStarts with boundaryRun := .finishing }
  | finish : runtime.boundaryRun = .finishing → BoundaryRunEffect runtime
      { runtime with boundaryRunComplete := true, boundaryRun := .finished }

theorem advanceBoundaryRun_effect {move : RuntimeMove}
    (advanced : runtime.advanceBoundaryRun runtime.boundaryRun move = some after) :
    BoundaryRunEffect runtime after := by
  unfold advanceBoundaryRun at advanced
  split at advanced
  · next place =>
    cases advanced
    exact .moves .finishing ⟨rfl, rfl, rfl, rfl, rfl, id, id⟩ (by rw [place]; exact ⟨rfl, nofun, nofun⟩)
      ⟨rfl, rfl⟩ nofun
  · next place =>
    cases advanced
    exact .moves .judging ⟨rfl, rfl, rfl, rfl, rfl, id, id⟩ (by rw [place]; exact ⟨rfl, nofun, nofun⟩)
      ⟨rfl, rfl⟩ nofun
  · next place =>
    cases advanced
    refine .moves _ ⟨rfl, rfl, rfl, rfl, rfl, id, id⟩ (by rw [place]; exact ⟨rfl, nofun, nofun⟩)
      ⟨rfl, ?_⟩ ?_
    · split <;> rfl
    · split <;> nofun
  · next place =>
    cases advanced
    refine .moves _ ⟨rfl, rfl, rfl, rfl, rfl, id, id⟩ (by rw [place]; exact ⟨rfl, nofun, nofun⟩)
      ⟨rfl, ?_⟩ ?_
    · split <;> rfl
    · split <;> nofun
  · next place =>
    cases advanced
    exact .moves .ensuring ⟨rfl, rfl, rfl, rfl, rfl, id, fun _ => rfl⟩
      (by rw [place]; exact ⟨rfl, nofun, nofun⟩) ⟨rfl, rfl⟩ fun _ => rfl
  · next place =>
    cases advanced
    exact .ensure true place
  · next place =>
    cases advanced
    exact .ensure false place
  · next place =>
    cases advanced
    exact .finish place
  · contradiction

/-- A `stop` of the scheduler that returns `True`. -/
def StopsScheduler (pc : CleanupPc) (move : RuntimeMove) : Prop :=
  (pc = .stopping .scheduler ∨ pc = .retrying .scheduler) ∧ move = .returns true

/-- What one step of `_cleanup_owned` means for the threads. -/
inductive CleanupEffect (runtime : ComposedStreamDockRuntime) (move : RuntimeMove) :
    ComposedStreamDockRuntime → Prop
  | moves {after : ComposedStreamDockRuntime} (next : CleanupPc)
      (calm : Calm runtime { after with cleanup := runtime.cleanup, stopped := runtime.stopped })
      (leaves : runtime.cleanup.inside = true ∧ runtime.cleanup ≠ .ensuring ∧
        runtime.cleanup ≠ .finishing)
      (arrives : after.cleanup = next ∧ next.inside = true ∧ next ≠ .ensuring)
      (stops : after.stopped .scheduler = true ↔
        runtime.stopped .scheduler = true ∨ StopsScheduler runtime.cleanup move) :
      CleanupEffect runtime move after
  | ensure (threadStarts : Bool) : runtime.cleanup = .ensuring → CleanupEffect runtime move
      { runtime.ensureBoundaryClosed threadStarts with cleanup := .awaitingClose }
  | finish : runtime.cleanup = .finishing → CleanupEffect runtime move
      { runtime with cleanupWaitComplete := true, cleanup := .finished }

theorem CleanupEffect.quiet {pc next : CleanupPc} {move : RuntimeMove} {calls : List ReleaseCall}
    {failedWorkerStops : List RuntimeWorker} {cleanupWaitComplete : Bool}
    (place : runtime.cleanup = pc)
    (leaves : pc.inside = true ∧ pc ≠ .ensuring ∧ pc ≠ .finishing)
    (arrives : next.inside = true ∧ next ≠ .ensuring) (unstopped : ¬ StopsScheduler pc move) :
    CleanupEffect runtime move
      { runtime with failedWorkerStops, cleanupWaitComplete, cleanup := next, calls } :=
  .moves next ⟨rfl, rfl, rfl, rfl, rfl, id, id⟩ (place ▸ leaves) ⟨rfl, arrives⟩
    ⟨.inl, fun either => either.resolve_right (place ▸ unstopped)⟩

theorem afterStop_inside (worker : RuntimeWorker) :
    (afterStop worker).inside = true ∧ afterStop worker ≠ .ensuring := by
  cases worker <;> exact ⟨rfl, nofun⟩

theorem afterRetry_inside (worker : RuntimeWorker) :
    (afterRetry worker).inside = true ∧ afterRetry worker ≠ .ensuring := by
  cases worker <;> exact ⟨rfl, nofun⟩

/-- A `stop` that returns `True` marks its worker. -/
theorem markStopped_iff {pc next : CleanupPc} {worker : RuntimeWorker}
    (place : pc = .stopping worker ∨ pc = .retrying worker) :
    ({ runtime.markStopped worker with cleanup := next }).stopped .scheduler = true ↔
      runtime.stopped .scheduler = true ∨ StopsScheduler pc (.returns true) := by
  have named : StopsScheduler pc (.returns true) ↔ worker = .scheduler := by
    rcases place with rfl | rfl <;> simp [StopsScheduler]
  rw [named]
  cases worker <;> simp [markStopped]

theorem stopping_effect {worker : RuntimeWorker} {result : Bool}
    (place : runtime.cleanup = .stopping worker)
    (advanced : runtime.advanceCleanup (.stopping worker) (.returns result) = some after) :
    CleanupEffect runtime (.returns result) after := by
  simp only [advanceCleanup] at advanced
  split at advanced
  · split at advanced
    · next stopped =>
      cases advanced
      subst stopped
      refine .moves _ ⟨rfl, rfl, rfl, rfl, rfl, id, id⟩ (by rw [place]; exact ⟨rfl, nofun, nofun⟩)
        ⟨rfl, afterStop_inside worker⟩ ?_
      rw [place]
      exact markStopped_iff (.inl rfl)
    · next unstopped =>
      cases advanced
      refine .quiet place ⟨rfl, nofun, nofun⟩ (afterStop_inside worker) ?_
      rintro ⟨-, same⟩
      cases same
      exact unstopped rfl
  · contradiction

theorem retrying_effect {worker : RuntimeWorker} {result : Bool}
    (place : runtime.cleanup = .retrying worker)
    (advanced : runtime.advanceCleanup (.retrying worker) (.returns result) = some after) :
    CleanupEffect runtime (.returns result) after := by
  simp only [advanceCleanup] at advanced
  split at advanced
  · contradiction
  · split at advanced
    · next stopped =>
      cases advanced
      subst stopped
      refine .moves _ ⟨rfl, rfl, rfl, rfl, rfl, id, id⟩ (by rw [place]; exact ⟨rfl, nofun, nofun⟩)
        ⟨rfl, afterRetry_inside worker⟩ ?_
      rw [place]
      exact markStopped_iff (.inr rfl)
    · next unstopped =>
      cases advanced
      refine .quiet place ⟨rfl, nofun, nofun⟩ ⟨rfl, nofun⟩ ?_
      rintro ⟨-, same⟩
      cases same
      exact unstopped rfl

theorem advanceCleanup_effect {move : RuntimeMove}
    (advanced : runtime.advanceCleanup runtime.cleanup move = some after) :
    CleanupEffect runtime move after := by
  unfold advanceCleanup at advanced
  split at advanced
  · next place =>
    cases advanced
    exact .ensure true place
  · next place =>
    cases advanced
    exact .ensure false place
  · next place =>
    split at advanced
    · cases advanced
      exact .quiet place ⟨rfl, nofun, nofun⟩ ⟨rfl, nofun⟩ (by simp [StopsScheduler])
    · contradiction
  · next place =>
    cases advanced
    exact .quiet place ⟨rfl, nofun, nofun⟩ ⟨rfl, nofun⟩ (by simp [StopsScheduler])
  · next place =>
    split at advanced
    · contradiction
    · cases advanced
      exact .quiet place ⟨rfl, nofun, nofun⟩ ⟨rfl, nofun⟩ (by simp [StopsScheduler])
  · next place =>
    split at advanced
    · cases advanced
      exact .quiet place ⟨rfl, nofun, nofun⟩ ⟨rfl, nofun⟩ (by simp [StopsScheduler])
    · contradiction
  · next place =>
    split at advanced
    · cases advanced
      exact .quiet place ⟨rfl, nofun, nofun⟩ ⟨rfl, nofun⟩ (by simp [StopsScheduler])
    · contradiction
  · next drained place =>
    cases advanced
    refine .quiet place ⟨rfl, nofun, nofun⟩ ?_ (by simp [StopsScheduler])
    cases drained <;> exact ⟨rfl, nofun⟩
  · next place =>
    cases advanced
    exact .quiet place ⟨rfl, nofun, nofun⟩ ⟨rfl, nofun⟩ (by simp [StopsScheduler])
  · next worker place =>
    cases advanced
    exact .quiet place ⟨rfl, nofun, nofun⟩ ⟨rfl, nofun⟩ (by simp [StopsScheduler])
  · next worker place =>
    split at advanced
    · contradiction
    · cases advanced
      exact .quiet place ⟨rfl, nofun, nofun⟩ (afterStop_inside worker) (by simp [StopsScheduler])
  · next worker result place => exact stopping_effect place advanced
  · next worker place =>
    split at advanced
    · cases advanced
      exact .quiet place ⟨rfl, nofun, nofun⟩ (afterStop_inside worker) (by simp [StopsScheduler])
    · contradiction
  · next place =>
    cases advanced
    exact .quiet place ⟨rfl, nofun, nofun⟩ ⟨rfl, nofun⟩ (by simp [StopsScheduler])
  · next place =>
    split at advanced
    · cases advanced
      exact .quiet place ⟨rfl, nofun, nofun⟩ ⟨rfl, nofun⟩ (by simp [StopsScheduler])
    · contradiction
  · next place =>
    split at advanced
    · cases advanced
      exact .quiet place ⟨rfl, nofun, nofun⟩ ⟨rfl, nofun⟩ (by simp [StopsScheduler])
    · contradiction
  · next place =>
    split at advanced
    · cases advanced
      exact .quiet place ⟨rfl, nofun, nofun⟩ ⟨rfl, nofun⟩ (by simp [StopsScheduler])
    · contradiction
  · next place =>
    cases advanced
    refine .quiet place ⟨rfl, nofun, nofun⟩ ?_ (by simp [StopsScheduler])
    split <;> exact ⟨rfl, nofun⟩
  · next worker place =>
    split at advanced
    · cases advanced
      exact .quiet place ⟨rfl, nofun, nofun⟩ (afterRetry_inside worker) (by simp [StopsScheduler])
    · contradiction
  · next worker result place => exact retrying_effect place advanced
  · next worker place =>
    split at advanced
    · contradiction
    · cases advanced
      exact .quiet place ⟨rfl, nofun, nofun⟩ ⟨rfl, nofun⟩ (by simp [StopsScheduler])
  · next actions place =>
    cases advanced
    exact .quiet place ⟨rfl, nofun, nofun⟩ ⟨rfl, nofun⟩ (by simp [StopsScheduler])
  · next place =>
    cases advanced
    exact .quiet place ⟨rfl, nofun, nofun⟩ ⟨rfl, nofun⟩ (by simp [StopsScheduler])
  · next first actions place =>
    split at advanced
    · cases advanced
      exact .quiet place ⟨rfl, nofun, nofun⟩ ⟨rfl, nofun⟩ (by simp [StopsScheduler])
    · cases advanced
      exact .quiet place ⟨rfl, nofun, nofun⟩ ⟨rfl, nofun⟩ (by simp [StopsScheduler])
  · next place =>
    split at advanced
    · cases advanced
      exact .quiet place ⟨rfl, nofun, nofun⟩ ⟨rfl, nofun⟩ (by simp [StopsScheduler])
    · cases advanced
      exact .quiet place ⟨rfl, nofun, nofun⟩ ⟨rfl, nofun⟩ (by simp [StopsScheduler])
  · next place =>
    cases advanced
    unfold setReleased
    split
    · exact .quiet place ⟨rfl, nofun, nofun⟩ ⟨rfl, nofun⟩ (by simp [StopsScheduler])
    · exact .moves .finishing ⟨rfl, rfl, rfl, rfl, rfl, id, id⟩
        (by rw [place]; exact ⟨rfl, nofun, nofun⟩) ⟨rfl, rfl, nofun⟩
        ⟨.inl, fun either => either.resolve_right (by rw [place]; simp [StopsScheduler])⟩
  · next place =>
    cases advanced
    exact .finish place
  · contradiction

end ComposedStreamDockRuntime

end StreamDockSdk.Runtime
