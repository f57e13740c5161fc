import StreamDockSdk.Runtime.Composition.Release

namespace StreamDockSdk.Runtime

open Automaton ComposedStreamDockRuntime

/-- The order of the calls of `_cleanup`: no call comes twice. -/
def ReleaseCall.Precedes : ReleaseCall → ReleaseCall → Prop
  | .clearContexts, .clearContexts => False
  | .clearContexts, _ => True
  | .willDisappear first, .willDisappear second => first < second
  | .willDisappear _, .onStop | .willDisappear _, .setReleased => True
  | .onStop, .setReleased => True
  | _, _ => False

/-- The application's resources are released once, in order, and only after
everything that may use them has ended. -/
structure ReleasesSafely (runtime : ComposedStreamDockRuntime) : Prop where
  quiescent : runtime.calls ≠ [] → runtime.Quiescent
  ordered : runtime.calls.Pairwise fun newer older => older.Precedes newer
  released : runtime.resourcesReleased = true ↔ .setReleased ∈ runtime.calls
  unfailed : runtime.failedWorkerStops ≠ [] → runtime.calls = []

/-- The step is not a `close` that found the runtime not yet run and now sets
`_resources_released` while the boundary is still shutting down. -/
def ReleasesOnTime (world : RuntimeWorld) (label : RuntimeLabel) : Prop :=
  ∀ index move, label = .closer index move → world.closers[index]? = some .releasing →
    world.runtime.resourcesReleased = false → world.runtime.boundaryWorkersStopped = true

namespace ComposedStreamDockRuntime

variable {runtime : ComposedStreamDockRuntime}

theorem disappearances_ordered (actions : Nat) :
    (disappearances actions).Pairwise (fun newer older => older.Precedes newer) ∧
      ∀ call ∈ disappearances actions, call = .clearContexts ∨
        ∃ index < actions, call = .willDisappear index := by
  induction actions with
  | zero => simp [disappearances]
  | succ actions ih =>
      obtain ⟨ordered, listed⟩ := ih
      refine ⟨List.pairwise_cons.mpr ⟨fun call member => ?_, ordered⟩, fun call member => ?_⟩
      · rcases listed call member with rfl | ⟨index, below, rfl⟩
        · trivial
        · exact below
      · rcases List.mem_cons.mp member with rfl | member
        · exact .inr ⟨actions, Nat.lt_succ_self _, rfl⟩
        · rcases listed call member with cleared | ⟨index, below, same⟩
          · exact .inl cleared
          · exact .inr ⟨index, Nat.lt_succ_of_lt below, same⟩

theorem onStop_ordered (actions : Nat) :
    (.onStop :: disappearances actions).Pairwise fun newer older => older.Precedes newer := by
  obtain ⟨ordered, listed⟩ := disappearances_ordered actions
  refine List.pairwise_cons.mpr ⟨fun call member => ?_, ordered⟩
  rcases listed call member with rfl | ⟨index, _, rfl⟩ <;> trivial

theorem Concluded.ordered {calls : List ReleaseCall} (concluded : Concluded calls) :
    (.setReleased :: calls).Pairwise fun newer older => older.Precedes newer := by
  obtain ⟨actions, rfl | rfl⟩ := concluded
  · obtain ⟨ordered, listed⟩ := disappearances_ordered actions
    refine List.pairwise_cons.mpr ⟨fun call member => ?_, ordered⟩
    rcases listed call member with rfl | ⟨index, _, rfl⟩ <;> trivial
  · refine List.pairwise_cons.mpr ⟨fun call member => ?_, onStop_ordered actions⟩
    rcases List.mem_cons.mp member with rfl | member
    · trivial
    · rcases (disappearances_ordered actions).2 call member with rfl | ⟨index, _, rfl⟩ <;> trivial

/-- Once the cleanup thread has started, what it called was called in time. -/
theorem Reached.ordered (reached : runtime.Reached) (running : runtime.cleanup ≠ .idle) :
    (runtime.calls ≠ [] → runtime.Quiescent) ∧
      runtime.calls.Pairwise fun newer older => older.Precedes newer := by
  have silent (empty : runtime.calls = []) : (runtime.calls ≠ [] → runtime.Quiescent) ∧
      runtime.calls.Pairwise fun newer older => older.Precedes newer := by
    rw [empty]
    exact ⟨fun absent => absurd rfl absent, .nil⟩
  unfold Reached at reached
  split at reached
  · next idle => exact absurd idle running
  · exact silent reached.2.2
  · exact silent reached.2.2.2
  · exact silent reached.2.2.2.2.2
  · exact silent reached.2
  · rw [reached.2]
    exact ⟨fun _ => reached.1, (disappearances_ordered _).1⟩
  · obtain ⟨quiescent, actions, calls⟩ := reached
    rw [calls]
    exact ⟨fun _ => quiescent, (disappearances_ordered _).1⟩
  · obtain ⟨quiescent, concluded⟩ := reached
    exact ⟨fun _ => quiescent, (List.pairwise_cons.mp concluded.ordered).2⟩
  · rcases reached with empty | ⟨quiescent, earlier, concluded, calls⟩
    · exact silent empty
    · rw [calls]
      exact ⟨fun _ => quiescent, concluded.ordered⟩
  · rcases reached with empty | ⟨quiescent, earlier, concluded, calls⟩
    · exact silent empty
    · rw [calls]
      exact ⟨fun _ => quiescent, concluded.ordered⟩
  · exact silent reached

theorem Runs.beside {pc : RunPc} {result : ComposedStreamDockRuntime × RunPc}
    (runs : Runs runtime pc result) : result.1.calls = runtime.calls ∧
      result.1.boundaryWorkersStopped = runtime.boundaryWorkersStopped := by
  cases runs <;> exact ⟨rfl, rfl⟩

/-- `_resources_released` is set by `close` only at its own release. -/
theorem Closes.beside {pc : ClosePc} {result : ComposedStreamDockRuntime × ClosePc}
    (closes : Closes runtime pc result) :
    result.1.boundaryWorkersStopped = runtime.boundaryWorkersStopped ∧
      (result.1.calls = runtime.calls ∨ pc = .releasing ∧ runtime.resourcesReleased = false) := by
  cases closes with
  | ensure beforeRun nonblocking threadStarts =>
      unfold ensureBoundaryClosed
      split
      · exact ⟨rfl, .inl rfl⟩
      · split <;> exact ⟨rfl, .inl rfl⟩
  | settle =>
      unfold settleUnrun
      split <;> exact ⟨rfl, .inl rfl⟩
  | release =>
      unfold setReleased
      split
      · exact ⟨rfl, .inl rfl⟩
      · next unset => exact ⟨rfl, .inr ⟨rfl, by simpa using unset⟩⟩
  | _ => exact ⟨rfl, .inl rfl⟩

theorem advanceBoundaryRun_beside {after : ComposedStreamDockRuntime} {pc : BoundaryRunPc}
    {move : RuntimeMove} (advanced : runtime.advanceBoundaryRun pc move = some after) :
    after.calls = runtime.calls ∧
      after.boundaryWorkersStopped = runtime.boundaryWorkersStopped := by
  have ensured (threadStarts : Bool) :
      (runtime.ensureBoundaryClosed threadStarts).calls = runtime.calls ∧
      (runtime.ensureBoundaryClosed threadStarts).boundaryWorkersStopped =
        runtime.boundaryWorkersStopped := by
    unfold ensureBoundaryClosed
    split
    · exact ⟨rfl, rfl⟩
    · split <;> exact ⟨rfl, rfl⟩
  unfold advanceBoundaryRun at advanced
  split at advanced <;> first | contradiction | cases advanced
  all_goals first | exact ⟨rfl, rfl⟩ | exact ensured _

/-- The cleanup thread sets `_resources_released` at its last stage only. -/
theorem Cleans.calls {pc : CleanupPc} {after : ComposedStreamDockRuntime}
    (cleans : Cleans runtime pc after) (set : .setReleased ∈ after.calls) :
    .setReleased ∈ runtime.calls ∨ pc = .settingReleased := by
  cases cleans with
  | ensure threadStarts =>
      have kept := (@ensureBoundaryClosed_kept runtime) threadStarts
      exact .inl (kept.calls ▸ set)
  | clear | clearFails | disappear | onStop => exact .inl (by simpa using set)
  | release => exact .inr rfl
  | _ => exact .inl set

theorem setReleased_released (released : runtime.resourcesReleased = true) :
    runtime.setReleased.resourcesReleased = true := by
  unfold setReleased
  rw [if_pos released]
  exact released

theorem Runs.released {pc : RunPc} {result : ComposedStreamDockRuntime × RunPc}
    (runs : Runs runtime pc result) :
    result.1.resourcesReleased = runtime.resourcesReleased := by
  cases runs <;> rfl

theorem Closes.released {pc : ClosePc} {result : ComposedStreamDockRuntime × ClosePc}
    (closes : Closes runtime pc result) (released : runtime.resourcesReleased = true) :
    result.1.resourcesReleased = true := by
  cases closes with
  | ensure beforeRun nonblocking threadStarts =>
      exact (ensureBoundaryClosed_kept threadStarts).released.trans released
  | settle =>
      unfold settleUnrun
      split <;> exact released
  | release => exact setReleased_released released
  | _ => exact released

theorem advanceBoundaryRun_released {after : ComposedStreamDockRuntime} {pc : BoundaryRunPc}
    {move : RuntimeMove} (advanced : runtime.advanceBoundaryRun pc move = some after) :
    after.resourcesReleased = runtime.resourcesReleased := by
  unfold advanceBoundaryRun at advanced
  split at advanced <;> first | contradiction | cases advanced
  all_goals first | rfl | exact (ensureBoundaryClosed_kept _).released

theorem Cleans.released {pc : CleanupPc} {after : ComposedStreamDockRuntime}
    (cleans : Cleans runtime pc after) (released : runtime.resourcesReleased = true) :
    after.resourcesReleased = true := by
  cases cleans with
  | ensure threadStarts => exact (ensureBoundaryClosed_kept threadStarts).released.trans released
  | release => exact setReleased_released released
  | _ => exact released

end ComposedStreamDockRuntime

/-- In a run on time the boundary has shut down when the resources are released. -/
theorem boundaryWorkersStopped_of_released {hasOnStop : Bool} {world : RuntimeWorld}
    (reachable : (runtimeSystem hasOnStop).ReachableBy ReleasesOnTime world) :
    .setReleased ∈ world.runtime.calls → world.runtime.boundaryWorkersStopped = true := by
  refine reachable.invariant_given (motive := fun world =>
      .setReleased ∈ world.runtime.calls → world.runtime.boundaryWorkersStopped = true)
    RuntimeSound (fun _ => runtimeSound) ?_ ?_
  · rintro _ rfl
    simp
  · intro before label after timely sound holds stepped set
    have same {runtime : ComposedStreamDockRuntime} (beside : runtime.calls = before.runtime.calls ∧
        runtime.boundaryWorkersStopped = before.runtime.boundaryWorkersStopped)
        (set : .setReleased ∈ runtime.calls) : runtime.boundaryWorkersStopped = true :=
      beside.2.trans (holds (beside.1 ▸ set))
    simp only [runtimeSystem] at stepped
    cases label with
    | run | close | fatal =>
        cases stepped
        exact holds set
    | runner index move =>
        simp only [RuntimeWorld.step] at stepped
        split at stepped
        · contradiction
        · simp only [Option.map_eq_some_iff] at stepped
          obtain ⟨result, advanced, rfl⟩ := stepped
          exact same (advanceRun_cases advanced).beside set
    | closer index move =>
        simp only [RuntimeWorld.step] at stepped
        split at stepped
        · contradiction
        · next found =>
          simp only [Option.map_eq_some_iff] at stepped
          obtain ⟨result, advanced, rfl⟩ := stepped
          obtain ⟨boundary, calls | ⟨rfl, unset⟩⟩ := (advanceClose_cases advanced).beside
          · exact same ⟨calls, boundary⟩ set
          · exact boundary.trans (timely index move rfl found unset)
    | share failure =>
        cases stepped
        exact holds set
    | boundaryCloser move =>
        simp only [RuntimeWorld.step, Option.map_eq_some_iff] at stepped
        obtain ⟨runtime, advanced, rfl⟩ := stepped
        have kept := advanceBoundaryCloser_kept advanced
        exact kept.boundary (holds (kept.calls ▸ set))
    | boundaryRun move =>
        simp only [RuntimeWorld.step, Option.map_eq_some_iff] at stepped
        obtain ⟨runtime, advanced, rfl⟩ := stepped
        exact same (advanceBoundaryRun_beside advanced) set
    | cleanup move =>
        simp only [RuntimeWorld.step, Option.map_eq_some_iff] at stepped
        obtain ⟨runtime, advanced, rfl⟩ := stepped
        have cleans := advanceCleanup_cases advanced
        refine cleans.boundary.1.trans ?_
        rcases cleans.calls set with earlier | last
        · exact holds earlier
        · have reached := sound.reached
          unfold Reached at reached
          simp only [last] at reached
          exact reached.1.boundary
    | boundaryCloses =>
        cases stepped
        exact holds set
    | boundaryWorkersStop =>
        simp only [RuntimeWorld.step] at stepped
        split at stepped
        · cases stepped
          rfl
        · contradiction

/-- `_resources_released` stays set. -/
theorem RuntimeWorld.step_released {before after : RuntimeWorld} {label : RuntimeLabel}
    (stepped : before.step label = some after)
    (released : before.runtime.resourcesReleased = true) :
    after.runtime.resourcesReleased = true := by
  cases label with
  | run | close | fatal | share | boundaryCloses =>
      cases stepped
      exact released
  | runner index move =>
      simp only [RuntimeWorld.step] at stepped
      split at stepped
      · contradiction
      · simp only [Option.map_eq_some_iff] at stepped
        obtain ⟨result, advanced, rfl⟩ := stepped
        exact (advanceRun_cases advanced).released.trans released
  | closer index move =>
      simp only [RuntimeWorld.step] at stepped
      split at stepped
      · contradiction
      · simp only [Option.map_eq_some_iff] at stepped
        obtain ⟨result, advanced, rfl⟩ := stepped
        exact (advanceClose_cases advanced).released released
  | boundaryCloser move =>
      simp only [RuntimeWorld.step, Option.map_eq_some_iff] at stepped
      obtain ⟨runtime, advanced, rfl⟩ := stepped
      exact (advanceBoundaryCloser_kept advanced).released.trans released
  | boundaryRun move =>
      simp only [RuntimeWorld.step, Option.map_eq_some_iff] at stepped
      obtain ⟨runtime, advanced, rfl⟩ := stepped
      exact (advanceBoundaryRun_released advanced).trans released
  | cleanup move =>
      simp only [RuntimeWorld.step, Option.map_eq_some_iff] at stepped
      obtain ⟨runtime, advanced, rfl⟩ := stepped
      exact (advanceCleanup_cases advanced).released released
  | boundaryWorkersStop =>
      simp only [RuntimeWorld.step] at stepped
      split at stepped
      · cases stepped
        exact released
      · contradiction

theorem RuntimeSound.safely {world : RuntimeWorld} (sound : RuntimeSound world)
    (timely : .setReleased ∈ world.runtime.calls → world.runtime.boundaryWorkersStopped = true) :
    ReleasesSafely world.runtime := by
  have quiet : (world.runtime.calls ≠ [] → world.runtime.Quiescent) ∧
      world.runtime.calls.Pairwise fun newer older => older.Precedes newer := by
    by_cases running : world.runtime.cleanup = .idle
    · rcases sound.early running with empty | ⟨once, _, unrun⟩
      · rw [empty]
        exact ⟨fun absent => absurd rfl absent, .nil⟩
      · obtain ⟨attempted, idle, _, unfailed⟩ := sound.untouched unrun
        have stopped := timely (by simp [once])
        refine ⟨fun _ => ⟨sound.closed stopped, stopped, by rw [idle]; rfl, unfailed, ?_⟩, ?_⟩
        · intro worker
          simp [settled, attempted]
        · rw [once]
          exact List.pairwise_singleton _ _
    · exact sound.reached.ordered running
  refine ⟨quiet.1, quiet.2, sound.flag, fun failed => ?_⟩
  by_contra called
  exact failed (quiet.1 called).unfailed

/-- A runtime that was let run releases its resources on time. -/
theorem RuntimeSound.safely_run {world : RuntimeWorld} (sound : RuntimeSound world)
    (run : ¬ Unrun world.runners) : ReleasesSafely world.runtime := by
  refine sound.safely fun released => ?_
  by_cases idle : world.runtime.cleanup = .idle
  · rcases sound.early idle with empty | once
    · rw [empty] at released
      contradiction
    · exact absurd once.2.2 run
  · refine ((sound.reached.ordered idle).1 ?_).boundary
    intro empty
    rw [empty] at released
    contradiction

/-- Actions are released, the plugin is stopped and the resources are marked
released in this order, once each, after the boundary and every worker ended.
This fails in exactly the runs in which a `close` before the run does not wait
for the boundary; in none of them was a call of `run_forever` let in. -/
theorem release_ordering {hasOnStop : Bool} :
    (∀ world, (runtimeSystem hasOnStop).ReachableBy ReleasesOnTime world →
      ReleasesSafely world.runtime) ∧
    (∀ world, (runtimeSystem hasOnStop).Reachable world → ¬ Unrun world.runners →
      ReleasesSafely world.runtime) ∧
    ∀ world label after, (runtimeSystem hasOnStop).Reachable world →
      ¬ ReleasesOnTime world label → world.step label = some after →
      ¬ ReleasesSafely after.runtime := by
  refine ⟨fun world reachable => ?_, fun world reachable => (runtimeSound reachable).safely_run, ?_⟩
  · exact (runtimeSound reachable.reachable).safely (boundaryWorkersStopped_of_released reachable)
  · intro world label after reachable untimely stepped safely
    unfold ReleasesOnTime at untimely
    push Not at untimely
    obtain ⟨index, move, rfl, found, unset, unstopped⟩ := untimely
    simp only [RuntimeWorld.step, found, Option.map_eq_some_iff] at stepped
    obtain ⟨result, advanced, rfl⟩ := stepped
    have stopped : result.1.boundaryWorkersStopped = true := by
      cases advanceClose_cases advanced
      refine (safely.quiescent ?_).boundary
      simp [setReleased, unset]
    rw [(advanceClose_cases advanced).beside.1] at stopped
    exact unstopped stopped

/-- A run of the runtime that starts its workers and its boundary, and is closed
from another thread. -/
def closedRun : List RuntimeLabel :=
  ([.run] : List RuntimeLabel) ++ List.replicate 9 (RuntimeLabel.runner 0 .proceed) ++
  ([.close false, .closer 0 .proceed, .closer 0 .proceed, .boundaryCloser .proceed,
    .runner 0 .proceed, .boundaryRun (.returns true), .boundaryRun .proceed,
    .runner 0 .proceed, .runner 0 .proceed, .runner 0 .proceed,
    .boundaryWorkersStop, .boundaryCloser (.returns true),
    .cleanup .proceed, .cleanup .proceed, .cleanup (.returns true), .cleanup .proceed,
    .cleanup .proceed, .cleanup (.returns true), .cleanup .proceed, .cleanup (.returns true),
    .cleanup (.returns true), .cleanup .proceed, .cleanup .proceed, .cleanup .proceed,
    .cleanup .proceed, .cleanup .proceed, .cleanup .proceed, .cleanup .proceed, .cleanup .proceed,
    .cleanup (.clears 1), .cleanup .proceed, .cleanup .proceed, .cleanup .proceed,
    .cleanup .proceed] : List RuntimeLabel)

/-- The steps of a run up to the first `close` that does not wait. -/
def timely (world : RuntimeWorld) (label : RuntimeLabel) : Bool :=
  match label with
  | .closer index _ => world.closers[index]? != some .releasing ||
      world.runtime.resourcesReleased || world.runtime.boundaryWorkersStopped
  | _ => true

theorem releasesOnTime_of_timely {world : RuntimeWorld} {label : RuntimeLabel}
    (holds : timely world label = true) : ReleasesOnTime world label := by
  rintro index move rfl found unset
  simpa [timely, found, unset] using holds

def closedWorld : RuntimeWorld :=
  (((runtimeSystem true).restrict timely).exec { runtime := { hasOnStop := true } } closedRun).get
    (by decide +kernel)

theorem closedWorld_reachable :
    (runtimeSystem true).ReachableBy ReleasesOnTime closedWorld :=
  have reachable : ((runtimeSystem true).restrict timely).Reachable closedWorld :=
    System.Reachable.exec (.initial rfl) (Option.some_get _).symm
  reachable.restricted.weaken fun _ _ => releasesOnTime_of_timely

theorem release_ordering_run :
    closedWorld.runtime.calls = [.setReleased, .onStop, .willDisappear 0, .clearContexts] ∧
      ReleasesSafely closedWorld.runtime :=
  ⟨by decide +kernel, release_ordering.1 closedWorld closedWorld_reachable⟩

/-- `close` before the run: both waits for the boundary time out, and a later
call of `run_forever` is turned away. -/
def hastyRun : List RuntimeLabel :=
  [.close false, .closer 0 .proceed, .closer 0 .proceed, .boundaryCloser .proceed,
    .run, .runner 0 .proceed, .closer 0 .timesOut, .closer 0 .timesOut, .closer 0 .proceed,
    .closer 0 .proceed]

def hastyWorld : RuntimeWorld :=
  ((runtimeSystem true).exec { runtime := { hasOnStop := true } } hastyRun).get (by decide +kernel)

theorem unconditional_release_fails :
    ¬ ∀ world, (runtimeSystem true).Reachable world → ReleasesSafely world.runtime := by
  intro claimed
  have safely := claimed hastyWorld (System.Reachable.exec (.initial rfl) (Option.some_get _).symm)
  have stopped := (safely.quiescent (by decide +kernel)).boundary
  exact absurd stopped (by decide +kernel)

end StreamDockSdk.Runtime
