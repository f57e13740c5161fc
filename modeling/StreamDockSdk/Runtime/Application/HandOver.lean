import StreamDockSdk.Runtime.Application.Services

namespace StreamDockSdk.Runtime

open Automaton ComposedStreamDockRuntime

/-- The position of the call of `run_forever` follows that of `run`. -/
structure Lodged (world : ApplicationWorld) : Prop where
  before : world.application.run.before = true → world.runtime.runners = []
  running : ∀ runner, world.application.run = .running runner →
    runner = 0 ∧ ∃ pc, world.runtime.runners = [pc]
  isOver : world.application.run.before = false →
    (∀ runner, world.application.run ≠ .running runner) →
    ∀ pc ∈ world.runtime.runners, pc.error?.isSome = true

theorem advanceRun_unfinished {runtime : ComposedStreamDockRuntime} {pc : RunPc}
    {move : RuntimeMove} {result : ComposedStreamDockRuntime × RunPc}
    (advanced : runtime.advanceRun pc move = some result) : pc.error? = none := by
  cases pc <;> first | rfl | (simp only [advanceRun] at advanced; contradiction)

theorem RuntimeWorld.step_runner {world after : RuntimeWorld} {index : Nat} {move : RuntimeMove}
    (stepped : world.step (.runner index move) = some after) :
    ∃ pc result, world.runners[index]? = some pc ∧
      world.runtime.advanceRun pc move = some result ∧
      after = { world with
        runtime := result.1, runners := world.runners.set index result.2 } := by
  simp only [RuntimeWorld.step] at stepped
  split at stepped
  · contradiction
  · next pc found =>
    obtain ⟨result, advanced, rfl⟩ := Option.map_eq_some_iff.mp stepped
    exact ⟨pc, result, found, advanced, rfl⟩

/-- Only a call of `run_forever` moves the callers of `run_forever`. -/
theorem RuntimeWorld.step_runners {world after : RuntimeWorld} {label : RuntimeLabel}
    (stepped : world.step label = some after) :
    after.runners = world.runners ∨
      (label = .run ∧ after.runners = world.runners ++ [.entering]) ∨
      ∃ index move pc result, label = .runner index move ∧
        world.runners[index]? = some pc ∧
        world.runtime.advanceRun pc move = some result ∧
        after = { world with
          runtime := result.1, runners := world.runners.set index result.2 } := by
  cases label with
  | run =>
      cases stepped
      exact .inr (.inl ⟨rfl, rfl⟩)
  | runner index move =>
      obtain ⟨pc, result, found, advanced, same⟩ := RuntimeWorld.step_runner stepped
      exact .inr (.inr ⟨index, move, pc, result, rfl, found, advanced, same⟩)
  | close | fatal | share | boundaryCloses =>
      cases stepped
      exact .inl rfl
  | closer index move =>
      simp only [RuntimeWorld.step] at stepped
      split at stepped
      · contradiction
      · simp only [Option.map_eq_some_iff] at stepped
        obtain ⟨result, _, rfl⟩ := stepped
        exact .inl rfl
  | boundaryCloser move | boundaryRun move | cleanup move =>
      simp only [RuntimeWorld.step, Option.map_eq_some_iff] at stepped
      obtain ⟨runtime, _, rfl⟩ := stepped
      exact .inl rfl
  | boundaryWorkersStop =>
      simp only [RuntimeWorld.step] at stepped
      split at stepped
      · cases stepped
        exact .inl rfl
      · contradiction

namespace ComposedStreamDockRuntime

variable {runtime : ComposedStreamDockRuntime}

/-- What no step takes back: a request to shut down, and the end of the runtime. -/
structure Persists (before after : ComposedStreamDockRuntime) : Prop where
  requested : before.shutdownRequested = true → after.shutdownRequested = true
  terminal : before.state.terminal = true → after.state.terminal = true

theorem Kept.persists {before after : ComposedStreamDockRuntime} (kept : Kept before after) :
    Persists before after :=
  ⟨kept.requested, fun ended => kept.state ▸ ended⟩

theorem transitionRuntimeState_terminal {current target state : RuntimeLifecycleState}
    (allowed : transitionRuntimeState current target = some state) : current.terminal = false := by
  obtain ⟨_, listed⟩ := transitionRuntimeState_eq allowed
  cases current <;> first | rfl | contradiction

theorem Runs.persists {pc : RunPc} {result : ComposedStreamDockRuntime × RunPc}
    (runs : Runs runtime pc result) : Persists runtime result.1 := by
  cases runs with
  | enter new running =>
      refine ⟨fun requested => requested, fun ended => ?_⟩
      rw [new] at ended
      contradiction
  | announce running allowed =>
      refine ⟨id, fun ended => ?_⟩
      rw [transitionRuntimeState_terminal allowed] at ended
      contradiction
  | conclude interrupted allowed =>
      refine ⟨id, fun ended => ?_⟩
      rw [transitionRuntimeState_terminal allowed] at ended
      contradiction
  | finalize interrupted active =>
      refine ⟨fun _ => rfl, fun ended => ?_⟩
      rcases active with ⟨state | state, _⟩ | ⟨_, rfl⟩
      · rw [state] at ended
        contradiction
      · rw [state] at ended
        contradiction
      · exact ended
  | record => exact (recordPrimaryFailure_kept _).persists
  | _ => exact ⟨id, id⟩

theorem Runs.not_entering {pc : RunPc} {result : ComposedStreamDockRuntime × RunPc}
    (runs : Runs runtime pc result) : result.2 ≠ .entering := by
  cases runs with
  | moves moves =>
      cases moves with
      | skip worker => cases worker <;> exact nofun
      | _ => exact nofun
  | start worker => cases worker <;> exact nofun
  | failBoundary next => rcases next with rfl | rfl <;> exact nofun
  | _ => exact nofun

theorem Closes.persists {pc : ClosePc} {result : ComposedStreamDockRuntime × ClosePc}
    (closes : Closes runtime pc result) : Persists runtime result.1 := by
  cases closes with
  | record failure => exact (onFatalError_kept failure).persists
  | request => exact ⟨fun _ => rfl, id⟩
  | ensure beforeRun nonblocking threadStarts =>
      exact (ensureBoundaryClosed_kept threadStarts).persists
  | settle =>
      unfold settleUnrun
      split
      · next new =>
        refine ⟨id, fun ended => ?_⟩
        rw [new] at ended
        contradiction
      · exact ⟨id, id⟩
  | release =>
      unfold setReleased
      split <;> exact ⟨id, id⟩
  | _ => exact ⟨id, id⟩

/-- A call of `close` that enters asks for the shutdown, unless the runtime has ended. -/
theorem Closes.entered {fromWorker : Bool} {result : ComposedStreamDockRuntime × ClosePc}
    (closes : Closes runtime (.entering fromWorker) result) :
    result.1.shutdownRequested = true ∨ result.1.state.terminal = true := by
  cases closes with
  | late ended => exact .inr ‹_›
  | request => exact .inl rfl

theorem advanceBoundaryRun_persists {pc : BoundaryRunPc} {move : RuntimeMove}
    {after : ComposedStreamDockRuntime}
    (advanced : runtime.advanceBoundaryRun pc move = some after) : Persists runtime after := by
  have failed : Persists runtime (runtime.onFatalError .boundaryRun) :=
    (onFatalError_kept .boundaryRun).persists
  have ensured (threadStarts : Bool) :
      Persists runtime (runtime.ensureBoundaryClosed threadStarts) :=
    (ensureBoundaryClosed_kept threadStarts).persists
  unfold advanceBoundaryRun at advanced
  split at advanced <;> first | contradiction | cases advanced
  all_goals
    first
      | exact ⟨id, id⟩
      | exact ⟨failed.requested, failed.terminal⟩
      | exact ⟨(ensured _).requested, (ensured _).terminal⟩

end ComposedStreamDockRuntime

theorem RuntimeWorld.step_persists {world after : RuntimeWorld} {label : RuntimeLabel}
    (stepped : world.step label = some after) : Persists world.runtime after.runtime := by
  cases label with
  | run | close | fatal | share | boundaryCloses =>
      cases stepped
      exact ⟨id, id⟩
  | runner index move =>
      simp only [RuntimeWorld.step] at stepped
      split at stepped
      · contradiction
      · obtain ⟨result, advanced, rfl⟩ := Option.map_eq_some_iff.mp stepped
        exact (advanceRun_cases advanced).persists
  | closer index move =>
      simp only [RuntimeWorld.step] at stepped
      split at stepped
      · contradiction
      · obtain ⟨result, advanced, rfl⟩ := Option.map_eq_some_iff.mp stepped
        exact (advanceClose_cases advanced).persists
  | boundaryCloser move =>
      obtain ⟨runtime, advanced, rfl⟩ := Option.map_eq_some_iff.mp stepped
      exact (advanceBoundaryCloser_kept advanced).persists
  | boundaryRun move =>
      obtain ⟨runtime, advanced, rfl⟩ := Option.map_eq_some_iff.mp stepped
      exact advanceBoundaryRun_persists advanced
  | cleanup move =>
      obtain ⟨runtime, advanced, rfl⟩ := Option.map_eq_some_iff.mp stepped
      have beside := (advanceCleanup_cases advanced).beside
      exact ⟨beside.requested.trans, fun ended => beside.state ▸ ended⟩
  | boundaryWorkersStop =>
      simp only [RuntimeWorld.step] at stepped
      split at stepped
      · cases stepped
        exact ⟨id, id⟩
      · contradiction

/-- Only a call of `close` moves the callers of `close`. -/
theorem RuntimeWorld.step_closers {world after : RuntimeWorld} {label : RuntimeLabel}
    (stepped : world.step label = some after) :
    after.closers = world.closers ∨
      (∃ pc, after.closers = world.closers ++ [pc] ∧
        ((∃ fromWorker, label = .close fromWorker) ∨ ∃ failure, label = .fatal failure)) ∨
      ∃ index pc result, world.closers[index]? = some pc ∧ Closes world.runtime pc result ∧
        after = { world with
          runtime := result.1, closers := world.closers.set index result.2 } := by
  cases label with
  | close fromWorker =>
      cases stepped
      exact .inr (.inl ⟨_, rfl, .inl ⟨fromWorker, rfl⟩⟩)
  | fatal failure =>
      cases stepped
      exact .inr (.inl ⟨_, rfl, .inr ⟨failure, rfl⟩⟩)
  | closer index move =>
      simp only [RuntimeWorld.step] at stepped
      split at stepped
      · contradiction
      · next pc found =>
        obtain ⟨result, advanced, rfl⟩ := Option.map_eq_some_iff.mp stepped
        exact .inr (.inr ⟨index, pc, result, found, advanceClose_cases advanced, rfl⟩)
  | run | share | boundaryCloses =>
      cases stepped
      exact .inl rfl
  | runner index move =>
      simp only [RuntimeWorld.step] at stepped
      split at stepped
      · contradiction
      · obtain ⟨result, _, rfl⟩ := Option.map_eq_some_iff.mp stepped
        exact .inl rfl
  | boundaryCloser move | boundaryRun move | cleanup move =>
      obtain ⟨runtime, _, rfl⟩ := Option.map_eq_some_iff.mp stepped
      exact .inl rfl
  | boundaryWorkersStop =>
      simp only [RuntimeWorld.step] at stepped
      split at stepped
      · cases stepped
        exact .inl rfl
      · contradiction

/-- A runtime that nothing runs and nothing closes is not asked to shut down. -/
theorem RuntimeWorld.step_asks {world after : RuntimeWorld} {label : RuntimeLabel}
    (stepped : world.step label = some after) (runners : world.runners = [])
    (closers : world.closers = []) (boundary : world.runtime.boundaryRun = .idle)
    (asked : after.runtime.shutdownRequested = true) :
    world.runtime.shutdownRequested = true := by
  cases label with
  | run | close | fatal | share | boundaryCloses =>
      cases stepped
      exact asked
  | runner index move =>
      simp only [RuntimeWorld.step, runners] at stepped
      contradiction
  | closer index move =>
      simp only [RuntimeWorld.step, closers] at stepped
      contradiction
  | boundaryCloser move =>
      obtain ⟨runtime, advanced, rfl⟩ := Option.map_eq_some_iff.mp stepped
      unfold advanceBoundaryCloser at advanced
      split at advanced <;> first | contradiction | (cases advanced; exact asked)
  | boundaryRun move =>
      obtain ⟨runtime, advanced, rfl⟩ := Option.map_eq_some_iff.mp stepped
      rw [boundary] at advanced
      contradiction
  | cleanup move =>
      obtain ⟨runtime, advanced, rfl⟩ := Option.map_eq_some_iff.mp stepped
      exact (advanceCleanup_cases advanced).beside.requested.symm.trans asked
  | boundaryWorkersStop =>
      simp only [RuntimeWorld.step] at stepped
      split at stepped
      · cases stepped
        exact asked
      · contradiction

theorem StreamDockApplication.advanceCleanup_run {application after : StreamDockApplication}
    {released : Bool} {pc : ServiceCleanupPc} {move : RuntimeMove}
    (advanced : application.advanceCleanup released pc move = some after) :
    after.run = application.run ∧
      (move ≠ .raises → after.serviceErrors = application.serviceErrors) := by
  unfold StreamDockApplication.advanceCleanup at advanced
  split at advanced
  · split at advanced
    · contradiction
    · cases advanced
      exact ⟨rfl, fun _ => rfl⟩
  all_goals
    first
      | contradiction
      | (cases advanced
         exact ⟨rfl, fun smooth => by first | rfl | exact absurd rfl smooth⟩)

namespace Lodged

variable {world after : ApplicationWorld}

/-- A step that leaves the callers of `run_forever` and `run` where they are. -/
theorem frame (lodged : Lodged world) (run : after.application.run = world.application.run)
    (runners : after.runtime.runners = world.runtime.runners) : Lodged after := by
  obtain ⟨before, running, isOver⟩ := lodged
  constructor <;> rw [run, runners] <;> assumption

/-- A step of `run` before it calls `run_forever`. -/
theorem early (empty : world.runtime.runners = [])
    (stays : ∀ runner, world.application.run ≠ .running runner) : Lodged world where
  before _ := empty
  running runner at_ := absurd at_ (stays runner)
  isOver _ _ := by simp [empty]

theorem runStep (lodged : Lodged world) {move : RuntimeMove}
    (advanced : world.advanceRun world.application.run move = some after) : Lodged after := by
  -- The steps after `run_forever` has ended, or instead of it.
  have past {application : StreamDockApplication} {runtime : RuntimeWorld}
      (ended : world.application.run.before = false)
      (elsewhere : ∀ runner, world.application.run ≠ .running runner)
      (same : runtime.runners = world.runtime.runners)
      (ends : application.run.before = false)
      (stays : ∀ runner, application.run ≠ .running runner) :
      Lodged { world with application, runtime } := by
    refine ⟨fun open_ => ?_, fun runner at_ => absurd at_ (stays runner), fun _ _ => ?_⟩
    · rw [ends] at open_
      contradiction
    · exact same ▸ lodged.isOver ended elsewhere
  have before := lodged.before
  have running := lodged.running
  unfold ApplicationWorld.advanceRun at advanced
  split at advanced
  · next at_ =>
    rw [at_] at before
    split at advanced
    · split at advanced <;>
      · cases advanced
        exact early (before rfl) (by simp [ApplicationWorld.after])
    · cases advanced
      exact early (before rfl) (by simp [ApplicationWorld.after])
  · next at_ =>
    rw [at_] at before
    cases advanced
    exact early (before rfl) (by simp [ApplicationWorld.after])
  · next at_ =>
    rw [at_] at before
    cases advanced
    exact early (before rfl) (by simp [ApplicationWorld.after])
  · next at_ =>
    rw [at_] at before
    cases advanced
    exact early (before rfl) (by simp [ApplicationWorld.after])
  · next at_ =>
    rw [at_] at before
    split at advanced <;>
    · cases advanced
      exact early (before rfl) (by simp [ApplicationWorld.after])
  · next at_ =>
    rw [at_] at before
    have empty := before rfl
    simp only [RuntimeWorld.step, Option.map_some, Option.some.injEq] at advanced
    subst advanced
    refine ⟨by simp [ApplicationRunPc.before, ApplicationRunPc.looping],
      fun runner at_ => ?_, fun _ elsewhere => absurd rfl (elsewhere _)⟩
    cases at_
    rw [empty]
    exact ⟨rfl, _, rfl⟩
  · next runner at_ =>
    obtain ⟨rfl, pc, alone⟩ := running runner at_
    split at advanced
    · contradiction
    · next error ended =>
      cases advanced
      refine ⟨by simp [ApplicationWorld.after, ApplicationRunPc.before, ApplicationRunPc.looping],
        by simp [ApplicationWorld.after], fun _ _ other member => ?_⟩
      have here : other = pc := by simpa [ApplicationWorld.after, alone] using member
      rw [alone] at ended
      rw [here]
      exact Option.isSome_iff_exists.mpr ⟨error, ended⟩
  · next error at_ =>
    cases advanced
    refine past (by rw [at_]; rfl) (by rw [at_]; simp) ?_ rfl (by simp [ApplicationWorld.after])
    split <;> rfl
  · next error at_ =>
    cases advanced
    cases error <;> exact past (by rw [at_]; rfl) (by rw [at_]; simp) rfl rfl
      (by simp)
  · next error at_ =>
    split at advanced
    · cases advanced
      refine past (by rw [at_]; rfl) (by rw [at_]; simp) rfl ?_ ?_
      · split
        · rfl
        · cases error <;> rfl
      · dsimp only
        split
        · simp
        · cases error <;> simp [conclusion]
    · contradiction
  · next error at_ =>
    cases advanced
    cases error <;> exact past (by rw [at_]; rfl) (by rw [at_]; simp) rfl rfl
      (by simp [conclusion])
  · contradiction

theorem runtime (lodged : Lodged world) {label : RuntimeLabel} (called : label ≠ .run)
    {runtime : RuntimeWorld} (stepped : world.runtime.step label = some runtime) :
    Lodged { world with runtime } := by
  rcases RuntimeWorld.step_runners stepped with
    same | ⟨rfl, _⟩ | ⟨index, move, pc, result, rfl, found, advanced, rfl⟩
  · exact lodged.frame rfl same
  · exact absurd rfl called
  · have unfinished := advanceRun_unfinished advanced
    refine ⟨fun before => ?_, fun runner at_ => ?_, fun isOver elsewhere => ?_⟩
    · rw [lodged.before before] at found
      contradiction
    · obtain ⟨rfl, other, alone⟩ := lodged.running runner at_
      refine ⟨rfl, ?_⟩
      dsimp only
      rw [alone] at found ⊢
      cases index with
      | zero => exact ⟨result.2, rfl⟩
      | succ index => contradiction
    · have ended := lodged.isOver isOver elsewhere pc (List.mem_of_getElem? found)
      rw [unfinished] at ended
      contradiction

theorem step (lodged : Lodged world) (sound : ServiceSound world) {label : ApplicationLabel}
    (stepped : world.step label = some after) : Lodged after := by
  cases label with
  | run =>
      simp only [ApplicationWorld.step] at stepped
      split at stepped
      · cases stepped
        exact lodged
      · next fresh =>
        cases stepped
        refine early (lodged.before ?_) (by simp [ApplicationWorld.after])
        by_contra running
        have ran := sound.ran fun idle => running (by rw [idle]; rfl)
        simp [ran] at fresh
  | runStep move => exact lodged.runStep stepped
  | stop =>
      cases stepped
      exact lodged.frame rfl rfl
  | stopper index fromWorker =>
      simp only [ApplicationWorld.step] at stepped
      split at stepped
      · cases stepped
        exact lodged.frame rfl rfl
      · cases stepped
        exact lodged.frame rfl rfl
      · contradiction
  | serviceCleanup move =>
      simp only [ApplicationWorld.step, Option.map_eq_some_iff] at stepped
      obtain ⟨application, advanced, rfl⟩ := stepped
      exact lodged.frame (StreamDockApplication.advanceCleanup_run advanced).1 rfl
  | runtime label =>
      simp only [ApplicationWorld.step] at stepped
      split at stepped
      · contradiction
      · next other =>
        simp only [Option.map_eq_some_iff] at stepped
        obtain ⟨runtime, moved, rfl⟩ := stepped
        exact lodged.runtime other moved

/-- The one call of `run_forever` that is not over. -/
theorem alone (lodged : Lodged world) {index : Nat} {pc : RunPc}
    (found : world.runtime.runners[index]? = some pc) (unfinished : pc.error? = none) :
    index = 0 ∧ world.application.run = .running 0 ∧ world.runtime.runners = [pc] := by
  by_cases running : ∃ runner, world.application.run = .running runner
  · obtain ⟨runner, at_⟩ := running
    obtain ⟨rfl, other, alone⟩ := lodged.running runner at_
    rw [alone] at found ⊢
    cases index with
    | zero => exact ⟨rfl, at_, by rw [Option.some.inj found]⟩
    | succ index => contradiction
  · by_cases before : world.application.run.before = true
    · rw [lodged.before before] at found
      contradiction
    · have ended := lodged.isOver (by simpa using before)
        (fun runner at_ => running ⟨runner, at_⟩) pc (List.mem_of_getElem? found)
      rw [unfinished] at ended
      contradiction

end Lodged

theorem lodged {services : Nat} {hasOnStop : Bool} {world : ApplicationWorld}
    (reachable : (applicationSystem services hasOnStop).Reachable world) : Lodged world := by
  refine reachable.invariant_given ServiceSound (fun _ => serviceSound) ?_
    fun _ _ _ sound lodged stepped => lodged.step sound stepped
  rintro _ rfl
  exact .early rfl nofun

/-- The application only makes steps of the runtime. -/
theorem runtime_reachable {services : Nat} {hasOnStop : Bool} {world : ApplicationWorld}
    (reachable : (applicationSystem services hasOnStop).Reachable world) :
    (runtimeSystem hasOnStop).Reachable world.runtime := by
  refine reachable.invariant (motive := fun world =>
    (runtimeSystem hasOnStop).Reachable world.runtime) ?_ fun before label after reached stepped => ?_
  · rintro _ rfl
    exact .initial rfl
  change before.step label = some after at stepped
  cases label with
  | run =>
      simp only [ApplicationWorld.step] at stepped
      split at stepped <;> cases stepped <;> exact reached
  | runStep move =>
      change before.advanceRun before.application.run move = some after at stepped
      unfold ApplicationWorld.advanceRun at stepped
      split at stepped
      · split at stepped
        · split at stepped <;> cases stepped <;> exact reached
        · cases stepped
          exact reached
      · cases stepped
        exact reached
      · cases stepped
        exact reached
      · cases stepped
        exact reached
      · split at stepped <;> cases stepped <;> exact reached
      · simp only [Option.map_eq_some_iff] at stepped
        obtain ⟨runtime, moved, rfl⟩ := stepped
        exact reached.next .run moved
      · split at stepped
        · contradiction
        · cases stepped
          exact reached
      · next error at_ =>
        cases stepped
        split
        · exact reached.next (.share .application) rfl
        · exact reached
      · cases stepped
        exact reached
      · split at stepped
        · cases stepped
          exact reached
        · contradiction
      · cases stepped
        exact reached
      · contradiction
  | stop =>
      cases stepped
      exact reached
  | stopper index fromWorker =>
      simp only [ApplicationWorld.step] at stepped
      split at stepped
      · cases stepped
        exact reached
      · simp only [Option.map_eq_some_iff] at stepped
        obtain ⟨runtime, moved, rfl⟩ := stepped
        exact reached.next (.close fromWorker) moved
      · contradiction
  | serviceCleanup move =>
      simp only [ApplicationWorld.step, Option.map_eq_some_iff] at stepped
      obtain ⟨application, _, rfl⟩ := stepped
      exact reached
  | runtime label =>
      simp only [ApplicationWorld.step] at stepped
      split at stepped
      · contradiction
      · simp only [Option.map_eq_some_iff] at stepped
        obtain ⟨runtime, moved, rfl⟩ := stepped
        exact reached.next label moved

end StreamDockSdk.Runtime
