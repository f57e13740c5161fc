import StreamDockSdk.Runtime.Application.Services

namespace StreamDockSdk.Runtime

open Automaton ComposedStreamDockRuntime

/-- The runtime's cleanup is over and has not released its resources, and no call of
`close` will. -/
structure Withheld (world : RuntimeWorld) : Prop where
  ceased : world.runtime.cleanup = .finished
  unreleased : world.runtime.resourcesReleased = false
  entered : world.runtime.state ≠ .new
  runners : ∀ pc ∈ world.runners, (∃ outcome, pc = .ended outcome) ∨ pc = .rejected
  closers : ∀ pc ∈ world.closers, pc.beforeRun = false

namespace Withheld

variable {world after : RuntimeWorld} {index : Nat}

/-- A step that changes nothing of it. -/
theorem frame (withheld : Withheld world) {runtime : ComposedStreamDockRuntime}
    {closers : List ClosePc} (cleanup : runtime.cleanup = world.runtime.cleanup)
    (released : runtime.resourcesReleased = world.runtime.resourcesReleased)
    (state : runtime.state = world.runtime.state)
    (calls : ∀ pc ∈ closers, pc.beforeRun = false) :
    Withheld { world with runtime, closers } :=
  ⟨cleanup.trans withheld.ceased, released.trans withheld.unreleased, state ▸ withheld.entered,
    withheld.runners, calls⟩

theorem closers_set (withheld : Withheld world) {next : ClosePc}
    (outside : next.beforeRun = false) :
    ∀ pc ∈ world.closers.set index next, pc.beforeRun = false := by
  intro pc member
  rcases List.mem_or_eq_of_mem_set member with old | rfl
  · exact withheld.closers pc old
  · exact outside

theorem closers_append (withheld : Withheld world) {next : ClosePc}
    (outside : next.beforeRun = false) :
    ∀ pc ∈ world.closers ++ [next], pc.beforeRun = false := by
  intro pc member
  rcases List.mem_append.mp member with old | added
  · exact withheld.closers pc old
  · rw [List.mem_singleton.mp added]
    exact outside

theorem ensured (runtime : ComposedStreamDockRuntime) (threadStarts : Bool) :
    (runtime.ensureBoundaryClosed threadStarts).cleanup = runtime.cleanup ∧
      (runtime.ensureBoundaryClosed threadStarts).resourcesReleased = runtime.resourcesReleased ∧
      (runtime.ensureBoundaryClosed threadStarts).state = runtime.state := by
  unfold ensureBoundaryClosed
  split
  · exact ⟨rfl, rfl, rfl⟩
  · split <;> exact ⟨rfl, rfl, rfl⟩

theorem close (withheld : Withheld world) {pc : ClosePc}
    {result : ComposedStreamDockRuntime × ClosePc} (found : world.closers[index]? = some pc)
    (closes : Closes world.runtime pc result) :
    Withheld { world with
      runtime := result.1, closers := world.closers.set index result.2 } := by
  have outside := withheld.closers pc (List.mem_of_getElem? found)
  cases closes with
  | record failure => exact withheld.frame rfl rfl rfl (withheld.closers_set rfl)
  | late => exact withheld.frame rfl rfl rfl (withheld.closers_set rfl)
  | request =>
      exact withheld.frame rfl rfl rfl (withheld.closers_set (decide_eq_false withheld.entered))
  | ensure beforeRun nonblocking threadStarts =>
      obtain ⟨cleanup, released, state⟩ := ensured world.runtime threadStarts
      refine withheld.frame cleanup released state (withheld.closers_set ?_)
      cases nonblocking
      · exact outside
      · rfl
  | waited beforeRun =>
      refine withheld.frame rfl rfl rfl (withheld.closers_set ?_)
      cases beforeRun
      · rfl
      · contradiction
  | waitedAgain | settle | release | announce => contradiction
  | leave => exact withheld.frame rfl rfl rfl (withheld.closers_set rfl)

theorem boundaryRun (withheld : Withheld world) {pc : BoundaryRunPc} {move : RuntimeMove}
    {runtime : ComposedStreamDockRuntime}
    (advanced : world.runtime.advanceBoundaryRun pc move = some runtime) :
    Withheld { world with runtime } := by
  unfold advanceBoundaryRun at advanced
  split at advanced <;> first | contradiction | cases advanced
  all_goals
    first
      | exact withheld.frame rfl rfl rfl withheld.closers
      | (obtain ⟨cleanup, released, state⟩ := ensured world.runtime _
         exact withheld.frame cleanup released state withheld.closers)

theorem step (withheld : Withheld world) {label : RuntimeLabel} (uncalled : label ≠ .run)
    (stepped : world.step label = some after) : Withheld after := by
  cases label with
  | run => exact absurd rfl uncalled
  | runner index move =>
      simp only [RuntimeWorld.step] at stepped
      split at stepped
      · contradiction
      · next pc found =>
        obtain ⟨result, advanced, _⟩ := Option.map_eq_some_iff.mp stepped
        rcases withheld.runners pc (List.mem_of_getElem? found) with ⟨outcome, rfl⟩ | rfl <;>
          contradiction
  | close fromWorker | fatal failure =>
      cases stepped
      exact withheld.frame rfl rfl rfl (withheld.closers_append rfl)
  | closer index move =>
      simp only [RuntimeWorld.step] at stepped
      split at stepped
      · contradiction
      · next pc found =>
        obtain ⟨result, advanced, rfl⟩ := Option.map_eq_some_iff.mp stepped
        exact withheld.close found (advanceClose_cases advanced)
  | share failure | boundaryCloses =>
      cases stepped
      exact withheld.frame rfl rfl rfl withheld.closers
  | boundaryCloser move =>
      obtain ⟨runtime, advanced, rfl⟩ := Option.map_eq_some_iff.mp stepped
      unfold advanceBoundaryCloser at advanced
      split at advanced <;>
        first | contradiction | (cases advanced; exact withheld.frame rfl rfl rfl withheld.closers)
  | boundaryRun move =>
      obtain ⟨runtime, advanced, rfl⟩ := Option.map_eq_some_iff.mp stepped
      exact withheld.boundaryRun advanced
  | cleanup move =>
      obtain ⟨runtime, advanced, rfl⟩ := Option.map_eq_some_iff.mp stepped
      rw [withheld.ceased] at advanced
      contradiction
  | boundaryWorkersStop =>
      simp only [RuntimeWorld.step] at stepped
      split at stepped
      · cases stepped
        exact withheld.frame rfl rfl rfl withheld.closers
      · contradiction

end Withheld

/-- `run` has returned, and its services wait for a release that never comes. -/
structure Unstopped (events : List ServiceEvent) (world : ApplicationWorld) : Prop where
  same : world.application.events = events
  returned : world.application.run = .returned
  ran : world.application.hasRun = true
  waiting : world.application.cleanup = .awaiting true
  runtime : Withheld world.runtime

theorem Unstopped.step {events : List ServiceEvent} {world after : ApplicationWorld}
    {label : ApplicationLabel} (unstopped : Unstopped events world)
    (stepped : world.step label = some after) : Unstopped events after := by
  obtain ⟨same, returned, ran, waiting, runtime⟩ := unstopped
  cases label with
  | run =>
      simp only [ApplicationWorld.step, ran, Bool.true_or, if_true, Option.some.injEq] at stepped
      exact stepped ▸ ⟨same, returned, ran, waiting, runtime⟩
  | runStep move =>
      simp only [ApplicationWorld.step, returned] at stepped
      contradiction
  | stop =>
      cases stepped
      exact ⟨same, returned, ran, waiting, runtime⟩
  | stopper index fromWorker =>
      simp only [ApplicationWorld.step] at stepped
      split at stepped
      · cases stepped
        exact ⟨same, returned, ran, waiting, runtime⟩
      · obtain ⟨closing, moved, rfl⟩ := Option.map_eq_some_iff.mp stepped
        have other : RuntimeLabel.close fromWorker ≠ .run := by simp
        exact ⟨same, returned, ran, waiting, runtime.step other moved⟩
      · contradiction
  | serviceCleanup move =>
      obtain ⟨application, advanced, _⟩ := Option.map_eq_some_iff.mp stepped
      rw [waiting, runtime.unreleased] at advanced
      cases move <;> contradiction
  | runtime label =>
      simp only [ApplicationWorld.step] at stepped
      split at stepped
      · contradiction
      · next uncalled =>
        obtain ⟨later, moved, rfl⟩ := Option.map_eq_some_iff.mp stepped
        exact ⟨same, returned, ran, waiting, runtime.step uncalled moved⟩

/-- One service is started and the runtime is run; the `stop` of its scheduler raises. -/
def withholdingRun : List ApplicationLabel :=
  List.flatten [
    [.run, .runStep .proceed, .runStep (.returns true)],
    List.replicate 4 (.runStep .proceed),
    List.replicate 9 (.runtime (.runner 0 .proceed)),
    [.runtime (.boundaryRun (.returns true)), .runtime (.boundaryRun .proceed)],
    List.replicate 4 (.runtime (.runner 0 .proceed)),
    [.runtime (.cleanup .proceed), .runtime (.boundaryCloser .proceed),
      .runtime (.boundaryCloser (.returns true)), .runtime .boundaryWorkersStop],
    [.runtime (.cleanup .proceed), .runtime (.cleanup (.returns true)),
      .runtime (.cleanup .proceed), .runtime (.cleanup .proceed),
      .runtime (.cleanup (.returns true)), .runtime (.cleanup .proceed),
      .runtime (.cleanup .raises), .runtime (.cleanup (.returns true))],
    List.replicate 6 (.runtime (.cleanup .proceed)),
    List.replicate 3 (.runtime (.runner 0 .proceed)),
    [.runStep .proceed, .runStep .proceed, .runStep .timesOut]]

def withheldWorld : ApplicationWorld :=
  (((applicationSystem 1 true).restrict startsCleanup).exec
    { application := { services := 1 }, runtime := { runtime := { hasOnStop := true } } }
    withholdingRun).get (by decide +kernel)

theorem withheldWorld_unstopped :
    Unstopped withheldWorld.application.events withheldWorld := by
  refine ⟨rfl, by decide +kernel, by decide +kernel, by decide +kernel,
    by decide +kernel, by decide +kernel, by decide +kernel, ?_, ?_⟩
  · have ended : withheldWorld.runtime.runners = [.ended .returned] := by decide +kernel
    intro pc member
    rw [ended] at member
    exact .inl ⟨_, List.mem_singleton.mp member⟩
  · have silent : withheldWorld.runtime.closers = [] := by decide +kernel
    rw [silent]
    exact nofun

/-- A runtime whose worker could not be stopped keeps its resources, and the services that
use them are never stopped. -/
theorem unconditional_service_bracket_fails :
    ¬ ∀ (services : Nat) (hasOnStop : Bool) (world : ApplicationWorld),
      (applicationSystem services hasOnStop).ReachableBy
        (fun world label => startsCleanup world label = true) world →
      world.application.run = .returned →
      ∃ labels later, (applicationSystem services hasOnStop).exec world labels = some later ∧
        stopsCalled later.application.events =
          (startsReturned later.application.events).reverse := by
  intro claimed
  have reachable : (applicationSystem 1 true).ReachableBy
      (fun world label => startsCleanup world label = true) withheldWorld :=
    System.Reachable.restricted (System.Reachable.exec (.initial rfl) (Option.some_get _).symm)
  obtain ⟨labels, later, ran, stopped⟩ :=
    claimed 1 true withheldWorld reachable (by decide +kernel)
  have unstopped := System.exec_invariant withheldWorld_unstopped ran
    fun _ _ _ holds stepped => holds.step stepped
  have differ : stopsCalled withheldWorld.application.events ≠
      (startsReturned withheldWorld.application.events).reverse := by decide +kernel
  rw [unstopped.same] at stopped
  exact differ stopped

end StreamDockSdk.Runtime
