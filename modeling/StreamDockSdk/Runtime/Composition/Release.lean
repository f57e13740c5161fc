import StreamDockSdk.Runtime.Composition.Transition

namespace StreamDockSdk.Runtime

open Automaton

namespace ComposedStreamDockRuntime

variable {runtime before after : ComposedStreamDockRuntime}

/-- Everything that may use the application's resources has ended. -/
structure Quiescent (runtime : ComposedStreamDockRuntime) : Prop where
  closing : runtime.boundaryClosing = true
  boundary : runtime.boundaryWorkersStopped = true
  run : runtime.boundaryRun.active = false
  unfailed : runtime.failedWorkerStops = []
  workers : ∀ worker, runtime.settled worker = true

/-- The calls after `contexts.clear` returned and `next` actions were released. -/
def disappearances : Nat → List ReleaseCall
  | 0 => [.clearContexts]
  | next + 1 => .willDisappear next :: disappearances next

/-- The calls up to `_resources_released.set()`. -/
def Concluded (calls : List ReleaseCall) : Prop :=
  ∃ actions, calls = disappearances actions ∨ calls = .onStop :: disappearances actions

/-- The workers whose deferred stop comes before that of the given one. -/
def retried : RuntimeWorker → List RuntimeWorker
  | .scheduler => []
  | .sessionPump => [.scheduler]
  | .eventPump => [.sessionPump, .scheduler]

/-- What the cleanup thread has waited for, and called, at each of its stages. -/
def Reached (runtime : ComposedStreamDockRuntime) : Prop :=
  match runtime.cleanup with
  | .idle => True
  | .awaitingBoundaryRun => runtime.boundaryClosing = true ∧
      runtime.boundaryWorkersStopped = true ∧ runtime.calls = []
  | .checkingFailures => runtime.boundaryClosing = true ∧
      runtime.boundaryWorkersStopped = true ∧ runtime.boundaryRun.active = false ∧
      runtime.calls = []
  | .retrying worker => runtime.boundaryClosing = true ∧
      runtime.boundaryWorkersStopped = true ∧ runtime.boundaryRun.active = false ∧
      runtime.failedWorkerStops = [] ∧ (∀ other ∈ retried worker, runtime.settled other = true) ∧
      runtime.calls = []
  | .clearing => runtime.Quiescent ∧ runtime.calls = []
  | .releasing next _ => runtime.Quiescent ∧ runtime.calls = disappearances next
  | .stoppingPlugin => runtime.Quiescent ∧ ∃ actions, runtime.calls = disappearances actions
  | .settingReleased => runtime.Quiescent ∧ Concluded runtime.calls
  | .finishing | .finished => runtime.calls = [] ∨
      runtime.Quiescent ∧ ∃ earlier, Concluded earlier ∧ runtime.calls = .setReleased :: earlier
  | _ => runtime.calls = []

theorem setReleased_not_mem_disappearances (actions : Nat) :
    .setReleased ∉ disappearances actions := by
  induction actions with
  | zero => simp [disappearances]
  | succ actions ih => simp [disappearances, ih]

theorem Concluded.unreleased {calls : List ReleaseCall} (concluded : Concluded calls) :
    .setReleased ∉ calls := by
  obtain ⟨actions, rfl | rfl⟩ := concluded
  · exact setReleased_not_mem_disappearances actions
  · simp [setReleased_not_mem_disappearances]

/-- A step that neither stops a worker nor releases anything. -/
structure Undisturbed (before after : ComposedStreamDockRuntime) : Prop where
  cleanup : after.cleanup = before.cleanup
  calls : after.calls = before.calls
  failed : after.failedWorkerStops = before.failedWorkerStops
  attempted : after.attempted = before.attempted
  stopped : after.stopped = before.stopped
  closing : before.boundaryClosing = true → after.boundaryClosing = true
  boundary : before.boundaryWorkersStopped = true → after.boundaryWorkersStopped = true
  run : before.boundaryRun.active = false → after.boundaryRun.active = false

theorem Undisturbed.settled (same : Undisturbed before after) (worker : RuntimeWorker) :
    after.settled worker = before.settled worker := by
  rw [ComposedStreamDockRuntime.settled, ComposedStreamDockRuntime.settled, same.attempted,
    same.stopped]

theorem Quiescent.frame (quiescent : before.Quiescent) (same : Undisturbed before after) :
    after.Quiescent where
  closing := same.closing quiescent.closing
  boundary := same.boundary quiescent.boundary
  run := same.run quiescent.run
  unfailed := same.failed.trans quiescent.unfailed
  workers worker := (same.settled worker).trans (quiescent.workers worker)

theorem Reached.frame (reached : before.Reached) (same : Undisturbed before after) :
    after.Reached := by
  unfold Reached at reached ⊢
  rw [same.cleanup]
  split <;> simp only [*] at reached
  · trivial
  · exact ⟨same.closing reached.1, same.boundary reached.2.1, same.calls.trans reached.2.2⟩
  · exact ⟨same.closing reached.1, same.boundary reached.2.1, same.run reached.2.2.1,
      same.calls.trans reached.2.2.2⟩
  · obtain ⟨closing, boundary, run, failed, workers, calls⟩ := reached
    exact ⟨same.closing closing, same.boundary boundary, same.run run, same.failed.trans failed,
      fun other earlier => (same.settled other).trans (workers other earlier),
      same.calls.trans calls⟩
  · exact ⟨reached.1.frame same, same.calls.trans reached.2⟩
  · exact ⟨reached.1.frame same, same.calls.trans reached.2⟩
  · rw [same.calls]
    exact ⟨reached.1.frame same, reached.2⟩
  · rw [same.calls]
    exact ⟨reached.1.frame same, reached.2⟩
  · rw [same.calls]
    exact reached.imp_right fun both => ⟨both.1.frame same, both.2⟩
  · rw [same.calls]
    exact reached.imp_right fun both => ⟨both.1.frame same, both.2⟩
  · rw [same.calls]
    exact reached

/-- What a step of the cleanup thread leaves alone. -/
structure CleansBeside (before after : ComposedStreamDockRuntime) : Prop where
  state : after.state = before.state
  boundaryRun : after.boundaryRun = before.boundaryRun
  runComplete : after.boundaryRunComplete = before.boundaryRunComplete
  requested : after.shutdownRequested = before.shutdownRequested
  running : after.cleanup ≠ .idle

theorem ensureBoundaryClosed_beside (threadStarts : Bool) {next : CleanupPc}
    (running : next ≠ .idle) :
    CleansBeside runtime { runtime.ensureBoundaryClosed threadStarts with cleanup := next } := by
  unfold ensureBoundaryClosed
  split
  · exact ⟨rfl, rfl, rfl, rfl, running⟩
  · split <;> exact ⟨rfl, rfl, rfl, rfl, running⟩

theorem setReleased_beside {next : CleanupPc} (running : next ≠ .idle) :
    CleansBeside runtime { runtime.setReleased with cleanup := next } := by
  unfold setReleased
  split <;> exact ⟨rfl, rfl, rfl, rfl, running⟩

theorem Cleans.boundary {pc : CleanupPc} (cleans : Cleans runtime pc after) :
    after.boundaryWorkersStopped = runtime.boundaryWorkersStopped ∧
      after.boundaryClosing = runtime.boundaryClosing := by
  cases cleans with
  | ensure threadStarts =>
      unfold ensureBoundaryClosed
      split
      · exact ⟨rfl, rfl⟩
      · split <;> exact ⟨rfl, rfl⟩
  | release =>
      unfold setReleased
      split <;> exact ⟨rfl, rfl⟩
  | _ => exact ⟨rfl, rfl⟩

theorem Cleans.beside {pc : CleanupPc} (cleans : Cleans runtime pc after) :
    CleansBeside runtime after := by
  cases cleans with
  | ensure threadStarts => exact ensureBoundaryClosed_beside threadStarts (by simp)
  | stage stage =>
      refine ⟨rfl, rfl, rfl, rfl, ?_⟩
      cases stage with
      | unstopped worker => cases worker <;> simp [afterStop]
      | _ => simp
  | stop worker | failStop worker =>
      refine ⟨rfl, rfl, rfl, rfl, ?_⟩
      cases worker <;> simp [afterStop]
  | skip worker | retry worker =>
      refine ⟨rfl, rfl, rfl, rfl, ?_⟩
      cases worker <;> simp [afterRetry]
  | release => exact setReleased_beside (by simp)
  | _ => exact ⟨rfl, rfl, rfl, rfl, by simp⟩

/-- A step of the callers of `close`, of the boundary or of its closing thread. -/
structure Kept (before after : ComposedStreamDockRuntime) : Prop extends
    Undisturbed before after where
  state : after.state = before.state
  boundaryRun : after.boundaryRun = before.boundaryRun
  runComplete : after.boundaryRunComplete = before.boundaryRunComplete
  released : after.resourcesReleased = before.resourcesReleased
  requested : before.shutdownRequested = true → after.shutdownRequested = true
  closed : (before.boundaryWorkersStopped = true → before.boundaryClosing = true) →
    after.boundaryWorkersStopped = true → after.boundaryClosing = true

theorem Kept.refl (runtime : ComposedStreamDockRuntime) : Kept runtime runtime := by
  constructor
  · constructor <;> first | rfl | exact id
  all_goals first | rfl | exact id

theorem recordPrimaryFailure_kept (failure : RuntimeFailure) :
    Kept runtime (runtime.recordPrimaryFailure failure) := by
  constructor
  · constructor <;> first | rfl | exact id
  all_goals first | rfl | exact id | exact fun _ => rfl

theorem onFatalError_kept (failure : RuntimeFailure) :
    Kept runtime (runtime.onFatalError failure) :=
  recordPrimaryFailure_kept _

theorem ensureBoundaryClosed_kept (threadStarts : Bool) :
    Kept runtime (runtime.ensureBoundaryClosed threadStarts) := by
  unfold ensureBoundaryClosed
  split
  · exact .refl runtime
  split
  all_goals
    constructor
    · constructor <;> first | rfl | exact id
    all_goals first | rfl | exact id

theorem advanceBoundaryCloser_kept {pc : BoundaryClosePc} {move : RuntimeMove}
    (advanced : runtime.advanceBoundaryCloser pc move = some after) : Kept runtime after := by
  unfold advanceBoundaryCloser at advanced
  split at advanced
  all_goals
    first
      | contradiction
      | (cases advanced
         constructor
         · constructor <;> first | rfl | exact id | exact fun _ => rfl
         all_goals first | rfl | exact id | exact fun _ _ => rfl)

theorem settled_markStopped (worker : RuntimeWorker) :
    (runtime.markStopped worker).settled worker = true := by
  simp [settled, markStopped]

theorem settled_markStopped_mono (worker : RuntimeWorker) {other : RuntimeWorker}
    (settled : runtime.settled other = true) :
    (runtime.markStopped worker).settled other = true := by
  simp only [ComposedStreamDockRuntime.settled, markStopped, Bool.or_eq_true,
    Bool.not_eq_true'] at settled ⊢
  exact settled.imp_right .inr

/-- After the deferred stop of a worker every worker up to it has stopped. -/
theorem reached_afterRetry {worker : RuntimeWorker}
    (closing : runtime.boundaryClosing = true)
    (boundary : runtime.boundaryWorkersStopped = true) (run : runtime.boundaryRun.active = false)
    (unfailed : runtime.failedWorkerStops = [])
    (earlier : ∀ other ∈ retried worker, runtime.settled other = true)
    (mine : runtime.settled worker = true) (calls : runtime.calls = []) :
    Reached { runtime with cleanup := afterRetry worker } := by
  cases worker with
  | scheduler =>
      refine ⟨closing, boundary, run, unfailed, fun other member => ?_, calls⟩
      rw [List.mem_singleton.mp member]
      exact mine
  | sessionPump =>
      refine ⟨closing, boundary, run, unfailed, fun other member => ?_, calls⟩
      rcases List.mem_cons.mp member with rfl | member
      · exact mine
      · exact earlier other member
  | eventPump =>
      refine ⟨⟨closing, boundary, run, unfailed, fun other => ?_⟩, calls⟩
      cases other with
      | eventPump => exact mine
      | sessionPump => exact earlier _ (by simp [retried])
      | scheduler => exact earlier _ (by simp [retried])

/-- No stage before the calls of release makes one. -/
theorem Stage.reached {pc next : CleanupPc} (stage : Stage pc next) (at_ : runtime.cleanup = pc)
    (reached : runtime.Reached) : Reached { runtime with cleanup := next } := by
  have calls : runtime.calls = [] := by
    unfold Reached at reached
    cases stage <;> simpa only [at_] using reached
  cases stage with
  | unstopped worker => cases worker <;> exact calls
  | _ => exact calls

theorem Cleans.reached {pc : CleanupPc} (cleans : Cleans runtime pc after)
    (at_ : runtime.cleanup = pc) (reached : runtime.Reached)
    (closed : runtime.boundaryWorkersStopped = true → runtime.boundaryClosing = true)
    (active : runtime.boundaryRun.active = true → runtime.boundaryRunComplete = false)
    (flag : runtime.resourcesReleased = true ↔ .setReleased ∈ runtime.calls) : after.Reached := by
  cases cleans with
  | ensure threadStarts =>
      unfold Reached at reached ⊢
      simp only [at_] at reached
      simpa only [(ensureBoundaryClosed_kept threadStarts).calls] using reached
  | stage stage => exact stage.reached at_ reached
  | stop worker | failStop worker =>
      unfold Reached at reached
      simp only [at_] at reached
      cases worker <;> exact reached
  | decide complete =>
      unfold Reached at reached
      simp only [at_] at reached
      exact reached
  | boundaryWorkers stopped =>
      unfold Reached at reached
      simp only [at_] at reached
      exact ⟨closed stopped, stopped, reached⟩
  | boundaryRun complete =>
      unfold Reached at reached
      simp only [at_] at reached
      refine ⟨reached.1, reached.2.1, ?_, reached.2.2⟩
      rw [← Bool.not_eq_true]
      intro running
      rw [active running] at complete
      contradiction
  | unfailed unfailed =>
      unfold Reached at reached
      simp only [at_] at reached
      exact ⟨reached.1, reached.2.1, reached.2.2.1, unfailed, nofun, reached.2.2.2⟩
  | giveUp =>
      unfold Reached at reached
      simp only [at_] at reached
      exact .inl reached.2.2.2
  | skip worker settled =>
      unfold Reached at reached
      simp only [at_] at reached
      obtain ⟨closing, boundary, run, unfailed, earlier, calls⟩ := reached
      exact reached_afterRetry closing boundary run unfailed earlier settled calls
  | retry worker =>
      unfold Reached at reached
      simp only [at_] at reached
      obtain ⟨closing, boundary, run, unfailed, earlier, calls⟩ := reached
      exact (@reached_afterRetry (runtime.markStopped worker)) closing boundary run unfailed
        (fun other member => settled_markStopped_mono worker (earlier other member))
        (settled_markStopped worker) calls
  | retryFails worker | retryRaises worker =>
      unfold Reached at reached
      simp only [at_] at reached
      exact .inl reached.2.2.2.2.2
  | clear actions =>
      unfold Reached at reached
      simp only [at_] at reached
      refine ⟨⟨reached.1.closing, reached.1.boundary, reached.1.run, reached.1.unfailed,
        reached.1.workers⟩, ?_⟩
      simp only [reached.2, disappearances]
  | clearFails =>
      unfold Reached at reached
      simp only [at_] at reached
      refine ⟨⟨reached.1.closing, reached.1.boundary, reached.1.run, reached.1.unfailed,
        reached.1.workers⟩, 0, ?_⟩
      simp only [reached.2, disappearances]
  | disappear next actions =>
      unfold Reached at reached
      simp only [at_] at reached
      refine ⟨⟨reached.1.closing, reached.1.boundary, reached.1.run, reached.1.unfailed,
        reached.1.workers⟩, ?_⟩
      simp only [reached.2, disappearances]
  | disappeared next actions =>
      unfold Reached at reached
      simp only [at_] at reached
      exact ⟨⟨reached.1.closing, reached.1.boundary, reached.1.run, reached.1.unfailed,
        reached.1.workers⟩, next, reached.2⟩
  | onStop =>
      unfold Reached at reached
      simp only [at_] at reached
      obtain ⟨quiescent, actions, calls⟩ := reached
      refine ⟨⟨quiescent.closing, quiescent.boundary, quiescent.run, quiescent.unfailed,
        quiescent.workers⟩, actions, .inr ?_⟩
      simp only [calls]
  | noStop =>
      unfold Reached at reached
      simp only [at_] at reached
      obtain ⟨quiescent, actions, calls⟩ := reached
      exact ⟨⟨quiescent.closing, quiescent.boundary, quiescent.run, quiescent.unfailed,
        quiescent.workers⟩, actions, .inl calls⟩
  | release =>
      unfold Reached at reached
      simp only [at_] at reached
      obtain ⟨quiescent, concluded⟩ := reached
      have unset : ¬ runtime.resourcesReleased = true :=
        fun already => concluded.unreleased (flag.mp already)
      unfold setReleased
      rw [if_neg unset]
      exact .inr ⟨⟨quiescent.closing, quiescent.boundary, quiescent.run, quiescent.unfailed,
        quiescent.workers⟩, _, concluded, rfl⟩
  | finish =>
      unfold Reached at reached
      simp only [at_] at reached
      exact reached.imp_right fun both => ⟨⟨both.1.closing, both.1.boundary, both.1.run,
        both.1.unfailed, both.1.workers⟩, both.2⟩

theorem mem_calls_setReleased
    (flag : runtime.resourcesReleased = true ↔ .setReleased ∈ runtime.calls) :
    runtime.setReleased.resourcesReleased = true ∧ .setReleased ∈ runtime.setReleased.calls := by
  unfold setReleased
  split
  · next already => exact ⟨already, flag.mp already⟩
  · exact ⟨rfl, List.mem_cons_self⟩

theorem Cleans.flag {pc : CleanupPc} (cleans : Cleans runtime pc after)
    (flag : runtime.resourcesReleased = true ↔ .setReleased ∈ runtime.calls) :
    after.resourcesReleased = true ↔ .setReleased ∈ after.calls := by
  cases cleans with
  | ensure threadStarts =>
      have kept := (@ensureBoundaryClosed_kept runtime) threadStarts
      simpa only [kept.released, kept.calls] using flag
  | release =>
      have released := mem_calls_setReleased flag
      exact ⟨fun _ => released.2, fun _ => released.1⟩
  | clear | clearFails | disappear | onStop => simpa using flag
  | _ => exact flag

/-- What holds of the runtime while the call of `run_forever` that was let in is
at the given position. -/
structure RunFact (runtime : ComposedStreamDockRuntime) (pc : RunPc) : Prop where
  old : runtime.state ≠ .new
  idle : pc.prior = true → runtime.boundaryRun = .idle
  cleared : pc = .startingBoundary → runtime.boundaryRunComplete = false
  unlaunched : pc.late = false → runtime.cleanup = .idle

theorem RunFact.kept {pc : RunPc} (fact : RunFact before pc) (kept : Kept before after) :
    RunFact after pc where
  old := kept.state ▸ fact.old
  idle prior := kept.boundaryRun.trans (fact.idle prior)
  cleared starting := kept.runComplete.trans (fact.cleared starting)
  unlaunched early := kept.cleanup.trans (fact.unlaunched early)

end ComposedStreamDockRuntime

open ComposedStreamDockRuntime

/-- No call of `run_forever` was let in. -/
def Unrun (runners : List RunPc) : Prop :=
  ∀ pc ∈ runners, pc.entered = false

/-- At most one call was let in. -/
def Sole (runners : List RunPc) : Prop :=
  ∀ (first second : Nat) (pc other : RunPc), runners[first]? = some pc → pc.entered = true →
    runners[second]? = some other → other.entered = true → first = second

structure RuntimeSound (world : RuntimeWorld) : Prop where
  sole : Sole world.runners
  fresh : world.runtime.state = .new → Unrun world.runners
  runs : ∀ pc ∈ world.runners, pc.entered = true → world.runtime.RunFact pc
  unrun : ∀ pc ∈ world.closers, pc.beforeRun = true →
    world.runtime.shutdownRequested = true ∧ Unrun world.runners
  untouched : Unrun world.runners → world.runtime.attempted = (fun _ => false) ∧
    world.runtime.boundaryRun = .idle ∧ world.runtime.cleanup = .idle ∧
    world.runtime.failedWorkerStops = []
  active : world.runtime.boundaryRun.active = true → world.runtime.boundaryRunComplete = false
  closed : world.runtime.boundaryWorkersStopped = true → world.runtime.boundaryClosing = true
  reached : world.runtime.Reached
  early : world.runtime.cleanup = .idle → world.runtime.calls = [] ∨
    world.runtime.calls = [.setReleased] ∧ world.runtime.shutdownRequested = true ∧
      Unrun world.runners
  flag : world.runtime.resourcesReleased = true ↔ .setReleased ∈ world.runtime.calls

namespace RuntimeSound

variable {world : RuntimeWorld} {runtime : ComposedStreamDockRuntime}

/-- Other calls of `run_forever` stay outside when one of them moves. -/
theorem alone (sound : RuntimeSound world) {index : Nat} {pc next : RunPc}
    (found : world.runners[index]? = some pc)
    (inside : pc.entered = true ∨ world.runtime.state = .new) :
    ∀ other ∈ world.runners.set index next, other.entered = true → other = next := by
  intro other member entered
  obtain ⟨position, located⟩ := List.mem_iff_getElem?.mp member
  rw [getElem?_set_found found] at located
  split at located
  · exact (Option.some.inj located).symm
  · next elsewhere =>
    rcases inside with mine | state
    · exact absurd (sound.sole position index other pc located entered found mine) elsewhere
    · have outside := sound.fresh state other (List.mem_of_getElem? located)
      rw [entered] at outside
      contradiction

/-- A step of the call of `run_forever` that is let in. -/
theorem ran (sound : RuntimeSound world) {index : Nat} {pc next : RunPc}
    (found : world.runners[index]? = some pc)
    (inside : pc.entered = true ∨
      world.runtime.state = .new ∧ world.runtime.shutdownRequested = false)
    (entered : next.entered = true) (fact : runtime.RunFact next)
    (active : runtime.boundaryRun.active = true → runtime.boundaryRunComplete = false)
    (same : Undisturbed world.runtime runtime ∨ world.runtime.cleanup = .idle ∧
      (runtime.cleanup = .idle ∨ runtime.cleanup = .ensuring))
    (beside : runtime.calls = world.runtime.calls ∧
      runtime.resourcesReleased = world.runtime.resourcesReleased ∧
      runtime.boundaryWorkersStopped = world.runtime.boundaryWorkersStopped ∧
      runtime.boundaryClosing = world.runtime.boundaryClosing) :
    RuntimeSound { world with runtime, runners := world.runners.set index next } := by
  obtain ⟨calls, released, boundary, closing⟩ := beside
  have alone := @RuntimeSound.alone _ sound _ _ next found (inside.imp_right (·.1))
  have bound : index < world.runners.length := (List.getElem?_eq_some_iff.mp found).1
  have present : next ∈ world.runners.set index next := List.mem_iff_getElem?.mpr ⟨index, by simp [bound]⟩
  have unsilent : world.runtime.cleanup = .idle → world.runtime.calls = [] := by
    intro idle
    rcases sound.early idle with empty | ⟨_, requested, unrun⟩
    · exact empty
    · rcases inside with mine | ⟨_, running⟩
      · rw [unrun pc (List.mem_of_getElem? found)] at mine
        contradiction
      · rw [requested] at running
        contradiction
  constructor
  · intro first second one other first_found one_entered second_found other_entered
    rw [getElem?_set_found found] at first_found second_found
    have mine {position : Nat} {one : RunPc}
        (located : (if position = index then some next else world.runners[position]?) = some one)
        (one_entered : one.entered = true) : position = index := by
      by_contra elsewhere
      rw [if_neg elsewhere] at located
      rcases inside with mine | ⟨state, _⟩
      · exact elsewhere (sound.sole position index one pc located one_entered found mine)
      · have outside := sound.fresh state one (List.mem_of_getElem? located)
        rw [one_entered] at outside
        contradiction
    exact (mine first_found one_entered).trans (mine second_found other_entered).symm
  · intro state
    exact absurd state fact.old
  · intro other member other_entered
    rw [alone other member other_entered]
    exact fact
  · intro closer member before
    obtain ⟨requested, unrun⟩ := sound.unrun closer member before
    rcases inside with mine | ⟨_, running⟩
    · rw [unrun pc (List.mem_of_getElem? found)] at mine
      contradiction
    · rw [requested] at running
      contradiction
  · intro unrun
    rw [unrun next present] at entered
    contradiction
  · exact active
  · dsimp only
    rw [boundary, closing]
    exact sound.closed
  · rcases same with same | ⟨idle, still | launched⟩
    · exact sound.reached.frame same
    · unfold Reached
      simp only [still]
    · unfold Reached
      simp only [launched, calls, unsilent idle]
  · intro idle
    rcases same with same | ⟨was_idle, _⟩
    · exact .inl (calls.trans (unsilent (same.cleanup.symm.trans idle)))
    · exact .inl (calls.trans (unsilent was_idle))
  · dsimp only
    rw [released, calls]
    exact sound.flag

/-- A call of `run_forever` that is rejected leaves no trace. -/
theorem rejected (sound : RuntimeSound world) {index : Nat}
    (found : world.runners[index]? = some .entering) :
    RuntimeSound { world with runners := world.runners.set index .rejected } := by
  have same : ∀ other ∈ world.runners.set index .rejected,
      other.entered = true → other ∈ world.runners := by
    intro other member entered
    rcases List.mem_or_eq_of_mem_set member with kept | rfl
    · exact kept
    · contradiction
  have unrun : Unrun (world.runners.set index .rejected) → Unrun world.runners := by
    intro outside other member
    obtain ⟨position, located⟩ := List.mem_iff_getElem?.mp member
    by_cases here : position = index
    · subst here
      rw [found, Option.some.injEq] at located
      exact located ▸ rfl
    · refine outside other (List.mem_iff_getElem?.mpr ⟨position, ?_⟩)
      rwa [getElem?_set_found found, if_neg here]
  have rerun (outside : Unrun world.runners) :
      Unrun (world.runners.set index .rejected) := by
    intro other member
    rcases List.mem_or_eq_of_mem_set member with kept | rfl
    · exact outside other kept
    · rfl
  constructor
  · intro first second one other first_found one_entered second_found other_entered
    have old {position : Nat} {one : RunPc}
        (located : (world.runners.set index .rejected)[position]? = some one)
        (one_entered : one.entered = true) : world.runners[position]? = some one := by
      rw [getElem?_set_found found] at located
      split at located
      · cases located
        contradiction
      · exact located
    exact sound.sole first second one other (old first_found one_entered) one_entered
      (old second_found other_entered) other_entered
  · exact fun state => rerun (sound.fresh state)
  · exact fun other member entered => sound.runs other (same other member entered) entered
  · exact fun closer member before => (sound.unrun closer member before).imp_right rerun
  · exact fun outside => sound.untouched (unrun outside)
  · exact sound.active
  · exact sound.closed
  · exact sound.reached
  · exact fun idle => (sound.early idle).imp_right fun both => ⟨both.1, both.2.1, rerun both.2.2⟩
  · exact sound.flag

/-- A step of `run_forever`. -/
theorem run (sound : RuntimeSound world) {index : Nat} {pc : RunPc}
    {result : ComposedStreamDockRuntime × RunPc} (found : world.runners[index]? = some pc)
    (runs : Runs world.runtime pc result) :
    RuntimeSound { world with
      runtime := result.1, runners := world.runners.set index result.2 } := by
  have fact := sound.runs pc (List.mem_of_getElem? found)
  cases runs with
  | reject refused => exact sound.rejected found
  | enter state running =>
      have untouched := sound.untouched (sound.fresh state)
      refine sound.ran found (.inr ⟨state, running⟩) rfl ⟨by simp, fun _ => untouched.2.1, by simp,
        fun _ => untouched.2.2.1⟩ sound.active (.inr ⟨untouched.2.2.1, .inl untouched.2.2.1⟩) ⟨rfl, rfl, rfl, rfl⟩
  | @moves pc next moves =>
      have entered : pc.entered = true := by cases moves <;> rfl
      have fact := fact entered
      refine sound.ran found (.inl entered) ?_ ⟨fact.old, ?_, ?_, ?_⟩ sound.active
        (.inl (Kept.refl _).toUndisturbed) ⟨rfl, rfl, rfl, rfl⟩
      · cases moves with
        | skip worker => cases worker <;> rfl
        | _ => rfl
      · intro prior
        refine fact.idle ?_
        cases moves <;> first | rfl | contradiction
      · intro starting
        cases moves with
        | skip worker => cases worker <;> contradiction
        | _ => contradiction
      · intro early
        refine fact.unlaunched ?_
        cases moves <;> first | rfl | contradiction
  | start worker =>
      have fact := fact rfl
      refine sound.ran found (.inl rfl) ?_ ⟨fact.old, fun _ => fact.idle rfl, ?_,
        fun _ => fact.unlaunched rfl⟩ sound.active
        (.inr ⟨fact.unlaunched rfl, .inl (fact.unlaunched rfl)⟩) ⟨rfl, rfl, rfl, rfl⟩
      · cases worker <;> rfl
      · cases worker <;> exact nofun
  | announce running allowed =>
      have fact := fact rfl
      refine sound.ran found (.inl rfl) rfl ⟨?_, fun _ => fact.idle rfl, nofun,
        fun _ => fact.unlaunched rfl⟩ sound.active
        (.inr ⟨fact.unlaunched rfl, .inl (fact.unlaunched rfl)⟩) ⟨rfl, rfl, rfl, rfl⟩
      simp [(transitionRuntimeState_eq allowed).1]
  | clear running =>
      have fact := fact rfl
      refine sound.ran found (.inl rfl) rfl ⟨fact.old, fun _ => fact.idle rfl, fun _ => rfl,
        fun _ => fact.unlaunched rfl⟩ (fun _ => rfl)
        (.inr ⟨fact.unlaunched rfl, .inl (fact.unlaunched rfl)⟩) ⟨rfl, rfl, rfl, rfl⟩
  | startBoundary =>
      have fact := fact rfl
      refine sound.ran found (.inl rfl) rfl ⟨fact.old, nofun, nofun,
        fun _ => fact.unlaunched rfl⟩ (fun _ => fact.cleared rfl)
        (.inr ⟨fact.unlaunched rfl, .inl (fact.unlaunched rfl)⟩) ⟨rfl, rfl, rfl, rfl⟩
  | failBoundary outcome =>
      have fact := fact rfl
      have idle := fact.idle rfl
      rcases outcome with rfl | rfl
      all_goals
        refine sound.ran found (.inl rfl) rfl ⟨fact.old, nofun, nofun,
          fun _ => fact.unlaunched rfl⟩ ?_
          (.inr ⟨fact.unlaunched rfl, .inl (fact.unlaunched rfl)⟩) ⟨rfl, rfl, rfl, rfl⟩
        intro active
        simp only [idle, BoundaryRunPc.active] at active
        contradiction
  | record =>
      have fact := fact rfl
      exact sound.ran found (.inl rfl) rfl ⟨fact.old, nofun, nofun,
        fun _ => fact.unlaunched rfl⟩ sound.active
        (.inl (recordPrimaryFailure_kept _).toUndisturbed) ⟨rfl, rfl, rfl, rfl⟩
  | finalize interrupted state =>
      have fact := fact rfl
      refine sound.ran found (.inl rfl) rfl ⟨?_, nofun, nofun,
        fun _ => fact.unlaunched rfl⟩ sound.active
        (.inr ⟨fact.unlaunched rfl, .inl (fact.unlaunched rfl)⟩) ⟨rfl, rfl, rfl, rfl⟩
      rcases state with ⟨_, rfl⟩ | ⟨_, rfl⟩
      · simp
      · exact fact.old
  | launch interrupted =>
      have fact := fact rfl
      exact sound.ran found (.inl rfl) rfl ⟨fact.old, nofun, nofun, nofun⟩ sound.active
        (.inr ⟨fact.unlaunched rfl, .inr rfl⟩) ⟨rfl, rfl, rfl, rfl⟩
  | conclude interrupted allowed outcome =>
      have fact := fact rfl
      refine sound.ran found (.inl rfl) rfl ⟨?_, nofun, nofun, nofun⟩ sound.active
        (.inl (by constructor <;> first | rfl | exact id)) ⟨rfl, rfl, rfl, rfl⟩
      rw [(transitionRuntimeState_eq allowed).1]
      split <;> simp
  | misconclude interrupted refused =>
      have fact := fact rfl
      exact sound.ran found (.inl rfl) rfl ⟨fact.old, nofun, nofun, nofun⟩ sound.active
        (.inl (by constructor <;> first | rfl | exact id)) ⟨rfl, rfl, rfl, rfl⟩
  | settle outcome =>
      have fact := fact rfl
      exact sound.ran found (.inl rfl) rfl ⟨fact.old, nofun, nofun, nofun⟩ sound.active
        (.inl (by constructor <;> first | rfl | exact id)) ⟨rfl, rfl, rfl, rfl⟩

/-- A step that leaves the calls of `run_forever` and the cleanup thread alone. -/
theorem kept (sound : RuntimeSound world) (kept : Kept world.runtime runtime)
    {closers : List ClosePc}
    (unrun : ∀ pc ∈ closers, pc.beforeRun = true →
      runtime.shutdownRequested = true ∧ Unrun world.runners) :
    RuntimeSound { world with runtime, closers } where
  sole := sound.sole
  fresh state := sound.fresh (kept.state ▸ state)
  runs pc member entered := (sound.runs pc member entered).kept kept
  unrun := unrun
  untouched outside := by
    obtain ⟨attempted, idle, cleanup, failed⟩ := sound.untouched outside
    exact ⟨kept.attempted.trans attempted, kept.boundaryRun.trans idle,
      kept.cleanup.trans cleanup, kept.failed.trans failed⟩
  active active := kept.runComplete.trans (sound.active (kept.boundaryRun ▸ active))
  closed := kept.closed sound.closed
  reached := sound.reached.frame kept.toUndisturbed
  early idle := by
    dsimp only
    rw [kept.calls]
    exact (sound.early (kept.cleanup.symm.trans idle)).imp_right fun both =>
      ⟨both.1, kept.requested both.2.1, both.2.2⟩
  flag := by
    dsimp only
    rw [kept.calls, kept.released]
    exact sound.flag

theorem unrun_set (sound : RuntimeSound world) (requested : world.runtime.shutdownRequested = true →
      runtime.shutdownRequested = true) {index : Nat} {next : ClosePc}
    (moved : next.beforeRun = true →
      runtime.shutdownRequested = true ∧ Unrun world.runners) :
    ∀ pc ∈ world.closers.set index next, pc.beforeRun = true →
      runtime.shutdownRequested = true ∧ Unrun world.runners := by
  intro pc member before
  rcases List.mem_or_eq_of_mem_set member with old | rfl
  · exact (sound.unrun pc old before).imp_left requested
  · exact moved before

/-- A step of `close` or of `_on_fatal_error`. -/
theorem close (sound : RuntimeSound world) {index : Nat} {pc : ClosePc}
    {result : ComposedStreamDockRuntime × ClosePc} (found : world.closers[index]? = some pc)
    (closes : Closes world.runtime pc result) :
    RuntimeSound { world with
      runtime := result.1, closers := world.closers.set index result.2 } := by
  have unrun := sound.unrun pc (List.mem_of_getElem? found)
  cases closes with
  | record failure =>
      have same := (@onFatalError_kept world.runtime) failure
      exact sound.kept same (sound.unrun_set same.requested nofun)
  | late => exact sound.kept (.refl _) (sound.unrun_set id nofun)
  | request fromWorker isOver =>
      have same : Kept world.runtime { world.runtime with shutdownRequested := true } := by
        constructor
        · constructor <;> first | rfl | exact id
        all_goals first | rfl | exact id | exact fun _ => rfl
      refine sound.kept same (sound.unrun_set same.requested fun before => ⟨rfl, ?_⟩)
      exact sound.fresh (by simpa [ClosePc.beforeRun] using before)
  | ensure beforeRun nonblocking threadStarts =>
      have same := (@ensureBoundaryClosed_kept world.runtime) threadStarts
      refine sound.kept same (sound.unrun_set same.requested fun before => ?_)
      cases nonblocking with
      | true => contradiction
      | false => exact (unrun before).imp_left same.requested
  | waited beforeRun =>
      refine sound.kept (.refl _) (sound.unrun_set id fun before => unrun ?_)
      cases beforeRun with
      | true => rfl
      | false => contradiction
  | waitedAgain => exact sound.kept (.refl _) (sound.unrun_set id fun _ => unrun rfl)
  | settle =>
      obtain ⟨requested, outside⟩ := unrun rfl
      have same : (world.runtime.settleUnrun.shutdownRequested = true) ∧
          Undisturbed world.runtime world.runtime.settleUnrun := by
        unfold settleUnrun
        split
        · exact ⟨requested, by constructor <;> first | rfl | exact id⟩
        · exact ⟨requested, (Kept.refl _).toUndisturbed⟩
      have idle := sound.untouched outside
      have runs : world.runtime.settleUnrun.boundaryRun = world.runtime.boundaryRun ∧
          world.runtime.settleUnrun.resourcesReleased = world.runtime.resourcesReleased ∧
          world.runtime.settleUnrun.boundaryWorkersStopped =
            world.runtime.boundaryWorkersStopped ∧
          world.runtime.settleUnrun.boundaryClosing = world.runtime.boundaryClosing := by
        unfold settleUnrun
        split <;> exact ⟨rfl, rfl, rfl, rfl⟩
      constructor
      · exact sound.sole
      · exact fun _ => outside
      · intro other member entered
        rw [outside other member] at entered
        contradiction
      · exact sound.unrun_set (fun _ => same.1) fun _ => ⟨same.1, outside⟩
      · exact fun _ => ⟨same.2.attempted.trans idle.1, runs.1.trans idle.2.1,
          same.2.cleanup.trans idle.2.2.1, same.2.failed.trans idle.2.2.2⟩
      · intro active
        simp only [runs.1, idle.2.1, BoundaryRunPc.active] at active
        contradiction
      · dsimp only
        rw [runs.2.2.1, runs.2.2.2]
        exact sound.closed
      · exact sound.reached.frame same.2
      · intro _
        dsimp only
        rw [same.2.calls]
        exact (sound.early idle.2.2.1).imp_right fun both => ⟨both.1, same.1, outside⟩
      · dsimp only
        rw [same.2.calls, runs.2.1]
        exact sound.flag
  | release =>
      obtain ⟨requested, outside⟩ := unrun rfl
      have idle := sound.untouched outside
      have released := mem_calls_setReleased sound.flag
      have same : world.runtime.setReleased = { world.runtime with
          resourcesReleased := world.runtime.setReleased.resourcesReleased
          calls := world.runtime.setReleased.calls } := by
        unfold setReleased
        split <;> rfl
      have calls : world.runtime.setReleased.calls = [.setReleased] := by
        unfold setReleased
        split
        · next already =>
          rcases sound.early idle.2.2.1 with empty | once
          · have present := sound.flag.mp already
            rw [empty] at present
            contradiction
          · exact once.1
        · next unset =>
          rcases sound.early idle.2.2.1 with empty | once
          · simp [empty]
          · exact absurd (sound.flag.mpr (by simp [once.1])) unset
      rw [same]
      constructor
      · exact sound.sole
      · exact sound.fresh
      · intro other member entered
        rw [outside other member] at entered
        contradiction
      · exact sound.unrun_set id fun _ => ⟨requested, outside⟩
      · exact sound.untouched
      · exact sound.active
      · exact sound.closed
      · unfold Reached
        simp only [idle.2.2.1]
      · exact fun _ => .inr ⟨calls, requested, outside⟩
      · exact ⟨fun _ => released.2, fun _ => released.1⟩
  | announce =>
      have same : Kept world.runtime { world.runtime with terminal := true } := by
        constructor
        · constructor <;> first | rfl | exact id
        all_goals first | rfl | exact id
      exact sound.kept same (sound.unrun_set id nofun)
  | leave => exact sound.kept (.refl _) (sound.unrun_set id nofun)

/-- The boundary's run has begun, so a call of `run_forever` was let in. -/
theorem boundaryRun (sound : RuntimeSound world) {move : RuntimeMove}
    (advanced : world.runtime.advanceBoundaryRun world.runtime.boundaryRun move = some runtime) :
    RuntimeSound { world with runtime } := by
  have active : world.runtime.boundaryRun.active = true := by
    unfold advanceBoundaryRun at advanced
    split at advanced <;> first | contradiction | (next state => rw [state]; rfl)
  have incomplete := sound.active active
  have started : world.runtime.boundaryRun ≠ .idle := by
    intro idle
    rw [idle] at active
    contradiction
  have same : Undisturbed world.runtime runtime ∧ runtime.state = world.runtime.state ∧
      runtime.resourcesReleased = world.runtime.resourcesReleased ∧
      (world.runtime.shutdownRequested = true → runtime.shutdownRequested = true) ∧
      (runtime.boundaryRun.active = true → runtime.boundaryRunComplete = false) ∧
      (runtime.boundaryWorkersStopped = true → runtime.boundaryClosing = true) := by
    have stays {after : ComposedStreamDockRuntime} {pc : BoundaryRunPc}
        (kept : Kept world.runtime after) :
        Undisturbed world.runtime { after with boundaryRun := pc } ∧
          after.state = world.runtime.state ∧
          after.resourcesReleased = world.runtime.resourcesReleased ∧
          (world.runtime.shutdownRequested = true → after.shutdownRequested = true) ∧
          (pc.active = true → after.boundaryRunComplete = false) ∧
          (after.boundaryWorkersStopped = true → after.boundaryClosing = true) := by
      refine ⟨⟨kept.cleanup, kept.calls, kept.failed, kept.attempted, kept.stopped, kept.closing,
        kept.boundary, ?_⟩, kept.state, kept.released, kept.requested,
        fun _ => kept.runComplete.trans incomplete, kept.closed sound.closed⟩
      rw [active]
      exact nofun
    unfold advanceBoundaryRun at advanced
    split at advanced
    all_goals first | contradiction | cases advanced
    · exact stays (.refl _)
    · exact stays (.refl _)
    · exact stays (.refl _)
    · exact stays (.refl _)
    · exact stays (onFatalError_kept _)
    · exact stays (ensureBoundaryClosed_kept _)
    · exact stays (ensureBoundaryClosed_kept _)
    · refine ⟨⟨rfl, rfl, rfl, rfl, rfl, id, id, fun _ => rfl⟩, rfl, rfl, id, nofun,
        sound.closed⟩
  obtain ⟨undisturbed, state, released, requested, completes, closed⟩ := same
  constructor
  · exact sound.sole
  · exact fun fresh => sound.fresh (state ▸ fresh)
  · intro pc member entered
    have fact := sound.runs pc member entered
    have past : pc.prior = false := by
      rw [← Bool.not_eq_true]
      exact fun prior => started (fact.idle prior)
    refine ⟨state ▸ fact.old, fun prior => by rw [past] at prior; contradiction, ?_,
      fun early => undisturbed.cleanup.trans (fact.unlaunched early)⟩
    rintro rfl
    contradiction
  · exact fun pc member before => (sound.unrun pc member before).imp_left requested
  · exact fun outside => absurd (sound.untouched outside).2.1 started
  · exact completes
  · exact closed
  · exact sound.reached.frame undisturbed
  · intro idle
    dsimp only
    rw [undisturbed.calls]
    exact (sound.early (undisturbed.cleanup.symm.trans idle)).imp_right fun both =>
      ⟨both.1, requested both.2.1, both.2.2⟩
  · dsimp only
    rw [undisturbed.calls, released]
    exact sound.flag

/-- The cleanup thread runs, so the call of `run_forever` that was let in has started it. -/
theorem cleanup (sound : RuntimeSound world)
    (cleans : Cleans world.runtime world.runtime.cleanup runtime) :
    RuntimeSound { world with runtime } := by
  have running : world.runtime.cleanup ≠ .idle := by
    intro idle
    rw [idle] at cleans
    cases cleans with
    | stage stage => cases stage
  have beside := cleans.beside
  have closed : runtime.boundaryWorkersStopped = world.runtime.boundaryWorkersStopped ∧
      runtime.boundaryClosing = world.runtime.boundaryClosing := cleans.boundary
  constructor
  · exact sound.sole
  · exact fun state => sound.fresh (beside.state ▸ state)
  · intro pc member entered
    have fact := sound.runs pc member entered
    have late : pc.late = true := by
      rw [← Bool.not_eq_false]
      exact fun early => running (fact.unlaunched early)
    refine ⟨beside.state ▸ fact.old, fun prior => beside.boundaryRun.trans (fact.idle prior),
      fun starting => beside.runComplete.trans (fact.cleared starting), fun early => ?_⟩
    rw [late] at early
    contradiction
  · intro pc member before
    rw [beside.requested]
    exact sound.unrun pc member before
  · exact fun outside => absurd (sound.untouched outside).2.2.1 running
  · rw [beside.boundaryRun, beside.runComplete]
    exact sound.active
  · rw [closed.1, closed.2]
    exact sound.closed
  · exact cleans.reached rfl sound.reached sound.closed sound.active sound.flag
  · exact fun idle => absurd idle beside.running
  · exact cleans.flag sound.flag

theorem call (sound : RuntimeSound world) :
    RuntimeSound { world with runners := world.runners ++ [.entering] } := by
  have outside {pc : RunPc} (member : pc ∈ world.runners ++ [.entering])
      (entered : pc.entered = true) : pc ∈ world.runners := by
    rcases List.mem_append.mp member with old | added
    · exact old
    · rw [List.mem_singleton.mp added] at entered
      contradiction
  have unrun (holds : Unrun world.runners) : Unrun (world.runners ++ [.entering]) := by
    intro pc member
    rcases List.mem_append.mp member with old | added
    · exact holds pc old
    · rw [List.mem_singleton.mp added]
      rfl
  constructor
  · intro first second pc other first_found pc_entered second_found other_entered
    have old {position : Nat} {pc : RunPc}
        (located : (world.runners ++ [.entering])[position]? = some pc)
        (entered : pc.entered = true) : world.runners[position]? = some pc := by
      by_cases within : position < world.runners.length
      · rwa [List.getElem?_append_left within] at located
      · rw [List.getElem?_append_right (by omega)] at located
        rw [List.mem_singleton.mp (List.mem_of_getElem? located)] at entered
        contradiction
    exact sound.sole first second pc other (old first_found pc_entered) pc_entered
      (old second_found other_entered) other_entered
  · exact fun state => unrun (sound.fresh state)
  · exact fun pc member entered => sound.runs pc (outside member entered) entered
  · exact fun pc member before => (sound.unrun pc member before).imp_right unrun
  · exact fun holds => sound.untouched fun pc member =>
      holds pc (List.mem_append_left _ member)
  · exact sound.active
  · exact sound.closed
  · exact sound.reached
  · exact fun idle => (sound.early idle).imp_right fun both => ⟨both.1, both.2.1, unrun both.2.2⟩
  · exact sound.flag

theorem spawn (sound : RuntimeSound world) {pc : ClosePc} (fresh : pc.beforeRun = false) :
    RuntimeSound { world with closers := world.closers ++ [pc] } := by
  refine sound.kept (.refl _) fun other member before => ?_
  rcases List.mem_append.mp member with old | added
  · exact sound.unrun other old before
  · rw [List.mem_singleton.mp added, fresh] at before
    contradiction

theorem step {after : RuntimeWorld} {label : RuntimeLabel} (sound : RuntimeSound world)
    (stepped : world.step label = some after) : RuntimeSound after := by
  have calm {runtime : ComposedStreamDockRuntime} (same : Kept world.runtime runtime) :
      RuntimeSound { world with runtime } :=
    sound.kept same fun pc member before => (sound.unrun pc member before).imp_left same.requested
  cases label with
  | run =>
      cases stepped
      exact sound.call
  | runner index move =>
      simp only [RuntimeWorld.step] at stepped
      split at stepped
      · contradiction
      · next found =>
        simp only [Option.map_eq_some_iff] at stepped
        obtain ⟨result, advanced, rfl⟩ := stepped
        exact sound.run found (advanceRun_cases advanced)
  | close fromWorker =>
      cases stepped
      exact sound.spawn rfl
  | fatal failure =>
      cases stepped
      exact sound.spawn rfl
  | closer index move =>
      simp only [RuntimeWorld.step] at stepped
      split at stepped
      · contradiction
      · next found =>
        simp only [Option.map_eq_some_iff] at stepped
        obtain ⟨result, advanced, rfl⟩ := stepped
        exact sound.close found (advanceClose_cases advanced)
  | share failure =>
      cases stepped
      refine calm ?_
      constructor
      · constructor <;> first | rfl | exact id
      all_goals first | rfl | exact id
  | boundaryCloser move =>
      simp only [RuntimeWorld.step, Option.map_eq_some_iff] at stepped
      obtain ⟨runtime, advanced, rfl⟩ := stepped
      exact calm (advanceBoundaryCloser_kept advanced)
  | boundaryRun move =>
      simp only [RuntimeWorld.step, Option.map_eq_some_iff] at stepped
      obtain ⟨runtime, advanced, rfl⟩ := stepped
      exact sound.boundaryRun advanced
  | cleanup move =>
      simp only [RuntimeWorld.step, Option.map_eq_some_iff] at stepped
      obtain ⟨runtime, advanced, rfl⟩ := stepped
      exact sound.cleanup (advanceCleanup_cases advanced)
  | boundaryCloses =>
      cases stepped
      refine calm ?_
      constructor
      · constructor <;> first | rfl | exact id | exact fun _ => rfl
      all_goals first | rfl | exact id | exact fun _ _ => rfl
  | boundaryWorkersStop =>
      simp only [RuntimeWorld.step] at stepped
      split at stepped
      · next closing =>
        cases stepped
        refine calm ?_
        constructor
        · constructor <;> first | rfl | exact id | exact fun _ => rfl
        all_goals first | rfl | exact id | exact fun _ _ => closing
      · contradiction

end RuntimeSound

theorem runtimeSound {hasOnStop : Bool} {world : RuntimeWorld}
    (reachable : (runtimeSystem hasOnStop).Reachable world) : RuntimeSound world := by
  refine reachable.invariant ?_ fun _ _ _ sound stepped => sound.step stepped
  rintro _ rfl
  constructor <;> simp [Sole, Unrun, BoundaryRunPc.active, Reached]

end StreamDockSdk.Runtime
