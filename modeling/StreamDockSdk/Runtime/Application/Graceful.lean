import StreamDockSdk.Runtime.Application.HandOver

namespace StreamDockSdk.Runtime

open Automaton ComposedStreamDockRuntime

/-- The services, the plugin, the workers and the boundary do not fail, and every
thread can be started.  A boundary that `close` has reached may refuse to run. -/
def graceful (world : ApplicationWorld) : ApplicationLabel → Bool
  | .run | .stop | .stopper _ _ => true
  | .runStep move | .serviceCleanup move => move != .raises && move != .interrupts
  | .runtime (.boundaryRun .raises) =>
      world.runtime.runtime.boundaryCloser == .closing ||
        world.runtime.runtime.boundaryCloser == .finished
  | .runtime (.boundaryRun _) => true
  | .runtime (.runner _ move) | .runtime (.closer _ move) => move != .raises && move != .interrupts
  | .runtime (.boundaryCloser move) | .runtime (.cleanup move) => move != .raises
  | .runtime .boundaryCloses | .runtime .boundaryWorkersStop => true
  | .runtime (.run) | .runtime (.close _) | .runtime (.fatal _) | .runtime (.share _) => false

/-- When `run_forever` makes its single-run check, no `stop` has reached the runtime. -/
def handsOverInTime (world : ApplicationWorld) : ApplicationLabel → Bool
  | .runtime (.runner index .proceed) =>
      world.runtime.runners[index]? != some .entering || !world.runtime.runtime.shutdownRequested
  | _ => true

theorem handsOverInTime_entering {world : ApplicationWorld} {index : Nat}
    (found : world.runtime.runners[index]? = some .entering) :
    handsOverInTime world (.runtime (.runner index .proceed)) =
      !world.runtime.runtime.shutdownRequested := by
  simp [handsOverInTime, found]

namespace RunPc

/-- The call of `run_forever` meets no error, and the runtime follows it. -/
def Follows (runtime : ComposedStreamDockRuntime) : RunPc → Prop
  | .entering => True
  | .startingScheduler | .checking _ | .starting _ | .announcing => runtime.state = .starting
  | .checkingBoundary | .startingBoundary | .finalizing false =>
      runtime.state = .starting ∨ runtime.state = .running
  | .waiting | .awaitingBoundary => (runtime.state = .starting ∨ runtime.state = .running) ∧
      (runtime.boundaryRunComplete = true ∨ runtime.boundaryRun.active = true)
  | .launchingCleanup false | .awaitingCleanup false | .concluding false =>
      runtime.state = .stopping ∧ runtime.shutdownRequested = true
  | .settling .returned | .ended .returned => runtime.state = .stopped
  | _ => False

theorem Follows.kept {before after : ComposedStreamDockRuntime} {pc : RunPc}
    (follows : pc.Follows before) (state : after.state = before.state)
    (requested : before.shutdownRequested = true → after.shutdownRequested = true)
    (supervised : before.boundaryRunComplete = true ∨ before.boundaryRun.active = true →
      after.boundaryRunComplete = true ∨ after.boundaryRun.active = true) :
    pc.Follows after := by
  unfold Follows at follows
  rw [← state] at follows
  split at follows <;>
    first
      | exact follows.elim
      | exact follows
      | exact And.imp_right requested follows
      | exact And.imp_right supervised follows

/-- A call of `run_forever` that ended returned. -/
theorem Follows.returned {runtime : ComposedStreamDockRuntime} {pc : RunPc}
    (follows : pc.Follows runtime) {error : Option ApplicationError}
    (ended : pc.error? = some error) : error = none := by
  unfold error? at ended
  split at ended <;> first | exact follows.elim | exact (Option.some.inj ended).symm | contradiction

theorem Follows.outside {runtime after : ComposedStreamDockRuntime} {pc : RunPc}
    (follows : pc.Follows runtime) (outside : pc.entered = false) : pc.Follows after := by
  cases pc <;> trivial

end RunPc

namespace ComposedStreamDockRuntime

/-- The thread of the boundary's run raises only what the request to close explains. -/
def BoundaryCalm (runtime : ComposedStreamDockRuntime) : Prop :=
  match runtime.boundaryRun with
  | .judging | .judgingFailure => runtime.shutdownRequested = true
  | .recording | .ensuring => False
  | _ => True

theorem BoundaryCalm.kept {before after : ComposedStreamDockRuntime} (calm : before.BoundaryCalm)
    (same : after.boundaryRun = before.boundaryRun)
    (requested : before.shutdownRequested = true → after.shutdownRequested = true) :
    after.BoundaryCalm := by
  unfold BoundaryCalm at calm ⊢
  rw [same]
  split <;> simp_all

end ComposedStreamDockRuntime

namespace ComposedStreamDockRuntime

variable {runtime : ComposedStreamDockRuntime}

theorem ensureBoundaryClosed_eq (threadStarts : Bool) : ∃ started complete closer,
    runtime.ensureBoundaryClosed threadStarts = { runtime with
      boundaryCloseStarted := started, boundaryCloseComplete := complete
      boundaryCloser := closer } := by
  unfold ensureBoundaryClosed
  split
  · exact ⟨_, _, _, rfl⟩
  · split <;> exact ⟨_, _, _, rfl⟩

theorem setReleased_eq : ∃ released calls, runtime.setReleased = { runtime with
    resourcesReleased := released, calls } := by
  unfold setReleased
  split <;> exact ⟨_, _, rfl⟩

theorem Cleans.failures {pc : CleanupPc} {after : ComposedStreamDockRuntime}
    (cleans : Cleans runtime pc after) :
    after.primaryFailure = runtime.primaryFailure ∧
      after.sharedFailure = runtime.sharedFailure := by
  cases cleans with
  | ensure threadStarts =>
      obtain ⟨_, _, _, ensured⟩ := (@ensureBoundaryClosed_eq runtime) threadStarts
      rw [ensured]
      exact ⟨rfl, rfl⟩
  | release =>
      obtain ⟨_, _, released⟩ := (@setReleased_eq runtime)
      rw [released]
      exact ⟨rfl, rfl⟩
  | _ => exact ⟨rfl, rfl⟩

end ComposedStreamDockRuntime

/-- A step that records no failure and keeps the lifecycle state. -/
structure Unblamed (before after : ComposedStreamDockRuntime) : Prop where
  state : after.state = before.state
  primary : after.primaryFailure = before.primaryFailure
  shared : after.sharedFailure = before.sharedFailure
  requested : before.shutdownRequested = true → after.shutdownRequested = true

/-- What holds of the runtime in a graceful run that is handed over in time. -/
structure RuntimeCalm (world : RuntimeWorld) : Prop where
  unfailed : world.runtime.primaryFailure = none ∧ world.runtime.sharedFailure = none
  state : world.runtime.state ≠ .failed
  runners : ∀ pc ∈ world.runners, pc.Follows world.runtime
  fresh : Unrun world.runners →
    world.runtime.state = .new ∨ world.runtime.shutdownRequested = true
  closers : ∀ pc ∈ world.closers, (∀ failure, pc ≠ .recording failure) ∧
    ∀ beforeRun nonblocking, pc = .ensuring beforeRun nonblocking →
      world.runtime.shutdownRequested = true
  closing : world.runtime.boundaryCloser ≠ .idle → world.runtime.shutdownRequested = true
  boundary : world.runtime.BoundaryCalm
  cleanup : world.runtime.cleanup ≠ .idle → world.runtime.shutdownRequested = true

namespace RuntimeCalm

variable {world after : RuntimeWorld}

/-- A step of the call of `run_forever` that is let in. -/
theorem ran (calm : RuntimeCalm world) (sound : RuntimeSound world) {index : Nat}
    {pc next : RunPc} {runtime : ComposedStreamDockRuntime}
    (found : world.runners[index]? = some pc)
    (inside : pc.entered = true ∨ world.runtime.state = .new)
    (entered : next.entered = true) (follows : next.Follows runtime)
    (unfailed : runtime.primaryFailure = none ∧ runtime.sharedFailure = none)
    (state : runtime.state ≠ .failed)
    (requested : world.runtime.shutdownRequested = true → runtime.shutdownRequested = true)
    (closer : runtime.boundaryCloser = world.runtime.boundaryCloser)
    (boundary : runtime.BoundaryCalm)
    (cleanup : runtime.cleanup ≠ .idle → runtime.shutdownRequested = true) :
    RuntimeCalm { world with runtime, runners := world.runners.set index next } where
  unfailed := unfailed
  state := state
  runners other member := by
    by_cases let_in : other.entered = true
    · rw [sound.alone found inside other member let_in]
      exact follows
    · rcases List.mem_or_eq_of_mem_set member with old | rfl
      · exact (calm.runners other old).outside (by simpa using let_in)
      · exact follows
  fresh outside := by
    have bound : index < world.runners.length := (List.getElem?_eq_some_iff.mp found).1
    have present : next ∈ world.runners.set index next :=
      List.mem_iff_getElem?.mpr ⟨index, by simp [bound]⟩
    rw [outside next present] at entered
    contradiction
  closers other member := (calm.closers other member).imp_right
    fun ensures beforeRun nonblocking at_ => requested (ensures beforeRun nonblocking at_)
  closing running := requested (calm.closing (closer ▸ running))
  boundary := boundary
  cleanup := cleanup

theorem runner (calm : RuntimeCalm world) (sound : RuntimeSound world) {index : Nat} {pc : RunPc}
    {move : RuntimeMove} {result : ComposedStreamDockRuntime × RunPc}
    (found : world.runners[index]? = some pc)
    (advanced : world.runtime.advanceRun pc move = some result)
    (raises : move ≠ .raises) (interrupts : move ≠ .interrupts)
    (timely : pc = .entering → Unrun world.runners ∧ world.runtime.shutdownRequested = false) :
    RuntimeCalm { world with
      runtime := result.1, runners := world.runners.set index result.2 } := by
  have follows := calm.runners pc (List.mem_of_getElem? found)
  -- The steps that change only the position of the call.
  have moved {next : RunPc} (mine : pc.entered = true) (entered : next.entered = true)
      (follows : next.Follows world.runtime) :
      RuntimeCalm { world with runners := world.runners.set index next } :=
    calm.ran sound found (.inl mine) entered follows calm.unfailed calm.state id rfl calm.boundary
      calm.cleanup
  unfold advanceRun at advanced
  split at advanced
  · obtain ⟨unrun, running⟩ := timely rfl
    have state : world.runtime.state = .new :=
      (calm.fresh unrun).resolve_right (by simp [running])
    obtain ⟨_, idle, cleanup, _⟩ := sound.untouched unrun
    cases advanced
    have entered : world.runtime.enterRun = (
        { world.runtime with state := .starting, attempted := fun worker => worker == .scheduler },
        .startingScheduler) := by
      simp [enterRun, state, running, transitionRuntimeState, RuntimeLifecycleState.targets]
    rw [entered]
    exact calm.ran sound found (.inr state) rfl rfl calm.unfailed (by simp) id rfl calm.boundary
      (fun launched => absurd cleanup launched)
  · cases advanced
    exact moved rfl rfl follows
  · exact absurd rfl raises
  · exact absurd rfl interrupts
  · next worker =>
    cases advanced
    split
    · refine moved rfl ?_ ?_
      · cases worker <;> rfl
      · cases worker <;> first | exact follows | exact .inl follows
    · exact moved rfl rfl follows
  · next worker =>
    cases advanced
    refine calm.ran sound found (.inl rfl) ?_ ?_ calm.unfailed calm.state id rfl calm.boundary
      calm.cleanup
    · cases worker <;> rfl
    · cases worker <;> exact follows
  · exact absurd rfl raises
  · exact absurd rfl interrupts
  · cases advanced
    have state : world.runtime.state = .starting := follows
    unfold announce
    split
    · exact moved rfl rfl (.inl follows)
    · rw [state]
      exact calm.ran sound found (.inl rfl) rfl (.inr rfl) calm.unfailed
        (by simp [transitionRuntimeState, RuntimeLifecycleState.targets]) id rfl calm.boundary calm.cleanup
  · split at advanced
    · cases advanced
      exact moved rfl rfl follows
    · cases advanced
      exact calm.ran sound found (.inl rfl) rfl follows calm.unfailed calm.state id rfl
        calm.boundary calm.cleanup
  · cases advanced
    exact calm.ran sound found (.inl rfl) rfl ⟨follows, .inr rfl⟩ calm.unfailed calm.state id rfl
      trivial calm.cleanup
  · exact absurd rfl raises
  · exact absurd rfl interrupts
  · split at advanced
    · cases advanced
      exact moved rfl rfl follows
    · contradiction
  · exact absurd rfl interrupts
  · split at advanced
    · cases advanced
      exact moved rfl rfl follows.1
    · contradiction
  · cases advanced
    exact moved rfl rfl follows.1
  · exact absurd rfl interrupts
  · exact follows.elim
  · exact follows.elim
  · exact follows.elim
  · next interrupted =>
    cases advanced
    cases interrupted with
    | true => exact follows.elim
    | false =>
        have allowed : transitionRuntimeState world.runtime.state .stopping = some .stopping := by
          rcases follows with state | state <;> rw [state] <;> rfl
        have active : world.runtime.state = .starting ∨ world.runtime.state = .running := follows
        unfold finalizeRun
        rw [if_pos active, allowed]
        exact calm.ran sound found (.inl rfl) rfl ⟨rfl, rfl⟩ calm.unfailed (by simp) (fun _ => rfl) rfl
          (calm.boundary.kept rfl fun _ => rfl) fun _ => rfl
  · next interrupted =>
    cases advanced
    cases interrupted with
    | true => exact follows.elim
    | false =>
        exact calm.ran sound found (.inl rfl) rfl follows calm.unfailed calm.state id rfl
          calm.boundary fun _ => follows.2
  · exact absurd rfl raises
  · next interrupted =>
    split at advanced
    · cases advanced
      cases interrupted with
      | true => exact follows.elim
      | false => exact moved rfl rfl follows
    · contradiction
  · next interrupted =>
    cases advanced
    cases interrupted with
    | true => exact follows.elim
    | false => exact moved rfl rfl follows
  · exact absurd rfl interrupts
  · next interrupted =>
    cases advanced
    cases interrupted with
    | true => exact follows.elim
    | false =>
        have concluded : world.runtime.concludeRun false =
            ({ world.runtime with primaryFailure := none, state := .stopped },
              .settling .returned) := by
          simp [concludeRun, calm.unfailed, follows.1, transitionRuntimeState,
            RuntimeLifecycleState.targets]
        rw [concluded]
        exact calm.ran sound found (.inl rfl) rfl rfl ⟨rfl, calm.unfailed.2⟩ (by simp) id rfl
          calm.boundary calm.cleanup
  · next outcome =>
    cases advanced
    cases outcome with
    | returned =>
        exact calm.ran sound found (.inl rfl) rfl follows calm.unfailed calm.state id rfl
          calm.boundary calm.cleanup
    | _ => exact follows.elim
  · contradiction

/-- A step beside the calls of `run_forever` that keeps the lifecycle state. -/
theorem beside (calm : RuntimeCalm world) {runtime : ComposedStreamDockRuntime}
    {closers : List ClosePc} (same : Unblamed world.runtime runtime)
    (supervised : world.runtime.boundaryRunComplete = true ∨
        world.runtime.boundaryRun.active = true →
      runtime.boundaryRunComplete = true ∨ runtime.boundaryRun.active = true)
    (closing : runtime.boundaryCloser ≠ .idle → runtime.shutdownRequested = true)
    (boundary : runtime.BoundaryCalm)
    (calls : ∀ pc ∈ closers, (∀ failure, pc ≠ .recording failure) ∧
      ∀ beforeRun nonblocking, pc = .ensuring beforeRun nonblocking →
        runtime.shutdownRequested = true)
    (launched : world.runtime.cleanup = .idle → runtime.cleanup = .idle) :
    RuntimeCalm { world with runtime, closers } where
  unfailed := ⟨same.primary.trans calm.unfailed.1, same.shared.trans calm.unfailed.2⟩
  state := same.state ▸ calm.state
  runners pc member := (calm.runners pc member).kept same.state same.requested supervised
  fresh outside := (calm.fresh outside).imp same.state.trans same.requested
  closers := calls
  closing := closing
  boundary := boundary
  cleanup running := same.requested (calm.cleanup fun idle => running (launched idle))

theorem closers_set (calm : RuntimeCalm world) {index : Nat} {next : ClosePc}
    {runtime : ComposedStreamDockRuntime}
    (requested : world.runtime.shutdownRequested = true → runtime.shutdownRequested = true)
    (unfailed : ∀ failure, next ≠ .recording failure)
    (ensures : ∀ beforeRun nonblocking, next = .ensuring beforeRun nonblocking →
      runtime.shutdownRequested = true) :
    ∀ pc ∈ world.closers.set index next, (∀ failure, pc ≠ .recording failure) ∧
      ∀ beforeRun nonblocking, pc = .ensuring beforeRun nonblocking →
        runtime.shutdownRequested = true := by
  intro pc member
  rcases List.mem_or_eq_of_mem_set member with old | rfl
  · exact (calm.closers pc old).imp_right fun known beforeRun nonblocking at_ =>
      requested (known beforeRun nonblocking at_)
  · exact ⟨unfailed, ensures⟩

theorem close (calm : RuntimeCalm world) (sound : RuntimeSound world) {index : Nat} {pc : ClosePc}
    {result : ComposedStreamDockRuntime × ClosePc} (found : world.closers[index]? = some pc)
    (closes : Closes world.runtime pc result) :
    RuntimeCalm { world with
      runtime := result.1, closers := world.closers.set index result.2 } := by
  obtain ⟨unfailed, ensuring⟩ := calm.closers pc (List.mem_of_getElem? found)
  -- A step that only lets the caller go on.
  have moved {next : ClosePc} (unfailed : ∀ failure, next ≠ .recording failure)
      (ensures : ∀ beforeRun nonblocking, next = .ensuring beforeRun nonblocking →
        world.runtime.shutdownRequested = true) :
      RuntimeCalm { world with closers := world.closers.set index next } :=
    calm.beside ⟨rfl, rfl, rfl, id⟩ id calm.closing calm.boundary
      (calm.closers_set id unfailed ensures) id
  cases closes with
  | record failure => exact absurd rfl (unfailed failure)
  | late => exact moved nofun nofun
  | request =>
      exact calm.beside ⟨rfl, rfl, rfl, fun _ => rfl⟩ id (fun _ => rfl)
        (calm.boundary.kept rfl fun _ => rfl)
        (calm.closers_set (fun _ => rfl) nofun fun _ _ _ => rfl) id
  | ensure beforeRun nonblocking threadStarts =>
      have requested := ensuring beforeRun nonblocking rfl
      obtain ⟨_, _, _, ensured⟩ := (@ensureBoundaryClosed_eq world.runtime) threadStarts
      rw [ensured]
      refine calm.beside ⟨rfl, rfl, rfl, id⟩ id (fun _ => requested) (calm.boundary.kept rfl id)
        (calm.closers_set id ?_ ?_) id
      · cases nonblocking <;> exact nofun
      · exact fun _ _ _ => requested
  | waited beforeRun => cases beforeRun <;> exact moved nofun nofun
  | waitedAgain => exact moved nofun nofun
  | settle =>
      obtain ⟨requested, outside⟩ := sound.unrun _ (List.mem_of_getElem? found) rfl
      unfold settleUnrun
      split
      · next new =>
        rw [new]
        exact {
          unfailed := calm.unfailed
          state := nofun
          runners := fun pc member => (calm.runners pc member).outside (outside pc member)
          fresh := fun _ => .inr requested
          closers := calm.closers_set id nofun nofun
          closing := calm.closing
          boundary := calm.boundary.kept rfl id
          cleanup := calm.cleanup }
      · exact moved nofun nofun
  | release =>
      obtain ⟨_, _, released⟩ := (@setReleased_eq world.runtime)
      rw [released]
      exact calm.beside ⟨rfl, rfl, rfl, id⟩ id calm.closing (calm.boundary.kept rfl id)
        (calm.closers_set id nofun nofun) id
  | announce =>
      exact calm.beside ⟨rfl, rfl, rfl, id⟩ id calm.closing (calm.boundary.kept rfl id)
        (calm.closers_set id nofun nofun) id
  | leave => exact moved nofun nofun

theorem called (calm : RuntimeCalm world) :
    RuntimeCalm { world with runners := world.runners ++ [.entering] } where
  unfailed := calm.unfailed
  state := calm.state
  runners pc member := by
    rcases List.mem_append.mp member with old | added
    · exact calm.runners pc old
    · rw [List.mem_singleton.mp added]
      trivial
  fresh outside := calm.fresh fun pc member => outside pc (List.mem_append_left _ member)
  closers := calm.closers
  closing := calm.closing
  boundary := calm.boundary
  cleanup := calm.cleanup

theorem boundaryCloser (calm : RuntimeCalm world) {move : RuntimeMove}
    {runtime : ComposedStreamDockRuntime}
    (advanced : world.runtime.advanceBoundaryCloser world.runtime.boundaryCloser move =
      some runtime) : RuntimeCalm { world with runtime } := by
  have requested : world.runtime.shutdownRequested = true := by
    refine calm.closing fun idle => ?_
    rw [idle] at advanced
    contradiction
  unfold advanceBoundaryCloser at advanced
  split at advanced
  all_goals
    first
      | contradiction
      | (cases advanced
         exact calm.beside ⟨rfl, rfl, rfl, id⟩ id (fun _ => requested) (calm.boundary.kept rfl id)
           calm.closers id)

/-- The boundary's run raises after the boundary's `close` was called, and only then. -/
theorem boundaryRun (calm : RuntimeCalm world) {move : RuntimeMove}
    {runtime : ComposedStreamDockRuntime}
    (advanced : world.runtime.advanceBoundaryRun world.runtime.boundaryRun move = some runtime)
    (raises : move = .raises → world.runtime.boundaryCloser ≠ .idle) :
    RuntimeCalm { world with runtime } := by
  have boundary := calm.boundary
  unfold BoundaryCalm at boundary
  -- The thread goes on, still active.
  have moved (next : BoundaryRunPc) (active : next.active = true)
      (boundary : ({ world.runtime with boundaryRun := next }).BoundaryCalm) :
      RuntimeCalm { world with runtime := { world.runtime with boundaryRun := next } } :=
    calm.beside ⟨rfl, rfl, rfl, id⟩ (fun _ => .inr active) calm.closing boundary calm.closers id
  unfold advanceBoundaryRun at advanced
  split at advanced
  · cases advanced
    exact moved .finishing rfl trivial
  · cases advanced
    exact moved .judging rfl (calm.closing (raises rfl))
  · next at_ =>
    have requested : world.runtime.shutdownRequested = true := by simpa only [at_] using boundary
    cases advanced
    rw [if_pos requested]
    exact moved .judgingFailure rfl requested
  · cases advanced
    have excused : ¬ world.runtime.primaryFailure.isSome = true := by simp [calm.unfailed.1]
    rw [if_neg excused]
    exact moved .finishing rfl trivial
  · next at_ => simp only [at_] at boundary
  · next at_ => simp only [at_] at boundary
  · next at_ => simp only [at_] at boundary
  · cases advanced
    exact calm.beside ⟨rfl, rfl, rfl, id⟩ (fun _ => .inl rfl) calm.closing trivial calm.closers id
  · contradiction

theorem cleans (calm : RuntimeCalm world) {runtime : ComposedStreamDockRuntime}
    (cleans : Cleans world.runtime world.runtime.cleanup runtime) :
    RuntimeCalm { world with runtime } := by
  have running : world.runtime.cleanup ≠ .idle := by
    intro idle
    rw [idle] at cleans
    cases cleans with
    | stage stage => cases stage
  have requested := calm.cleanup running
  have beside := cleans.beside
  obtain ⟨primary, shared⟩ := cleans.failures
  refine calm.beside ⟨beside.state, primary, shared, fun _ => beside.requested.trans requested⟩
    ?_ (fun _ => beside.requested.trans requested) (calm.boundary.kept beside.boundaryRun
      fun _ => beside.requested.trans requested) ?_ (fun idle => absurd idle running)
  · rw [beside.runComplete, beside.boundaryRun]
    exact id
  · intro pc member
    exact (calm.closers pc member).imp_right fun _ _ _ _ => beside.requested.trans requested

end RuntimeCalm

namespace ApplicationRunPc

/-- `run` is not about to raise. -/
def Calm : ApplicationRunPc → Prop
  | .finishing error | .awaiting error => error = none
  | .raised _ => False
  | _ => True

end ApplicationRunPc

/-- What holds in a graceful run that is handed over in time. -/
structure ApplicationCalm (world : ApplicationWorld) : Prop where
  runtime : RuntimeCalm world.runtime
  services : world.application.serviceErrors = false
  run : world.application.run.Calm

namespace ApplicationCalm

variable {world after : ApplicationWorld}

theorem runStep (calm : ApplicationCalm world) {move : RuntimeMove}
    (raises : move ≠ .raises)
    (advanced : world.advanceRun world.application.run move = some after) :
    ApplicationCalm after := by
  obtain ⟨runtime, services, run⟩ := calm
  unfold ApplicationWorld.advanceRun at advanced
  split at advanced
  · split at advanced
    · split at advanced <;> cases advanced <;> exact ⟨runtime, services, trivial⟩
    · cases advanced
      exact ⟨runtime, services, trivial⟩
  · cases advanced
    exact ⟨runtime, services, trivial⟩
  · exact absurd rfl raises
  · cases advanced
    exact ⟨runtime, services, trivial⟩
  · split at advanced <;> cases advanced
    · exact ⟨runtime, services, rfl⟩
    · exact ⟨runtime, services, trivial⟩
  · cases advanced
    exact ⟨runtime.called, services, trivial⟩
  · split at advanced
    · contradiction
    · next error ended =>
      cases advanced
      refine ⟨runtime, services, ?_⟩
      obtain ⟨pc, found, seen⟩ := Option.bind_eq_some_iff.mp ended
      have follows := runtime.runners pc (List.mem_of_getElem? found)
      exact follows.returned seen
  · next error at_ =>
    rw [at_] at run
    cases run
    cases advanced
    exact ⟨runtime, services, rfl⟩
  · exact absurd rfl raises
  · next error at_ =>
    rw [at_] at run
    cases run
    split at advanced
    · cases advanced
      refine ⟨runtime, services, ?_⟩
      simp [ApplicationWorld.after, services, conclusion, ApplicationRunPc.Calm]
    · contradiction
  · next error at_ =>
    rw [at_] at run
    cases run
    cases advanced
    exact ⟨runtime, services, trivial⟩
  · contradiction

theorem runtimeStep (calm : ApplicationCalm world) (lodged : Lodged world)
    (sound : RuntimeSound world.runtime) {label : RuntimeLabel} {runtime : RuntimeWorld}
    (smooth : graceful world (.runtime label) = true)
    (timely : handsOverInTime world (.runtime label) = true)
    (stepped : world.runtime.step label = some runtime) : RuntimeCalm runtime := by
  cases label with
  | run | close | fatal | share => contradiction
  | runner index move =>
      simp only [RuntimeWorld.step] at stepped
      split at stepped
      · contradiction
      · next pc found =>
        simp only [Option.map_eq_some_iff] at stepped
        obtain ⟨result, advanced, rfl⟩ := stepped
        simp only [graceful, Bool.and_eq_true, bne_iff_ne] at smooth
        refine calm.runtime.runner sound found advanced smooth.1 smooth.2 ?_
        rintro rfl
        have move : move = .proceed := by
          cases move <;> first | rfl | contradiction
        obtain ⟨_, _, alone⟩ := lodged.alone found rfl
        rw [move, handsOverInTime_entering found, Bool.not_eq_true'] at timely
        refine ⟨fun pc member => ?_, timely⟩
        rw [alone] at member
        rw [List.mem_singleton.mp member]
        rfl
  | closer index move =>
      simp only [RuntimeWorld.step] at stepped
      split at stepped
      · contradiction
      · next found =>
        simp only [Option.map_eq_some_iff] at stepped
        obtain ⟨result, advanced, rfl⟩ := stepped
        exact calm.runtime.close sound found (advanceClose_cases advanced)
  | boundaryCloser move =>
      simp only [RuntimeWorld.step, Option.map_eq_some_iff] at stepped
      obtain ⟨runtime, advanced, rfl⟩ := stepped
      exact calm.runtime.boundaryCloser advanced
  | boundaryRun move =>
      simp only [RuntimeWorld.step, Option.map_eq_some_iff] at stepped
      obtain ⟨runtime, advanced, rfl⟩ := stepped
      refine calm.runtime.boundaryRun advanced ?_
      rintro rfl idle
      simp [graceful, idle] at smooth
  | cleanup move =>
      simp only [RuntimeWorld.step, Option.map_eq_some_iff] at stepped
      obtain ⟨runtime, advanced, rfl⟩ := stepped
      exact calm.runtime.cleans (advanceCleanup_cases advanced)
  | boundaryCloses =>
      cases stepped
      exact calm.runtime.beside ⟨rfl, rfl, rfl, id⟩ id calm.runtime.closing
        (calm.runtime.boundary.kept rfl id) calm.runtime.closers id
  | boundaryWorkersStop =>
      simp only [RuntimeWorld.step] at stepped
      split at stepped
      · cases stepped
        exact calm.runtime.beside ⟨rfl, rfl, rfl, id⟩ id calm.runtime.closing
          (calm.runtime.boundary.kept rfl id) calm.runtime.closers id
      · contradiction

/-- A call of `close` enters among the others. -/
theorem closed (calm : RuntimeCalm world.runtime) (fromWorker : Bool) :
    RuntimeCalm { world.runtime with
      closers := world.runtime.closers ++ [.entering fromWorker] } := by
  refine calm.beside ⟨rfl, rfl, rfl, id⟩ id calm.closing calm.boundary (fun pc member => ?_) id
  rcases List.mem_append.mp member with old | added
  · exact calm.closers pc old
  · rw [List.mem_singleton.mp added]
    exact ⟨nofun, nofun⟩

theorem step (calm : ApplicationCalm world) (lodged : Lodged world)
    (sound : RuntimeSound world.runtime) {label : ApplicationLabel}
    (smooth : graceful world label = true) (timely : handsOverInTime world label = true)
    (stepped : world.step label = some after) : ApplicationCalm after := by
  cases label with
  | run =>
      simp only [ApplicationWorld.step] at stepped
      split at stepped <;> cases stepped
      · exact calm
      · exact ⟨calm.runtime, calm.services, trivial⟩
  | runStep move =>
      simp only [graceful, Bool.and_eq_true, bne_iff_ne] at smooth
      exact calm.runStep smooth.1 stepped
  | stop =>
      cases stepped
      exact ⟨calm.runtime, calm.services, calm.run⟩
  | stopper index fromWorker =>
      simp only [ApplicationWorld.step] at stepped
      split at stepped
      · cases stepped
        exact ⟨calm.runtime, calm.services, calm.run⟩
      · cases stepped
        exact ⟨closed calm.runtime fromWorker, calm.services, calm.run⟩
      · contradiction
  | serviceCleanup move =>
      simp only [ApplicationWorld.step, Option.map_eq_some_iff] at stepped
      obtain ⟨application, advanced, rfl⟩ := stepped
      simp only [graceful, Bool.and_eq_true, bne_iff_ne] at smooth
      obtain ⟨run, services⟩ := StreamDockApplication.advanceCleanup_run advanced
      exact ⟨calm.runtime, (services smooth.1).trans calm.services, run ▸ calm.run⟩
  | runtime label =>
      simp only [ApplicationWorld.step] at stepped
      split at stepped
      · contradiction
      · simp only [Option.map_eq_some_iff] at stepped
        obtain ⟨runtime, moved, rfl⟩ := stepped
        exact ⟨calm.runtimeStep lodged sound smooth timely moved, calm.services, calm.run⟩

end ApplicationCalm

theorem applicationCalm {services : Nat} {hasOnStop : Bool} {world : ApplicationWorld}
    (reachable : (applicationSystem services hasOnStop).ReachableBy
      (fun world label => graceful world label = true ∧ handsOverInTime world label = true) world) :
    ApplicationCalm world := by
  refine reachable.invariant_given (fun world => Lodged world ∧ RuntimeSound world.runtime)
    (fun reached known => ⟨lodged known, runtimeSound (runtime_reachable known)⟩) ?_
    fun _ _ _ allowed known calm stepped => calm.step known.1 known.2 allowed.1 allowed.2 stepped
  rintro _ rfl
  refine ⟨⟨⟨rfl, rfl⟩, nofun, ?_, fun _ => .inl rfl, ?_, ?_, trivial, ?_⟩, rfl, trivial⟩
  · simp
  · simp
  · exact fun running => absurd rfl running
  · exact fun running => absurd rfl running

end StreamDockSdk.Runtime
