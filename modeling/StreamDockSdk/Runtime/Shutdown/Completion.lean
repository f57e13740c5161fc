import StreamDockSdk.Runtime.Shutdown.Registration

namespace StreamDockSdk.Runtime

open Automaton
open ComposedStreamDockRuntime

namespace ShutdownWorld

variable {world after : ShutdownWorld} {label : ShutdownLabel}

/-- What is known of a runtime together with its shutdown state. -/
structure Tracked (world : ShutdownWorld) : Prop where
  sound : RuntimeSound world.runtime
  order : ClosesInOrder world.runtime
  owed : world.Owed
  tabled : world.Tabled

/-- A thread that calls `begin` alone. -/
theorem Owed.setBegins (owed : world.Owed) {thread : RuntimeThread}
    (only : thread.onlyBegins = true) {calls : List ShutdownCall}
    (begins : ∀ call ∈ calls, call = .begin) (closers : List ClosePc) :
    ({ world with runtime := { world.runtime with closers } }.setOutstanding thread calls).Owed := by
  have runner (index : Nat) : RuntimeThread.runner index ≠ thread := by
    rintro rfl
    contradiction
  have cleanup : RuntimeThread.cleanup ≠ thread := by
    rintro rfl
    contradiction
  refine ⟨fun index pc found => ?_, fun index absent => ?_, fun other begin_ => ?_, fun some_ => ?_,
    fun call member => ?_, fun index member => ?_⟩
  · simpa [runner] using owed.owes index pc found
  · simpa [runner] using owed.unborn index absent
  · rw [outstanding_setOutstanding]
    split
    · exact begins
    · exact owed.begins other begin_
  · exact owed.cleans (by simpa [cleanup] using some_)
  · exact owed.cleanCalls call (by simpa [cleanup] using member)
  · exact owed.unstarted index (by simpa [runner] using member)

theorem Tabled.setBegins (tabled : world.Tabled) {thread : RuntimeThread}
    (only : thread.onlyBegins = true) (calls : List ShutdownCall) (closers : List ClosePc) :
    ({ world with
      runtime := { world.runtime with closers } }.setOutstanding thread calls).Tabled := by
  have runner (index : Nat) : RuntimeThread.runner index ≠ thread := by
    rintro rfl
    contradiction
  refine ⟨fun index interrupted found paid => ?_, tabled.cleaning, fun index found paid => ?_,
    tabled.running, tabled.covered, tabled.closing, tabled.stopped, tabled.callbacks⟩
  · exact tabled.launching index interrupted found (by simpa [runner] using paid)
  · exact tabled.starting index found (by simpa [runner] using paid)

theorem spawn_run (owed : world.Owed) (tabled : world.Tabled) :
    { world with runtime := { world.runtime with
      runners := world.runtime.runners ++ [RunPc.entering] } }.Owed ∧
    { world with runtime := { world.runtime with
      runners := world.runtime.runners ++ [RunPc.entering] } }.Tabled := by
  have found {index : Nat} {pc : RunPc}
      (located : (world.runtime.runners ++ [.entering])[index]? = some pc) :
      world.runtime.runners[index]? = some pc ∨
        pc = .entering ∧ world.runtime.runners[index]? = none := by
    rw [List.getElem?_append] at located
    split at located
    · exact .inl located
    · next beyond =>
      rw [List.getElem?_singleton] at located
      split at located
      · exact .inr ⟨(Option.some.inj located).symm, List.getElem?_eq_none (Nat.not_lt.mp beyond)⟩
      · contradiction
  constructor
  · refine ⟨fun index pc located => ?_, fun index absent => ?_, owed.begins, owed.cleans,
      owed.cleanCalls, owed.unstarted⟩
    · rcases found located with there | ⟨rfl, beyond⟩
      · exact owed.owes index pc there
      · rw [show world.outstanding (.runner index) = [] from owed.unborn index beyond]
        exact .nothing _
    · refine owed.unborn index (List.getElem?_eq_none ?_)
      have beyond := List.getElem?_eq_none_iff.mp absent
      simp only [List.length_append, List.length_singleton] at beyond
      omega
  · refine ⟨fun index interrupted located paid => ?_, tabled.cleaning,
      fun index located paid => ?_, tabled.running, tabled.covered, tabled.closing,
      tabled.stopped, tabled.callbacks⟩
    · rcases found located with there | ⟨same, -⟩
      · exact tabled.launching index interrupted there paid
      · contradiction
    · rcases found located with there | ⟨same, -⟩
      · exact tabled.starting index there paid
      · contradiction

theorem closer_step (owed : world.Owed) (tabled : world.Tabled) {index : Nat} {pc next : ClosePc}
    {runtime : ComposedStreamDockRuntime} (move : RuntimeMove)
    (found : world.runtime.closers[index]? = some pc)
    (effect : CloseEffect world.runtime.runtime pc runtime next) :
    ({ world with
      runtime := { world.runtime with
        runtime, closers := world.runtime.closers.set index next }
      shutdown := world.shutdown.applyAll
        (world.runtime.regionCalls (.closer index move)) }.setOutstanding (.closer index) []).Owed ∧
    ({ world with
      runtime := { world.runtime with
        runtime, closers := world.runtime.closers.set index next }
      shutdown := world.shutdown.applyAll
        (world.runtime.regionCalls (.closer index move)) }.setOutstanding
          (.closer index) []).Tabled := by
  cases effect with
  | calm calm elsewhere requested =>
      have none : world.runtime.regionCalls (.closer index move) = [] := by
        simp only [RuntimeWorld.regionCalls, found]
        split
        · next beforeRun nonblocking same =>
          exact absurd (Option.some.inj same) (elsewhere beforeRun nonblocking)
        · rfl
      rw [none]
      exact ⟨(owed.calm calm).setBegins rfl (List.forall_mem_nil _) _, (tabled.calm calm).setBegins rfl [] _⟩
  | ensure beforeRun nonblocking threadStarts place =>
      have region : world.runtime.regionCalls (.closer index move) =
          ensureCalls world.runtime.runtime := by
        simp only [RuntimeWorld.regionCalls, found, place]
      have ensures := ensureBoundaryClosed_ensures world.runtime.runtime threadStarts
      rw [region]
      exact ⟨((owed.ensure ensures).setShutdown _).setBegins rfl (List.forall_mem_nil _) _,
        (tabled.ensure threadStarts).setBegins rfl [] _⟩

theorem boundaryRunCalls_begin (pc : BoundaryRunPc) :
    ∀ call ∈ boundaryRunCalls pc, call = .begin := by
  cases pc <;> simp [boundaryRunCalls]

theorem Tracked.runtimeStep (tracked : world.Tracked) {label : RuntimeLabel}
    (guarded : world.runtime.stopsScheduler label = true → world.activeCallbacks = 0)
    (stepped : world.runtimeStep label = some after) : after.Tracked := by
  obtain ⟨sound, order, owed, tabled⟩ := tracked
  unfold ShutdownWorld.runtimeStep at stepped
  split at stepped
  · contradiction
  · next inner moved =>
    have soundAfter := sound.step moved
    have orderAfter := order.step moved
    dsimp only at stepped
    cases label with
    | run =>
        cases stepped
        cases moved
        exact ⟨soundAfter, orderAfter, (spawn_run owed tabled).1, (spawn_run owed tabled).2⟩
    | runner index move =>
        simp only [RuntimeWorld.thread] at stepped
        split at stepped
        · next paid =>
          cases stepped
          simp only [RuntimeWorld.step] at moved
          split at moved
          · contradiction
          · next pc found =>
            obtain ⟨result, advanced, rfl⟩ := Option.map_eq_some_iff.mp moved
            have effect := advanceRun_effect advanced
            have later : world.runtime.laterCalls
                { world.runtime with
                  runtime := result.1, runners := world.runtime.runners.set index result.2 }
                (.runner index move) = runnerCalls pc move result.2 := by
              simp only [RuntimeWorld.laterCalls, found, getElem?_set_found found, if_true]
            rw [later]
            exact ⟨soundAfter, orderAfter, runner_owed owed sound found effect,
              runner_tabled tabled sound found paid effect⟩
        · contradiction
    | close fromWorker | fatal failure =>
        simp only [RuntimeWorld.thread] at stepped
        split at stepped
        · cases stepped
          cases moved
          exact ⟨soundAfter, orderAfter,
            owed.setBegins rfl (by simp [RuntimeWorld.laterCalls]) _, tabled.setBegins rfl _ _⟩
        · contradiction
    | closer index move =>
        simp only [RuntimeWorld.thread] at stepped
        split at stepped
        · cases stepped
          simp only [RuntimeWorld.step] at moved
          split at moved
          · contradiction
          · next pc found =>
            obtain ⟨result, advanced, rfl⟩ := Option.map_eq_some_iff.mp moved
            have both := closer_step owed tabled move found
              (advanceClose_cases advanced).effect
            exact ⟨soundAfter, orderAfter, both.1, both.2⟩
        · contradiction
    | share failure | boundaryCloses =>
        cases stepped
        cases moved
        exact ⟨soundAfter, orderAfter, owed.calm ⟨rfl, rfl, rfl, rfl, rfl, id, id⟩,
          tabled.calm ⟨rfl, rfl, rfl, rfl, rfl, id, id⟩⟩
    | boundaryWorkersStop =>
        cases stepped
        simp only [RuntimeWorld.step] at moved
        split at moved
        · cases moved
          exact ⟨soundAfter, orderAfter, owed.calm ⟨rfl, rfl, rfl, rfl, rfl, id, id⟩,
            tabled.calm ⟨rfl, rfl, rfl, rfl, rfl, id, id⟩⟩
        · contradiction
    | boundaryCloser move =>
        simp only [RuntimeWorld.thread] at stepped
        split at stepped
        · cases stepped
          obtain ⟨runtime, advanced, rfl⟩ := Option.map_eq_some_iff.mp moved
          obtain ⟨owedAfter, tabledAfter⟩ := boundaryCloser_step owed tabled advanced
          exact ⟨soundAfter, orderAfter, owedAfter.setBegins rfl (List.forall_mem_nil _) _,
            tabledAfter.setBegins rfl [] _⟩
        · contradiction
    | boundaryRun move =>
        simp only [RuntimeWorld.thread] at stepped
        split at stepped
        · cases stepped
          obtain ⟨runtime, advanced, rfl⟩ := Option.map_eq_some_iff.mp moved
          have both := boundaryRun_step owed tabled sound move
            (advanceBoundaryRun_effect advanced)
          exact ⟨soundAfter, orderAfter, both.1.setBegins rfl (boundaryRunCalls_begin _) _,
            both.2.setBegins rfl _ _⟩
        · contradiction
    | cleanup move =>
        simp only [RuntimeWorld.thread] at stepped
        split at stepped
        · cases stepped
          obtain ⟨runtime, advanced, rfl⟩ := Option.map_eq_some_iff.mp moved
          have idle (stopping : StopsScheduler world.runtime.runtime.cleanup move) :
              world.activeCallbacks = 0 := by
            obtain ⟨place, rfl⟩ := stopping
            refine guarded ?_
            rcases place with place | place <;> simp [RuntimeWorld.stopsScheduler, place]
          have both := cleanup_step owed tabled sound idle (advanceCleanup_effect advanced)
          exact ⟨soundAfter, orderAfter, both.1, both.2⟩
        · contradiction

theorem Tracked.step (tracked : world.Tracked) (stepped : world.step label = some after) :
    after.Tracked := by
  cases label with
  | runtime label =>
      simp only [ShutdownWorld.step] at stepped
      split at stepped
      · contradiction
      · next free =>
        refine tracked.runtimeStep (fun stops => ?_) stepped
        simpa [stops] using free
  | calls thread =>
      simp only [ShutdownWorld.step] at stepped
      split at stepped
      · contradiction
      · next call rest outstanding =>
        cases stepped
        have both := tracked.owed.pays tracked.tabled tracked.sound outstanding
        exact ⟨tracked.sound, tracked.order, both.1, both.2⟩
  | boundary call =>
      simp only [ShutdownWorld.step] at stepped
      split at stepped
      · next permitted =>
        cases stepped
        simp only [Bool.and_eq_true] at permitted
        exact ⟨tracked.sound, tracked.order, tracked.owed.setShutdown _,
          tracked.tabled.apply (permitted_of_boundary permitted.2)⟩
      · contradiction
  | callbacks count =>
      simp only [ShutdownWorld.step] at stepped
      split at stepped
      · next running =>
        cases stepped
        simp only [Bool.and_eq_true, Bool.not_eq_true'] at running
        obtain ⟨sound, order, owed, tabled⟩ := tracked
        exact ⟨sound, order, ⟨owed.owes, owed.unborn, owed.begins, owed.cleans, owed.cleanCalls,
          owed.unstarted⟩, tabled.launching, tabled.cleaning, tabled.starting, tabled.running,
          tabled.covered, tabled.closing, tabled.stopped, fun _ => running⟩
      · contradiction
  | reads =>
      cases stepped
      obtain ⟨sound, order, owed, tabled⟩ := tracked
      exact ⟨sound, order, ⟨owed.owes, owed.unborn, owed.begins, owed.cleans, owed.cleanCalls,
        owed.unstarted⟩, tabled.launching, tabled.cleaning, tabled.starting, tabled.running,
        tabled.covered, tabled.closing, tabled.stopped, tabled.callbacks⟩
  | snapshot reader =>
      simp only [ShutdownWorld.step] at stepped
      split at stepped
      · cases stepped
        obtain ⟨sound, order, owed, tabled⟩ := tracked
        exact ⟨sound, order, ⟨owed.owes, owed.unborn, owed.begins, owed.cleans, owed.cleanCalls,
          owed.unstarted⟩, tabled.launching, tabled.cleaning, tabled.starting, tabled.running,
          tabled.covered, tabled.closing, tabled.stopped, tabled.callbacks⟩
      · contradiction

theorem reachable_tracked {hasOnStop : Bool}
    (reachable : (shutdownSystem hasOnStop).Reachable world) : world.Tracked := by
  refine reachable.invariant ?_ fun _ _ _ tracked stepped => tracked.step stepped
  rintro first rfl
  have sound := @runtimeSound hasOnStop _ (.initial rfl)
  have order := @closesInOrder hasOnStop _ (.initial rfl)
  exact ⟨sound, order, ⟨nofun, fun _ _ => rfl, fun _ _ => nofun, fun some_ => absurd rfl some_, nofun,
    nofun⟩, nofun, nofun, nofun, nofun, nofun, nofun, nofun, fun active => absurd rfl active⟩

/-- The boundary was closed and the cleanup is over, or there never will be one. -/
structure Settled (world : ShutdownWorld) : Prop where
  closeStarted : world.runtime.runtime.boundaryCloseStarted = true
  closed : world.runtime.runtime.boundaryCloser = .finished
  cleaned : world.runtime.runtime.cleanup = .finished ∨
    Unrun world.runtime.runners ∧ world.runtime.runtime.shutdownRequested = true

/-- Nothing is left to do, and the tables say so. -/
structure Complete (world : ShutdownWorld) : Prop where
  settled : world.Settled
  requested : world.shutdown.requested = true
  finished : world.shutdown.finished = true
  known : world.runtime.runtime.cleanup = .finished →
    world.shutdown.Knows (.workerStop .scheduler)

/-- The runtime has registered what it is going to wait for, and the count of callbacks that
the reader took is the one of the scheduler. -/
structure Registered (world : ShutdownWorld) (reader : Nat) : Prop where
  close : Unrun world.runtime.runners → world.runtime.runtime.boundaryCloseStarted = true
  scheduler : ¬ Unrun world.runtime.runners → world.shutdown.Knows (.workerStop .scheduler)
  callbacks : world.readers[reader]? = some (some world.activeCallbacks)

/-- No snapshot finds the tables finished before the runtime is registered in them. -/
def Timely (world : ShutdownWorld) : ShutdownLabel → Prop
  | .snapshot reader => world.shutdown.requested = true → world.shutdown.finished = true →
      world.Registered reader
  | _ => True

theorem Tracked.complete (tracked : world.Tracked) {reader : Nat}
    (registered : world.Registered reader) (requested : world.shutdown.requested = true)
    (finished : world.shutdown.finished = true) : world.Complete := by
  obtain ⟨sound, order, owed, tabled⟩ := tracked
  obtain ⟨stopped, settled⟩ := ShutdownState.finished_iff.mp finished
  have closed (started : world.runtime.runtime.boundaryCloseStarted = true) :
      world.runtime.runtime.boundaryCloser = .finished :=
    (tabled.closing started).resolve_left (settled _)
  by_cases unrun : Unrun world.runtime.runners
  · have started := registered.close unrun
    refine ⟨⟨started, closed started, .inr ⟨unrun, order.started started⟩⟩, requested, finished,
      fun isOver => ?_⟩
    rw [(sound.untouched unrun).2.2.1] at isOver
    contradiction
  · have known := registered.scheduler unrun
    have isOver : world.runtime.runtime.cleanup = .finished :=
      ((tabled.covered known).resolve_left (stopped _)).resolve_left (settled _)
    have started := order.ensured (by rw [isOver]; nofun) (by rw [isOver]; nofun)
    exact ⟨⟨started, closed started, .inl isOver⟩, requested, finished, fun _ => known⟩

theorem Complete.idle (complete : world.Complete) (tracked : world.Tracked) :
    world.activeCallbacks = 0 := by
  by_contra active
  obtain ⟨attempted, unstopped⟩ := tracked.tabled.callbacks active
  rcases complete.settled.cleaned with isOver | ⟨unrun, -⟩
  · obtain ⟨stopped, member⟩ := complete.known isOver
    cases stopped with
    | true => exact Bool.false_ne_true (unstopped.symm.trans (tracked.tabled.stopped member))
    | false => exact (ShutdownState.finished_iff.mp complete.finished).1 _ member
  · rw [(tracked.sound.untouched unrun).1] at attempted
    contradiction

/-- When everything is settled, no thread has a call outstanding but `begin`. -/
theorem Complete.outstanding (complete : world.Complete) (tracked : world.Tracked)
    {thread : RuntimeThread} {call : ShutdownCall} (member : call ∈ world.outstanding thread) :
    call = .begin := by
  have some_ : world.outstanding thread ≠ [] := List.ne_nil_of_mem member
  cases thread with
  | closer | boundaryCloser | boundaryRun => exact tracked.owed.begins _ rfl call member
  | cleanup =>
      have inside := tracked.owed.cleans some_
      rcases complete.settled.cleaned with isOver | ⟨unrun, -⟩
      · rw [isOver] at inside
        contradiction
      · rw [(tracked.sound.untouched unrun).2.2.1] at inside
        contradiction
  | runner index =>
      cases found : world.runtime.runners[index]? with
      | none => exact absurd (tracked.owed.unborn index found) some_
      | some pc =>
          obtain ⟨entered, early⟩ := (tracked.owed.owes index pc found).early some_
          have located := List.mem_of_getElem? found
          have idle := (tracked.sound.runs pc located entered).unlaunched early
          rcases complete.settled.cleaned with isOver | ⟨unrun, -⟩
          · rw [isOver] at idle
            contradiction
          · rw [unrun pc located] at entered
            contradiction

theorem Complete.apply_begin (complete : world.Complete) :
    { world with shutdown := world.shutdown.apply .begin }.Complete :=
  ⟨⟨complete.settled.closeStarted, complete.settled.closed, complete.settled.cleaned⟩, rfl,
    complete.finished, complete.known⟩

/-- A step of the runtime that starts neither the close nor the cleanup. -/
theorem Complete.frame (complete : world.Complete) {inner : RuntimeWorld}
    (started : inner.runtime.boundaryCloseStarted = world.runtime.runtime.boundaryCloseStarted)
    (closer : inner.runtime.boundaryCloser = world.runtime.runtime.boundaryCloser)
    (cleanup : inner.runtime.cleanup = world.runtime.runtime.cleanup)
    (requested : world.runtime.runtime.shutdownRequested = true →
      inner.runtime.shutdownRequested = true)
    (unrun : Unrun world.runtime.runners → Unrun inner.runners) :
    { world with runtime := inner }.Complete where
  settled := ⟨started.trans complete.settled.closeStarted, closer.trans complete.settled.closed,
    complete.settled.cleaned.imp cleanup.trans fun both => ⟨unrun both.1, requested both.2⟩⟩
  requested := complete.requested
  finished := complete.finished
  known isOver := complete.known (cleanup.symm.trans isOver)

theorem Complete.calm (complete : world.Complete) {runtime : ComposedStreamDockRuntime}
    (calm : Calm world.runtime.runtime runtime) (closers : List ClosePc) :
    { world with runtime := { world.runtime with runtime, closers } }.Complete :=
  complete.frame calm.started calm.closer calm.cleanup calm.requested id

/-- `_ensure_boundary_closed` finds the close started. -/
theorem Complete.ensure (complete : world.Complete) (threadStarts : Bool)
    (closers : List ClosePc) :
    { world with
      runtime := { world.runtime with
        runtime := world.runtime.runtime.ensureBoundaryClosed threadStarts, closers }
      shutdown := world.shutdown.applyAll (ensureCalls world.runtime.runtime) }.Complete := by
  unfold ensureBoundaryClosed ensureCalls
  rw [if_pos complete.settled.closeStarted, if_pos complete.settled.closeStarted]
  exact (complete.calm (.refl _) closers).apply_begin

/-- What neither the runtime nor the shutdown state takes part in. -/
theorem Complete.beside (complete : world.Complete) (runtime : after.runtime = world.runtime)
    (shutdown : after.shutdown = world.shutdown) : after.Complete := by
  obtain ⟨⟨started, closed, cleaned⟩, requested, finished, known⟩ := complete
  rw [← runtime] at started closed cleaned known
  rw [← shutdown] at requested finished known
  exact ⟨⟨started, closed, cleaned⟩, requested, finished, known⟩

theorem Complete.setOutstanding (complete : world.Complete) (thread : RuntimeThread)
    (calls : List ShutdownCall) : (world.setOutstanding thread calls).Complete :=
  complete.beside rfl rfl

theorem Complete.runner (complete : world.Complete) (tracked : world.Tracked) {index : Nat}
    {pc : RunPc} {move : RuntimeMove} {result : ComposedStreamDockRuntime × RunPc}
    (found : world.runtime.runners[index]? = some pc)
    (advanced : world.runtime.runtime.advanceRun pc move = some result) :
    { world with runtime := { world.runtime with
      runtime := result.1, runners := world.runtime.runners.set index result.2 } }.Complete := by
  have located := List.mem_of_getElem? found
  rcases complete.settled.cleaned with isOver | ⟨unrun, requested⟩
  · have kept : result.1.boundaryCloseStarted = world.runtime.runtime.boundaryCloseStarted ∧
        result.1.boundaryCloser = world.runtime.runtime.boundaryCloser ∧
        result.1.cleanup = world.runtime.runtime.cleanup := by
      have effect := advanceRun_effect advanced
      obtain ⟨runtime, next⟩ := result
      generalize runnerCalls pc move _ = calls at effect
      cases effect with
      | calm calm => exact ⟨calm.started, calm.closer, calm.cleanup⟩
      | startBoundary => exact ⟨rfl, rfl, rfl⟩
      | launch interrupted place =>
          subst place
          have idle := (tracked.sound.runs _ located rfl).unlaunched rfl
          rw [isOver] at idle
          contradiction
    exact ⟨⟨kept.1.trans complete.settled.closeStarted, kept.2.1.trans complete.settled.closed,
      .inl (kept.2.2.trans isOver)⟩, complete.requested, complete.finished,
      fun _ => complete.known isOver⟩
  · have outside := unrun pc located
    have rejected : result = (world.runtime.runtime, .rejected) := by
      cases advanceRun_cases advanced with
      | reject => rfl
      | enter state free =>
          rw [requested] at free
          contradiction
      | moves moves => cases moves <;> contradiction
      | _ => contradiction
    subst rejected
    refine complete.frame rfl rfl rfl id fun _ other member => ?_
    rcases List.mem_or_eq_of_mem_set member with kept | rfl
    · exact unrun other kept
    · rfl

theorem Complete.boundaryRun (complete : world.Complete) {runtime : ComposedStreamDockRuntime}
    (move : RuntimeMove) (effect : BoundaryRunEffect world.runtime.runtime runtime) :
    { world with
      runtime := { world.runtime with runtime }
      shutdown :=
        world.shutdown.applyAll (world.runtime.regionCalls (.boundaryRun move)) }.Complete := by
  cases effect with
  | moves next calm leaves arrives requested =>
      have none : world.runtime.regionCalls (.boundaryRun move) = [] := by
        simp only [RuntimeWorld.regionCalls]
        split
        · next place => exact absurd place leaves.2.1
        · next place => exact absurd place leaves.2.2
        · rfl
      rw [none]
      exact complete.frame calm.started calm.closer calm.cleanup calm.requested id
  | ensure threadStarts place =>
      have region : world.runtime.regionCalls (.boundaryRun move) =
          ensureCalls world.runtime.runtime := by
        simp only [RuntimeWorld.regionCalls, place]
      rw [region]
      exact (complete.ensure threadStarts world.runtime.closers).frame rfl rfl rfl id id
  | finish place =>
      have region : world.runtime.regionCalls (.boundaryRun move) =
          [.worker .boundaryRun true] := by
        simp only [RuntimeWorld.regionCalls, place]
      rw [region]
      have ended : { world with
          shutdown := world.shutdown.apply (.worker .boundaryRun true) }.Complete := by
        obtain ⟨stopped, settled⟩ := ShutdownState.finished_iff.mp complete.finished
        refine ⟨⟨complete.settled.closeStarted, complete.settled.closed, complete.settled.cleaned⟩,
          complete.requested, ShutdownState.finished_iff.mpr ⟨fun stage member => ?_, settled⟩,
          fun isOver => (complete.known isOver).apply⟩
        rcases ShutdownState.mem_workers_apply.mp member with same | ⟨known, -⟩
        · cases same
        · exact stopped stage known
      exact ended.frame rfl rfl rfl id id

theorem Complete.runtimeStep (complete : world.Complete) (tracked : world.Tracked)
    {label : RuntimeLabel} (stepped : world.runtimeStep label = some after) : after.Complete := by
  unfold ShutdownWorld.runtimeStep at stepped
  split at stepped
  · contradiction
  · next inner moved =>
    dsimp only at stepped
    have cleaned (inside : world.runtime.runtime.cleanup.inside = true) : False := by
      rcases complete.settled.cleaned with isOver | ⟨unrun, -⟩
      · rw [isOver] at inside
        contradiction
      · rw [(tracked.sound.untouched unrun).2.2.1] at inside
        contradiction
    cases label with
    | run =>
        cases stepped
        cases moved
        refine complete.frame rfl rfl rfl id fun unrun pc member => ?_
        rcases List.mem_append.mp member with kept | fresh
        · exact unrun pc kept
        · rw [List.mem_singleton.mp fresh]
          rfl
    | runner index move =>
        simp only [RuntimeWorld.thread] at stepped
        split at stepped
        · cases stepped
          simp only [RuntimeWorld.step] at moved
          split at moved
          · contradiction
          · next pc found =>
            obtain ⟨result, advanced, rfl⟩ := Option.map_eq_some_iff.mp moved
            exact (complete.runner tracked found advanced).setOutstanding _ _
        · contradiction
    | close fromWorker | fatal failure =>
        simp only [RuntimeWorld.thread] at stepped
        split at stepped
        · cases stepped
          cases moved
          exact (complete.calm (.refl _) _).setOutstanding _ _
        · contradiction
    | closer index move =>
        simp only [RuntimeWorld.thread] at stepped
        split at stepped
        · cases stepped
          simp only [RuntimeWorld.step] at moved
          split at moved
          · contradiction
          · next pc found =>
            obtain ⟨⟨runtime, next⟩, advanced, rfl⟩ := Option.map_eq_some_iff.mp moved
            refine Complete.setOutstanding ?_ _ _
            cases (advanceClose_cases advanced).effect with
            | calm calm elsewhere requested =>
                have none : world.runtime.regionCalls (.closer index move) = [] := by
                  simp only [RuntimeWorld.regionCalls, found]
                  split
                  · next beforeRun nonblocking same =>
                    exact absurd (Option.some.inj same) (elsewhere beforeRun nonblocking)
                  · rfl
                rw [none]
                exact complete.calm calm _
            | ensure beforeRun nonblocking threadStarts place =>
                have region : world.runtime.regionCalls (.closer index move) =
                    ensureCalls world.runtime.runtime := by
                  simp only [RuntimeWorld.regionCalls, found, place]
                rw [region]
                exact complete.ensure threadStarts _
        · contradiction
    | share failure | boundaryCloses =>
        cases stepped
        cases moved
        exact complete.frame rfl rfl rfl id id
    | boundaryWorkersStop =>
        cases stepped
        simp only [RuntimeWorld.step] at moved
        split at moved
        · cases moved
          exact complete.frame rfl rfl rfl id id
        · contradiction
    | boundaryCloser move =>
        simp only [RuntimeWorld.step, complete.settled.closed, advanceBoundaryCloser] at moved
        contradiction
    | boundaryRun move =>
        simp only [RuntimeWorld.thread] at stepped
        split at stepped
        · cases stepped
          obtain ⟨runtime, advanced, rfl⟩ := Option.map_eq_some_iff.mp moved
          exact (complete.boundaryRun move (advanceBoundaryRun_effect advanced)).setOutstanding _ _
        · contradiction
    | cleanup move =>
        obtain ⟨runtime, advanced, -⟩ := Option.map_eq_some_iff.mp moved
        refine (cleaned ?_).elim
        cases advanceCleanup_effect advanced with
        | moves next calm leaves => exact leaves.1
        | ensure threadStarts place | finish place =>
            rw [place]
            rfl

theorem Complete.step (complete : world.Complete) (tracked : world.Tracked)
    (stepped : world.step label = some after) : after.Complete := by
  cases label with
  | runtime label =>
      simp only [ShutdownWorld.step] at stepped
      split at stepped
      · contradiction
      · exact complete.runtimeStep tracked stepped
  | calls thread =>
      simp only [ShutdownWorld.step] at stepped
      split at stepped
      · contradiction
      · next call rest outstanding =>
        cases stepped
        have begins : call = .begin := complete.outstanding tracked (by
          rw [outstanding]
          exact List.mem_cons_self)
        subst begins
        exact complete.apply_begin.setOutstanding thread rest
  | boundary call =>
      simp only [ShutdownWorld.step] at stepped
      split at stepped
      · next permitted =>
        simp only [Bool.and_eq_true, boundaryCalls, Bool.or_eq_true, decide_eq_true_eq] at permitted
        obtain ⟨stopped, settled⟩ := ShutdownState.finished_iff.mp complete.finished
        rcases permitted.1 with (running | closing) | pending
        · exact absurd (tracked.tabled.running (by rw [running]; rfl)) (stopped _)
        · rw [complete.settled.closed] at closing
          contradiction
        · exact absurd pending (settled _)
      · contradiction
  | callbacks count =>
      simp only [ShutdownWorld.step] at stepped
      split at stepped
      · cases stepped
        exact complete.beside rfl rfl
      · contradiction
  | reads =>
      cases stepped
      exact complete.beside rfl rfl
  | snapshot reader =>
      simp only [ShutdownWorld.step] at stepped
      split at stepped
      · cases stepped
        exact complete.beside rfl rfl
      · contradiction

/-- A snapshot is complete when an earlier one was. -/
def Lasting (outcomes : List (Option Bool)) : Prop :=
  outcomes.Pairwise fun later earlier => earlier = some true → later = some true

theorem Complete.snapshot (complete : world.Complete) :
    world.shutdown.snapshot 0 = some true := by
  simp [ShutdownState.snapshot, complete.requested, complete.finished]

theorem snapshot_complete {state : ShutdownState} {count : Nat}
    (outcome : state.snapshot count = some true) :
    state.requested = true ∧ state.finished = true ∧ count = 0 := by
  unfold ShutdownState.snapshot at outcome
  split at outcome
  · next requested =>
    simp only [Option.some.injEq, Bool.and_eq_true, beq_iff_eq] at outcome
    exact ⟨requested, outcome⟩
  · contradiction

/-- What the snapshots taken so far say. -/
structure Reported (world : ShutdownWorld) : Prop where
  lasting : Lasting world.outcomes
  complete : some true ∈ world.outcomes → world.Complete

theorem Reported.step (reported : world.Reported) (tracked : world.Tracked)
    (timely : world.Timely label) (stepped : world.step label = some after) : after.Reported := by
  have kept (outcomes : after.outcomes = world.outcomes) : after.Reported := by
    refine ⟨outcomes ▸ reported.lasting, fun member => ?_⟩
    exact (reported.complete (outcomes ▸ member)).step tracked stepped
  cases label with
  | runtime label =>
      refine kept ?_
      simp only [ShutdownWorld.step, runtimeStep] at stepped
      split at stepped
      · contradiction
      · split at stepped
        · contradiction
        · split at stepped
          · cases stepped
            rfl
          · split at stepped
            · cases stepped
              rfl
            · contradiction
  | calls thread =>
      refine kept ?_
      simp only [ShutdownWorld.step] at stepped
      split at stepped
      · contradiction
      · cases stepped
        rfl
  | boundary call =>
      refine kept ?_
      simp only [ShutdownWorld.step] at stepped
      split at stepped
      · cases stepped
        rfl
      · contradiction
  | callbacks count =>
      refine kept ?_
      simp only [ShutdownWorld.step] at stepped
      split at stepped
      · cases stepped
        rfl
      · contradiction
  | reads =>
      cases stepped
      exact kept rfl
  | snapshot reader =>
      have shown := stepped
      simp only [ShutdownWorld.step] at stepped
      split at stepped
      · next count read =>
        cases stepped
        have current (requested : world.shutdown.requested = true)
            (finished : world.shutdown.finished = true) : count = world.activeCallbacks := by
          have taken := (timely requested finished).callbacks
          rw [read] at taken
          simpa using taken
        refine ⟨List.pairwise_cons.mpr ⟨fun earlier member same => ?_, reported.lasting⟩,
          fun member => ?_⟩
        · subst same
          have complete := reported.complete member
          rw [current complete.requested complete.finished, complete.idle tracked]
          exact complete.snapshot
        · rcases List.mem_cons.mp member with now | before
          · obtain ⟨requested, finished, -⟩ := snapshot_complete now.symm
            have complete := tracked.complete (timely requested finished) requested finished
            exact complete.step tracked shown
          · exact (reported.complete before).step tracked shown
      · contradiction

/-- While no snapshot is taken before the runtime has registered what it waits for, a complete
outcome stays complete, and is given only when everything is settled. -/
theorem complete_outcome_stays {hasOnStop : Bool}
    (reachable : (shutdownSystem hasOnStop).ReachableBy Timely world) :
    Lasting world.outcomes ∧ (some true ∈ world.outcomes → world.Settled) := by
  have reported : world.Reported := by
    refine reachable.invariant_given (motive := Reported) Tracked
      (fun _ earlier => reachable_tracked earlier) ?_
      fun _ _ _ timely tracked reported stepped => reported.step tracked timely stepped
    rintro first rfl
    exact ⟨.nil, nofun⟩
  exact ⟨reported.lasting, fun member => (reported.complete member).settled⟩

/-- Snapshots are taken while the boundary closes, right after that and at the end. -/
def closeRun : List ShutdownLabel :=
  [.runtime (.close false), .calls (.closer 0), .runtime (.closer 0 .proceed),
    .runtime (.closer 0 .proceed), .reads, .snapshot 0, .runtime (.boundaryCloser .proceed),
    .runtime (.boundaryCloser (.returns true)), .reads, .snapshot 1, .runtime (.closer 0 .proceed),
    .reads, .snapshot 2]

/-- In such a run the close is to be started, and no callback is on. -/
def closeTimely (world : ShutdownWorld) : ShutdownLabel → Bool
  | .snapshot reader => world.runtime.runners.isEmpty &&
      world.runtime.runtime.boundaryCloseStarted &&
      world.readers[reader]? == some (some world.activeCallbacks)
  | _ => true

theorem timely_of_closeTimely (holds : world.closeTimely label = true) : world.Timely label := by
  cases label with
  | snapshot reader =>
      simp only [closeTimely, Bool.and_eq_true, List.isEmpty_iff, beq_iff_eq] at holds
      obtain ⟨⟨empty, started⟩, current⟩ := holds
      have unrun : Unrun world.runtime.runners := by simp [Unrun, empty]
      exact fun _ _ => ⟨fun _ => started, fun run => absurd unrun run, current⟩
  | _ => trivial

def closedShutdown : ShutdownWorld :=
  (((shutdownSystem false).restrict closeTimely).exec
    { runtime := { runtime := { hasOnStop := false } } } closeRun).get (by decide +kernel)

theorem closedShutdown_reachable : (shutdownSystem false).ReachableBy Timely closedShutdown :=
  have reachable : ((shutdownSystem false).restrict closeTimely).Reachable closedShutdown :=
    System.Reachable.exec (.initial rfl) (Option.some_get _).symm
  reachable.restricted.weaken fun _ _ => timely_of_closeTimely

theorem complete_outcome_stays_run :
    closedShutdown.outcomes = [some true, some true, some false] ∧
      Lasting closedShutdown.outcomes ∧
      (some true ∈ closedShutdown.outcomes → closedShutdown.Settled) :=
  ⟨by decide +kernel, complete_outcome_stays closedShutdown_reachable⟩

/-- A snapshot is taken between `begin` and the locked region of `_ensure_boundary_closed`. -/
def earlyRun : List ShutdownLabel :=
  [.runtime (.close false), .calls (.closer 0), .reads, .snapshot 0, .runtime (.closer 0 .proceed),
    .runtime (.closer 0 .proceed), .reads, .snapshot 1]

def earlyShutdown : ShutdownWorld :=
  ((shutdownSystem false).exec { runtime := { runtime := { hasOnStop := false } } } earlyRun).get
    (by decide +kernel)

theorem early_outcome_withdrawn :
    ∃ world, (shutdownSystem false).Reachable world ∧
      world.outcomes = [some false, some true] ∧ ¬ Lasting world.outcomes ∧
      world.runtime.runtime.boundaryCloser = .calling := by
  refine ⟨earlyShutdown, .exec (.initial rfl) (Option.some_get _).symm, by decide +kernel, ?_,
    by decide +kernel⟩
  have outcomes : earlyShutdown.outcomes = [some false, some true] := by decide +kernel
  rw [outcomes, Lasting, List.pairwise_cons]
  rintro ⟨withdrawn, -⟩
  exact absurd (withdrawn _ List.mem_cons_self rfl) (by decide)

end ShutdownWorld

end StreamDockSdk.Runtime
