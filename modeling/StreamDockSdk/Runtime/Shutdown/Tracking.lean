import StreamDockSdk.Runtime.Shutdown.Tables

namespace StreamDockSdk.Runtime

open Automaton
open ComposedStreamDockRuntime

/-- The close of the boundary is registered only after shutdown was requested, and
before the cleanup goes on. -/
structure ClosesInOrder (world : RuntimeWorld) : Prop where
  unstarted : world.runtime.boundaryCloseStarted = false → world.runtime.boundaryCloser = .idle
  started : world.runtime.boundaryCloseStarted = true → world.runtime.shutdownRequested = true
  ensuring : ∀ pc ∈ world.closers, ∀ beforeRun nonblocking, pc = .ensuring beforeRun nonblocking →
    world.runtime.shutdownRequested = true
  runEnsuring : world.runtime.boundaryRun = .ensuring → world.runtime.shutdownRequested = true
  cleaning : world.runtime.cleanup ≠ .idle → world.runtime.shutdownRequested = true
  launching : ∀ pc ∈ world.runners, ∀ interrupted, pc = .launchingCleanup interrupted →
    world.runtime.shutdownRequested = true
  ensured : world.runtime.cleanup ≠ .idle → world.runtime.cleanup ≠ .ensuring →
    world.runtime.boundaryCloseStarted = true

/-- What `_ensure_boundary_closed` leaves alone. -/
structure Ensures (before after : ComposedStreamDockRuntime) : Prop where
  started : after.boundaryCloseStarted = true
  boundaryRun : after.boundaryRun = before.boundaryRun
  cleanup : after.cleanup = before.cleanup
  stopped : after.stopped = before.stopped
  attempted : after.attempted = before.attempted
  requested : after.shutdownRequested = before.shutdownRequested
  closer : before.boundaryCloseStarted = true → after.boundaryCloser = before.boundaryCloser

theorem ensureBoundaryClosed_ensures (runtime : ComposedStreamDockRuntime) (threadStarts : Bool) :
    Ensures runtime (runtime.ensureBoundaryClosed threadStarts) := by
  unfold ensureBoundaryClosed
  split
  · next started => exact ⟨started, rfl, rfl, rfl, rfl, rfl, fun _ => rfl⟩
  · next unstarted =>
    split <;> exact ⟨rfl, rfl, rfl, rfl, rfl, rfl, fun started => absurd started unstarted⟩

namespace ClosesInOrder

variable {world after : RuntimeWorld} {label : RuntimeLabel} {runtime : ComposedStreamDockRuntime}

/-- A step that starts or ends no thread. -/
theorem calm (order : ClosesInOrder world) (calm : Calm world.runtime runtime) :
    ClosesInOrder { world with runtime } where
  unstarted unstarted := calm.closer.trans (order.unstarted (calm.started ▸ unstarted))
  started started := calm.requested (order.started (calm.started ▸ started))
  ensuring pc member beforeRun nonblocking same :=
    calm.requested (order.ensuring pc member beforeRun nonblocking same)
  runEnsuring ensuring := calm.requested (order.runEnsuring (calm.boundaryRun ▸ ensuring))
  cleaning cleaning := calm.requested (order.cleaning (calm.cleanup ▸ cleaning))
  launching pc member interrupted same :=
    calm.requested (order.launching pc member interrupted same)
  ensured cleaning past :=
    calm.started.trans (order.ensured (calm.cleanup ▸ cleaning) (calm.cleanup ▸ past))

theorem setRunner (order : ClosesInOrder world) {index : Nat} {next : RunPc}
    (requested : ∀ interrupted, next = .launchingCleanup interrupted →
      world.runtime.shutdownRequested = true) :
    ClosesInOrder { world with runners := world.runners.set index next } where
  unstarted := order.unstarted
  started := order.started
  ensuring := order.ensuring
  runEnsuring := order.runEnsuring
  cleaning := order.cleaning
  launching pc member interrupted same := by
    rcases List.mem_or_eq_of_mem_set member with kept | rfl
    · exact order.launching pc kept interrupted same
    · exact requested interrupted same
  ensured := order.ensured

theorem setCloser (order : ClosesInOrder world) {closers : List ClosePc}
    (requested : ∀ pc ∈ closers, pc ∈ world.closers ∨
      ∀ beforeRun nonblocking, pc = .ensuring beforeRun nonblocking →
        world.runtime.shutdownRequested = true) :
    ClosesInOrder { world with closers } where
  unstarted := order.unstarted
  started := order.started
  ensuring pc member beforeRun nonblocking same := by
    rcases requested pc member with kept | fresh
    · exact order.ensuring pc kept beforeRun nonblocking same
    · exact fresh beforeRun nonblocking same
  runEnsuring := order.runEnsuring
  cleaning := order.cleaning
  launching := order.launching
  ensured := order.ensured

/-- `_ensure_boundary_closed` of a thread that has requested shutdown. -/
theorem of_ensures (ensures : Ensures world.runtime runtime)
    (requested : world.runtime.shutdownRequested = true) :
    ClosesInOrder { world with runtime } where
  unstarted unstarted := absurd (ensures.started.symm.trans unstarted) (by decide)
  started _ := ensures.requested.trans requested
  ensuring _ _ _ _ _ := ensures.requested.trans requested
  runEnsuring _ := ensures.requested.trans requested
  cleaning _ := ensures.requested.trans requested
  launching _ _ _ _ := ensures.requested.trans requested
  ensured _ _ := ensures.started

theorem runner (order : ClosesInOrder world) {index : Nat} {pc next : RunPc}
    {calls : List ShutdownCall} (found : world.runners[index]? = some pc)
    (effect : RunEffect world.runtime pc runtime next calls) :
    ClosesInOrder { world with runtime, runners := world.runners.set index next } := by
  cases effect with
  | calm calm owes boundary cleanup unstarted =>
      exact (order.calm calm).setRunner fun interrupted same => (cleanup interrupted same).2
  | startBoundary place =>
      have base : ClosesInOrder { world with
          runtime := { world.runtime with boundaryRun := .running } } :=
        ⟨order.unstarted, order.started, order.ensuring, nofun, order.cleaning, order.launching,
          order.ensured⟩
      exact base.setRunner nofun
  | launch interrupted place =>
      have requested := order.launching pc (List.mem_of_getElem? found) interrupted place
      have base : ClosesInOrder { world with
          runtime := { world.runtime with cleanup := .ensuring } } :=
        ⟨order.unstarted, order.started, order.ensuring, order.runEnsuring, fun _ => requested,
          order.launching, fun _ past => absurd rfl past⟩
      exact base.setRunner nofun

theorem closer (order : ClosesInOrder world) {index : Nat} {pc next : ClosePc}
    (found : world.closers[index]? = some pc)
    (effect : CloseEffect world.runtime pc runtime next) :
    ClosesInOrder { world with runtime, closers := world.closers.set index next } := by
  have member := List.mem_of_getElem? found
  cases effect with
  | calm calm elsewhere requested =>
      refine (order.calm calm).setCloser fun other within => ?_
      rcases List.mem_or_eq_of_mem_set within with kept | rfl
      · exact .inl kept
      · exact .inr requested
  | ensure beforeRun nonblocking threadStarts place =>
      have requested := order.ensuring pc member beforeRun nonblocking place
      refine (of_ensures (ensureBoundaryClosed_ensures _ threadStarts) requested).setCloser
        fun other within => ?_
      rcases List.mem_or_eq_of_mem_set within with kept | rfl
      · exact .inl kept
      · refine .inr fun _ _ same => ?_
        unfold afterEnsuring at same
        split at same <;> contradiction

theorem boundaryRun (order : ClosesInOrder world)
    (effect : BoundaryRunEffect world.runtime runtime) : ClosesInOrder { world with runtime } := by
  cases effect with
  | moves next calm leaves arrives requested =>
      have base := order.calm calm
      exact ⟨base.unstarted, base.started, base.ensuring,
        fun ensuring => requested (arrives.1.symm.trans ensuring), base.cleaning, base.launching,
        base.ensured⟩
  | ensure threadStarts place =>
      have base := of_ensures (ensureBoundaryClosed_ensures _ threadStarts)
        (order.runEnsuring place)
      exact ⟨base.unstarted, base.started, base.ensuring, nofun, base.cleaning, base.launching,
        base.ensured⟩
  | finish place =>
      exact ⟨order.unstarted, order.started, order.ensuring, nofun, order.cleaning,
        order.launching, order.ensured⟩

theorem cleanup (order : ClosesInOrder world) {move : RuntimeMove}
    (effect : CleanupEffect world.runtime move runtime) : ClosesInOrder { world with runtime } := by
  cases effect with
  | moves next calm leaves arrives stops =>
      have base := order.calm calm
      have running : world.runtime.cleanup ≠ .idle := fun idle => by
        rw [idle] at leaves
        exact absurd leaves.1 (by decide)
      exact ⟨base.unstarted, base.started, base.ensuring, base.runEnsuring,
        fun _ => base.cleaning running, base.launching, fun _ _ => base.ensured running leaves.2.1⟩
  | ensure threadStarts place =>
      have requested := order.cleaning (by rw [place]; nofun)
      have base := of_ensures (ensureBoundaryClosed_ensures _ threadStarts) requested
      exact ⟨base.unstarted, base.started, base.ensuring, base.runEnsuring,
        fun _ => base.started (ensureBoundaryClosed_ensures _ threadStarts).started,
        base.launching, fun _ _ => (ensureBoundaryClosed_ensures _ threadStarts).started⟩
  | finish place =>
      have running : world.runtime.cleanup ≠ .idle := by
        rw [place]
        nofun
      exact ⟨order.unstarted, order.started, order.ensuring, order.runEnsuring,
        fun _ => order.cleaning running, order.launching,
        fun _ _ => order.ensured running (by rw [place]; nofun)⟩

theorem boundaryCloser (order : ClosesInOrder world) {move : RuntimeMove}
    (advanced : world.runtime.advanceBoundaryCloser world.runtime.boundaryCloser move =
      some runtime) : ClosesInOrder { world with runtime } := by
  have begun (elsewhere : world.runtime.boundaryCloser ≠ .idle) :
      world.runtime.boundaryCloseStarted = true := by
    by_contra unstarted
    exact elsewhere (order.unstarted (by simpa using unstarted))
  unfold advanceBoundaryCloser at advanced
  split at advanced
  · next place =>
    cases advanced
    have started := begun (by rw [place]; nofun)
    exact ⟨fun unstarted => absurd (started.symm.trans unstarted) (by decide), order.started,
      order.ensuring, order.runEnsuring, order.cleaning, order.launching, order.ensured⟩
  · next place =>
    cases advanced
    have started := begun (by rw [place]; nofun)
    exact ⟨fun unstarted => absurd (started.symm.trans unstarted) (by decide), order.started,
      order.ensuring, order.runEnsuring, order.cleaning, order.launching, order.ensured⟩
  · next place =>
    cases advanced
    have started := begun (by rw [place]; nofun)
    exact ⟨fun unstarted => absurd (started.symm.trans unstarted) (by decide), order.started,
      order.ensuring, order.runEnsuring, order.cleaning, order.launching, order.ensured⟩
  · contradiction

theorem step (order : ClosesInOrder world) (stepped : world.step label = some after) :
    ClosesInOrder after := by
  cases label with
  | run =>
      cases stepped
      refine ⟨order.unstarted, order.started, order.ensuring, order.runEnsuring, order.cleaning,
        fun pc member interrupted same => ?_, order.ensured⟩
      rcases List.mem_append.mp member with kept | fresh
      · exact order.launching pc kept interrupted same
      · rw [List.mem_singleton.mp fresh] at same
        contradiction
  | runner index move =>
      simp only [RuntimeWorld.step] at stepped
      split at stepped
      · contradiction
      · next pc found =>
        obtain ⟨result, advanced, rfl⟩ := Option.map_eq_some_iff.mp stepped
        exact order.runner found (advanceRun_effect advanced)
  | close fromWorker =>
      cases stepped
      refine order.setCloser fun pc member => ?_
      rcases List.mem_append.mp member with kept | fresh
      · exact .inl kept
      · rw [List.mem_singleton.mp fresh]
        exact .inr (by simp)
  | fatal failure =>
      cases stepped
      refine order.setCloser fun pc member => ?_
      rcases List.mem_append.mp member with kept | fresh
      · exact .inl kept
      · rw [List.mem_singleton.mp fresh]
        exact .inr (by simp)
  | closer index move =>
      simp only [RuntimeWorld.step] at stepped
      split at stepped
      · contradiction
      · next pc found =>
        obtain ⟨result, advanced, rfl⟩ := Option.map_eq_some_iff.mp stepped
        exact order.closer found (advanceClose_cases advanced).effect
  | share failure =>
      cases stepped
      exact order.calm ⟨rfl, rfl, rfl, rfl, rfl, id, id⟩
  | boundaryCloser move =>
      obtain ⟨runtime, advanced, rfl⟩ := Option.map_eq_some_iff.mp stepped
      exact order.boundaryCloser advanced
  | boundaryRun move =>
      obtain ⟨runtime, advanced, rfl⟩ := Option.map_eq_some_iff.mp stepped
      exact order.boundaryRun (advanceBoundaryRun_effect advanced)
  | cleanup move =>
      obtain ⟨runtime, advanced, rfl⟩ := Option.map_eq_some_iff.mp stepped
      exact order.cleanup (advanceCleanup_effect advanced)
  | boundaryCloses =>
      cases stepped
      exact order.calm ⟨rfl, rfl, rfl, rfl, rfl, id, id⟩
  | boundaryWorkersStop =>
      simp only [RuntimeWorld.step] at stepped
      split at stepped
      · cases stepped
        exact order.calm ⟨rfl, rfl, rfl, rfl, rfl, id, id⟩
      · contradiction

end ClosesInOrder

theorem closesInOrder {hasOnStop : Bool} {world : RuntimeWorld}
    (reachable : (runtimeSystem hasOnStop).Reachable world) : ClosesInOrder world := by
  refine reachable.invariant ?_ fun _ _ _ order stepped => order.step stepped
  rintro first rfl
  exact ⟨fun _ => rfl, nofun, nofun, nofun, fun cleaning => absurd rfl cleaning, nofun,
    fun cleaning => absurd rfl cleaning⟩

/-- Threads whose outstanding calls are of `begin` alone. -/
def RuntimeThread.onlyBegins : RuntimeThread → Bool
  | .closer _ | .boundaryCloser | .boundaryRun => true
  | .runner _ | .cleanup => false

/-- A call that `_cleanup` makes between two of its regions. -/
def CleanupCall (runtime : ComposedStreamDockRuntime) (call : ShutdownCall) : Prop :=
  (∃ worker stopped, call = .worker (.workerStop worker) stopped ∧
    (worker = .scheduler → stopped = true → runtime.stopped .scheduler = true)) ∨
  ∃ stage active, call = .pending stage active ∧ stage ≠ .runtimeCleanup ∧ stage ≠ .boundaryClose

namespace ShutdownWorld

/-- What the threads have outstanding. -/
structure Owed (world : ShutdownWorld) : Prop where
  owes : ∀ (index : Nat) pc, world.runtime.runners[index]? = some pc →
    Owes pc (world.outstanding (.runner index))
  unborn : ∀ index : Nat, world.runtime.runners[index]? = none →
    world.outstanding (.runner index) = []
  begins : ∀ thread, thread.onlyBegins = true → ∀ call ∈ world.outstanding thread, call = .begin
  cleans : world.outstanding .cleanup ≠ [] → world.runtime.runtime.cleanup.inside = true
  cleanCalls : ∀ call ∈ world.outstanding .cleanup, CleanupCall world.runtime.runtime call
  unstarted : ∀ index, .worker .boundaryRun true ∈ world.outstanding (.runner index) →
    world.runtime.runtime.boundaryRun = .idle

/-- What the tables say of the threads. -/
structure Tabled (world : ShutdownWorld) : Prop where
  launching : ∀ (index : Nat) interrupted,
    world.runtime.runners[index]? = some (.launchingCleanup interrupted) →
    world.outstanding (.runner index) = [] → .runtimeCleanup ∈ world.shutdown.pending
  cleaning : world.runtime.runtime.cleanup.inside = true →
    .runtimeCleanup ∈ world.shutdown.pending
  starting : ∀ index : Nat, world.runtime.runners[index]? = some .startingBoundary →
    world.outstanding (.runner index) = [] → (.boundaryRun, false) ∈ world.shutdown.workers
  running : world.runtime.runtime.boundaryRun.active = true →
    (.boundaryRun, false) ∈ world.shutdown.workers
  covered : world.shutdown.Knows (.workerStop .scheduler) →
    (.workerStop .scheduler, false) ∈ world.shutdown.workers ∨
      .runtimeCleanup ∈ world.shutdown.pending ∨ world.runtime.runtime.cleanup = .finished
  closing : world.runtime.runtime.boundaryCloseStarted = true →
    .boundaryClose ∈ world.shutdown.pending ∨ world.runtime.runtime.boundaryCloser = .finished
  stopped : (.workerStop .scheduler, true) ∈ world.shutdown.workers →
    world.runtime.runtime.stopped .scheduler = true
  callbacks : world.activeCallbacks ≠ 0 → world.runtime.runtime.attempted .scheduler = true ∧
    world.runtime.runtime.stopped .scheduler = false

variable {world : ShutdownWorld} {call : ShutdownCall}

/-- A call that takes away none of what the tables have to say. -/
structure Permitted (world : ShutdownWorld) (call : ShutdownCall) : Prop where
  cleanup : call ≠ .pending .runtimeCleanup false
  close : call ≠ .pending .boundaryClose false
  run : call = .worker .boundaryRun true → world.runtime.runtime.boundaryRun.active = false ∧
    ∀ index : Nat, world.runtime.runners[index]? ≠ some .startingBoundary
  scheduler : call = .worker (.workerStop .scheduler) true →
    .runtimeCleanup ∈ world.shutdown.pending ∧ world.runtime.runtime.stopped .scheduler = true

/-- A call that changes nothing that the tables say of the runtime's own threads. -/
theorem permitted_of_boundary (ofBoundary : ofBoundary call = true) : world.Permitted call := by
  cases call with
  | begin => exact ⟨nofun, nofun, nofun, nofun⟩
  | worker stage stopped =>
      refine ⟨nofun, nofun, fun same => ?_, fun same => ?_⟩ <;>
        · cases same
          contradiction
  | pending stage active =>
      refine ⟨fun same => ?_, fun same => ?_, nofun, nofun⟩ <;>
        · cases same
          contradiction

open ShutdownState in
theorem Tabled.apply (tabled : world.Tabled) (permitted : world.Permitted call) :
    { world with shutdown := world.shutdown.apply call }.Tabled := by
  have cleanup (pending : .runtimeCleanup ∈ world.shutdown.pending) :
      .runtimeCleanup ∈ (world.shutdown.apply call).pending :=
    mem_pending_apply.mpr (.inr ⟨pending, permitted.cleanup⟩)
  have unstopped (free : call ≠ .worker .boundaryRun true)
      (member : (.boundaryRun, false) ∈ world.shutdown.workers) :
      (.boundaryRun, false) ∈ (world.shutdown.apply call).workers := by
    refine mem_workers_apply.mpr ?_
    by_cases same : call = .worker .boundaryRun false
    · exact .inl same
    · refine .inr ⟨member, fun value => ?_⟩
      cases value with
      | true => exact free
      | false => exact same
  refine ⟨fun index interrupted found paid => cleanup (tabled.launching index interrupted found paid),
    fun inside => cleanup (tabled.cleaning inside), fun index found paid => ?_, fun active => ?_,
    fun knows => ?_, fun started => ?_, fun member => ?_, tabled.callbacks⟩
  · exact unstopped (fun same => (permitted.run same).2 index found)
      (tabled.starting index found paid)
  · refine unstopped (fun same => ?_) (tabled.running active)
    rw [(permitted.run same).1] at active
    contradiction
  · obtain ⟨stopped, member⟩ := knows
    rcases mem_workers_apply.mp member with same | ⟨known, other⟩
    · cases stopped with
      | true => exact .inr (.inl (cleanup (permitted.scheduler same).1))
      | false => exact .inl member
    · rcases tabled.covered ⟨stopped, known⟩ with unstopped | pending | finished
      · exact .inl (mem_workers_apply.mpr (.inr ⟨unstopped, other⟩))
      · exact .inr (.inl (cleanup pending))
      · exact .inr (.inr finished)
  · exact (tabled.closing started).imp_left fun pending =>
      mem_pending_apply.mpr (.inr ⟨pending, permitted.close⟩)
  · rcases mem_workers_apply.mp member with same | ⟨known, -⟩
    · exact (permitted.scheduler same).2
    · exact tabled.stopped known

theorem Owed.permitted (owed : world.Owed) (tabled : world.Tabled)
    (sound : RuntimeSound world.runtime) {thread : RuntimeThread} {rest : List ShutdownCall}
    (outstanding : world.outstanding thread = call :: rest) : world.Permitted call := by
  have member : call ∈ world.outstanding thread := by
    rw [outstanding]
    exact List.mem_cons_self
  cases thread with
  | closer | boundaryCloser | boundaryRun =>
      rw [owed.begins _ rfl call member]
      exact permitted_of_boundary rfl
  | cleanup =>
      have inside := owed.cleans (by rw [outstanding]; nofun)
      rcases owed.cleanCalls call member with ⟨worker, stopped, rfl, scheduler⟩ |
        ⟨stage, active, rfl, notCleanup, notClose⟩
      · refine ⟨nofun, nofun, nofun, fun same => ?_⟩
        cases same
        exact ⟨tabled.cleaning inside, scheduler rfl rfl⟩
      · refine ⟨fun same => ?_, fun same => ?_, nofun, nofun⟩
        · cases same
          exact notCleanup rfl
        · cases same
          exact notClose rfl
  | runner index =>
      cases found : world.runtime.runners[index]? with
      | none =>
          rw [owed.unborn index found] at outstanding
          contradiction
      | some pc =>
          have owes := owed.owes index pc found
          rw [outstanding] at owes
          cases owes with
          | scheduler | pump | boundary | cleanup | cleanupOnly =>
              exact ⟨nofun, nofun, nofun, nofun⟩
          | unstarted place =>
              refine ⟨nofun, nofun, fun _ => ⟨?_, fun other starting => ?_⟩, nofun⟩
              · rw [owed.unstarted index member]
                rfl
              · have entered : pc.entered = true := by
                  rcases place with rfl | rfl <;> rfl
                have same := sound.sole index other pc _ found entered starting rfl
                rw [← same, found] at starting
                rcases place with rfl | rfl <;> contradiction

/-- A thread makes the next of its calls. -/
theorem Tabled.setOutstanding (tabled : world.Tabled) {thread : RuntimeThread}
    {rest : List ShutdownCall}
    (launching : rest = [] → ∀ (index : Nat) interrupted, thread = .runner index →
      world.runtime.runners[index]? = some (.launchingCleanup interrupted) →
      .runtimeCleanup ∈ world.shutdown.pending)
    (starting : rest = [] → ∀ index : Nat, thread = .runner index →
      world.runtime.runners[index]? = some .startingBoundary →
      (.boundaryRun, false) ∈ world.shutdown.workers) :
    (world.setOutstanding thread rest).Tabled := by
  refine ⟨fun index interrupted found paid => ?_, tabled.cleaning, fun index found paid => ?_,
    tabled.running, tabled.covered, tabled.closing, tabled.stopped, tabled.callbacks⟩
  · simp only [ShutdownWorld.setOutstanding] at paid
    split at paid
    · next same => exact launching paid index interrupted same.symm found
    · exact tabled.launching index interrupted found paid
  · simp only [ShutdownWorld.setOutstanding] at paid
    split at paid
    · next same => exact starting paid index same.symm found
    · exact tabled.starting index found paid

theorem Owed.setOutstanding (owed : world.Owed) {thread : RuntimeThread}
    {rest : List ShutdownCall}
    (fewer : ∀ call ∈ rest, call ∈ world.outstanding thread)
    (owes : ∀ (index : Nat) pc, thread = .runner index →
      world.runtime.runners[index]? = some pc → Owes pc rest) :
    (world.setOutstanding thread rest).Owed := by
  have subset (other : RuntimeThread) : ∀ call ∈ (world.setOutstanding thread rest).outstanding other,
      call ∈ world.outstanding other := by
    intro call member
    simp only [ShutdownWorld.setOutstanding] at member
    split at member
    · next same => exact same ▸ fewer call member
    · exact member
  have empty {other : RuntimeThread} (none : world.outstanding other = []) :
      (world.setOutstanding thread rest).outstanding other = [] :=
    List.eq_nil_iff_forall_not_mem.mpr fun call member => by
      have within := subset other call member
      rw [none] at within
      contradiction
  refine ⟨fun index pc found => ?_, fun index absent => empty (owed.unborn index absent),
    fun other only call member => owed.begins other only call (subset other call member),
    fun some_ => owed.cleans fun none => some_ (empty none),
    fun call member => owed.cleanCalls call (subset _ call member),
    fun index member => owed.unstarted index (subset _ _ member)⟩
  simp only [ShutdownWorld.setOutstanding]
  split
  · next same => exact owes index pc same.symm found
  · exact owed.owes index pc found

open ShutdownState in
/-- A thread makes its next call. -/
theorem Owed.pays (owed : world.Owed) (tabled : world.Tabled)
    (sound : RuntimeSound world.runtime) {thread : RuntimeThread} {rest : List ShutdownCall}
    (outstanding : world.outstanding thread = call :: rest) :
    ({ world with shutdown := world.shutdown.apply call }.setOutstanding thread rest).Owed ∧
      ({ world with shutdown := world.shutdown.apply call }.setOutstanding thread rest).Tabled := by
  have owes (index : Nat) (pc : RunPc) (same : thread = .runner index)
      (found : world.runtime.runners[index]? = some pc) : Owes pc (call :: rest) := by
    rw [← outstanding, same]
    exact owed.owes index pc found
  constructor
  · have kept : { world with shutdown := world.shutdown.apply call }.Owed :=
      ⟨owed.owes, owed.unborn, owed.begins, owed.cleans, owed.cleanCalls, owed.unstarted⟩
    refine kept.setOutstanding (fun other member => ?_) fun index pc same found =>
      (owes index pc same found).tail
    show other ∈ world.outstanding thread
    rw [outstanding]
    exact List.mem_cons_of_mem _ member
  · refine (tabled.apply (owed.permitted tabled sound outstanding)).setOutstanding
      (fun last index interrupted same found => ?_) fun last index same found => ?_
    · have paid := owes index _ same found
      subst last
      cases paid with
      | cleanupOnly => exact mem_pending_apply.mpr (.inl rfl)
      | unstarted place => rcases place with place | place <;> contradiction
      | pump worker place => cases worker <;> contradiction
    · have paid := owes index _ same found
      subst last
      cases paid with
      | boundary => exact mem_workers_apply.mpr (.inl rfl)
      | unstarted place => rcases place with place | place <;> contradiction
      | pump worker place => cases worker <;> contradiction

end ShutdownWorld

end StreamDockSdk.Runtime
