import StreamDockSdk.Runtime.Shutdown.Tracking

namespace StreamDockSdk.Runtime

open Automaton
open ComposedStreamDockRuntime

namespace ShutdownWorld

variable {world : ShutdownWorld} {runtime : ComposedStreamDockRuntime}

theorem Owed.calm (owed : world.Owed) (calm : Calm world.runtime.runtime runtime) :
    { world with runtime := { world.runtime with runtime } }.Owed where
  owes := owed.owes
  unborn := owed.unborn
  begins := owed.begins
  cleans some_ := calm.cleanup ▸ owed.cleans some_
  cleanCalls call member := by
    rcases owed.cleanCalls call member with ⟨worker, stopped, same, scheduler⟩ | pending
    · exact .inl ⟨worker, stopped, same, fun named true_ =>
        (congrFun calm.stopped _).trans (scheduler named true_)⟩
    · exact .inr pending
  unstarted index member := calm.boundaryRun.trans (owed.unstarted index member)

theorem Tabled.calm (tabled : world.Tabled) (calm : Calm world.runtime.runtime runtime) :
    { world with runtime := { world.runtime with runtime } }.Tabled where
  launching := tabled.launching
  cleaning inside := tabled.cleaning (calm.cleanup ▸ inside)
  starting := tabled.starting
  running active := tabled.running (calm.boundaryRun ▸ active)
  covered knows := (tabled.covered knows).imp_right (Or.imp_right calm.cleanup.trans)
  closing started := (tabled.closing (calm.started ▸ started)).imp_right calm.closer.trans
  stopped member := (congrFun calm.stopped _).trans (tabled.stopped member)
  callbacks active := ⟨calm.attempted (tabled.callbacks active).1,
    (congrFun calm.stopped _).trans (tabled.callbacks active).2⟩

/-- While one call of `run_forever` is let in, the others owe nothing. -/
theorem Owed.silent (owed : world.Owed) (sound : RuntimeSound world.runtime) {index : Nat}
    {pc : RunPc} (found : world.runtime.runners[index]? = some pc) (entered : pc.entered = true)
    {other : Nat} (different : other ≠ index) : world.outstanding (.runner other) = [] := by
  cases located : world.runtime.runners[other]? with
  | none => exact owed.unborn other located
  | some place =>
      by_contra some_
      have early := (owed.owes other place located).early some_
      exact different (sound.sole other index place pc located early.1 found entered)

theorem runner_owed (owed : world.Owed) (sound : RuntimeSound world.runtime) {index : Nat}
    {pc next : RunPc} {calls : List ShutdownCall}
    (found : world.runtime.runners[index]? = some pc)
    (effect : RunEffect world.runtime.runtime pc runtime next calls) :
    ({ world with runtime := { world.runtime with
      runtime, runners := world.runtime.runners.set index next } }.setOutstanding
        (.runner index) calls).Owed := by
  have within : index < world.runtime.runners.length := (List.getElem?_eq_some_iff.mp found).1
  have fact (entered : pc.entered = true) : world.runtime.runtime.RunFact pc :=
    sound.runs pc (List.mem_of_getElem? found) entered
  have owesNext : Owes next calls := by
    cases effect with
    | calm _ owes => exact owes
    | startBoundary | launch => exact .nothing _
  refine ⟨fun other place located => ?_, fun other absent => ?_, fun thread only => ?_,
    fun some_ => ?_, fun call member => ?_, fun other member => ?_⟩
  · replace located : (world.runtime.runners.set index next)[other]? = some place := located
    rw [getElem?_set_found found] at located
    simp only [setOutstanding]
    split at located
    · next same =>
      subst same
      cases located
      rw [if_pos rfl]
      exact owesNext
    · next different =>
      rw [if_neg (by simpa using different)]
      exact owed.owes other place located
  · replace absent : (world.runtime.runners.set index next)[other]? = none := absent
    rw [getElem?_set_found found] at absent
    simp only [setOutstanding]
    split at absent
    · contradiction
    · next different =>
      rw [if_neg (by simpa using different)]
      exact owed.unborn other absent
  · simp only [setOutstanding]
    split
    · next same =>
      subst same
      contradiction
    · exact owed.begins thread only
  · simp only [setOutstanding] at some_
    have inside := owed.cleans (by simpa using some_)
    cases effect with
    | calm calm => exact (congrArg CleanupPc.inside calm.cleanup).trans inside
    | startBoundary place => exact inside
    | launch interrupted place => rfl
  · simp only [setOutstanding] at member
    have clean := owed.cleanCalls call (by simpa using member)
    cases effect with
    | calm calm =>
        rcases clean with ⟨worker, stopped, same, scheduler⟩ | pending
        · exact .inl ⟨worker, stopped, same, fun named true_ =>
            (congrFun calm.stopped _).trans (scheduler named true_)⟩
        · exact .inr pending
    | startBoundary place => exact clean
    | launch interrupted place => exact clean
  · simp only [setOutstanding] at member
    split at member
    · next same =>
      cases effect with
      | calm calm owes boundary cleanup unstarted =>
          have place := unstarted member
          subst place
          exact calm.boundaryRun.trans ((fact rfl).idle rfl)
      | startBoundary place => contradiction
      | launch interrupted place => contradiction
    · next different =>
      have idle := owed.unstarted other member
      cases effect with
      | calm calm => exact calm.boundaryRun.trans idle
      | startBoundary place =>
          subst place
          rw [owed.silent sound found rfl (by simpa using different)] at member
          contradiction
      | launch interrupted place => exact idle

theorem runner_tabled (tabled : world.Tabled)
    (sound : RuntimeSound world.runtime) {index : Nat} {pc next : RunPc}
    {calls : List ShutdownCall} (found : world.runtime.runners[index]? = some pc)
    (paid : world.outstanding (.runner index) = [])
    (effect : RunEffect world.runtime.runtime pc runtime next calls) :
    ({ world with runtime := { world.runtime with
      runtime, runners := world.runtime.runners.set index next } }.setOutstanding
        (.runner index) calls).Tabled := by
  have fact (entered : pc.entered = true) : world.runtime.runtime.RunFact pc :=
    sound.runs pc (List.mem_of_getElem? found) entered
  -- the call of another runner is where it was
  have elsewhere {other : Nat} {place : RunPc}
      (located : (world.runtime.runners.set index next)[other]? = some place)
      (unpaid : (if RuntimeThread.runner other = .runner index then calls
        else world.outstanding (.runner other)) = []) :
      other = index ∧ place = next ∧ calls = [] ∨
        world.runtime.runners[other]? = some place ∧ world.outstanding (.runner other) = [] := by
    rw [getElem?_set_found found] at located
    split at located
    · next same =>
      subst same
      rw [if_pos rfl] at unpaid
      exact .inl ⟨rfl, (Option.some.inj located).symm, unpaid⟩
    · next different =>
      rw [if_neg (by simpa using different)] at unpaid
      exact .inr ⟨located, unpaid⟩
  have launching (fresh : ∀ interrupted, next = .launchingCleanup interrupted → calls ≠ [])
      (other : Nat) (interrupted : Bool)
      (located : (world.runtime.runners.set index next)[other]? =
        some (.launchingCleanup interrupted))
      (unpaid : (if RuntimeThread.runner other = .runner index then calls
        else world.outstanding (.runner other)) = []) :
      .runtimeCleanup ∈ world.shutdown.pending := by
    rcases elsewhere located unpaid with ⟨-, same, none⟩ | ⟨there, none⟩
    · exact absurd none (fresh interrupted same.symm)
    · exact tabled.launching other interrupted there none
  have starting (fresh : next = .startingBoundary → calls ≠ []) (other : Nat)
      (located : (world.runtime.runners.set index next)[other]? = some .startingBoundary)
      (unpaid : (if RuntimeThread.runner other = .runner index then calls
        else world.outstanding (.runner other)) = []) :
      (.boundaryRun, false) ∈ world.shutdown.workers := by
    rcases elsewhere located unpaid with ⟨-, same, none⟩ | ⟨there, none⟩
    · exact absurd none (fresh same.symm)
    · exact tabled.starting other there none
  cases effect with
  | calm calm owes boundary cleanup unstarted =>
      have kept := tabled.calm calm
      exact ⟨launching fun interrupted same => (cleanup interrupted same).1, kept.cleaning,
        starting boundary, kept.running, kept.covered, kept.closing, kept.stopped, kept.callbacks⟩
  | startBoundary place =>
      subst place
      exact ⟨launching nofun, tabled.cleaning, starting nofun,
        fun _ => tabled.starting index found paid, tabled.covered, tabled.closing, tabled.stopped,
        tabled.callbacks⟩
  | launch interrupted place =>
      subst place
      have idle := (fact rfl).unlaunched rfl
      have pending := tabled.launching index interrupted found paid
      exact ⟨launching nofun, fun _ => pending, starting nofun, tabled.running,
        fun _ => .inr (.inl pending), tabled.closing, tabled.stopped, tabled.callbacks⟩

theorem Owed.setShutdown (owed : world.Owed) (shutdown : ShutdownState) :
    { world with shutdown }.Owed :=
  ⟨owed.owes, owed.unborn, owed.begins, owed.cleans, owed.cleanCalls, owed.unstarted⟩

theorem Owed.ensure (owed : world.Owed) (ensures : Ensures world.runtime.runtime runtime) :
    { world with runtime := { world.runtime with runtime } }.Owed where
  owes := owed.owes
  unborn := owed.unborn
  begins := owed.begins
  cleans some_ := ensures.cleanup ▸ owed.cleans some_
  cleanCalls call member := by
    rcases owed.cleanCalls call member with ⟨worker, stopped, same, scheduler⟩ | pending
    · exact .inl ⟨worker, stopped, same, fun named true_ =>
        (congrFun ensures.stopped _).trans (scheduler named true_)⟩
    · exact .inr pending
  unstarted index member := ensures.boundaryRun.trans (owed.unstarted index member)

theorem Tabled.ensure (tabled : world.Tabled) (threadStarts : Bool) :
    { world with
      runtime := { world.runtime with
        runtime := world.runtime.runtime.ensureBoundaryClosed threadStarts }
      shutdown := world.shutdown.applyAll (ensureCalls world.runtime.runtime) }.Tabled := by
  have ensures := ensureBoundaryClosed_ensures world.runtime.runtime threadStarts
  have begun : { world with shutdown := world.shutdown.apply .begin }.Tabled :=
    tabled.apply (permitted_of_boundary rfl)
  unfold ensureCalls
  split
  · next started =>
    refine ⟨begun.launching, fun inside => begun.cleaning (ensures.cleanup ▸ inside),
      begun.starting, fun active => begun.running (ensures.boundaryRun ▸ active),
      fun knows => (begun.covered knows).imp_right (Or.imp_right ensures.cleanup.trans),
      fun _ => (begun.closing started).imp_right (ensures.closer started).trans,
      fun member => (congrFun ensures.stopped _).trans (begun.stopped member), fun active => ?_⟩
    exact ⟨(congrFun ensures.attempted _).trans (begun.callbacks active).1,
      (congrFun ensures.stopped _).trans (begun.callbacks active).2⟩
  · have permitted : Permitted { world with shutdown := world.shutdown.apply .begin }
        (.pending .boundaryClose true) := ⟨nofun, nofun, nofun, nofun⟩
    have base := begun.apply permitted
    refine ⟨base.launching, fun inside => base.cleaning (ensures.cleanup ▸ inside),
      base.starting, fun active => base.running (ensures.boundaryRun ▸ active),
      fun knows => (base.covered knows).imp_right (Or.imp_right ensures.cleanup.trans),
      fun _ => .inl (ShutdownState.mem_pending_apply.mpr (.inl rfl)),
      fun member => (congrFun ensures.stopped _).trans (base.stopped member), fun active => ?_⟩
    exact ⟨(congrFun ensures.attempted _).trans (base.callbacks active).1,
      (congrFun ensures.stopped _).trans (base.callbacks active).2⟩

theorem Owed.setBoundaryRun (owed : world.Owed)
    (active : world.runtime.runtime.boundaryRun.active = true) (next : BoundaryRunPc)
    (complete : Bool) :
    { world with runtime := { world.runtime with runtime := { world.runtime.runtime with
      boundaryRun := next, boundaryRunComplete := complete } } }.Owed where
  owes := owed.owes
  unborn := owed.unborn
  begins := owed.begins
  cleans := owed.cleans
  cleanCalls := owed.cleanCalls
  unstarted index member := by
    rw [owed.unstarted index member] at active
    contradiction

theorem Tabled.setBoundaryRun (tabled : world.Tabled)
    (active : world.runtime.runtime.boundaryRun.active = true) (next : BoundaryRunPc)
    (complete : Bool) :
    { world with runtime := { world.runtime with runtime := { world.runtime.runtime with
      boundaryRun := next, boundaryRunComplete := complete } } }.Tabled where
  launching := tabled.launching
  cleaning := tabled.cleaning
  starting := tabled.starting
  running _ := tabled.running active
  covered := tabled.covered
  closing := tabled.closing
  stopped := tabled.stopped
  callbacks := tabled.callbacks

/-- While the boundary runs, no call of `run_forever` is before its start. -/
theorem not_startingBoundary (sound : RuntimeSound world.runtime)
    (active : world.runtime.runtime.boundaryRun.active = true) (index : Nat) :
    world.runtime.runners[index]? ≠ some .startingBoundary := by
  intro found
  have idle := (sound.runs _ (List.mem_of_getElem? found) rfl).idle rfl
  rw [idle] at active
  contradiction

theorem boundaryRun_step (owed : world.Owed) (tabled : world.Tabled)
    (sound : RuntimeSound world.runtime) (move : RuntimeMove)
    (effect : BoundaryRunEffect world.runtime.runtime runtime) :
    { world with
      runtime := { world.runtime with runtime }
      shutdown := world.shutdown.applyAll (world.runtime.regionCalls (.boundaryRun move)) }.Owed ∧
    { world with
      runtime := { world.runtime with runtime }
      shutdown :=
        world.shutdown.applyAll (world.runtime.regionCalls (.boundaryRun move)) }.Tabled := by
  cases effect with
  | moves next calm leaves arrives requested =>
      have none : world.runtime.regionCalls (.boundaryRun move) = [] := by
        simp only [RuntimeWorld.regionCalls]
        split
        · next place => exact absurd place leaves.2.1
        · next place => exact absurd place leaves.2.2
        · rfl
      rw [none]
      have owedCalm := (owed.calm calm).setBoundaryRun leaves.1 runtime.boundaryRun
        runtime.boundaryRunComplete
      have tabledCalm := (tabled.calm calm).setBoundaryRun leaves.1 runtime.boundaryRun
        runtime.boundaryRunComplete
      exact ⟨owedCalm, tabledCalm⟩
  | ensure threadStarts place =>
      have region : world.runtime.regionCalls (.boundaryRun move) =
          ensureCalls world.runtime.runtime := by
        simp only [RuntimeWorld.regionCalls, place]
      have ensures := ensureBoundaryClosed_ensures world.runtime.runtime threadStarts
      have active : (world.runtime.runtime.ensureBoundaryClosed threadStarts).boundaryRun.active =
          true := by
        rw [ensures.boundaryRun, place]
        rfl
      rw [region]
      exact ⟨((owed.ensure ensures).setShutdown _).setBoundaryRun active .finishing _,
        (tabled.ensure threadStarts).setBoundaryRun active .finishing _⟩
  | finish place =>
      have region : world.runtime.regionCalls (.boundaryRun move) =
          [.worker .boundaryRun true] := by
        simp only [RuntimeWorld.regionCalls, place]
      have active : world.runtime.runtime.boundaryRun.active = true := by
        rw [place]
        rfl
      rw [region]
      refine ⟨(owed.setBoundaryRun active .finished true).setShutdown _,
        (tabled.setBoundaryRun active .finished true).apply
          (?_ : Permitted _ (.worker .boundaryRun true))⟩
      have early := not_startingBoundary sound active
      exact ⟨nofun, nofun, fun _ => ⟨rfl, early⟩, nofun⟩

open ShutdownState in
theorem boundaryCloser_step (owed : world.Owed) (tabled : world.Tabled) {move : RuntimeMove}
    (advanced : world.runtime.runtime.advanceBoundaryCloser world.runtime.runtime.boundaryCloser
      move = some runtime) :
    { world with
      runtime := { world.runtime with runtime }
      shutdown :=
        world.shutdown.applyAll (world.runtime.regionCalls (.boundaryCloser move)) }.Owed ∧
    { world with
      runtime := { world.runtime with runtime }
      shutdown :=
        world.shutdown.applyAll (world.runtime.regionCalls (.boundaryCloser move)) }.Tabled := by
  have finishes (place : world.runtime.runtime.boundaryCloser = .closing) :
      { world with
        runtime := { world.runtime with runtime := { world.runtime.runtime with
          boundaryCloseComplete := true, boundaryCloser := .finished } }
        shutdown := world.shutdown.apply (.pending .boundaryClose false) }.Tabled := by
    have cleanup (pending : .runtimeCleanup ∈ world.shutdown.pending) :
        .runtimeCleanup ∈ (world.shutdown.apply (.pending .boundaryClose false)).pending :=
      mem_pending_apply.mpr (.inr ⟨pending, nofun⟩)
    exact ⟨fun index interrupted found paid =>
        cleanup (tabled.launching index interrupted found paid),
      fun inside => cleanup (tabled.cleaning inside), tabled.starting, tabled.running,
      fun knows => (tabled.covered knows).imp_right (Or.imp_left cleanup), fun _ => .inr rfl,
      tabled.stopped, tabled.callbacks⟩
  unfold advanceBoundaryCloser at advanced
  split at advanced
  · next place =>
    cases advanced
    simp only [RuntimeWorld.regionCalls, place]
    refine ⟨⟨owed.owes, owed.unborn, owed.begins, owed.cleans, owed.cleanCalls, owed.unstarted⟩,
      tabled.launching, tabled.cleaning, tabled.starting, tabled.running, tabled.covered,
      fun started => .inl ?_, tabled.stopped, tabled.callbacks⟩
    exact (tabled.closing started).resolve_right (by rw [place]; nofun)
  · next place =>
    cases advanced
    simp only [RuntimeWorld.regionCalls, place]
    exact ⟨⟨owed.owes, owed.unborn, owed.begins, owed.cleans, owed.cleanCalls, owed.unstarted⟩,
      finishes place⟩
  · next place =>
    cases advanced
    simp only [RuntimeWorld.regionCalls, place]
    exact ⟨⟨owed.owes, owed.unborn, owed.begins, owed.cleans, owed.cleanCalls, owed.unstarted⟩,
      finishes place⟩
  · contradiction

theorem CleanupPc.stage_ne {hasOnStop : Bool} {pc : CleanupPc} {stage : ShutdownStage}
    (pending : pc.stage hasOnStop = some stage) : stage ≠ .runtimeCleanup ∧ stage ≠ .boundaryClose := by
  unfold Runtime.CleanupPc.stage at pending
  split at pending
  · cases pending
    exact ⟨nofun, nofun⟩
  · cases pending
    exact ⟨nofun, nofun⟩
  · split at pending
    · cases pending
      exact ⟨nofun, nofun⟩
    · contradiction
  · split at pending
    · cases pending
      exact ⟨nofun, nofun⟩
    · contradiction
  · contradiction

theorem stopCalls_cleanup {pc : CleanupPc} {move : RuntimeMove} {call : ShutdownCall}
    (member : call ∈ stopCalls pc move)
    (stops : StopsScheduler pc move → runtime.stopped .scheduler = true) :
    CleanupCall runtime call := by
  unfold stopCalls at member
  split at member
  · rw [List.mem_singleton.mp member]
    refine .inl ⟨_, _, rfl, fun scheduler true_ => stops ⟨.inl ?_, ?_⟩⟩
    · rw [scheduler]
    · rw [true_]
  · rw [List.mem_singleton.mp member]
    refine .inl ⟨_, _, rfl, fun scheduler true_ => stops ⟨.inr ?_, ?_⟩⟩
    · rw [scheduler]
    · rw [true_]
  · rw [List.mem_singleton.mp member]
    exact .inl ⟨_, _, rfl, nofun⟩
  · rw [List.mem_singleton.mp member]
    exact .inl ⟨_, _, rfl, nofun⟩
  · contradiction

theorem cleanupCalls_cleanup {hasOnStop : Bool} {pc next : CleanupPc} {move : RuntimeMove}
    {call : ShutdownCall} (member : call ∈ cleanupCalls hasOnStop pc move next)
    (stops : StopsScheduler pc move → runtime.stopped .scheduler = true) :
    CleanupCall runtime call := by
  have pending {place : CleanupPc} {active : Bool}
      (within : call ∈ (place.stage hasOnStop).toList.map
        fun stage => ShutdownCall.pending stage active) : CleanupCall runtime call := by
    obtain ⟨stage, listed, rfl⟩ := List.mem_map.mp within
    have apart := CleanupPc.stage_ne (Option.mem_toList.mp listed)
    exact .inr ⟨stage, active, rfl, apart⟩
  rcases List.mem_append.mp member with front | entering
  · rcases List.mem_append.mp front with leaving | stopping
    · exact pending leaving
    · exact stopCalls_cleanup stopping stops
  · exact pending entering

/-- What the cleanup thread has outstanding after a step, when it had paid before. -/
theorem Owed.setCleanup (owed : world.Owed) {after : ComposedStreamDockRuntime}
    {calls : List ShutdownCall} {shutdown : ShutdownState}
    (boundaryRun : after.boundaryRun = world.runtime.runtime.boundaryRun)
    (inside : calls ≠ [] → after.cleanup.inside = true)
    (cleans : ∀ call ∈ calls, CleanupCall after call) :
    ({ world with
      runtime := { world.runtime with runtime := after }
      shutdown }.setOutstanding .cleanup calls).Owed := by
  refine ⟨fun index pc found => ?_, fun index absent => ?_, fun thread only => ?_,
    fun some_ => inside (by simpa using some_), fun call member => cleans call (by simpa using member),
    fun index member => boundaryRun.trans (owed.unstarted index (by simpa using member))⟩
  · simpa using owed.owes index pc found
  · simpa using owed.unborn index absent
  · have other : thread ≠ .cleanup := by
      rintro rfl
      contradiction
    simpa [other] using owed.begins thread only

open ShutdownState in
theorem cleanup_step (owed : world.Owed) (tabled : world.Tabled)
    (sound : RuntimeSound world.runtime) {move : RuntimeMove}
    (guarded : StopsScheduler world.runtime.runtime.cleanup move → world.activeCallbacks = 0)
    (effect : CleanupEffect world.runtime.runtime move runtime) :
    ({ world with
      runtime := { world.runtime with runtime }
      shutdown := world.shutdown.applyAll
        (world.runtime.regionCalls (.cleanup move)) }.setOutstanding .cleanup
          (cleanupCalls world.runtime.runtime.hasOnStop world.runtime.runtime.cleanup move
            runtime.cleanup)).Owed ∧
    ({ world with
      runtime := { world.runtime with runtime }
      shutdown := world.shutdown.applyAll
        (world.runtime.regionCalls (.cleanup move)) }.setOutstanding .cleanup
          (cleanupCalls world.runtime.runtime.hasOnStop world.runtime.runtime.cleanup move
            runtime.cleanup)).Tabled := by
  cases effect with
  | moves next calm leaves arrives stops =>
      have none : world.runtime.regionCalls (.cleanup move) = [] := by
        simp only [RuntimeWorld.regionCalls]
        split
        · next place => exact absurd place leaves.2.1
        · next place => exact absurd place leaves.2.2
        · rfl
      have inside : runtime.cleanup.inside = true := by
        rw [arrives.1]
        exact arrives.2.1
      have pending := tabled.cleaning leaves.1
      rw [none]
      refine ⟨owed.setCleanup calm.boundaryRun (fun _ => inside)
        fun call member => cleanupCalls_cleanup member fun stopping => stops.mpr (.inr stopping), ?_⟩
      have callbacks (active : world.activeCallbacks ≠ 0) :
          runtime.attempted .scheduler = true ∧ runtime.stopped .scheduler = false := by
        obtain ⟨attempted, unstopped⟩ := tabled.callbacks active
        refine ⟨calm.attempted attempted, ?_⟩
        by_contra stopped
        rcases stops.mp (by simpa using stopped) with before | stopping
        · exact Bool.false_ne_true (unstopped.symm.trans before)
        · exact active (guarded stopping)
      have kept : { world with runtime := { world.runtime with runtime } }.Tabled :=
        ⟨tabled.launching, fun _ => pending, tabled.starting,
          fun active => tabled.running (calm.boundaryRun ▸ active), fun _ => .inr (.inl pending),
          fun started => (tabled.closing (calm.started ▸ started)).imp_right calm.closer.trans,
          fun member => stops.mpr (.inl (tabled.stopped member)), callbacks⟩
      exact kept.setOutstanding nofun nofun
  | ensure threadStarts place =>
      have region : world.runtime.regionCalls (.cleanup move) =
          ensureCalls world.runtime.runtime := by
        simp only [RuntimeWorld.regionCalls, place]
      have ensures := ensureBoundaryClosed_ensures world.runtime.runtime threadStarts
      have base := tabled.ensure threadStarts
      have pending := base.cleaning (by rw [ensures.cleanup, place]; rfl)
      rw [region, place]
      refine ⟨owed.setCleanup ensures.boundaryRun (fun _ => rfl)
        fun call member => cleanupCalls_cleanup member ?_, ?_⟩
      · rintro ⟨place | place, -⟩ <;> contradiction
      · have kept : { world with
            runtime := { world.runtime with runtime :=
              { world.runtime.runtime.ensureBoundaryClosed threadStarts with
                cleanup := .awaitingClose } }
            shutdown := world.shutdown.applyAll (ensureCalls world.runtime.runtime) }.Tabled :=
          ⟨base.launching, fun _ => pending, base.starting, base.running,
            fun _ => .inr (.inl pending), base.closing, base.stopped, base.callbacks⟩
        exact kept.setOutstanding nofun nofun
  | finish place =>
      have region : world.runtime.regionCalls (.cleanup move) =
          [.pending .runtimeCleanup false] := by
        simp only [RuntimeWorld.regionCalls, place]
      rw [region, place]
      refine ⟨owed.setCleanup rfl (fun some_ => absurd rfl some_) nofun, ?_⟩
      have close (pending : .boundaryClose ∈ world.shutdown.pending) :
          .boundaryClose ∈ (world.shutdown.apply (.pending .runtimeCleanup false)).pending :=
        mem_pending_apply.mpr (.inr ⟨pending, nofun⟩)
      have kept : { world with
          runtime := { world.runtime with runtime := { world.runtime.runtime with
            cleanupWaitComplete := true, cleanup := .finished } }
          shutdown := world.shutdown.apply (.pending .runtimeCleanup false) }.Tabled := by
        refine ⟨fun index interrupted found paid => ?_, nofun, tabled.starting, tabled.running,
          fun _ => .inr (.inr rfl), fun started => (tabled.closing started).imp_left close,
          tabled.stopped, tabled.callbacks⟩
        have idle := (sound.runs _ (List.mem_of_getElem? found) rfl).unlaunched rfl
        rw [place] at idle
        contradiction
      exact kept.setOutstanding nofun nofun

end ShutdownWorld

end StreamDockSdk.Runtime
