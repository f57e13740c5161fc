import StreamDockSdk.Runtime.KeyedScheduler.Conservation

namespace StreamDockSdk.Runtime

open Messaging Automaton KeyedSerialHandlerScheduler

namespace ThreadPc

/-- The thread belongs to the pool, and is not a caller of `stop` or `start`. -/
def isWorker : ThreadPc → Bool
  | .draining | .stopped | .discarding .stopping _ => false
  | _ => true

def isDiscarding : ThreadPc → Bool
  | .discarding _ _ => true
  | _ => false

/-- The worker has seen the closed scheduler empty. -/
def Departed : ThreadPc → Prop
  | .exiting | .exited | .discarding .fatal (.finishing _ _)
  | .discarding .fatal (.observing _ _) => True
  | _ => False

theorem Idle.not_departed {pc : ThreadPc} (idle : pc.Idle) : ¬ pc.Departed := by
  cases pc with
  | discarding caller frame => cases caller <;> cases frame <;> first | exact id | exact idle.elim
  | exiting | exited => exact idle.elim
  | _ => exact id

end ThreadPc

namespace KeyedWorld

variable {world before after : KeyedWorld}

/-- There were workers, and each has left `_run`; one that is still `created`
after `start` is a thread that could not be started. -/
def WorkersExited (world : KeyedWorld) : Prop :=
  (∃ pc ∈ world.threads, pc.isWorker = true) ∧ world.launching = .idle ∧
    ∀ pc ∈ world.threads, pc.isWorker = true → pc = .exited ∨ pc = .created

/-- Nothing will be admitted, and a pending work is left to a discard. -/
def Sealed (world : KeyedWorld) : Prop :=
  world.scheduler.accepting = false ∧
    (world.scheduler.pending = [] ∨ .discarding .stopping .entering ∈ world.threads)

/-- Where the loop in `start` stands when the worker at `index` is not yet started. -/
def LaunchPlaced (world : KeyedWorld) (index : Nat) : Prop :=
  match world.launching with
  | .idle => world.Sealed
  | .counting first remaining => first ≤ index ∧ index < first + remaining
  | .starting first remaining => first ≤ index ∧ index ≤ first + remaining
  | .aborting => True

theorem LaunchPlaced.transfer {index : Nat} (placed : before.LaunchPlaced index)
    (launching : after.launching = before.launching) (kept : before.Sealed → after.Sealed) :
    after.LaunchPlaced index := by
  unfold LaunchPlaced at placed ⊢
  rw [launching]
  cases state : before.launching with
  | idle =>
      rw [state] at placed
      exact kept placed
  | counting | starting | aborting =>
      rw [state] at placed
      exact placed

structure LifecycleSound (world : KeyedWorld) : Prop where
  departed : ∀ pc ∈ world.threads, pc.Departed →
    world.scheduler.accepting = false ∧ world.scheduler.pending = []
  failing : .discarding .fatal .entering ∈ world.threads → world.scheduler.accepting = false
  unlaunched : ∀ index : Nat, world.threads[index]? = some .created → world.LaunchPlaced index
  launchers : world.scheduler.started = false → world.launching = .idle

section Thread

variable {index : Nat} {pc : ThreadPc} {next : Advance}

theorem advances_closed (advances : Advances before.scheduler index pc next)
    (closed : before.scheduler.accepting = false) : next.scheduler.accepting = false := by
  cases advances with
  | take taken =>
      obtain ⟨passed, rest, _, rfl, _⟩ := takeInternalWork_spec taken
      exact closed
  | refuse | giveUp => rfl
  | _ => exact closed

theorem advances_empty (advances : Advances before.scheduler index pc next)
    (empty : before.scheduler.pending = []) : next.scheduler.pending = [] := by
  cases advances with
  | take taken =>
      obtain ⟨passed, rest, split, _⟩ := takeInternalWork_spec taken
      rw [empty] at split
      simp at split
  | clear => rfl
  | _ => exact empty

theorem advances_started (advances : Advances before.scheduler index pc next) :
    next.scheduler.started = before.scheduler.started := by
  cases advances with
  | take taken =>
      obtain ⟨passed, rest, _, rfl, _⟩ := takeInternalWork_spec taken
      rfl
  | _ => rfl

theorem LifecycleSound.thread (sound : before.LifecycleSound)
    (found : before.threads[index]? = some pc)
    (advances : Advances before.scheduler index pc next) :
    LifecycleSound { before with
      scheduler := next.scheduler
      threads := before.threads.set index next.pc
      history := next.events ++ before.history } := by
  have present : pc ∈ before.threads := List.mem_of_getElem? found
  constructor
  · intro other member departed
    rcases List.mem_or_eq_of_mem_set member with kept | rfl
    · obtain ⟨closed, empty⟩ := sound.departed other kept departed
      exact ⟨advances_closed advances closed, advances_empty advances empty⟩
    · cases advances with
      | leave closed empty => exact ⟨closed, empty⟩
      | exit => exact sound.departed _ present trivial
      | clear caller =>
          cases caller with
          | fatal => exact ⟨sound.failing present, rfl⟩
          | afterError | stopping => exact departed.elim
      | leaveDiscard caller observerFailed =>
          cases caller with
          | fatal => exact sound.departed _ present trivial
          | afterError => cases observerFailed <;> exact departed.elim
          | stopping => exact departed.elim
      | discard caller | count caller =>
          cases caller with
          | fatal => exact sound.departed _ present trivial
          | afterError | stopping => exact departed.elim
      | release work reply observerFailed =>
          cases reply <;> cases observerFailed <;> exact departed.elim
      | _ => exact departed.elim
  · intro member
    rcases List.mem_or_eq_of_mem_set member with kept | same
    · exact advances_closed advances (sound.failing kept)
    · cases advances with
      | giveUp => rfl
      | leaveDiscard caller observerFailed => cases caller <;> cases observerFailed <;> cases same
      | release work reply observerFailed => cases reply <;> cases observerFailed <;> cases same
      | _ => cases same
  · intro position created
    rw [getElem?_set_found found] at created
    split at created
    · cases advances with
      | leaveDiscard caller observerFailed =>
          cases caller <;> cases observerFailed <;> cases created
      | release work reply observerFailed => cases reply <;> cases observerFailed <;> cases created
      | _ => cases created
    · refine (sound.unlaunched position created).transfer rfl ?_
      rintro ⟨closed, empty | discarding⟩
      · exact ⟨advances_closed advances closed, .inl (advances_empty advances empty)⟩
      · refine ⟨advances_closed advances closed, ?_⟩
        obtain ⟨other, at_other⟩ := List.mem_iff_getElem?.mp discarding
        by_cases same : other = index
        · rw [same, found, Option.some.injEq] at at_other
          subst at_other
          cases advances
          exact .inl rfl
        · refine .inr (List.mem_iff_getElem?.mpr ⟨other, ?_⟩)
          rw [getElem?_set_found found, if_neg same, at_other]
  · intro unstarted
    exact sound.launchers ((advances_started advances).symm.trans unstarted)

end Thread

theorem LifecycleSound.admission (sound : before.LifecycleSound) {item : SizedEvent}
    {blocked : List SizedEvent} (accepting : before.scheduler.accepting = true) :
    LifecycleSound { before with
      scheduler := (before.scheduler.admitItem item).1
      blocked
      history := .accepted (before.scheduler.newWork item) :: before.history } := by
  have contradictory : before.scheduler.accepting ≠ false := by simp [accepting]
  constructor
  · intro pc member departed
    exact absurd (sound.departed pc member departed).1 contradictory
  · exact fun member => absurd (sound.failing member) contradictory
  · intro index created
    exact (sound.unlaunched index created).transfer rfl
      fun sealed_ => absurd sealed_.1 contradictory
  · exact sound.launchers

/-- What housekeeping leaves of the facts about departed and failing workers. -/
theorem LifecycleSound.housekeeping_workers (sound : before.LifecycleSound)
    (same : SameLoad before.scheduler after.scheduler)
    (reshaped : Reshaped ThreadPc.Idle before.threads after.threads) :
    (∀ pc ∈ after.threads, pc.Departed →
      after.scheduler.accepting = false ∧ after.scheduler.pending = []) ∧
    (.discarding .fatal .entering ∈ after.threads → after.scheduler.accepting = false) := by
  constructor
  · intro pc member departed
    rcases reshaped.mem member with kept | idle
    · obtain ⟨closed, empty⟩ := sound.departed pc kept departed
      exact ⟨same.closed closed, same.pending.trans empty⟩
    · exact absurd departed idle.not_departed
  · intro member
    rcases reshaped.mem member with kept | idle
    · exact same.closed (sound.failing kept)
    · exact idle.elim

/-- Every worker that is still to be started is ahead of the loop in `start`. -/
theorem LifecycleSound.launch_step (sound : before.LifecycleSound) (launch : before.LaunchSound)
    {succeeds : Bool} (launched : before.launchStep succeeds = some after) :
    (∀ index : Nat, after.threads[index]? = some .created → after.LaunchPlaced index) ∧
      (after.scheduler.started = false → after.launching = .idle) := by
  unfold launchStep at launched
  split at launched
  · contradiction
  · next first state =>
    cases launched
    refine ⟨?_, fun _ => rfl⟩
    intro index created
    have placed := sound.unlaunched index created
    simp only [LaunchPlaced, state] at placed
    omega
  · next first remaining state =>
    cases launched
    refine ⟨?_, ?_⟩
    · intro index created
      have placed := sound.unlaunched index created
      simp only [LaunchPlaced, state] at placed ⊢
      omega
    · intro unstarted
      have idle := sound.launchers unstarted
      rw [state] at idle
      contradiction
  · next first remaining state =>
    have busy : before.scheduler.started ≠ false := by
      intro unstarted
      have idle := sound.launchers unstarted
      rw [state] at idle
      contradiction
    split at launched
    · cases launched
      refine ⟨?_, fun unstarted => absurd unstarted busy⟩
      intro index created
      dsimp only at created
      unfold LaunchSound at launch
      simp only [state] at launch
      have here : before.threads[first]? = some .created := launch 0 (Nat.zero_le _)
      rw [getElem?_set_found here] at created
      split at created
      · cases created
      · next different =>
        have placed := sound.unlaunched index created
        simp only [LaunchPlaced, state] at placed ⊢
        omega
    · cases launched
      exact ⟨fun _ _ => trivial, fun unstarted => absurd unstarted busy⟩
  · cases launched
    refine ⟨?_, fun _ => rfl⟩
    intro index created
    exact ⟨rfl, .inr (List.mem_append_right _ (List.mem_singleton.mpr rfl))⟩

theorem LifecycleSound.housekeeping (sound : before.LifecycleSound)
    (launch : before.LaunchSound) (kept : Housekeeping before after) : after.LifecycleSound := by
  obtain ⟨same, _, reshaped⟩ := kept.frame launch
  obtain ⟨departed, failing⟩ := sound.housekeeping_workers same reshaped
  cases kept with
  | bookkeeping same draining =>
      refine ⟨departed, failing, ?_, ?_⟩
      · intro index created
        have earlier : before.threads[index]? = some .created := by
          by_cases within : index < before.threads.length
          · rwa [List.getElem?_append_left within] at created
          · rw [List.getElem?_append_right (by omega)] at created
            have other := draining _ (List.mem_of_getElem? created)
            contradiction
        exact (sound.unlaunched index earlier).transfer rfl fun sealed_ =>
          ⟨same.closed sealed_.1, sealed_.2.imp same.pending.trans (List.mem_append_left _)⟩
      · intro unstarted
        refine sound.launchers ?_
        rw [← Bool.not_eq_true]
        intro started
        rw [same.started started] at unstarted
        contradiction
  | start accepting fresh =>
      refine ⟨departed, failing, ?_, nofun⟩
      intro index created
      dsimp only at created
      by_cases within : index < before.threads.length
      · rw [List.getElem?_append_left within] at created
        have placed := sound.unlaunched index created
        simp only [LaunchPlaced, sound.launchers fresh] at placed
        rw [placed.1] at accepting
        contradiction
      · have bound := (List.getElem?_eq_some_iff.mp created).1
        rw [List.length_append, List.length_replicate] at bound
        simp only [LaunchPlaced]
        omega
  | launch launched =>
      obtain ⟨unlaunched, launchers⟩ := sound.launch_step launch launched
      exact ⟨departed, failing, unlaunched, launchers⟩

theorem Transition.lifecycleSound (transition : Transition before after)
    (active : before.ActiveSound) (sound : before.LifecycleSound) : after.LifecycleSound := by
  cases transition with
  | thread found advances => exact sound.thread found advances
  | admission accepting room => exact sound.admission accepting
  | housekeeping kept => exact sound.housekeeping active.launch kept

theorem lifecycleSound {config : SchedulerConfig} {world : KeyedWorld}
    (reachable : (keyedSystem config).Reachable world) : world.LifecycleSound := by
  refine reachable.invariant_given ActiveSound (fun _ => activeSound) ?_
    fun _ _ _ active sound stepped => (step_cases stepped).lifecycleSound active sound
  rintro _ rfl
  constructor <;> simp

/-- When the workers have left and nobody discards, nothing is pending. -/
theorem LifecycleSound.exited_empty (sound : world.LifecycleSound) (exited : world.WorkersExited)
    (settled : ∀ pc ∈ world.threads, pc.isDiscarding = false) : world.scheduler.pending = [] := by
  obtain ⟨⟨pc, member, worker⟩, idle, left⟩ := exited
  rcases left pc member worker with rfl | rfl
  · exact (sound.departed _ member trivial).2
  · obtain ⟨index, created⟩ := List.mem_iff_getElem?.mp member
    have placed := sound.unlaunched index created
    simp only [LaunchPlaced, idle] at placed
    rcases placed.2 with empty | discarding
    · exact empty
    · have other := settled _ discarding
      contradiction

theorem exited_unfinished {token : Nat} (exited : world.WorkersExited)
    (settled : ∀ pc ∈ world.threads, pc.isDiscarding = false) :
    weight (ThreadPc.unfinished token) world.threads = 0 := by
  refine weight_eq_zero ?_
  intro pc member
  have quiet := settled pc member
  have left := exited.2.2 pc member
  cases pc with
  | taken | dispatching | raised | finishing =>
      rcases left rfl with other | other <;> contradiction
  | discarding => contradiction
  | _ => rfl

theorem drained_unfinished {token : Nat} (active : world.ActiveSound) (sound : world.Conserved)
    (drained : world.scheduler.isDrained = true) :
    weight (ThreadPc.unfinished token) world.threads = 0 := by
  simp only [isDrained, Bool.and_eq_true, List.isEmpty_iff, beq_iff_eq] at drained
  obtain ⟨⟨_, unoccupied⟩, counted⟩ := drained
  refine weight_eq_zero ?_
  intro pc member
  obtain ⟨index, found⟩ := List.mem_iff_getElem?.mp member
  have inactive : pc.active? = none := by
    cases working : pc.active? with
    | none => rfl
    | some work =>
        have entry := active.tracked index work ((activeAt_found found).trans working)
        rw [unoccupied] at entry
        contradiction
  have paid : pc.outstanding = 0 := by
    have bound := measure_le_weight ThreadPc.outstanding found
    have owed := sound.owed
    omega
  cases pc with
  | taken | dispatching | raised | finishing => cases inactive
  | discarding caller frame =>
      cases frame with
      | entering => rfl
      | finishing rest observerFailed =>
          rw [List.eq_nil_of_length_eq_zero paid]
          rfl
      | observing rest observerFailed =>
          simp [ThreadPc.outstanding] at paid
  | _ => rfl

theorem acceptances_le_one (token : Nat) {history : List KeyedEvent}
    (law : Guarded orderLaw history) : acceptances token history ≤ 1 := by
  induction history with
  | nil => exact Nat.zero_le _
  | cons event older ih =>
      have earlier := ih law.2
      by_cases again : event.accepts token = true
      · cases event with
        | accepted work =>
            have own : work.token = token := by simpa [KeyedEvent.accepts] using again
            have none_before : older.countP (KeyedEvent.accepts token) = 0 := by
              refine List.countP_eq_zero.mpr ?_
              intro other member matching
              cases other with
              | accepted first =>
                  have same : first.token = token := by
                    simpa [KeyedEvent.accepts] using matching
                  have before := law.1 first member
                  omega
              | _ => contradiction
            simp [acceptances, none_before, again]
        | _ => contradiction
      · simp only [acceptances, List.countP_cons, again] at earlier ⊢
        simpa using earlier

theorem acceptances_of_mem {history : List KeyedEvent} {work : ScheduledWork}
    (law : Guarded orderLaw history) (accepted : .accepted work ∈ history) :
    acceptances work.token history = 1 := by
  have bound := acceptances_le_one work.token law
  have positive : 0 < acceptances work.token history :=
    List.countP_pos_iff.mpr ⟨_, accepted, by simp [KeyedEvent.accepts]⟩
  omega

theorem config_eq {config : SchedulerConfig} {world : KeyedWorld}
    (reachable : (keyedSystem config).Reachable world) : world.scheduler.config = config := by
  refine reachable.invariant_given (motive := fun world => world.scheduler.config = config)
    ActiveSound (fun _ => activeSound) ?_ ?_
  · rintro _ rfl
    rfl
  · intro before label after active same stepped
    cases step_cases stepped with
    | thread found advances =>
        cases advances with
        | take taken =>
            obtain ⟨passed, rest, _, rfl, _⟩ := takeInternalWork_spec taken
            exact same
        | _ => exact same
    | admission => exact same
    | housekeeping kept => exact (kept.frame active.launch).1.config.trans same

/-- The scheduler's counters account for every accepted work, and each accepted
work's completion is finished once. -/
theorem conservation_and_single_completion {config : SchedulerConfig} {world : KeyedWorld}
    (reachable : (keyedSystem config).Reachable world) :
    (WellTyped world.history → world.scheduler.accepted = world.scheduler.completed +
      world.scheduler.pending.length + world.scheduler.activeByThread.length +
      world.scheduler.terminalizing) ∧
    world.scheduler.pendingBytes = (world.scheduler.pending.map (·.size)).sum ∧
    (∀ context, world.scheduler.pendingByContext context =
      world.scheduler.pending.countP fun work => work.context = some context) ∧
    world.scheduler.pending.length ≤ config.pendingLimit ∧
    world.scheduler.pendingBytes ≤ config.pendingByteLimit ∧
    (∀ work, .accepted work ∈ world.history → completions work.token world.history ≤ 1) ∧
    (world.WorkersExited → (∀ pc ∈ world.threads, pc.isDiscarding = false) →
      ∀ work, .accepted work ∈ world.history → completions work.token world.history = 1) ∧
    (world.scheduler.isDrained = true →
      ∀ work, .accepted work ∈ world.history → completions work.token world.history = 1) := by
  have active := activeSound reachable
  have order := orderSound reachable
  have sound := conserved reachable
  have life := lifecycleSound reachable
  have same := config_eq reachable
  have once : ∀ work, .accepted work ∈ world.history →
      completions work.token world.history ≤ 1 ∧
        (world.scheduler.pending = [] →
          weight (ThreadPc.unfinished work.token) world.threads = 0 →
            completions work.token world.history = 1) := by
    intro work accepted
    have issued := acceptances_of_mem order.law accepted
    have tally := sound.tally work.token
    refine ⟨by omega, fun empty unheld => ?_⟩
    rw [empty, List.countP_nil] at tally
    omega
  refine ⟨?_, sound.load.bytes, sound.load.contexts, same ▸ sound.load.depth,
    same ▸ sound.load.budget, fun work accepted => (once work accepted).1, ?_, ?_⟩
  · intro typed
    rw [sound.recorded typed]
    exact sound.accounting
  · intro exited settled work accepted
    exact (once work accepted).2 (life.exited_empty exited settled)
      (exited_unfinished exited settled)
  · intro drained work accepted
    refine (once work accepted).2 ?_ (drained_unfinished active sound drained)
    simp only [isDrained, Bool.and_eq_true, List.isEmpty_iff] at drained
    exact drained.1.1

end KeyedWorld

/-- Both workers leave after the only work is completed. -/
def drainedLabels : List KeyedLabel := launchLabels ++
  ([.submit (sampleItem ⟨[1]⟩), .thread 0 .proceed, .thread 0 .proceed,
    .thread 0 (.returns .handled), .thread 0 .proceed, .thread 0 (.observed false),
    .stop false, .thread 0 .proceed, .thread 0 .proceed, .thread 1 .proceed, .thread 1 .proceed,
    .thread 2 .proceed] : List KeyedLabel)

def drainedWorld : KeyedWorld := (sampleRun drainedLabels).get rfl

theorem drainedWorld_threads : drainedWorld.threads = [.exited, .exited, .stopped] := rfl

theorem conservation_and_single_completion_run : completions 1 drainedWorld.history = 1 :=
  (KeyedWorld.conservation_and_single_completion
    (show (keyedSystem sampleConfig).Reachable drainedWorld from sampleRun_reachable _ rfl)).2.2.2.2.2.2.1
    ⟨⟨.exited, List.mem_cons_self, rfl⟩, rfl, by
      rw [drainedWorld_threads]
      simp [ThreadPc.isWorker]⟩
    (by
      rw [drainedWorld_threads]
      simp [ThreadPc.isDiscarding])
    (sampleWork 1 ⟨[1]⟩) (List.mem_iff_getElem?.mpr ⟨3, rfl⟩)

/-- `stop` times out and discards the second work; both workers leave before it
finishes that work's completion. -/
def lateDiscardLabels : List KeyedLabel := launchLabels ++
  ([.submit (sampleItem ⟨[1]⟩), .submit (sampleItem ⟨[1]⟩), .thread 0 .proceed, .thread 0 .proceed,
    .stop false, .thread 2 .timedOut, .thread 2 .proceed, .thread 0 (.returns .handled),
    .thread 0 .proceed, .thread 0 (.observed false), .thread 0 .proceed, .thread 0 .proceed,
    .thread 1 .proceed, .thread 1 .proceed] : List KeyedLabel)

def lateDiscardWorld : KeyedWorld := (sampleRun lateDiscardLabels).get rfl

theorem lateDiscardWorld_threads : lateDiscardWorld.threads = [.exited, .exited,
    .discarding .stopping (.finishing [sampleWork 2 ⟨[1]⟩] false)] := rfl

/-- The dispatcher returns an object that is not a `DispatchResult`. -/
def malformedLabels : List KeyedLabel := launchLabels ++
  ([.submit (sampleItem ⟨[1]⟩), .thread 0 .proceed, .thread 0 .proceed, .thread 0 .returnsOther,
    .thread 0 .proceed, .thread 0 .proceed, .thread 0 (.observed false)] : List KeyedLabel)

def malformedWorld : KeyedWorld := (sampleRun malformedLabels).get rfl

theorem unconditional_conservation_fails :
    ¬ (∀ world, (keyedSystem sampleConfig).Reachable world → world.WorkersExited →
      ∀ work, .accepted work ∈ world.history → completions work.token world.history = 1) ∧
    ¬ (∀ world, (keyedSystem sampleConfig).Reachable world →
      world.scheduler.accepted = world.scheduler.completed + world.scheduler.pending.length +
        world.scheduler.activeByThread.length + world.scheduler.terminalizing) := by
  constructor
  · intro claimed
    have finished := claimed lateDiscardWorld (sampleRun_reachable _ rfl)
      ⟨⟨.exited, List.mem_cons_self, rfl⟩, rfl, by
        rw [lateDiscardWorld_threads]
        simp [ThreadPc.isWorker]⟩
      (sampleWork 2 ⟨[1]⟩) (List.mem_iff_getElem?.mpr ⟨4, rfl⟩)
    exact absurd finished (by decide)
  · intro claimed
    have counted := claimed malformedWorld (sampleRun_reachable _ rfl)
    exact absurd counted (by decide)

end StreamDockSdk.Runtime
