import Mathlib.Algebra.BigOperators.Group.Finset.Piecewise
import Mathlib.Algebra.Order.BigOperators.Group.Finset
import Mathlib.Algebra.Order.BigOperators.Group.List
import StreamDockSdk.Runtime.KeyedScheduler.Selection

namespace StreamDockSdk.Runtime

open Messaging Automaton KeyedSerialHandlerScheduler

/-! # The budget of a hot context

Pending and active work of a context stay within `max(1, P // W)`, so the
contexts that keep some of the `W` workers busy cannot fill the `P` places.
-/

theorem SchedulerConfig.spare_places (config : SchedulerConfig) :
    (config.workerCount - 1) * (max 1 (config.pendingLimit / config.workerCount) - 1) <
      config.pendingLimit := by
  have positive := config.pendingLimit_pos
  by_cases narrow : config.pendingLimit / config.workerCount ≤ 1
  · rw [Nat.max_eq_left narrow]
    simpa using positive
  · rw [Nat.max_eq_right (by omega)]
    have share := Nat.mul_div_le config.pendingLimit config.workerCount
    calc (config.workerCount - 1) * (config.pendingLimit / config.workerCount - 1)
        ≤ config.workerCount * (config.pendingLimit / config.workerCount - 1) :=
          Nat.mul_le_mul_right _ (Nat.sub_le _ _)
      _ < config.workerCount * (config.pendingLimit / config.workerCount) :=
          Nat.mul_lt_mul_of_pos_left (by omega) config.workerCount_pos
      _ ≤ config.pendingLimit := share

/-- Works of few contexts, few of each, are few. -/
theorem length_le_of_budget {pending : List ScheduledWork} {contexts : Finset Str} {bound : Nat}
    (keyed : ∀ work ∈ pending, ∃ context ∈ contexts, work.context = some context)
    (budget : ∀ context ∈ contexts,
      (pending.countP fun work => work.context = some context) ≤ bound) :
    pending.length ≤ contexts.card * bound := by
  have total : pending.length =
      ∑ context ∈ contexts, pending.countP fun work => work.context = some context := by
    clear budget
    induction pending with
    | nil => simp
    | cons head rest ih =>
        obtain ⟨own, known, lane⟩ := keyed head List.mem_cons_self
        have tail := ih fun work member => keyed work (List.mem_cons_of_mem head member)
        simp only [List.countP_cons, Finset.sum_add_distrib, ← tail, lane, Option.some.injEq,
          decide_eq_true_eq, Finset.sum_ite_eq, known, if_true, List.length_cons]
  rw [total]
  exact Finset.sum_le_card_nsmul _ _ _ budget

namespace ThreadPc

/-- 1 for a thread of the pool. -/
def staff (pc : ThreadPc) : Nat :=
  if pc.isWorker then 1 else 0

theorem activeLoad_le_staff (pc : ThreadPc) : pc.activeLoad ≤ pc.staff := by
  cases pc <;> simp [activeLoad, staff, active?, isWorker]

end ThreadPc

@[simp] theorem afterRelease_staff (reply : DispatchReply) (observerFailed : Bool) :
    (afterRelease reply observerFailed).staff = 1 := by
  cases observerFailed <;> cases reply <;> rfl

namespace KeyedSerialHandlerScheduler

variable {scheduler : KeyedSerialHandlerScheduler}

theorem Advances.staff {thread : Nat} {pc : ThreadPc} {result : Advance}
    (advances : Advances scheduler thread pc result) : result.pc.staff = pc.staff := by
  cases advances with
  | release work reply observerFailed => exact afterRelease_staff reply observerFailed
  | leaveDiscard caller observerFailed => cases caller <;> cases observerFailed <;> rfl
  | clear caller => cases caller <;> rfl
  | discard caller => cases caller <;> rfl
  | count caller => cases caller <;> rfl
  | _ => rfl

/-- A scan that stops nowhere has passed only works of active contexts. -/
theorem scan_none {index : Nat} {pending : List ScheduledWork}
    (unbarred : ∀ work ∈ pending, work.isBarrier = false)
    (passed : scheduler.scan index pending = none) :
    ∀ work ∈ pending, ∃ context ∈ scheduler.activeContexts, work.context = some context := by
  induction pending generalizing index with
  | nil => simp
  | cons head rest ih =>
      cases lane : head.context with
      | none =>
          have keyed := unbarred head List.mem_cons_self
          simp [ScheduledWork.isBarrier, lane] at keyed
      | some own =>
          simp only [scan, lane] at passed
          split at passed
          · next busy =>
            intro work member
            rcases List.mem_cons.mp member with rfl | member
            · exact ⟨own, busy, lane⟩
            · exact ih (fun work later => unbarred work (List.mem_cons_of_mem head later))
                passed work member
          · contradiction

/-- The event is selected, or one before it. -/
theorem selectFrom_finds {retainedSize : StreamDockEvent → Nat} {start : Nat}
    {deferred : Finset Str} {passed rest : List SizedEvent} {item : SizedEvent} {context : Str}
    (keyed : ∀ other ∈ passed, ∃ key, scheduledContext? other.event = some key ∧
      (key = context → scheduler.canAdmitBytes (other.measured retainedSize).size = true))
    (lane : scheduledContext? item.event = some context)
    (budget : scheduler.contextWork context < scheduler.contextWorkLimit)
    (fits : scheduler.canAdmitBytes (item.measured retainedSize).size = true)
    (listed : context ∉ deferred) :
    ∃ index, scheduler.selectFrom retainedSize start deferred (passed ++ item :: rest) =
      some index := by
  have size_eq (item : SizedEvent) : (item.measured retainedSize).size =
      if item.size = 0 then retainedSize item.event else item.size := by
    unfold SizedEvent.measured
    split <;> rfl
  induction passed generalizing start deferred with
  | nil => exact ⟨start, by simp [selectFrom, lane, listed, budget, ← size_eq, fits]⟩
  | cons head tail ih =>
      obtain ⟨key, key_lane, same_fits⟩ := keyed head List.mem_cons_self
      have later {deferred : Finset Str} := @ih (start + 1) deferred
        fun other member => keyed other (List.mem_cons_of_mem head member)
      simp only [List.cons_append, selectFrom, key_lane, ← size_eq]
      split
      · exact later listed
      split
      · split
        · exact ⟨start, rfl⟩
        · next refused =>
          refine later ?_
          rw [Finset.mem_insert, not_or]
          exact ⟨fun same => refused (same_fits same.symm), listed⟩
      · exact later listed

end KeyedSerialHandlerScheduler

namespace KeyedWorld

variable {world before after : KeyedWorld} {config : SchedulerConfig}

/-- The pool has at most the configured number of workers. -/
structure Staffed (world : KeyedWorld) : Prop where
  unstarted : world.scheduler.started = false → weight ThreadPc.staff world.threads = 0
  bound : weight ThreadPc.staff world.threads ≤ world.scheduler.config.workerCount

theorem Housekeeping.staffed (kept : Housekeeping before after) (launch : before.LaunchSound)
    (staffed : before.Staffed) : after.Staffed := by
  cases kept with
  | @bookkeeping scheduler blocked added same draining =>
      have idle : weight ThreadPc.staff added = 0 := by
        refine weight_eq_zero fun pc member => ?_
        rw [draining pc member]
        rfl
      constructor
      · intro unstarted
        rw [weight_append, idle]
        refine staffed.unstarted ?_
        rw [← Bool.not_eq_true]
        exact fun started => by simp [same.started started] at unstarted
      · rw [weight_append, idle, same.config]
        exact staffed.bound
  | start accepting fresh =>
      refine ⟨by simp, ?_⟩
      rw [weight_append, staffed.unstarted fresh]
      simp [weight, ThreadPc.staff, ThreadPc.isWorker]
  | launch launched =>
      unfold launchStep at launched
      unfold LaunchSound at launch
      split at launched
      · contradiction
      · cases launched
        exact ⟨staffed.unstarted, staffed.bound⟩
      · cases launched
        exact ⟨staffed.unstarted, staffed.bound⟩
      · next index remaining state =>
        simp only [state] at launch
        have created : before.threads[index]? = some .created := launch 0 (by omega)
        have moved := weight_set ThreadPc.staff .ready created
        split at launched
        · cases launched
          have same : weight ThreadPc.staff (before.threads.set index .ready) =
              weight ThreadPc.staff before.threads := Nat.add_right_cancel moved
          constructor
          · dsimp only
            rw [same]
            exact staffed.unstarted
          · dsimp only
            rw [same]
            exact staffed.bound
        · cases launched
          exact ⟨staffed.unstarted, staffed.bound⟩
      · cases launched
        constructor
        · dsimp only
          rw [weight_append]
          exact staffed.unstarted
        · dsimp only
          rw [weight_append]
          exact staffed.bound

theorem Transition.staffed (transition : Transition before after) (active : before.ActiveSound)
    (staffed : before.Staffed) : after.Staffed := by
  cases transition with
  | @thread index pc next found advances =>
      have moved := weight_set ThreadPc.staff next.pc found
      rw [advances.staff] at moved
      have same := Nat.add_right_cancel moved
      constructor
      · dsimp only
        rw [same, advances_started advances]
        exact staffed.unstarted
      · dsimp only
        rw [same]
        cases advances with
        | take taken =>
            obtain ⟨passed, rest, _, rfl, _⟩ := takeInternalWork_spec taken
            exact staffed.bound
        | _ => exact staffed.bound
  | admission accepting room => exact ⟨staffed.unstarted, staffed.bound⟩
  | housekeeping kept => exact kept.staffed active.launch staffed

theorem staffed (reachable : (keyedSystem config).Reachable world) : world.Staffed := by
  refine reachable.invariant_given ActiveSound (fun _ => activeSound) ?_
    fun _ _ _ active staffed stepped => (step_cases stepped).staffed active staffed
  rintro _ rfl
  constructor <;> simp

theorem ActiveSound.card_le_load (sound : world.ActiveSound) :
    world.scheduler.activeContexts.card ≤ weight ThreadPc.activeLoad world.threads := by
  have covered : world.scheduler.activeContexts ⊆
      (world.threads.filterMap fun pc => pc.active?.bind (·.context)).toFinset := by
    intro context busy
    obtain ⟨index, work, active, lane⟩ := (sound.contexts context).mp busy
    obtain ⟨pc, found, holds⟩ := Option.bind_eq_some_iff.mp active
    rw [List.mem_toFinset, List.mem_filterMap]
    exact ⟨pc, List.mem_of_getElem? found, by simp [holds, lane]⟩
  refine (Finset.card_le_card covered).trans ((List.toFinset_card_le _).trans ?_)
  refine length_filterMap_le_weight (fun pc seen => ?_) world.threads
  cases holds : pc.active? with
  | none => simp [holds] at seen
  | some work => simp [ThreadPc.activeLoad, holds]

/-- No barrier is pending or active, and a worker is without work although
`_take_internal_work` has nothing to give it. -/
structure Spare (world : KeyedWorld) : Prop where
  unbarred : ∀ work ∈ world.scheduler.pending, work.isBarrier = false
  inactive : world.scheduler.barrierActive = false
  idle : ∃ pc ∈ world.threads, pc.isWorker = true ∧ pc.active? = none
  nothing : ∀ thread, world.scheduler.takeInternalWork thread = none

theorem Spare.busy (spare : world.Spare) (sound : world.ActiveSound) (staffed : world.Staffed) :
    world.scheduler.activeContexts.card + 1 ≤ world.scheduler.config.workerCount := by
  obtain ⟨pc, member, worker, free⟩ := spare.idle
  have fewer : weight ThreadPc.activeLoad world.threads < weight ThreadPc.staff world.threads := by
    refine List.sum_lt_sum _ _ (fun pc _ => pc.activeLoad_le_staff) ⟨pc, member, ?_⟩
    simp [ThreadPc.activeLoad, ThreadPc.staff, worker, free]
  have counted := sound.card_le_load
  have bound := staffed.bound
  omega

theorem Spare.waiting (spare : world.Spare) : ∀ work ∈ world.scheduler.pending,
    ∃ context ∈ world.scheduler.activeContexts, work.context = some context := by
  refine (@scan_none _ 0) spare.unbarred ?_
  have nothing := spare.nothing 0
  simpa [takeInternalWork, spare.inactive] using nothing

theorem Spare.room (spare : world.Spare) (sound : world.ActiveSound) (load : LoadSound world.scheduler)
    (staffed : world.Staffed) (budget : ∀ context, world.scheduler.contextWork context ≤
      world.scheduler.contextWorkLimit) :
    world.scheduler.pending.length < world.scheduler.config.pendingLimit := by
  have few : world.scheduler.pending.length ≤ world.scheduler.activeContexts.card *
      (world.scheduler.contextWorkLimit - 1) := by
    refine length_le_of_budget spare.waiting fun context busy => ?_
    have planned := budget context
    rw [contextWork, if_pos busy, load.contexts] at planned
    omega
  have busy := spare.busy sound staffed
  exact few.trans_lt ((Nat.mul_le_mul_right _ (by omega)).trans_lt
    world.scheduler.config.spare_places)

/-- Nothing of the context is pending or active. -/
def Untouched (world : KeyedWorld) (context : Str) : Prop :=
  (∀ work ∈ world.scheduler.pending, work.context ≠ some context) ∧
    ∀ entry ∈ world.scheduler.activeByThread, entry.2.context ≠ some context

theorem Untouched.budget {context : Str} (untouched : world.Untouched context)
    (sound : world.ActiveSound) (load : LoadSound world.scheduler) :
    world.scheduler.contextWork context < world.scheduler.contextWorkLimit := by
  have unplanned : world.scheduler.pendingByContext context = 0 := by
    rw [load.contexts, List.countP_eq_zero]
    simpa using untouched.1
  have inactive : context ∉ world.scheduler.activeContexts := by
    intro busy
    obtain ⟨index, work, active, lane⟩ := (sound.contexts context).mp busy
    exact untouched.2 _ (sound.tracked index work active) lane
  rw [contextWork, unplanned, if_neg inactive, contextWorkLimit]
  omega

end KeyedWorld

/-- While a worker is idle for want of other contexts there is room for them, and
an event of an untouched context is selected, or one before it. -/
theorem hot_context_cannot_starve {config : SchedulerConfig} {world : SelectingWorld}
    (reachable : (selectingSystem config).Reachable world) (spare : world.keyed.Spare) :
    world.keyed.scheduler.pending.length < config.pendingLimit ∧
    ∀ retainedSize passed item rest context,
      (∀ other ∈ passed, ∃ key, scheduledContext? other.event = some key ∧ (key = context →
        world.keyed.scheduler.canAdmitBytes (other.measured retainedSize).size = true)) →
      scheduledContext? item.event = some context → world.keyed.Untouched context →
      world.keyed.scheduler.canAdmitBytes (item.measured retainedSize).size = true →
      ∃ next index, world.keyed.scheduler.selectSizedEvent retainedSize (passed ++ item :: rest) =
        .ok (next, some index) := by
  have keyed := SelectingWorld.reachable_keyed reachable
  have active := KeyedWorld.activeSound keyed
  have load := (KeyedWorld.conserved keyed).load
  have staffed := KeyedWorld.staffed keyed
  have room := spare.room active load staffed (SelectingWorld.pumpSound reachable).budget
  refine ⟨KeyedWorld.config_eq keyed ▸ room, ?_⟩
  intro retainedSize passed item rest context keys lane untouched fits
  have started : world.keyed.scheduler.started = true := by
    rw [← Bool.not_eq_false]
    intro unstarted
    obtain ⟨pc, member, worker, _⟩ := spare.idle
    obtain ⟨index, found⟩ := List.mem_iff_getElem?.mp member
    have counted := measure_le_weight ThreadPc.staff found
    rw [staffed.unstarted unstarted] at counted
    simp [ThreadPc.staff, worker] at counted
  obtain ⟨index, found⟩ := (@selectFrom_finds _ _ 0 ∅ _ rest) keys lane
    (untouched.budget active load) fits (Finset.notMem_empty context)
  by_cases accepting : world.keyed.scheduler.accepting = true
  · exact ⟨_, index, by simp [selectSizedEvent, accepting, started, room, found]; rfl⟩
  · exact ⟨_, 0, by simp [selectSizedEvent, accepting]; rfl⟩

/-- One worker runs a work of the hot context, a second one waits for it, and the
other worker has nothing to do. -/
def hotLabels : List SelectingLabel := launchLabels.map .other ++
  pumped (sampleItem ⟨[1]⟩) ++ pumped (sampleItem ⟨[1]⟩) ++ [.other (.thread 0 .proceed)]

def hotWorld : SelectingWorld := (selectingRun hotLabels).get rfl

theorem hotWorld_spare : hotWorld.keyed.Spare where
  unbarred := by decide
  inactive := rfl
  idle := ⟨.ready, List.mem_of_getElem? (i := 1) rfl, rfl, rfl⟩
  nothing _ := rfl

theorem hotWorld_untouched : hotWorld.keyed.Untouched ⟨[2]⟩ := by
  constructor <;> decide

theorem hot_context_cannot_starve_run :
    ∃ next index, hotWorld.keyed.scheduler.selectSizedEvent (fun _ => 8)
      ([sampleItem ⟨[1]⟩] ++ sampleItem ⟨[2]⟩ :: []) = .ok (next, some index) :=
  (hot_context_cannot_starve (selectingRun_reachable hotLabels rfl) hotWorld_spare).2
    (fun _ => 8) [sampleItem ⟨[1]⟩] (sampleItem ⟨[2]⟩) [] ⟨[2]⟩
    (by simp [sampleItem, scheduledContext?, isGlobalBarrier, routeOrdering?]; decide) rfl hotWorld_untouched rfl

/-- An event that does not fit the byte budget holds back the smaller one of its
context behind it. -/
theorem unconditional_selection_fails :
    ¬ ∀ world, (selectingSystem sampleConfig).Reachable world → world.keyed.Spare →
      ∀ retainedSize passed item rest context,
        (∀ other ∈ passed, scheduledContext? other.event ≠ none) →
        scheduledContext? item.event = some context → world.keyed.Untouched context →
        world.keyed.scheduler.canAdmitBytes (item.measured retainedSize).size = true →
        ∃ next index, world.keyed.scheduler.selectSizedEvent retainedSize
          (passed ++ item :: rest) = .ok (next, some index) := by
  intro claimed
  obtain ⟨next, index, selected⟩ := claimed hotWorld (selectingRun_reachable hotLabels rfl)
    hotWorld_spare (fun _ => 8) [{ sampleItem ⟨[2]⟩ with size := 60 }] (sampleItem ⟨[2]⟩) []
    ⟨[2]⟩ (by simp; decide) rfl hotWorld_untouched rfl
  have refused : ∃ after, hotWorld.keyed.scheduler.selectSizedEvent (fun _ => 8)
      [{ sampleItem ⟨[2]⟩ with size := 60 }, sampleItem ⟨[2]⟩] = .ok (after, none) := ⟨_, rfl⟩
  obtain ⟨after, refused⟩ := refused
  exact nomatch selected.symm.trans refused

end StreamDockSdk.Runtime
