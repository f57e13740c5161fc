import StreamDockSdk.Runtime.KeyedScheduler.Transition

namespace StreamDockSdk.Runtime

open Messaging Automaton KeyedSerialHandlerScheduler

namespace ThreadPc

/-- The work a worker has taken and not yet released. -/
def active? : ThreadPc → Option ScheduledWork
  | .taken work | .dispatching work | .raised work _ => some work
  | .finishing work _ | .observing work _ => some work
  | _ => none

/-- A worker that will take no more work. -/
def leaving? : ThreadPc → Option Unit
  | .failing | .exiting | .exited | .discarding .fatal _ => some ()
  | _ => none

/-- The program counters that housekeeping moves a thread between. -/
def Idle : ThreadPc → Prop
  | .created | .ready | .draining | .discarding .stopping .entering => True
  | _ => False

theorem Idle.inactive {pc : ThreadPc} (idle : pc.Idle) : pc.active? = none := by
  cases pc <;> first | rfl | exact idle.elim

theorem Idle.staying {pc : ThreadPc} (idle : pc.Idle) : pc.leaving? = none := by
  cases pc with
  | discarding caller frame => cases caller <;> first | rfl | exact idle.elim
  | _ => first | rfl | exact idle.elim

end ThreadPc

@[simp] theorem afterRelease_active (reply : DispatchReply) (observerFailed : Bool) :
    (afterRelease reply observerFailed).active? = none := by
  cases observerFailed <;> cases reply <;> rfl

@[simp] theorem afterRelease_malformed (observerFailed : Bool) :
    (afterRelease .malformed observerFailed).leaving? = some () := rfl

@[simp] theorem afterDiscard_active (observerFailed : Bool) (caller : DiscardCaller) :
    (afterDiscard observerFailed caller).active? = none := by
  cases caller <;> cases observerFailed <;> rfl

namespace KeyedWorld

variable {world before after : KeyedWorld}

def activeAt (world : KeyedWorld) (index : Nat) : Option ScheduledWork :=
  world.threads[index]?.bind ThreadPc.active?

def leavingAt (world : KeyedWorld) (index : Nat) : Option Unit :=
  world.threads[index]?.bind ThreadPc.leaving?

/-- The workers that `start` has still to launch are not running. -/
def LaunchSound (world : KeyedWorld) : Prop :=
  match world.launching with
  | .counting index remaining =>
      ∀ offset < remaining, world.threads[index + offset]? = some .created
  | .starting index remaining =>
      ∀ offset ≤ remaining, world.threads[index + offset]? = some .created
  | .idle | .aborting => True

theorem Housekeeping.launchSound (kept : Housekeeping before after)
    (sound : before.LaunchSound) : after.LaunchSound := by
  cases kept with
  | bookkeeping same draining =>
      unfold LaunchSound at sound ⊢
      dsimp only
      split <;> simp only [*] at sound
      all_goals
        first
          | trivial
          | (intro offset within
             have here := sound offset within
             rw [List.getElem?_append_left (List.getElem?_eq_some_iff.mp here).1, here])
  | start accepting fresh =>
      intro offset within
      rw [List.getElem?_append_right (by omega)]
      simp [within]
  | launch launched =>
      unfold launchStep at launched
      unfold LaunchSound at sound
      split at launched
      · contradiction
      · cases launched
        trivial
      · next state =>
        cases launched
        simp only [state] at sound
        exact fun offset within => sound offset (by omega)
      · next index remaining state =>
        simp only [state] at sound
        split at launched
        · cases launched
          intro offset within
          have here := sound (offset + 1) (by omega)
          have next : before.threads[index]? = some .created := sound 0 (by omega)
          dsimp only
          rw [getElem?_set_found next, if_neg (by omega)]
          rwa [show index + 1 + offset = index + (offset + 1) by omega]
        · cases launched
          trivial
      · cases launched
        trivial

/-- Housekeeping changes neither the load of the scheduler nor the history, and
moves only idle threads. -/
theorem Housekeeping.frame (kept : Housekeeping before after) (sound : before.LaunchSound) :
    SameLoad before.scheduler after.scheduler ∧ after.history = before.history ∧
      Reshaped ThreadPc.Idle before.threads after.threads := by
  cases kept with
  | bookkeeping same draining =>
      exact ⟨same, rfl, .spawned _ fun pc member => by rw [draining pc member]; trivial⟩
  | start accepting fresh =>
      refine ⟨by constructor <;> first | rfl | exact id | exact fun _ => rfl, rfl, .spawned _ ?_⟩
      intro pc member
      rw [List.eq_of_mem_replicate member]
      trivial
  | launch launched =>
      unfold launchStep at launched
      unfold LaunchSound at sound
      split at launched
      · contradiction
      · cases launched
        exact ⟨.refl _, rfl, .same⟩
      · cases launched
        exact ⟨by constructor <;> first | rfl | exact id, rfl, .same⟩
      · next state =>
        simp only [state] at sound
        split at launched
        · cases launched
          exact ⟨.refl _, rfl, .moved _ _ _ (sound 0 (by omega)) trivial trivial⟩
        · cases launched
          exact ⟨by constructor <;> first | rfl | exact id, rfl, .same⟩
      · cases launched
        refine ⟨by constructor <;> first | rfl | exact id | simp, rfl, .spawned _ ?_⟩
        intro pc member
        rw [List.mem_singleton.mp member]
        trivial

theorem look_set {Seen : Type} {look : ThreadPc → Option Seen} {index : Nat} {pc new : ThreadPc}
    (found : world.threads[index]? = some pc) (other : Nat) :
    (world.threads.set index new)[other]?.bind look =
      if other = index then look new else world.threads[other]?.bind look := by
  rw [getElem?_set_found found]
  by_cases same : other = index <;> simp [same]

theorem activeAt_found {index : Nat} {pc : ThreadPc} (found : world.threads[index]? = some pc) :
    world.activeAt index = pc.active? := by
  simp [activeAt, found]

/-- What the scheduler's own record of active works says about the threads.  An
entry may outlive its work only in a thread that is leaving. -/
structure ActiveSound (world : KeyedWorld) : Prop where
  tracked : ∀ index work, world.activeAt index = some work →
    (index, work) ∈ world.scheduler.activeByThread
  held : ∀ entry ∈ world.scheduler.activeByThread,
    world.activeAt entry.1 = some entry.2 ∨ world.leavingAt entry.1 = some ()
  keys : world.scheduler.activeByThread.Pairwise fun first second => first.1 ≠ second.1
  contexts : ∀ context, context ∈ world.scheduler.activeContexts ↔
    ∃ index work, world.activeAt index = some work ∧ work.context = some context
  barrier : world.scheduler.barrierActive = true ↔
    ∃ index work, world.activeAt index = some work ∧ work.context = none
  exclusive : ∀ first second mine other, world.activeAt first = some mine →
    world.activeAt second = some other → mine.Conflicts other → first = second
  launch : world.LaunchSound

/-- A step that leaves the record of active works alone. -/
theorem ActiveSound.frame (sound : before.ActiveSound)
    (contexts : after.scheduler.activeContexts = before.scheduler.activeContexts)
    (byThread : after.scheduler.activeByThread = before.scheduler.activeByThread)
    (barrier : after.scheduler.barrierActive = before.scheduler.barrierActive)
    (active : ∀ index, after.activeAt index = before.activeAt index)
    (leaving : ∀ index, before.leavingAt index = some () → after.leavingAt index = some ())
    (launch : after.LaunchSound) : after.ActiveSound := by
  constructor
  · intro index work
    rw [byThread, active]
    exact sound.tracked index work
  · intro entry member
    rw [byThread] at member
    rw [active]
    exact (sound.held entry member).imp_right (leaving entry.1)
  · rw [byThread]
    exact sound.keys
  · intro context
    simp only [contexts, active]
    exact sound.contexts context
  · simp only [barrier, active]
    exact sound.barrier
  · simp only [active]
    exact sound.exclusive
  · exact launch

/-- No work that is active conflicts with the one a worker takes. -/
theorem ActiveSound.take_exclusive (sound : before.ActiveSound) {work : ScheduledWork}
    (inactive : before.scheduler.barrierActive = false)
    (alone : work.context = none → before.scheduler.activeByThread = [])
    (free : ∀ context, work.context = some context →
      context ∉ before.scheduler.activeContexts)
    {index : Nat} {other : ScheduledWork} (active : before.activeAt index = some other) :
    ¬ other.Conflicts work := by
  intro conflict
  have keyed : other.context ≠ none := by
    intro lane
    have flag := sound.barrier.mpr ⟨index, other, active, lane⟩
    rw [inactive] at flag
    contradiction
  rcases conflict with barrier | barrier | same
  · exact keyed barrier
  · have member := sound.tracked index other active
    rw [alone barrier] at member
    contradiction
  · cases lane : work.context with
    | none => exact keyed (same.trans lane)
    | some context =>
        exact free context lane
          ((sound.contexts context).mpr ⟨index, other, active, same.trans lane⟩)

theorem launchSound_thread (after : KeyedWorld) {index : Nat} {pc : ThreadPc} {next : Advance}
    (sound : before.LaunchSound) (found : before.threads[index]? = some pc)
    (advances : Advances before.scheduler index pc next)
    (threads : after.threads = before.threads.set index next.pc)
    (launching : after.launching = before.launching) : after.LaunchSound := by
  have running : pc ≠ .created := by
    rintro rfl
    cases advances
  have kept : ∀ position : Nat, before.threads[position]? = some ThreadPc.created →
      after.threads[position]? = some ThreadPc.created := by
    intro position created
    rw [threads, getElem?_set_found found]
    by_cases same : position = index
    · subst same
      rw [found, Option.some.injEq] at created
      exact absurd created running
    · simpa [same] using created
  unfold LaunchSound at sound ⊢
  rw [launching]
  split <;> simp only [*] at sound
  all_goals first | trivial | exact fun offset within => kept _ (sound offset within)

theorem ActiveSound.take (sound : before.ActiveSound) {index : Nat} {work : ScheduledWork}
    {passed : List ScheduledWork} (found : before.threads[index]? = some .ready)
    (inactive : before.scheduler.barrierActive = false)
    (alone : work.context = none → before.scheduler.activeByThread = [])
    (free : ∀ context, work.context = some context →
      context ∉ before.scheduler.activeContexts)
    (scheduler : after.scheduler = before.scheduler.activate index passed.length work)
    (threads : after.threads = before.threads.set index (.taken work))
    (launch : after.LaunchSound) : after.ActiveSound := by
  have quiet : before.activeAt index = none := activeAt_found found
  have seen : ∀ other, after.activeAt other =
      if other = index then some work else before.activeAt other := by
    intro other
    unfold activeAt
    rw [threads]
    exact look_set found other
  have apart : ∀ other chosen, before.activeAt other = some chosen → other ≠ index := by
    rintro other chosen active rfl
    rw [quiet] at active
    contradiction
  have absent : ∀ entry ∈ before.scheduler.activeByThread, entry.1 ≠ index := by
    rintro entry member rfl
    rcases sound.held entry member with active | left
    · exact apart _ _ active rfl
    · simp [leavingAt, found, ThreadPc.leaving?] at left
  constructor
  · intro other chosen active
    rw [scheduler]
    rw [seen] at active
    split at active
    · next same =>
      rw [same, Option.some.inj active]
      exact List.mem_cons_self
    · exact List.mem_cons_of_mem _ (sound.tracked other chosen active)
  · intro entry member
    rw [scheduler] at member
    rw [seen]
    rcases List.mem_cons.mp member with rfl | member
    · simp
    · rw [if_neg (absent entry member)]
      refine (sound.held entry member).imp_right fun left => ?_
      unfold leavingAt
      rw [threads, look_set found, if_neg (absent entry member)]
      exact left
  · rw [scheduler]
    exact List.pairwise_cons.mpr
      ⟨fun entry member => (absent entry member).symm, sound.keys⟩
  · intro context
    have own : context ∈ after.scheduler.activeContexts ↔
        work.context = some context ∨ context ∈ before.scheduler.activeContexts := by
      rw [scheduler]
      cases lane : work.context <;> simp [activate, lane, eq_comm]
    rw [own, sound.contexts]
    constructor
    · rintro (lane | ⟨other, chosen, active, lane⟩)
      · exact ⟨index, work, by simp [seen], lane⟩
      · exact ⟨other, chosen, by rw [seen, if_neg (apart _ _ active), active], lane⟩
    · rintro ⟨other, chosen, active, lane⟩
      rw [seen] at active
      split at active
      · exact .inl (Option.some.inj active ▸ lane)
      · exact .inr ⟨other, chosen, active, lane⟩
  · have own : after.scheduler.barrierActive = true ↔
        work.context = none ∨ before.scheduler.barrierActive = true := by
      rw [scheduler]
      simp [activate, ScheduledWork.isBarrier, or_comm]
    rw [own, sound.barrier]
    constructor
    · rintro (lane | ⟨other, chosen, active, lane⟩)
      · exact ⟨index, work, by simp [seen], lane⟩
      · exact ⟨other, chosen, by rw [seen, if_neg (apart _ _ active), active], lane⟩
    · rintro ⟨other, chosen, active, lane⟩
      rw [seen] at active
      split at active
      · exact .inl (Option.some.inj active ▸ lane)
      · exact .inr ⟨other, chosen, active, lane⟩
  · intro first second mine other first_active second_active conflict
    rw [seen] at first_active second_active
    split at first_active <;> split at second_active
    · next first_same second_same => exact first_same.trans second_same.symm
    · rw [← Option.some.inj first_active] at conflict
      exact absurd conflict.symm (sound.take_exclusive inactive alone free second_active)
    · rw [← Option.some.inj second_active] at conflict
      exact absurd conflict (sound.take_exclusive inactive alone free first_active)
    · exact sound.exclusive first second mine other first_active second_active conflict
  · exact launch

theorem ActiveSound.release (sound : before.ActiveSound) {index : Nat} {work : ScheduledWork}
    {reply : DispatchReply} {observerFailed : Bool}
    (found : before.threads[index]? = some (.observing work reply))
    (scheduler : after.scheduler = before.scheduler.release index work reply)
    (threads : after.threads = before.threads.set index (afterRelease reply observerFailed))
    (launch : after.LaunchSound) : after.ActiveSound := by
  have busy : before.activeAt index = some work := activeAt_found found
  have seen : ∀ other, after.activeAt other =
      if other = index then none else before.activeAt other := by
    intro other
    unfold activeAt
    rw [threads, look_set found other, afterRelease_active]
  have remaining : ∀ entry, entry ∈ after.scheduler.activeByThread ↔
      entry ∈ before.scheduler.activeByThread ∧ (reply = .malformed ∨ entry.1 ≠ index) := by
    intro entry
    rw [scheduler]
    by_cases malformed : reply = .malformed <;>
      simp [KeyedSerialHandlerScheduler.release, malformed]
  have left : ∀ other, other ≠ index → before.leavingAt other = some () →
      after.leavingAt other = some () := by
    intro other different leaving
    unfold leavingAt
    rw [threads, look_set found, if_neg different]
    exact leaving
  have others : ∀ other chosen, after.activeAt other = some chosen ↔
      before.activeAt other = some chosen ∧ other ≠ index := by
    intro other chosen
    rw [seen]
    by_cases same : other = index <;> simp [same]
  constructor
  · intro other chosen active
    obtain ⟨active, different⟩ := (others other chosen).mp active
    exact (remaining _).mpr ⟨sound.tracked other chosen active, .inr different⟩
  · intro entry member
    obtain ⟨member, kept⟩ := (remaining entry).mp member
    by_cases same : entry.1 = index
    · right
      have malformed : reply = .malformed := kept.resolve_right (not_not_intro same)
      unfold leavingAt
      rw [threads, look_set found, if_pos same, malformed]
      rfl
    · rw [seen, if_neg same]
      exact (sound.held entry member).imp_right (left entry.1 same)
  · rw [scheduler]
    unfold KeyedSerialHandlerScheduler.release
    dsimp only
    split
    · exact sound.keys
    · exact sound.keys.filter _
  · intro context
    simp only [others]
    cases lane : work.context with
    | none =>
        have own : after.scheduler.activeContexts = before.scheduler.activeContexts := by
          simp [scheduler, KeyedSerialHandlerScheduler.release, lane]
        rw [own, sound.contexts]
        constructor
        · rintro ⟨other, chosen, active, same⟩
          refine ⟨other, chosen, ⟨active, ?_⟩, same⟩
          rintro rfl
          rw [busy, Option.some.injEq] at active
          rw [← active, lane] at same
          contradiction
        · rintro ⟨other, chosen, ⟨active, _⟩, same⟩
          exact ⟨other, chosen, active, same⟩
    | some mine =>
        have own : after.scheduler.activeContexts =
            before.scheduler.activeContexts.erase mine := by
          simp [scheduler, KeyedSerialHandlerScheduler.release, lane]
        rw [own, Finset.mem_erase, sound.contexts]
        constructor
        · rintro ⟨different, other, chosen, active, same⟩
          refine ⟨other, chosen, ⟨active, ?_⟩, same⟩
          rintro rfl
          rw [busy, Option.some.injEq] at active
          rw [← active, lane, Option.some.injEq] at same
          exact different same.symm
        · rintro ⟨other, chosen, ⟨active, different⟩, same⟩
          refine ⟨?_, other, chosen, active, same⟩
          rintro rfl
          exact different (sound.exclusive _ _ _ _ active busy
            (.inr (.inr (same.trans lane.symm))))
  · have own : after.scheduler.barrierActive =
        (before.scheduler.barrierActive && !work.isBarrier) := by rw [scheduler]; rfl
    simp only [own, others, Bool.and_eq_true, sound.barrier]
    constructor
    · rintro ⟨⟨other, chosen, active, lane⟩, keyed⟩
      refine ⟨other, chosen, ⟨active, ?_⟩, lane⟩
      rintro rfl
      rw [busy, Option.some.injEq] at active
      simp [ScheduledWork.isBarrier, active, lane] at keyed
    · rintro ⟨other, chosen, ⟨active, different⟩, lane⟩
      exact absurd (sound.exclusive _ _ _ _ active busy (.inl lane)) different
  · intro first second mine other first_active second_active
    exact sound.exclusive first second mine other ((others _ _).mp first_active).1
      ((others _ _).mp second_active).1
  · exact launch

theorem Transition.activeSound (transition : Transition before after)
    (sound : before.ActiveSound) : after.ActiveSound := by
  cases transition with
  | @thread index pc next found advances =>
      have launch := launchSound_thread { before with
        scheduler := next.scheduler
        threads := before.threads.set index next.pc
        history := next.events ++ before.history } sound.launch found advances rfl rfl
      have still {Seen : Type} {look : ThreadPc → Option Seen} (same : look next.pc = look pc)
          (other : Nat) : (before.threads.set index next.pc)[other]?.bind look =
            before.threads[other]?.bind look := by
        rw [look_set found, same]
        by_cases here : other = index
        · subst here
          simp [found]
        · simp [here]
      have left (kept : pc.leaving? = some () → next.pc.leaving? = some ()) (other : Nat)
          (leaving : before.leavingAt other = some ()) :
          (before.threads.set index next.pc)[other]?.bind ThreadPc.leaving? = some () := by
        rw [look_set found]
        by_cases here : other = index
        · subst here
          simpa using kept (by simpa [leavingAt, found] using leaving)
        · rw [if_neg here]
          exact leaving
      cases advances with
      | take taken =>
          obtain ⟨passed, rest, _, activated, inactive, _, alone, free⟩ :=
            takeInternalWork_spec taken
          exact sound.take found inactive alone free activated rfl launch
      | release work reply observerFailed =>
          exact sound.release found rfl rfl launch
      | leaveDiscard caller observerFailed =>
          refine sound.frame rfl rfl rfl (still (afterDiscard_active _ _)) (left ?_) launch
          cases caller <;> simp [ThreadPc.leaving?, afterDiscard]
      | clear caller =>
          refine sound.frame rfl rfl rfl (still rfl) (left ?_) launch
          cases caller <;> exact id
      | discard caller work rest observerFailed =>
          refine sound.frame rfl rfl rfl (still rfl) (left ?_) launch
          cases caller <;> exact id
      | count caller rest observerFailed raised =>
          refine sound.frame rfl rfl rfl (still rfl) (left ?_) launch
          cases caller <;> exact id
      | _ => exact sound.frame rfl rfl rfl (still rfl) (left (by simp [ThreadPc.leaving?])) launch
  | admission accepting room =>
      exact sound.frame rfl rfl rfl (fun _ => rfl) (fun _ => id) sound.launch
  | housekeeping kept =>
      obtain ⟨same, _, reshaped⟩ := kept.frame sound.launch
      exact sound.frame same.activeContexts same.activeByThread same.barrierActive
        (reshaped.view fun _ => ThreadPc.Idle.inactive)
        (fun index leaving => (reshaped.view (fun _ => ThreadPc.Idle.staying) index).trans leaving)
        (kept.launchSound sound.launch)

theorem activeSound {config : SchedulerConfig} {world : KeyedWorld}
    (reachable : (keyedSystem config).Reachable world) : world.ActiveSound := by
  refine reachable.invariant ?_ fun _ _ _ sound stepped =>
    (step_cases stepped).activeSound sound
  rintro _ rfl
  constructor <;> simp [activeAt, LaunchSound]

end KeyedWorld

end StreamDockSdk.Runtime
