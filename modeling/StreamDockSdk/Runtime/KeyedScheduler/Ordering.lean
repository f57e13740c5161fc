import StreamDockSdk.Automaton.History
import StreamDockSdk.Runtime.KeyedScheduler.Exclusion

namespace StreamDockSdk.Runtime

open Messaging Automaton KeyedSerialHandlerScheduler

/-- The work will never be dispatched again: its dispatch has returned and its
completion is finished, or it was discarded. -/
def Settled (history : List KeyedEvent) (work : ScheduledWork) : Prop :=
  ((∃ reply, .returned work reply ∈ history) ∧ .finished work ∈ history) ∨
    .discarded work ∈ history

theorem Settled.mono {older history : List KeyedEvent} {work : ScheduledWork}
    (settled : Settled older work) (included : older ⊆ history) : Settled history work := by
  rcases settled with ⟨⟨reply, returned⟩, finished⟩ | discarded
  · exact .inl ⟨⟨reply, included returned⟩, included finished⟩
  · exact .inr (included discarded)

/-- Tokens follow the order of acceptance, and a work is dispatched only after
every conflicting work that was accepted before it is settled. -/
def orderLaw (older : List KeyedEvent) : KeyedEvent → Prop
  | .accepted work => ∀ earlier, .accepted earlier ∈ older → earlier.token < work.token
  | .dispatched work => .accepted work ∈ older ∧ ∀ earlier, .accepted earlier ∈ older →
      earlier.token < work.token → earlier.Conflicts work → Settled older earlier
  | _ => True

/-- What a thread has already put on record about its work. -/
def ThreadPc.Logged (history : List KeyedEvent) : ThreadPc → Prop
  | .raised work reply | .finishing work reply => .returned work reply ∈ history
  | .observing work reply => .returned work reply ∈ history ∧ .finished work ∈ history
  | _ => True

theorem ThreadPc.Logged.mono {older history : List KeyedEvent} {pc : ThreadPc}
    (logged : pc.Logged older) (included : older ⊆ history) : pc.Logged history := by
  cases pc with
  | raised work reply | finishing work reply => exact included logged
  | observing work reply => exact ⟨included logged.1, included logged.2⟩
  | _ => trivial

theorem ThreadPc.Idle.logged {history : List KeyedEvent} {pc : ThreadPc} (idle : pc.Idle) :
    pc.Logged history := by
  cases pc with
  | raised | finishing | observing => exact idle.elim
  | _ => trivial

namespace KeyedWorld

variable {world before after : KeyedWorld}

structure OrderSound (world : KeyedWorld) : Prop where
  law : Guarded orderLaw world.history
  issued : ∀ work, .accepted work ∈ world.history → work.token ≤ world.scheduler.internalToken
  sorted : world.scheduler.pending.Pairwise fun first second => first.token < second.token
  pending_accepted : ∀ work ∈ world.scheduler.pending, .accepted work ∈ world.history
  active_accepted : ∀ index work, world.activeAt index = some work → .accepted work ∈ world.history
  covered : ∀ work, .accepted work ∈ world.history → work ∈ world.scheduler.pending ∨
    (∃ index, world.activeAt index = some work) ∨ Settled world.history work
  cleared : ∀ index work, world.activeAt index = some work → ∀ earlier,
    .accepted earlier ∈ world.history → earlier.token < work.token → earlier.Conflicts work →
      Settled world.history earlier
  logged : ∀ pc ∈ world.threads, pc.Logged world.history

/-- A step that neither accepts a work nor changes which works are pending or active. -/
theorem OrderSound.frame (sound : before.OrderSound) (events : List KeyedEvent)
    (history : after.history = events ++ before.history)
    (unaccepted : ∀ work, .accepted work ∉ events)
    (law : Guarded orderLaw after.history)
    (pending : after.scheduler.pending = before.scheduler.pending)
    (token : after.scheduler.internalToken = before.scheduler.internalToken)
    (active : ∀ index, after.activeAt index = before.activeAt index)
    (logged : ∀ pc ∈ after.threads, pc.Logged after.history) : after.OrderSound := by
  have included : before.history ⊆ after.history := by
    rw [history]
    exact List.subset_append_right _ _
  have accepted : ∀ work, .accepted work ∈ after.history ↔ .accepted work ∈ before.history := by
    intro work
    simp [history, unaccepted]
  constructor
  · exact law
  · intro work member
    rw [token]
    exact sound.issued work ((accepted work).mp member)
  · rw [pending]
    exact sound.sorted
  · intro work member
    rw [pending] at member
    exact (accepted work).mpr (sound.pending_accepted work member)
  · intro index work busy
    rw [active] at busy
    exact (accepted work).mpr (sound.active_accepted index work busy)
  · intro work member
    rw [pending]
    simp only [active]
    rcases sound.covered work ((accepted work).mp member) with waiting | busy | settled
    · exact .inl waiting
    · exact .inr (.inl busy)
    · exact .inr (.inr (settled.mono included))
  · intro index work busy earlier member older conflict
    rw [active] at busy
    exact (sound.cleared index work busy earlier ((accepted earlier).mp member) older
      conflict).mono included
  · exact logged

theorem OrderSound.logged_set (sound : before.OrderSound) (events : List KeyedEvent)
    {index : Nat} {new : ThreadPc} (logged : new.Logged (events ++ before.history)) :
    ∀ pc ∈ before.threads.set index new, pc.Logged (events ++ before.history) := by
  intro pc member
  rcases List.mem_or_eq_of_mem_set member with kept | rfl
  · exact (sound.logged pc kept).mono (List.subset_append_right _ _)
  · exact logged

theorem OrderSound.take (sound : before.OrderSound) (active : before.ActiveSound) {index : Nat}
    {work : ScheduledWork} {next : KeyedSerialHandlerScheduler}
    (found : before.threads[index]? = some .ready)
    (taken : before.scheduler.takeInternalWork index = some (next, work)) :
    OrderSound { before with
      scheduler := next
      threads := before.threads.set index (.taken work) } := by
  obtain ⟨passed, rest, split, rfl, inactive, skipped, alone, free⟩ := takeInternalWork_spec taken
  have remaining := activate_pending split index
  have seen : ∀ other, (before.threads.set index (.taken work))[other]?.bind ThreadPc.active? =
      if other = index then some work else before.activeAt other := look_set found
  have chosen : work ∈ before.scheduler.pending := by
    rw [split]
    simp
  have sorted := sound.sorted
  rw [split] at sorted
  obtain ⟨passed_sorted, behind, across⟩ := List.pairwise_append.mp sorted
  constructor
  · exact sound.law
  · exact sound.issued
  · dsimp only
    rw [remaining]
    exact List.pairwise_append.mpr ⟨passed_sorted, (List.pairwise_cons.mp behind).2,
      fun first member second later => across first member second (List.mem_cons_of_mem _ later)⟩
  · intro other member
    dsimp only at member
    rw [remaining] at member
    refine sound.pending_accepted other ?_
    rw [split]
    rcases List.mem_append.mp member with member | member <;> simp [member]
  · intro other mine busy
    simp only [activeAt, seen] at busy
    split at busy
    · rw [← Option.some.inj busy]
      exact sound.pending_accepted work chosen
    · exact sound.active_accepted other mine busy
  · intro other member
    simp only [activeAt, seen, remaining]
    rcases sound.covered other member with waiting | ⟨position, busy⟩ | settled
    · rw [split] at waiting
      rcases List.mem_append.mp waiting with waiting | waiting
      · exact .inl (List.mem_append_left _ waiting)
      · rcases List.mem_cons.mp waiting with rfl | waiting
        · exact .inr (.inl ⟨index, by simp⟩)
        · exact .inl (List.mem_append_right _ waiting)
    · refine .inr (.inl ⟨position, ?_⟩)
      have different : position ≠ index := by
        rintro rfl
        rw [activeAt_found found] at busy
        contradiction
      rw [if_neg different]
      exact busy
    · exact .inr (.inr settled)
  · intro other mine busy earlier member older conflict
    simp only [activeAt, seen] at busy
    split at busy
    · rw [← Option.some.inj busy] at older conflict
      rcases sound.covered earlier member with waiting | ⟨position, running⟩ | settled
      · rw [split] at waiting
        rcases List.mem_append.mp waiting with waiting | waiting
        · exact absurd conflict (skipped earlier waiting)
        · rcases List.mem_cons.mp waiting with rfl | waiting
          · exact absurd older (Nat.lt_irrefl _)
          · have later := (List.pairwise_cons.mp behind).1 earlier waiting
            omega
      · exact absurd conflict (active.take_exclusive inactive alone free running)
      · exact settled
    · exact sound.cleared other mine busy earlier member older conflict
  · exact sound.logged_set [] trivial

theorem OrderSound.release (sound : before.OrderSound) {index : Nat} {work : ScheduledWork}
    {reply : DispatchReply} {observerFailed : Bool}
    (found : before.threads[index]? = some (.observing work reply)) :
    OrderSound { before with
      scheduler := before.scheduler.release index work reply
      threads := before.threads.set index (afterRelease reply observerFailed) } := by
  have seen : ∀ other, (before.threads.set index (afterRelease reply observerFailed))[other]?.bind
      ThreadPc.active? = if other = index then none else before.activeAt other := by
    intro other
    rw [look_set found, afterRelease_active]
    rfl
  have logged := sound.logged _ (List.mem_of_getElem? found)
  have done : Settled before.history work := .inl ⟨⟨reply, logged.1⟩, logged.2⟩
  constructor
  · exact sound.law
  · exact sound.issued
  · exact sound.sorted
  · exact sound.pending_accepted
  · intro other mine busy
    simp only [activeAt, seen] at busy
    split at busy
    · contradiction
    · exact sound.active_accepted other mine busy
  · intro other member
    simp only [activeAt, seen]
    rcases sound.covered other member with waiting | ⟨position, busy⟩ | settled
    · exact .inl waiting
    · by_cases same : position = index
      · rw [same, activeAt_found found, ThreadPc.active?, Option.some.injEq] at busy
        exact .inr (.inr (busy ▸ done))
      · exact .inr (.inl ⟨position, (if_neg same).trans busy⟩)
    · exact .inr (.inr settled)
  · intro other mine busy earlier member older conflict
    simp only [activeAt, seen] at busy
    split at busy
    · contradiction
    · exact sound.cleared other mine busy earlier member older conflict
  · refine sound.logged_set [] ?_
    cases reply <;> cases observerFailed <;> trivial

theorem guarded_discarded {works : List ScheduledWork} {older : List KeyedEvent}
    (guarded : Guarded orderLaw older) :
    Guarded orderLaw (works.map KeyedEvent.discarded ++ older) := by
  induction works with
  | nil => exact guarded
  | cons work rest ih => exact ⟨trivial, ih⟩

theorem OrderSound.clear (sound : before.OrderSound) {index : Nat} {caller : DiscardCaller}
    (found : before.threads[index]? = some (.discarding caller .entering)) :
    OrderSound { before with
      scheduler := before.scheduler.clearPending
      threads := before.threads.set index
        (.discarding caller (.finishing before.scheduler.pending false))
      history := (before.scheduler.pending.map .discarded).reverse ++ before.history } := by
  have included : before.history ⊆
      (before.scheduler.pending.map KeyedEvent.discarded).reverse ++ before.history :=
    List.subset_append_right _ _
  have accepted : ∀ work, .accepted work ∈
      (before.scheduler.pending.map KeyedEvent.discarded).reverse ++ before.history ↔
        .accepted work ∈ before.history := by simp
  have seen : ∀ other, (before.threads.set index
      (.discarding caller (.finishing before.scheduler.pending false)))[other]?.bind
        ThreadPc.active? = before.activeAt other := by
    intro other
    rw [look_set found]
    split
    · next same =>
      rw [same, activeAt_found found]
      rfl
    · rfl
  constructor
  · dsimp only
    rw [← List.map_reverse]
    exact guarded_discarded sound.law
  · exact fun work member => sound.issued work ((accepted work).mp member)
  · exact .nil
  · simp [clearPending]
  · intro other mine busy
    simp only [activeAt, seen] at busy
    exact (accepted mine).mpr (sound.active_accepted other mine busy)
  · intro work member
    simp only [activeAt, seen]
    rcases sound.covered work ((accepted work).mp member) with waiting | busy | settled
    · exact .inr (.inr (.inr (by simp [waiting])))
    · exact .inr (.inl busy)
    · exact .inr (.inr (settled.mono included))
  · intro other mine busy earlier member older conflict
    simp only [activeAt, seen] at busy
    exact (sound.cleared other mine busy earlier ((accepted earlier).mp member) older
      conflict).mono included
  · exact sound.logged_set _ trivial

theorem OrderSound.admission (sound : before.OrderSound) (item : SizedEvent)
    (blocked : List SizedEvent) :
    OrderSound { before with
      scheduler := (before.scheduler.admitItem item).1
      blocked
      history := .accepted (before.scheduler.newWork item) :: before.history } := by
  have fresh : ∀ work, .accepted work ∈ before.history →
      work.token < (before.scheduler.newWork item).token :=
    fun work member => Nat.lt_succ_of_le (sound.issued work member)
  have included : before.history ⊆
      KeyedEvent.accepted (before.scheduler.newWork item) :: before.history :=
    List.subset_cons_self _ _
  constructor
  · exact ⟨fresh, sound.law⟩
  · intro work member
    simp only [List.mem_cons, KeyedEvent.accepted.injEq] at member
    rcases member with rfl | member
    · exact Nat.le_refl _
    · exact Nat.le_succ_of_le (sound.issued work member)
  · refine List.pairwise_append.mpr ⟨sound.sorted, List.pairwise_singleton _ _, ?_⟩
    intro first member second last
    rw [List.mem_singleton.mp last]
    exact fresh first (sound.pending_accepted first member)
  · intro work member
    rcases List.mem_append.mp member with member | last
    · exact included (sound.pending_accepted work member)
    · rw [List.mem_singleton.mp last]
      exact List.mem_cons_self
  · intro index work busy
    exact included (sound.active_accepted index work busy)
  · intro work member
    simp only [List.mem_cons, KeyedEvent.accepted.injEq] at member
    rcases member with rfl | member
    · exact .inl (List.mem_append_right _ (List.mem_singleton.mpr rfl))
    · rcases sound.covered work member with waiting | busy | settled
      · exact .inl (List.mem_append_left _ waiting)
      · exact .inr (.inl busy)
      · exact .inr (.inr (settled.mono included))
  · intro index work busy earlier member older conflict
    simp only [List.mem_cons, KeyedEvent.accepted.injEq] at member
    rcases member with rfl | member
    · have bound := fresh work (sound.active_accepted index work busy)
      omega
    · exact (sound.cleared index work busy earlier member older conflict).mono included
  · exact fun pc member => (sound.logged pc member).mono included

theorem Transition.orderSound (transition : Transition before after)
    (active : before.ActiveSound) (sound : before.OrderSound) : after.OrderSound := by
  cases transition with
  | @thread index pc next found advances =>
      have mine := sound.logged pc (List.mem_of_getElem? found)
      have still (same : next.pc.active? = pc.active?) (other : Nat) :
          (before.threads.set index next.pc)[other]?.bind ThreadPc.active? =
            before.activeAt other := by
        rw [look_set found, same]
        split
        · next here => rw [here, activeAt_found found]
        · rfl
      cases advances with
      | take taken => exact sound.take active found taken
      | release work reply observerFailed => exact sound.release found
      | clear caller => exact sound.clear found
      | dispatch work =>
          have busy : before.activeAt index = some work := activeAt_found found
          exact sound.frame _ rfl (by simp)
            ⟨⟨sound.active_accepted index work busy, sound.cleared index work busy⟩, sound.law⟩
            rfl rfl (still rfl) (sound.logged_set _ trivial)
      | answer work outcome =>
          exact sound.frame _ rfl (by simp) ⟨trivial, sound.law⟩ rfl rfl (still rfl)
            (sound.logged_set _ List.mem_cons_self)
      | fail work reply =>
          exact sound.frame _ rfl (by simp) ⟨trivial, sound.law⟩ rfl rfl (still rfl)
            (sound.logged_set _ List.mem_cons_self)
      | refuse work reply =>
          exact sound.frame _ rfl (by simp) sound.law rfl rfl (still rfl) (sound.logged_set _ mine)
      | finish work reply =>
          exact sound.frame _ rfl (by simp) ⟨trivial, sound.law⟩ rfl rfl (still rfl)
            (sound.logged_set _ ⟨List.mem_cons_of_mem _ mine, List.mem_cons_self⟩)
      | discard caller work rest observerFailed =>
          exact sound.frame _ rfl (by simp) ⟨trivial, sound.law⟩ rfl rfl (still rfl)
            (sound.logged_set _ trivial)
      | leaveDiscard caller observerFailed =>
          refine sound.frame _ rfl (by simp) sound.law rfl rfl (still (afterDiscard_active _ _))
            (sound.logged_set _ ?_)
          cases caller <;> cases observerFailed <;> trivial
      | _ =>
          exact sound.frame _ rfl (by simp) sound.law rfl rfl (still rfl) (sound.logged_set _ trivial)
  | admission accepting room => exact sound.admission _ _
  | housekeeping kept =>
      obtain ⟨same, history, reshaped⟩ := kept.frame active.launch
      refine sound.frame [] history (by simp) (history ▸ sound.law) same.pending
        same.internalToken (reshaped.view fun _ => ThreadPc.Idle.inactive) ?_
      intro pc member
      rw [history]
      exact (reshaped.mem member).elim (sound.logged pc) ThreadPc.Idle.logged

theorem orderSound {config : SchedulerConfig} {world : KeyedWorld}
    (reachable : (keyedSystem config).Reachable world) : world.OrderSound := by
  refine reachable.invariant_given ActiveSound (fun _ => activeSound) ?_
    fun _ _ _ active sound stepped => (step_cases stepped).orderSound active sound
  rintro _ rfl
  constructor <;> simp [activeAt, Guarded]

/-- A work is accepted at most once. -/
theorem OrderSound.accepted_once (sound : world.OrderSound) {newer older : List KeyedEvent}
    {event : KeyedEvent} {work : ScheduledWork}
    (split : world.history = newer ++ event :: older) (accepted : .accepted work ∈ older) :
    .accepted work ∉ newer := by
  intro again
  obtain ⟨first, second, newer_eq⟩ := List.append_of_mem again
  have law := sound.law
  rw [split, newer_eq, List.append_assoc, List.cons_append] at law
  exact Nat.lt_irrefl _ (law.at_event work (by simp [accepted]))

/-- Between the acceptance of two conflicting works and the dispatch of the
later one, the earlier one is settled. -/
theorem OrderSound.settled_before (sound : world.OrderSound) {newer older : List KeyedEvent}
    {first second : ScheduledWork}
    (split : world.history = newer ++ .dispatched second :: older)
    (precedes : Precedes world.history (.accepted first) (.accepted second))
    (conflict : first.Conflicts second) : Settled older first := by
  have law := sound.law
  rw [split] at law
  obtain ⟨accepted, ordered⟩ := law.at_event
  have earlier : .accepted first ∈ older :=
    precedes.mem_older split (sound.accepted_once split accepted) nofun
  obtain ⟨later, before_second, accepted_split, member⟩ := precedes
  have issued := sound.law
  rw [accepted_split] at issued
  exact ordered first earlier (issued.at_event first member) conflict

/-- Works of one context are active one at a time, a barrier is active alone, and
conflicting works are dispatched in the order of their acceptance. -/
theorem mutual_exclusion_and_order {config : SchedulerConfig} {world : KeyedWorld}
    (reachable : (keyedSystem config).Reachable world) :
    (∀ context first second mine other,
      world.activeAt first = some mine → mine.context = some context →
      world.activeAt second = some other → other.context = some context → first = second) ∧
    (∀ first second mine other,
      world.activeAt first = some mine → mine.isBarrier = true →
      world.activeAt second = some other → second = first) ∧
    (∀ first second newer older,
      first.Conflicts second →
      Precedes world.history (.accepted first) (.accepted second) →
      world.history = newer ++ .dispatched second :: older → Settled older first) := by
  have active := activeSound reachable
  have order := orderSound reachable
  refine ⟨?_, ?_, ?_⟩
  · intro context first second mine other first_active first_lane second_active second_lane
    exact active.exclusive first second mine other first_active second_active
      (.inr (.inr (first_lane.trans second_lane.symm)))
  · intro first second mine other first_active barrier second_active
    refine active.exclusive second first other mine second_active first_active (.inr (.inl ?_))
    simpa [ScheduledWork.isBarrier] using barrier
  · intro first second newer older conflict precedes split
    exact order.settled_before split precedes conflict

end KeyedWorld

theorem sampleBytes_pos : 0 < 64 := by decide

def sampleConfig : SchedulerConfig where
  workerCount := 2
  pendingLimit := 4
  pendingByteLimit := 64
  workerCount_pos := Nat.two_pos
  pendingLimit_pos := by decide
  pendingByteLimit_pos := sampleBytes_pos

def sampleItem (key : Str) : SizedEvent where
  event := .propertyInspectorDidAppear { action := ⟨[]⟩, context := key, device := ⟨[]⟩ }
  size := 8

def sampleWork (token : Nat) (key : Str) : ScheduledWork :=
  { token, event := (sampleItem key).event, context := some key, size := 8 }

/-- `start` with two workers. -/
def launchLabels : List KeyedLabel :=
  [.start, .launch true, .launch true, .launch true, .launch true, .launch true]

/-- The run from a new scheduler, if every step of it is enabled. -/
def sampleRun (labels : List KeyedLabel) : Option KeyedWorld :=
  (keyedSystem sampleConfig).exec { scheduler := { config := sampleConfig } } labels

theorem sampleRun_reachable (labels : List KeyedLabel) (enabled : (sampleRun labels).isSome) :
    (keyedSystem sampleConfig).Reachable ((sampleRun labels).get enabled) :=
  System.Reachable.exec (.initial rfl) (Option.some_get enabled).symm

def sameContextLabels : List KeyedLabel := launchLabels ++
  ([.submit (sampleItem ⟨[1]⟩), .submit (sampleItem ⟨[1]⟩),
    .thread 0 .proceed, .thread 0 .proceed, .thread 0 (.returns .handled),
    .thread 0 .proceed, .thread 0 (.observed false), .thread 1 .proceed, .thread 1 .proceed] : List KeyedLabel)

theorem mutual_exclusion_and_order_run :
    Settled [.finished (sampleWork 1 ⟨[1]⟩), .returned (sampleWork 1 ⟨[1]⟩) (.result .handled),
      .dispatched (sampleWork 1 ⟨[1]⟩), .accepted (sampleWork 2 ⟨[1]⟩),
      .accepted (sampleWork 1 ⟨[1]⟩)] (sampleWork 1 ⟨[1]⟩) :=
  (KeyedWorld.mutual_exclusion_and_order
    (sampleRun_reachable sameContextLabels rfl)).2.2
    (sampleWork 1 ⟨[1]⟩) (sampleWork 2 ⟨[1]⟩) [] _ (.inr (.inr rfl))
    ⟨[.dispatched (sampleWork 2 ⟨[1]⟩), .finished (sampleWork 1 ⟨[1]⟩),
      .returned (sampleWork 1 ⟨[1]⟩) (.result .handled), .dispatched (sampleWork 1 ⟨[1]⟩)],
      [.accepted (sampleWork 1 ⟨[1]⟩)], rfl, List.mem_singleton.mpr rfl⟩ rfl

end StreamDockSdk.Runtime
