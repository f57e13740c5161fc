import Mathlib.Algebra.GroupWithZero.Nat
import StreamDockSdk.Runtime.KeyedScheduler.Ordering

namespace StreamDockSdk.Runtime

open Messaging Automaton KeyedSerialHandlerScheduler

namespace ThreadPc

/-- 1 for a worker between taking a work and releasing it. -/
def activeLoad (pc : ThreadPc) : Nat :=
  if pc.active?.isSome then 1 else 0

/-- The discarded works that the thread has still to count as completed. -/
def outstanding : ThreadPc → Nat
  | .discarding _ (.finishing rest _) => rest.length
  | .discarding _ (.observing rest _) => rest.length + 1
  | _ => 0

/-- The works of the given token whose completion the thread has still to finish. -/
def unfinished (token : Nat) : ThreadPc → Nat
  | .taken work | .dispatching work | .raised work _ | .finishing work _ =>
      if work.token = token then 1 else 0
  | .discarding _ (.finishing rest _) | .discarding _ (.observing rest _) =>
      rest.countP fun work => work.token = token
  | _ => 0

variable {pc : ThreadPc}

theorem Idle.activeLoad (idle : pc.Idle) : pc.activeLoad = 0 := by
  simp [ThreadPc.activeLoad, idle.inactive]

theorem Idle.outstanding (idle : pc.Idle) : pc.outstanding = 0 := by
  cases pc with
  | discarding caller frame =>
      cases caller <;> cases frame <;> first | rfl | exact idle.elim
  | _ => rfl

theorem Idle.unfinished (idle : pc.Idle) (token : Nat) : pc.unfinished token = 0 := by
  cases pc with
  | discarding caller frame =>
      cases caller <;> cases frame <;> first | rfl | exact idle.elim
  | taken | dispatching | raised | finishing => exact idle.elim
  | _ => rfl

end ThreadPc

@[simp] theorem afterRelease_activeLoad (reply : DispatchReply) (observerFailed : Bool) :
    (afterRelease reply observerFailed).activeLoad = 0 := by
  simp [ThreadPc.activeLoad]

@[simp] theorem afterRelease_outstanding (reply : DispatchReply) (observerFailed : Bool) :
    (afterRelease reply observerFailed).outstanding = 0 := by
  cases observerFailed <;> cases reply <;> rfl

@[simp] theorem afterRelease_unfinished (reply : DispatchReply) (observerFailed : Bool)
    (token : Nat) : (afterRelease reply observerFailed).unfinished token = 0 := by
  cases observerFailed <;> cases reply <;> rfl

@[simp] theorem afterDiscard_activeLoad (observerFailed : Bool) (caller : DiscardCaller) :
    (afterDiscard observerFailed caller).activeLoad = 0 := by
  simp [ThreadPc.activeLoad]

@[simp] theorem afterDiscard_outstanding (observerFailed : Bool) (caller : DiscardCaller) :
    (afterDiscard observerFailed caller).outstanding = 0 := by
  cases caller <;> cases observerFailed <;> rfl

@[simp] theorem afterDiscard_unfinished (observerFailed : Bool) (caller : DiscardCaller)
    (token : Nat) : (afterDiscard observerFailed caller).unfinished token = 0 := by
  cases caller <;> cases observerFailed <;> rfl

namespace KeyedEvent

def accepts (token : Nat) : KeyedEvent → Bool
  | .accepted work => work.token = token
  | _ => false

def finishes (token : Nat) : KeyedEvent → Bool
  | .finished work => work.token = token
  | _ => false

end KeyedEvent

/-- No dispatch has returned an object that is not a `DispatchResult`. -/
def WellTyped (history : List KeyedEvent) : Prop :=
  ∀ work, .returned work .malformed ∉ history

theorem WellTyped.older (events : List KeyedEvent) {history : List KeyedEvent}
    (typed : WellTyped (events ++ history)) : WellTyped history :=
  fun work member => typed work (List.mem_append_right _ member)

/-- How often the completion with the given token was finished. -/
def completions (token : Nat) (history : List KeyedEvent) : Nat :=
  history.countP (KeyedEvent.finishes token)

def acceptances (token : Nat) (history : List KeyedEvent) : Nat :=
  history.countP (KeyedEvent.accepts token)

namespace KeyedWorld

variable {world before after : KeyedWorld}

/-- The recorded sizes of the pending works are exact and within the limits. -/
structure LoadSound (scheduler : KeyedSerialHandlerScheduler) : Prop where
  bytes : scheduler.pendingBytes = (scheduler.pending.map (·.size)).sum
  contexts : ∀ context, scheduler.pendingByContext context =
    scheduler.pending.countP fun work => work.context = some context
  depth : scheduler.pending.length ≤ scheduler.config.pendingLimit
  budget : scheduler.pendingBytes ≤ scheduler.config.pendingByteLimit

theorem LoadSound.frame {scheduler next : KeyedSerialHandlerScheduler} (sound : LoadSound scheduler)
    (same : SameLoad scheduler next) : LoadSound next := by
  obtain ⟨bytes, contexts, depth, budget⟩ := sound
  constructor
  · rw [same.pendingBytes, same.pending, bytes]
  · rw [same.pendingByContext, same.pending]
    exact contexts
  · rw [same.pending, same.config]
    exact depth
  · rw [same.pendingBytes, same.config]
    exact budget

theorem LoadSound.take {scheduler : KeyedSerialHandlerScheduler} (sound : LoadSound scheduler)
    {passed rest : List ScheduledWork} {work : ScheduledWork} {thread : Nat}
    (split : scheduler.pending = passed ++ work :: rest) :
    LoadSound (scheduler.activate thread passed.length work) := by
  have remaining := activate_pending split thread
  obtain ⟨bytes, contexts, depth, budget⟩ := sound
  rw [split] at bytes contexts depth
  simp only [List.map_append, List.map_cons, List.sum_append, List.sum_cons] at bytes
  simp only [List.length_append, List.length_cons] at depth
  constructor
  · rw [remaining]
    simp only [activate, List.map_append, List.sum_append]
    omega
  · intro context
    rw [remaining]
    have counted := contexts context
    simp only [List.countP_append, List.countP_cons] at counted ⊢
    simp only [activate, uncountPending]
    cases lane : work.context with
    | none => simpa [lane] using counted
    | some own =>
        by_cases same : context = own
        · subst same
          simp [lane] at counted
          simp [counted, ← Nat.add_assoc]
        · simpa [same, lane, Ne.symm same] using counted
  · rw [remaining, List.length_append]
    exact Nat.le_trans (by omega) depth
  · exact Nat.le_trans (Nat.sub_le _ _) budget

theorem LoadSound.admission {scheduler : KeyedSerialHandlerScheduler} (sound : LoadSound scheduler)
    {item : SizedEvent} (room : scheduler.isFull item.size = false) :
    LoadSound (scheduler.admitItem item).1 := by
  obtain ⟨bytes, contexts, depth, budget⟩ := sound
  simp only [isFull, Bool.or_eq_false_iff, decide_eq_false_iff_not] at room
  constructor
  · simp [KeyedSerialHandlerScheduler.admitItem, newWork, bytes]
  · intro context
    have counted := contexts context
    simp only [KeyedSerialHandlerScheduler.admitItem, newWork, countPending, List.countP_append,
      List.countP_singleton]
    cases lane : scheduledContext? item.event with
    | none => simpa using counted
    | some own =>
        by_cases same : context = own
        · subst same
          simp [counted]
        · simp [same, Ne.symm same, counted]
  · simp only [KeyedSerialHandlerScheduler.admitItem, List.length_append, List.length_singleton]
    omega
  · simp only [KeyedSerialHandlerScheduler.admitItem]
    omega

/-- Every accepted work is in exactly one place, and so is its completion. -/
structure Conserved (world : KeyedWorld) : Prop where
  load : LoadSound world.scheduler
  accounting : world.scheduler.accepted = world.scheduler.completed +
    world.scheduler.pending.length + weight ThreadPc.activeLoad world.threads +
    world.scheduler.terminalizing
  owed : world.scheduler.terminalizing = weight ThreadPc.outstanding world.threads
  tally : ∀ token, acceptances token world.history =
    (world.scheduler.pending.countP fun work => work.token = token) +
    weight (ThreadPc.unfinished token) world.threads + completions token world.history
  recorded : WellTyped world.history →
    world.scheduler.activeByThread.length = weight ThreadPc.activeLoad world.threads

theorem Conserved.frame (sound : before.Conserved)
    (same : SameLoad before.scheduler after.scheduler) (history : after.history = before.history)
    (reshaped : Reshaped ThreadPc.Idle before.threads after.threads) : after.Conserved := by
  have active := reshaped.weight fun _ => ThreadPc.Idle.activeLoad
  have owed := reshaped.weight fun _ => ThreadPc.Idle.outstanding
  have unfinished := fun token =>
    reshaped.weight fun _ (idle : ThreadPc.Idle _) => idle.unfinished token
  constructor
  · exact sound.load.frame same
  · rw [same.accepted, same.completed, same.pending, same.terminalizing, active]
    exact sound.accounting
  · rw [same.terminalizing, owed]
    exact sound.owed
  · intro token
    rw [history, same.pending, unfinished]
    exact sound.tally token
  · rw [history, same.activeByThread, active]
    exact sound.recorded

theorem Conserved.admission (sound : before.Conserved) {item : SizedEvent} {blocked : List SizedEvent}
    (room : before.scheduler.isFull item.size = false) :
    Conserved { before with
      scheduler := (before.scheduler.admitItem item).1
      blocked
      history := .accepted (before.scheduler.newWork item) :: before.history } := by
  constructor
  · exact sound.load.admission room
  · have accounting := sound.accounting
    simp only [KeyedSerialHandlerScheduler.admitItem, List.length_append, List.length_singleton]
    omega
  · exact sound.owed
  · intro token
    have tally := sound.tally token
    simp only [acceptances, completions, List.countP_cons, KeyedEvent.accepts,
      KeyedEvent.finishes, KeyedSerialHandlerScheduler.admitItem, List.countP_append,
      List.countP_nil, Bool.false_eq_true, if_false, decide_eq_true_eq] at tally ⊢
    omega
  · exact fun typed => sound.recorded (WellTyped.older [_] typed)

theorem length_filter_key {entries : List (Nat × ScheduledWork)} {entry : Nat × ScheduledWork}
    (keys : entries.Pairwise fun first second => first.1 ≠ second.1) (member : entry ∈ entries) :
    (entries.filter fun other => other.1 != entry.1).length + 1 = entries.length := by
  induction entries with
  | nil => contradiction
  | cons head rest ih =>
      obtain ⟨apart, keys⟩ := List.pairwise_cons.mp keys
      rcases List.mem_cons.mp member with rfl | member
      · have kept : rest.filter (fun other => other.1 != entry.1) = rest :=
          List.filter_eq_self.mpr fun other later => by simpa using (apart other later).symm
        simp [kept]
      · have different := apart entry member
        simp [different, ih keys member]

section Thread

variable {index : Nat} {pc : ThreadPc} {next : Advance}

theorem Conserved.thread_load (sound : before.Conserved)
    (advances : Advances before.scheduler index pc next) : LoadSound next.scheduler := by
  cases advances with
  | take taken =>
      obtain ⟨passed, rest, split, rfl, _⟩ := takeInternalWork_spec taken
      exact sound.load.take split
  | clear caller =>
      constructor
      · rfl
      · intro context
        rfl
      · exact Nat.zero_le _
      · exact Nat.zero_le _
  | refuse | giveUp => exact sound.load.frame stopAccepting_sameLoad
  | exit => exact sound.load.frame exitWorker_sameLoad
  | timeOut => exact sound.load.frame recordTimedOut_sameLoad
  | release | count =>
      exact ⟨sound.load.bytes, sound.load.contexts, sound.load.depth, sound.load.budget⟩
  | _ => exact sound.load

theorem Conserved.thread_owed (sound : before.Conserved)
    (found : before.threads[index]? = some pc)
    (advances : Advances before.scheduler index pc next) :
    next.scheduler.terminalizing =
      weight ThreadPc.outstanding (before.threads.set index next.pc) := by
  have moved := weight_set ThreadPc.outstanding next.pc found
  have bound := measure_le_weight ThreadPc.outstanding found
  have owed := sound.owed
  cases advances with
  | take taken =>
      obtain ⟨passed, rest, _, rfl, _⟩ := takeInternalWork_spec taken
      exact owed.trans moved.symm
  | clear caller | count =>
      simp only [ThreadPc.outstanding, clearPending, countDiscarded] at moved bound ⊢
      omega
  | leaveDiscard =>
      dsimp only at moved
      rw [afterDiscard_outstanding] at moved
      exact owed.trans moved.symm
  | release =>
      dsimp only at moved
      rw [afterRelease_outstanding] at moved
      exact owed.trans moved.symm
  | _ =>
      simp only [ThreadPc.outstanding, List.length_cons, stopAccepting, exitWorker,
        recordTimedOut] at moved ⊢
      omega

theorem Conserved.thread_accounting (sound : before.Conserved)
    (found : before.threads[index]? = some pc)
    (advances : Advances before.scheduler index pc next) :
    next.scheduler.accepted = next.scheduler.completed + next.scheduler.pending.length +
      weight ThreadPc.activeLoad (before.threads.set index next.pc) +
      next.scheduler.terminalizing := by
  have moved := weight_set ThreadPc.activeLoad next.pc found
  have bound := measure_le_weight ThreadPc.outstanding found
  have owed := sound.owed
  have accounting := sound.accounting
  cases advances with
  | take taken =>
      obtain ⟨passed, rest, split, rfl, _⟩ := takeInternalWork_spec taken
      have remaining := activate_pending split index
      rw [split, List.length_append, List.length_cons] at accounting
      rw [remaining, List.length_append]
      simp [ThreadPc.activeLoad, ThreadPc.active?] at moved
      simp only [activate]
      omega
  | leaveDiscard =>
      dsimp only at moved ⊢
      rw [afterDiscard_activeLoad] at moved
      simp only [ThreadPc.activeLoad, ThreadPc.active?, Option.isSome_none, Bool.false_eq_true,
        if_false] at moved
      omega
  | release =>
      dsimp only at moved ⊢
      rw [afterRelease_activeLoad] at moved
      simp only [ThreadPc.activeLoad, ThreadPc.active?, Option.isSome_some, if_true] at moved
      simp only [KeyedSerialHandlerScheduler.release]
      omega
  | _ =>
      simp [ThreadPc.activeLoad, ThreadPc.active?, ThreadPc.outstanding] at moved bound
      simp only [clearPending, countDiscarded, stopAccepting, exitWorker, recordTimedOut,
        List.length_nil]
      omega

theorem Conserved.thread_tally (sound : before.Conserved)
    (found : before.threads[index]? = some pc)
    (advances : Advances before.scheduler index pc next) (token : Nat) :
    acceptances token (next.events ++ before.history) =
      (next.scheduler.pending.countP fun work => work.token = token) +
      weight (ThreadPc.unfinished token) (before.threads.set index next.pc) +
      completions token (next.events ++ before.history) := by
  have moved := weight_set (ThreadPc.unfinished token) next.pc found
  have tally := sound.tally token
  simp only [acceptances, completions, List.countP_append] at tally ⊢
  cases advances with
  | take taken =>
      obtain ⟨passed, rest, split, rfl, _⟩ := takeInternalWork_spec taken
      rw [activate_pending split index]
      rw [split] at tally
      simp only [List.countP_append, List.countP_cons, List.countP_nil, ThreadPc.unfinished,
        decide_eq_true_eq] at tally moved ⊢
      omega
  | clear caller =>
      have quiet : ∀ works : List ScheduledWork,
          (works.map KeyedEvent.discarded).reverse.countP (KeyedEvent.accepts token) = 0 ∧
            (works.map KeyedEvent.discarded).reverse.countP (KeyedEvent.finishes token) = 0 := by
        intro works
        simp [KeyedEvent.accepts, KeyedEvent.finishes]
      simp only [ThreadPc.unfinished] at moved
      simp only [quiet, clearPending, List.countP_nil]
      omega
  | leaveDiscard =>
      dsimp only at moved ⊢
      rw [afterDiscard_unfinished] at moved
      simp only [ThreadPc.unfinished, List.countP_nil] at moved ⊢
      omega
  | release =>
      dsimp only at moved ⊢
      rw [afterRelease_unfinished] at moved
      simp only [ThreadPc.unfinished] at moved
      simp only [List.countP_nil, KeyedSerialHandlerScheduler.release]
      omega
  | _ =>
      simp only [ThreadPc.unfinished, List.countP_cons, List.countP_nil, KeyedEvent.accepts,
        KeyedEvent.finishes, decide_eq_true_eq, Bool.false_eq_true, if_false, countDiscarded,
        stopAccepting, exitWorker, recordTimedOut] at moved ⊢
      omega

theorem Conserved.thread_recorded (sound : before.Conserved) (active : before.ActiveSound)
    (order : before.OrderSound) (found : before.threads[index]? = some pc)
    (advances : Advances before.scheduler index pc next)
    (typed : WellTyped (next.events ++ before.history)) :
    next.scheduler.activeByThread.length =
      weight ThreadPc.activeLoad (before.threads.set index next.pc) := by
  have moved := weight_set ThreadPc.activeLoad next.pc found
  have recorded := sound.recorded (WellTyped.older _ typed)
  cases advances with
  | take taken =>
      obtain ⟨passed, rest, _, rfl, _⟩ := takeInternalWork_spec taken
      simp [ThreadPc.activeLoad, ThreadPc.active?] at moved
      simp only [activate, List.length_cons]
      omega
  | release work reply observerFailed =>
      have answered := (order.logged _ (List.mem_of_getElem? found)).1
      have proper : reply ≠ .malformed := by
        rintro rfl
        exact typed work answered
      have held := active.tracked index work (activeAt_found found)
      have removed := length_filter_key active.keys held
      dsimp only at removed
      dsimp only at moved ⊢
      rw [afterRelease_activeLoad] at moved
      simp only [ThreadPc.activeLoad, ThreadPc.active?, Option.isSome_some, if_true] at moved
      simp only [KeyedSerialHandlerScheduler.release, if_neg proper]
      omega
  | leaveDiscard =>
      dsimp only at moved ⊢
      rw [afterDiscard_activeLoad] at moved
      simp only [ThreadPc.activeLoad, ThreadPc.active?, Option.isSome_none, Bool.false_eq_true,
        if_false] at moved
      omega
  | _ =>
      simp [ThreadPc.activeLoad, ThreadPc.active?] at moved
      simp only [clearPending, countDiscarded, stopAccepting, exitWorker, recordTimedOut]
      omega

end Thread

theorem Transition.conserved (transition : Transition before after) (active : before.ActiveSound)
    (order : before.OrderSound) (sound : before.Conserved) : after.Conserved := by
  cases transition with
  | thread found advances =>
      exact ⟨sound.thread_load advances, sound.thread_accounting found advances,
        sound.thread_owed found advances, sound.thread_tally found advances,
        sound.thread_recorded active order found advances⟩
  | admission accepting room => exact sound.admission room
  | housekeeping kept =>
      obtain ⟨same, history, reshaped⟩ := kept.frame active.launch
      exact sound.frame same history reshaped

theorem conserved {config : SchedulerConfig} {world : KeyedWorld}
    (reachable : (keyedSystem config).Reachable world) : world.Conserved := by
  refine reachable.invariant_given (fun world => world.ActiveSound ∧ world.OrderSound)
    (fun _ reached => ⟨activeSound reached, orderSound reached⟩) ?_
    fun _ _ _ known sound stepped => (step_cases stepped).conserved known.1 known.2 sound
  rintro _ rfl
  constructor
  · constructor <;> simp
  all_goals simp [acceptances, completions]

end KeyedWorld

end StreamDockSdk.Runtime
