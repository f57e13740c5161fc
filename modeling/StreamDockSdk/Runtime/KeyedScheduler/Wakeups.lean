import StreamDockSdk.Automaton.Monitor
import StreamDockSdk.Runtime.KeyedScheduler.Completion
import StreamDockSdk.Runtime.KeyedScheduler.Selection

namespace StreamDockSdk.Runtime

open Messaging Automaton KeyedSerialHandlerScheduler

/-- A worker in `_run`, a caller of `stop` or `drain` in `wait_for`, or a caller of
`submit_sized` with an event of the given size. -/
inductive KeyedWaiter where
  | worker (thread : Nat)
  | stopping (thread : Nat)
  | draining (caller : Nat)
  | submitter (size : Nat)
deriving DecidableEq, Repr

namespace KeyedWaiter

def submits : KeyedWaiter → Bool
  | .submitter _ => true
  | _ => false

end KeyedWaiter

namespace ThreadPc

/-- The locked region that the thread is about to run calls `notify_all`.  A malformed
reply raises there before the call. -/
def notifies (scheduler : KeyedSerialHandlerScheduler) (thread : Nat) : ThreadPc → Bool
  | .ready => (scheduler.takeInternalWork thread).isSome
  | .observing _ reply => reply != .malformed
  | .raised _ _ | .failing | .exiting => true
  | .discarding _ .entering | .discarding _ (.observing _ _) => true
  | _ => false

end ThreadPc

namespace Admission

def notifies : Admission → Bool
  | .accepted _ => true
  | _ => false

def parks (item : SizedEvent) : Admission → List KeyedWaiter
  | .blocked => [.submitter item.size]
  | _ => []

end Admission

namespace KeyedWorld

variable (world : KeyedWorld)

/-- What the submission of an event, or the return of its wait, decides. -/
def admission? : KeyedLabel → Option (SizedEvent × Admission)
  | .submit item =>
      match world.scheduler.submitSized item with
      | .error _ => none
      | .ok (_, admission) => some (item, admission)
  | .resume index => world.blocked[index]?.map fun item =>
      (item, (world.scheduler.resumeSubmission item).2)
  | _ => none

/-- The test of each waiting loop. -/
def waiterReady : KeyedWaiter → Bool
  | .worker thread => (world.scheduler.advance thread .ready .proceed).isSome
  | .stopping _ | .draining _ => world.scheduler.isDrained
  | .submitter size => !world.scheduler.accepting || !world.scheduler.isFull size

/-- A submitter parks in the step that finds the scheduler full. -/
def waiterLooks : KeyedWaiter → Bool
  | .worker thread =>
      match world.threads[thread]? with
      | some .ready => true
      | _ => false
  | .stopping thread =>
      match world.threads[thread]? with
      | some .draining => true
      | _ => false
  | .draining _ => true
  | .submitter _ => false

def notifies : KeyedLabel → Bool
  | .launch _ => world.launching = .aborting
  | .thread index _ => (world.threads[index]?.map (·.notifies world.scheduler index)).getD false
  | .stopAccepting | .stop _ => true
  | label => ((world.admission? label).map (·.2.notifies)).getD false

/-- The submitters that no one has notified are the last ones in `blocked`. -/
def awake (parked : List KeyedWaiter) : KeyedLabel → Bool
  | .thread index _ => !parked.contains (.worker index) && !parked.contains (.stopping index)
  | .resume index => index + parked.countP KeyedWaiter.submits < world.blocked.length
  | _ => true

end KeyedWorld

/-- The scheduler with its condition. -/
def keyedMonitor (config : SchedulerConfig) : Monitor KeyedWorld KeyedLabel KeyedWaiter where
  system := keyedSystem config
  ready := KeyedWorld.waiterReady
  looks := KeyedWorld.waiterLooks
  parks world label := ((world.admission? label).map fun (item, admission) =>
    admission.parks item).getD []
  notifies := KeyedWorld.notifies
  awake := KeyedWorld.awake

namespace KeyedSerialHandlerScheduler

variable {scheduler next : KeyedSerialHandlerScheduler}

/-- No test of a waiting loop changes. -/
structure SameTests (before after : KeyedSerialHandlerScheduler) : Prop where
  config : after.config = before.config
  accepting : after.accepting = before.accepting
  pending : after.pending = before.pending
  pendingBytes : after.pendingBytes = before.pendingBytes
  activeContexts : after.activeContexts = before.activeContexts
  activeByThread : after.activeByThread = before.activeByThread
  barrierActive : after.barrierActive = before.barrierActive
  terminalizing : after.terminalizing = before.terminalizing

theorem SameTests.refl (scheduler : KeyedSerialHandlerScheduler) : SameTests scheduler scheduler := by
  constructor <;> rfl

theorem SameTests.scan (same : SameTests scheduler next) (index : Nat)
    (pending : List ScheduledWork) : next.scan index pending = scheduler.scan index pending := by
  induction pending generalizing index with
  | nil => rfl
  | cons work rest ih =>
      cases lane : work.context <;>
        simp [KeyedSerialHandlerScheduler.scan, lane, ih, same.activeByThread, same.activeContexts]

theorem SameTests.takes (same : SameTests scheduler next) (thread : Nat) :
    (next.takeInternalWork thread).isSome = (scheduler.takeInternalWork thread).isSome := by
  simp only [takeInternalWork, same.barrierActive, same.pending, same.scan]
  split <;> simp

theorem advance_ready (thread : Nat) :
    (scheduler.advance thread .ready .proceed).isSome =
      ((scheduler.takeInternalWork thread).isSome ||
        (!scheduler.accepting && scheduler.pending.isEmpty)) := by
  simp only [advance]
  split
  · next taken => simp [taken]
  · next taken =>
    rw [taken]
    split <;> simp_all

theorem SameTests.isDrained (same : SameTests scheduler next) :
    next.isDrained = scheduler.isDrained := by
  simp [KeyedSerialHandlerScheduler.isDrained, same.pending, same.activeByThread, same.terminalizing]

theorem SameTests.isFull (same : SameTests scheduler next) (size : Nat) :
    next.isFull size = scheduler.isFull size := by
  simp [KeyedSerialHandlerScheduler.isFull, same.config, same.pending, same.pendingBytes]

theorem submitSized_sameTests {item : SizedEvent} {admission : Admission}
    (submitted : scheduler.submitSized item = .ok (next, admission))
    (refused : admission.notifies = false) : SameTests scheduler next := by
  unfold submitSized at submitted
  split at submitted
  · contradiction
  split at submitted
  · cases submitted
    constructor <;> rfl
  split at submitted
  · contradiction
  split at submitted
  · cases submitted
    constructor <;> rfl
  split at submitted
  · cases submitted
    constructor <;> rfl
  · cases submitted
    contradiction

theorem resumeSubmission_sameTests {item : SizedEvent}
    (refused : (scheduler.resumeSubmission item).2.notifies = false) :
    SameTests scheduler (scheduler.resumeSubmission item).1 := by
  unfold resumeSubmission at refused ⊢
  split
  · constructor <;> rfl
  next accepting =>
  split
  · exact .refl _
  next room =>
    rw [if_neg accepting, if_neg room] at refused
    contradiction

theorem selectSizedEvent_sameTests {retainedSize : StreamDockEvent → Nat}
    {events : List SizedEvent} {index : Option Nat}
    (selected : scheduler.selectSizedEvent retainedSize events = .ok (next, index)) :
    SameTests scheduler next := by
  unfold selectSizedEvent at selected
  split at selected
  · cases selected
    exact .refl _
  split at selected
  · contradiction
  dsimp only at selected
  split at selected
  · cases selected
    constructor <;> rfl
  split at selected
  · cases selected
    exact .refl _
  · cases selected
    constructor <;> rfl

/-- A step of a thread that notifies no one leaves the tests alone, or its thread stops the
scheduler next. -/
theorem Advances.sameTests {thread : Nat} {pc : ThreadPc} {result : Advance}
    (advances : Advances scheduler thread pc result) (silent : pc.notifies scheduler thread = false) :
    SameTests scheduler result.scheduler ∨ result.pc = .failing := by
  cases advances with
  | take taken =>
      simp only [ThreadPc.notifies, taken] at silent
      contradiction
  | release work reply observerFailed =>
      have malformed : reply = .malformed := by simpa [ThreadPc.notifies] using silent
      exact .inr (by rw [malformed]; rfl)
  | refuse | giveUp | exit | clear | count => contradiction
  | leave | dispatch | answer | fail | finish | drained | timeOut | leaveDiscard | discard =>
      left
      constructor <;> rfl

end KeyedSerialHandlerScheduler

namespace KeyedWorld

variable {before after : KeyedWorld}

/-- A malformed reply has thrown a worker out of its loop; its next step stops the scheduler. -/
def Failing (world : KeyedWorld) : Prop :=
  ∃ thread : Nat, world.threads[thread]? = some .failing

theorem waiterReady_same (same : SameTests before.scheduler after.scheduler)
    (waiter : KeyedWaiter) : after.waiterReady waiter = before.waiterReady waiter := by
  cases waiter with
  | worker thread =>
      simp only [waiterReady, advance_ready, same.takes, same.accepting, same.pending]
  | stopping | draining => exact same.isDrained
  | submitter size => simp only [waiterReady, same.accepting, same.isFull]

theorem admitted_sameTests (blocked : List SizedEvent) (item : SizedEvent)
    {next : KeyedSerialHandlerScheduler} (admission : Admission)
    (same : SameTests before.scheduler next) :
    SameTests before.scheduler
      ({ before with blocked }.admitted item (next, admission)).scheduler := by
  cases admission <;> exact same

/-- Only its own steps, and the launch of a worker not yet started, move a thread. -/
theorem thread_kept {label : KeyedLabel} {thread : Nat} {pc : ThreadPc} (active : before.ActiveSound)
    (stepped : before.step label = some after) (other : ∀ move, label ≠ .thread thread move)
    (found : before.threads[thread]? = some pc) (launched : pc ≠ .created) :
    after.threads[thread]? = some pc := by
  have bound := (List.getElem?_eq_some_iff.mp found).1
  cases label with
  | start =>
      simp only [step, start] at stepped
      split at stepped
      · cases stepped
        exact found
      split at stepped
      · contradiction
      · cases stepped
        exact (List.getElem?_append_left bound).trans found
  | launch succeeds =>
      have launch := active.launch
      simp only [step, launchStep] at stepped
      cases launching : before.launching with
      | idle => simp [launching] at stepped
      | aborting =>
          rw [launching] at stepped
          cases stepped
          exact (List.getElem?_append_left bound).trans found
      | counting index remaining =>
          cases remaining with
          | zero | succ =>
              rw [launching] at stepped
              cases stepped
              exact found
      | starting index remaining =>
          simp only [LaunchSound, launching] at launch
          have created : before.threads[index]? = some .created := launch 0 (Nat.zero_le _)
          cases succeeds with
          | false =>
              simp only [launching, Bool.false_eq_true, if_false, Option.some.injEq] at stepped
              subst stepped
              exact found
          | true =>
              simp only [launching, if_true, Option.some.injEq] at stepped
              subst stepped
              rw [getElem?_set_found created, if_neg ?_]
              · exact found
              · rintro rfl
                rw [created, Option.some.injEq] at found
                exact launched found.symm
  | submit item =>
      simp only [step] at stepped
      split at stepped
      · cases stepped
        exact found
      next decision _ =>
        cases stepped
        obtain ⟨next, admission⟩ := decision
        cases admission <;> exact found
  | resume index =>
      simp only [step] at stepped
      split at stepped
      · contradiction
      next item _ =>
        cases stepped
        obtain ⟨next, admission⟩ := before.scheduler.resumeSubmission item
        cases admission <;> exact found
  | select retainedSize events =>
      simp only [step] at stepped
      split at stepped
      · cases stepped
        exact found
      · cases stepped
        exact found
  | thread index move =>
      simp only [step] at stepped
      split at stepped
      · contradiction
      next here =>
      split at stepped
      · contradiction
      · cases stepped
        rw [getElem?_set_found here, if_neg ?_]
        · exact found
        · rintro rfl
          exact other move rfl
  | stopAccepting =>
      cases stepped
      exact found
  | drainTimeout =>
      simp only [step] at stepped
      split at stepped
      · contradiction
      · cases stepped
        exact found
  | stop calledFromCallback =>
      cases stepped
      cases calledFromCallback with
      | true => exact found
      | false => exact (List.getElem?_append_left bound).trans found

/-- A worker that a malformed reply has thrown out of its loop stays so until it notifies. -/
theorem Failing.kept {label : KeyedLabel} (failing : before.Failing) (active : before.ActiveSound)
    (stepped : before.step label = some after) (silent : before.notifies label = false) :
    after.Failing := by
  obtain ⟨thread, found⟩ := failing
  refine ⟨thread, thread_kept active stepped ?_ found (by simp)⟩
  rintro move rfl
  simp [notifies, found, ThreadPc.notifies] at silent

/-- A step that notifies no one makes no waiting loop's test true, unless its thread stops
the scheduler next. -/
theorem silent_step {label : KeyedLabel} (stepped : before.step label = some after)
    (silent : before.notifies label = false) :
    SameTests before.scheduler after.scheduler ∨ after.Failing := by
  cases label with
  | start =>
      simp only [step, start] at stepped
      split at stepped
      · cases stepped
        exact .inl (.refl _)
      split at stepped
      · contradiction
      · cases stepped
        exact .inl (by constructor <;> rfl)
  | launch succeeds =>
      simp only [step, launchStep] at stepped
      split at stepped
      · contradiction
      · cases stepped
        exact .inl (.refl _)
      · cases stepped
        exact .inl (by constructor <;> rfl)
      · split at stepped <;> (cases stepped; exact .inl (by constructor <;> rfl))
      · next launching => simp [notifies, launching] at silent
  | submit item =>
      simp only [step] at stepped
      cases submitted : before.scheduler.submitSized item with
      | error =>
          rw [submitted] at stepped
          cases stepped
          exact .inl (.refl _)
      | ok decision =>
          obtain ⟨next, admission⟩ := decision
          simp only [notifies, admission?, submitted, Option.map_some, Option.getD_some] at silent
          rw [submitted] at stepped
          cases stepped
          exact .inl (admitted_sameTests before.blocked item admission
            (submitSized_sameTests submitted silent))
  | resume index =>
      simp only [step] at stepped
      split at stepped
      · contradiction
      next item found =>
        simp only [notifies, admission?, found, Option.map_some, Option.getD_some] at silent
        cases stepped
        exact .inl (admitted_sameTests (before.blocked.eraseIdx index) item _
          (resumeSubmission_sameTests silent))
  | select retainedSize events =>
      simp only [step] at stepped
      split at stepped
      · cases stepped
        exact .inl (.refl _)
      · next selected =>
        cases stepped
        exact .inl (selectSizedEvent_sameTests selected)
  | thread index move =>
      simp only [step] at stepped
      split at stepped
      · contradiction
      next pc found =>
      split at stepped
      · contradiction
      next advanced =>
        cases stepped
        have bound := (List.getElem?_eq_some_iff.mp found).1
        simp only [notifies, found, Option.map_some, Option.getD_some] at silent
        rcases (advance_cases advanced).sameTests silent with same | failing
        · exact .inl same
        · exact .inr ⟨index, by simp [bound, failing]⟩
  | stopAccepting | stop => contradiction
  | drainTimeout =>
      simp only [step] at stepped
      split at stepped
      · contradiction
      · cases stepped
        exact .inl (by constructor <;> rfl)

/-- A submitter parks where its test fails. -/
theorem parked_unready {label : KeyedLabel} {waiter : KeyedWaiter} {item : SizedEvent}
    {admission : Admission} (stepped : before.step label = some after)
    (decided : before.admission? label = some (item, admission))
    (parks : waiter ∈ admission.parks item) : after.waiterReady waiter = false := by
  cases admission with
  | accepted | discarded | oversized => simp [Admission.parks] at parks
  | blocked =>
      rw [List.mem_singleton.mp parks]
      cases label with
      | submit other =>
          simp only [admission?] at decided
          split at decided
          · contradiction
          next next decision submitted =>
            simp only [Option.some.injEq, Prod.mk.injEq] at decided
            obtain ⟨rfl, rfl⟩ := decided
            simp only [step, submitted, admitted, Option.some.injEq] at stepped
            subst stepped
            unfold submitSized at submitted
            split at submitted
            · contradiction
            split at submitted
            · cases submitted
            next accepting =>
            split at submitted
            · contradiction
            split at submitted
            · cases submitted
            split at submitted
            · next full =>
              cases submitted
              have tests : SameTests before.scheduler { before.scheduler with
                  admissionBackpressure := before.scheduler.admissionBackpressure + 1 } := by
                constructor <;> rfl
              simpa [waiterReady, tests.isFull, full] using accepting
            · cases submitted
      | resume index =>
          simp only [admission?, Option.map_eq_some_iff, Prod.mk.injEq] at decided
          obtain ⟨other, found, rfl, waits⟩ := decided
          simp only [step, found, Option.some.injEq] at stepped
          subst stepped
          unfold resumeSubmission at waits ⊢
          split at waits
          · cases waits
          next accepting =>
          split at waits
          · next full =>
            simp [accepting, full, admitted, waiterReady]
          · cases waits
      | _ => contradiction

end KeyedWorld

namespace KeyedWorld

variable {before after : KeyedWorld}

def AtLoop (world : KeyedWorld) : KeyedWaiter → Prop
  | .worker thread => world.threads[thread]? = some .ready
  | .stopping thread => world.threads[thread]? = some .draining
  | .draining _ | .submitter _ => True

theorem looks_atLoop {world : KeyedWorld} {waiter : KeyedWaiter}
    (looks : world.waiterLooks waiter = true) : world.AtLoop waiter := by
  cases waiter with
  | worker thread | stopping thread =>
      simp only [waiterLooks] at looks
      split at looks
      · assumption
      · contradiction
  | draining | submitter => trivial

theorem AtLoop.kept {label : KeyedLabel} {waiter : KeyedWaiter} {parked : List KeyedWaiter}
    (loop : before.AtLoop waiter) (active : before.ActiveSound) (member : waiter ∈ parked)
    (awake : before.awake parked label = true) (stepped : before.step label = some after) :
    after.AtLoop waiter := by
  cases waiter with
  | worker thread =>
      refine thread_kept active stepped ?_ loop (by simp)
      rintro move rfl
      simp [KeyedWorld.awake, member] at awake
  | stopping thread =>
      refine thread_kept active stepped ?_ loop (by simp)
      rintro move rfl
      simp [KeyedWorld.awake, member] at awake
  | draining | submitter => trivial

end KeyedWorld

abbrev ParkingWorld := MonitorWorld KeyedWorld KeyedWaiter

namespace ParkingWorld

variable {config : SchedulerConfig} {world : ParkingWorld}

theorem parks_submitter {state : KeyedWorld} {label : KeyedLabel} {waiter : KeyedWaiter}
    (parks : waiter ∈ (keyedMonitor config).parks state label) :
    ∃ item, state.admission? label = some (item, .blocked) ∧ waiter = .submitter item.size := by
  simp only [keyedMonitor] at parks
  cases decided : state.admission? label with
  | none => simp [decided] at parks
  | some decision =>
      obtain ⟨item, admission⟩ := decision
      cases admission with
      | blocked => exact ⟨item, rfl, by simpa [decided, Admission.parks] using parks⟩
      | accepted | discarded | oversized => simp [decided, Admission.parks] at parks

theorem parked_atLoop (reachable : (keyedMonitor config).parking.Reachable world) :
    ∀ waiter ∈ world.parked, world.state.AtLoop waiter := by
  refine Monitor.reachable_parked reachable (motive := KeyedWorld.AtLoop)
    (fun _ _ looks _ => KeyedWorld.looks_atLoop looks) ?_ ?_
  · intro before label after waiter _ _ parks
    obtain ⟨item, _, rfl⟩ := parks_submitter parks
    trivial
  · intro before label after waiters waiter reached awake stepped _ member loop
    exact loop.kept (KeyedWorld.activeSound reached) member awake stepped

/-- A parked waiter's test fails, or a worker is about to notify it. -/
theorem parked_quiet (reachable : (keyedMonitor config).parking.Reachable world) :
    ∀ waiter ∈ world.parked,
      world.state.waiterReady waiter = false ∨ world.state.Failing := by
  refine Monitor.reachable_parked reachable
    (motive := fun state waiter => state.waiterReady waiter = false ∨ state.Failing)
    (fun _ _ _ unready => .inl unready) ?_ ?_
  · intro before label after waiter _ stepped parks
    simp only [keyedMonitor] at parks
    cases decided : before.admission? label with
    | none => simp [decided] at parks
    | some decision =>
        rw [decided] at parks
        exact .inl (KeyedWorld.parked_unready stepped decided parks)
  · intro before label after _ waiter reached _ stepped silent _ quiet
    rcases KeyedWorld.silent_step stepped silent with same | failed
    · rcases quiet with unready | failing
      · exact .inl ((KeyedWorld.waiterReady_same same waiter).trans unready)
      · exact .inr (failing.kept (KeyedWorld.activeSound reached) stepped silent)
    · exact .inr failed

end ParkingWorld

/-- No waiting thread misses the step that makes its test true: a thread that no one has
notified since it parked is at its loop still, and its test fails, or a worker that a
malformed reply has thrown out of its loop is about to notify it. -/
theorem no_lost_wakeup {config : SchedulerConfig} {world : ParkingWorld}
    (reachable : (keyedMonitor config).parking.Reachable world) :
    ∀ waiter ∈ world.parked, world.state.AtLoop waiter ∧
      (world.state.waiterReady waiter = false ∨ world.state.Failing) :=
  fun waiter parked => ⟨ParkingWorld.parked_atLoop reachable waiter parked,
    ParkingWorld.parked_quiet reachable waiter parked⟩

def sampleParking : ParkingWorld := { state := { scheduler := { config := sampleConfig } } }

theorem sampleParking_reachable : (keyedMonitor sampleConfig).parking.Reachable sampleParking :=
  .initial ⟨rfl, rfl⟩

/-- The run from a new scheduler, if every step of it is enabled. -/
def parkingRun (labels : List (MonitorLabel KeyedLabel KeyedWaiter)) : Option ParkingWorld :=
  (keyedMonitor sampleConfig).parking.exec sampleParking labels

theorem parkingRun_reachable (labels : List (MonitorLabel KeyedLabel KeyedWaiter))
    (enabled : (parkingRun labels).isSome) :
    (keyedMonitor sampleConfig).parking.Reachable ((parkingRun labels).get enabled) :=
  sampleParking_reachable.exec (Option.some_get enabled).symm

/-- A worker waits while the other one serves the only work. -/
def idleLabels : List (MonitorLabel KeyedLabel KeyedWaiter) :=
  (launchLabels ++ [.submit (sampleItem ⟨[1]⟩), .thread 0 .proceed] : List KeyedLabel).map .step ++
    [.park (.worker 1)]

def idleWorld : ParkingWorld := (parkingRun idleLabels).get rfl

theorem no_lost_wakeup_run : idleWorld.state.waiterReady (.worker 1) = false ∨
    idleWorld.state.Failing :=
  (no_lost_wakeup (show (keyedMonitor sampleConfig).parking.Reachable idleWorld from
    parkingRun_reachable _ rfl) (.worker 1) (List.mem_singleton.mpr rfl)).2

end StreamDockSdk.Runtime
