import Mathlib.Data.List.Range
import StreamDockSdk.Automaton.Progress
import StreamDockSdk.Runtime.Application
import StreamDockSdk.Runtime.Composition.Ordering

namespace StreamDockSdk.Runtime

open Automaton

namespace ServiceEvent

def returned? : ServiceEvent → Option Nat
  | .startReturned service => some service
  | _ => none

def stopped? : ServiceEvent → Option Nat
  | .stopCalled service => some service
  | _ => none

/-- No start follows an observed stop. -/
def MayFollow (newer older : ServiceEvent) : Prop :=
  older = .stopObserved → ∀ service, newer ≠ .startCalled service

end ServiceEvent

/-- The services whose `start` returned, in this order. -/
def startsReturned (events : List ServiceEvent) : List Nat :=
  (events.filterMap ServiceEvent.returned?).reverse

/-- The services whose `stop` was called, in this order. -/
def stopsCalled (events : List ServiceEvent) : List Nat :=
  (events.filterMap ServiceEvent.stopped?).reverse

section Events

variable (events : List ServiceEvent) (service : Nat)

@[simp] theorem startsReturned_startCalled :
    startsReturned (.startCalled service :: events) = startsReturned events := rfl

@[simp] theorem startsReturned_startReturned :
    startsReturned (.startReturned service :: events) = startsReturned events ++ [service] := by
  simp [startsReturned, ServiceEvent.returned?]

@[simp] theorem startsReturned_stopObserved :
    startsReturned (.stopObserved :: events) = startsReturned events := rfl

@[simp] theorem startsReturned_stopCalled :
    startsReturned (.stopCalled service :: events) = startsReturned events := rfl

@[simp] theorem stopsCalled_startCalled :
    stopsCalled (.startCalled service :: events) = stopsCalled events := rfl

@[simp] theorem stopsCalled_startReturned :
    stopsCalled (.startReturned service :: events) = stopsCalled events := rfl

@[simp] theorem stopsCalled_stopObserved :
    stopsCalled (.stopObserved :: events) = stopsCalled events := rfl

@[simp] theorem stopsCalled_stopCalled :
    stopsCalled (.stopCalled service :: events) = stopsCalled events ++ [service] := by
  simp [stopsCalled, ServiceEvent.stopped?]

end Events

namespace ApplicationRunPc

/-- The loop that starts the services is not left yet. -/
def looping : ApplicationRunPc → Bool
  | .idle | .checking _ | .starting _ | .recording _ => true
  | _ => false

/-- The cleanup thread is not started yet, and may be. -/
def open? : ApplicationRunPc → Bool
  | .handingOver | .calling | .running _ | .finishing _ => true
  | pc => pc.looping

/-- `run_forever` has not been called yet. -/
def before : ApplicationRunPc → Bool
  | .handingOver | .calling => true
  | pc => pc.looping

end ApplicationRunPc

namespace StreamDockApplication

/-- What the position of `run` says about the services started so far. -/
def StartedUpTo (application : StreamDockApplication) (count : Nat) : Prop :=
  match application.run with
  | .idle => count = 0 ∧ application.startedServices = []
  | .checking service => count = service ∧ application.startedServices = List.range count
  | .starting service => count = service ∧ service < application.services ∧
      application.startedServices = List.range count
  | .recording service => count = service + 1 ∧ service < application.services ∧
      application.startedServices = List.range service
  | .handingOver | .calling | .running _ | .finishing _ =>
      application.startedServices = List.range count
  | _ => True

/-- What the position of the cleanup thread says about the services stopped so far. -/
def StoppedDownFrom (application : StreamDockApplication) (count : Nat) : Prop :=
  match application.cleanup with
  | .idle => stopsCalled application.events = []
  | .awaiting _ | .taking => stopsCalled application.events = [] ∧
      application.startedServices = List.range count
  | .stopping rest | .calling rest =>
      (List.range count).reverse = stopsCalled application.events ++ rest
  | .finishing | .finished => stopsCalled application.events = (List.range count).reverse

end StreamDockApplication

theorem startedUpTo_closed {application : StreamDockApplication}
    (closed : application.run.open? = false) (count : Nat) : application.StartedUpTo count := by
  unfold StreamDockApplication.StartedUpTo
  split <;> first | trivial | (next at_ => simp [at_, ApplicationRunPc.open?,
    ApplicationRunPc.looping] at closed)

theorem unlooped {pc : ApplicationRunPc} (closed : pc.open? = false) :
    pc.looping = false ∧ pc.before = false := by
  cases pc <;> simp_all [ApplicationRunPc.open?, ApplicationRunPc.looping, ApplicationRunPc.before]

structure ServiceSound (world : ApplicationWorld) : Prop where
  counted : ∃ count ≤ world.application.services,
    startsReturned world.application.events = List.range count ∧
    world.application.StartedUpTo count ∧ world.application.StoppedDownFrom count
  unlaunched : world.application.run.open? = true → world.application.cleanup = .idle
  ordered : world.application.events.Pairwise ServiceEvent.MayFollow
  unobserved : world.application.run.looping = true →
    .stopObserved ∉ world.application.events
  unattempted : world.application.run.before = true →
    world.application.runtimeAttempted = false
  attempted : ∀ attempted, world.application.cleanup = .awaiting attempted →
    attempted = world.application.runtimeAttempted
  ran : world.application.run ≠ .idle → world.application.hasRun = true
  released : world.application.cleanup ≠ .idle →
    (∀ attempted, world.application.cleanup ≠ .awaiting attempted) →
    world.application.runtimeAttempted = true →
    world.runtime.runtime.resourcesReleased = true

namespace ServiceSound

variable {world after : ApplicationWorld}

/-- A step that leaves the application's services and threads alone. -/
theorem frame (sound : ServiceSound world) {application : StreamDockApplication}
    {runtime : RuntimeWorld} {stoppers : List ApplicationStopPc}
    (same : application = { world.application with
      stopRequested := application.stopRequested })
    (released : world.runtime.runtime.resourcesReleased = true →
      runtime.runtime.resourcesReleased = true) :
    ServiceSound { application, runtime, stoppers } := by
  rw [same]
  exact ⟨sound.counted, sound.unlaunched, sound.ordered, sound.unobserved, sound.unattempted,
    sound.attempted, sound.ran, fun running past attempted =>
      released (sound.released running past attempted)⟩

theorem cleanupStep (sound : ServiceSound world) {move : RuntimeMove}
    {application : StreamDockApplication}
    (advanced : world.application.advanceCleanup world.runtime.runtime.resourcesReleased
      world.application.cleanup move = some application) :
    ServiceSound (world.after application) := by
  obtain ⟨count, bound, started, _, downFrom⟩ := sound.counted
  have launched : world.application.cleanup ≠ .idle := by
    intro idle
    rw [idle] at advanced
    contradiction
  have closed : world.application.run.open? = false := by
    rw [← Bool.not_eq_true]
    exact fun open_ => launched (sound.unlaunched open_)
  have finished := unlooped closed
  have past := sound.released launched
  -- Only the events, the list of services and the position of the thread change.
  have moved {application : StreamDockApplication}
      (services : application.services = world.application.services)
      (run : application.run = world.application.run)
      (attempts : application.runtimeAttempted = world.application.runtimeAttempted ∧
        application.hasRun = world.application.hasRun)
      (started : startsReturned application.events = List.range count)
      (downFrom : application.StoppedDownFrom count)
      (ordered : application.events.Pairwise ServiceEvent.MayFollow)
      (position : ∀ attempted, application.cleanup ≠ .awaiting attempted)
      (released : world.application.runtimeAttempted = true →
        world.runtime.runtime.resourcesReleased = true) :
      ServiceSound (world.after application) := by
    constructor
    · refine ⟨count, services ▸ bound, started, startedUpTo_closed (run ▸ closed) count, downFrom⟩
    · dsimp only [ApplicationWorld.after]
      rw [run, closed]
      exact nofun
    · exact ordered
    · dsimp only [ApplicationWorld.after]
      rw [run, finished.1]
      exact nofun
    · dsimp only [ApplicationWorld.after]
      rw [run, finished.2]
      exact nofun
    · exact fun attempted at_ => absurd at_ (position attempted)
    · dsimp only [ApplicationWorld.after]
      rw [run, attempts.2]
      exact sound.ran
    · dsimp only [ApplicationWorld.after]
      rw [attempts.1]
      exact fun _ _ => released
  unfold StreamDockApplication.StoppedDownFrom at downFrom
  unfold StreamDockApplication.advanceCleanup at advanced
  split at advanced
  · next attempted at_ =>
    simp only [at_] at downFrom
    split at advanced
    · contradiction
    · next released =>
      cases advanced
      refine moved rfl rfl ⟨rfl, rfl⟩ started downFrom sound.ordered nofun fun attempts => ?_
      rw [sound.attempted attempted at_, attempts] at released
      simpa using released
  · next at_ =>
    simp only [at_] at downFrom past
    cases advanced
    refine moved rfl rfl ⟨rfl, rfl⟩ started ?_ sound.ordered nofun (past nofun)
    simp only [StreamDockApplication.StoppedDownFrom, downFrom.1, downFrom.2, List.nil_append]
  · next at_ =>
    simp only [at_] at downFrom past
    cases advanced
    refine moved rfl rfl ⟨rfl, rfl⟩ started ?_ sound.ordered nofun (past nofun)
    simpa [StreamDockApplication.StoppedDownFrom] using downFrom.symm
  · next service rest at_ =>
    simp only [at_] at downFrom past
    cases advanced
    refine moved rfl rfl ⟨rfl, rfl⟩ started ?_ ?_ nofun (past nofun)
    · simpa [StreamDockApplication.StoppedDownFrom] using downFrom
    · exact List.pairwise_cons.mpr ⟨fun older _ _ => nofun, sound.ordered⟩
  · next at_ =>
    simp only [at_] at downFrom past
    cases advanced
    exact moved rfl rfl ⟨rfl, rfl⟩ started downFrom sound.ordered nofun (past nofun)
  · next at_ =>
    simp only [at_] at downFrom past
    cases advanced
    exact moved rfl rfl ⟨rfl, rfl⟩ started downFrom sound.ordered nofun (past nofun)
  · next at_ =>
    simp only [at_] at downFrom past
    cases advanced
    exact moved rfl rfl ⟨rfl, rfl⟩ started downFrom sound.ordered nofun (past nofun)
  · contradiction

/-- The end of `run`, which leaves the cleanup thread alone. -/
theorem ended (sound : ServiceSound world) {next : ApplicationRunPc}
    (ran : world.application.hasRun = true) (closed : next.open? = false) :
    ServiceSound (world.after { world.application with run := next }) := by
  obtain ⟨count, bound, started, _, downFrom⟩ := sound.counted
  refine ⟨⟨count, bound, started, startedUpTo_closed closed count, downFrom⟩, ?_, sound.ordered,
    ?_, ?_, sound.attempted, fun _ => ran, sound.released⟩
  · dsimp only [ApplicationWorld.after]
    rw [closed]
    exact nofun
  · dsimp only [ApplicationWorld.after]
    rw [(unlooped closed).1]
    exact nofun
  · dsimp only [ApplicationWorld.after]
    rw [(unlooped closed).2]
    exact nofun

/-- A step of `run` before it starts the cleanup thread. -/
theorem opened (sound : ServiceSound world) (open_ : world.application.run.open? = true)
    {application : StreamDockApplication} {runtime : RuntimeWorld} (count : Nat)
    (ran : application.hasRun = true)
    (services : application.services = world.application.services)
    (cleanup : application.cleanup = world.application.cleanup)
    (bound : count ≤ world.application.services)
    (started : startsReturned application.events = List.range count)
    (upTo : application.StartedUpTo count)
    (silent : stopsCalled application.events = stopsCalled world.application.events)
    (ordered : application.events.Pairwise ServiceEvent.MayFollow)
    (unobserved : application.run.looping = true → .stopObserved ∉ application.events)
    (unattempted : application.run.before = true → application.runtimeAttempted = false) :
    ServiceSound { world with application, runtime } := by
  have idle := sound.unlaunched open_
  obtain ⟨_, _, _, _, downFrom⟩ := sound.counted
  unfold StreamDockApplication.StoppedDownFrom at downFrom
  simp only [idle] at downFrom
  refine ⟨⟨count, services ▸ bound, started, upTo, ?_⟩, fun _ => cleanup.trans idle, ordered,
    unobserved, unattempted, fun attempted at_ => ?_, fun _ => ran, fun launched => ?_⟩
  · unfold StreamDockApplication.StoppedDownFrom
    simp only [cleanup, idle]
    exact silent.trans downFrom
  · rw [cleanup, idle] at at_
    contradiction
  · exact absurd (cleanup.trans idle) launched

theorem observed_ordered (sound : ServiceSound world) {event : ServiceEvent}
    (harmless : ∀ service, event ≠ .startCalled service) :
    (event :: world.application.events).Pairwise ServiceEvent.MayFollow :=
  List.pairwise_cons.mpr ⟨fun _ _ _ => harmless, sound.ordered⟩

theorem runStep (sound : ServiceSound world) {move : RuntimeMove}
    (advanced : world.advanceRun world.application.run move = some after) :
    ServiceSound after := by
  obtain ⟨count, bound, started, upTo, downFrom⟩ := sound.counted
  have unobserved := sound.unobserved
  have unattempted := sound.unattempted
  have ran : world.application.hasRun = true := by
    refine sound.ran fun idle => ?_
    rw [idle] at advanced
    contradiction
  unfold StreamDockApplication.StartedUpTo at upTo
  unfold ApplicationWorld.advanceRun at advanced
  split at advanced
  · next service at_ =>
    have open_ : world.application.run.open? = true := by rw [at_]; rfl
    simp only [at_] at upTo unobserved unattempted
    obtain ⟨rfl, listed⟩ := upTo
    split at advanced
    · next within =>
      split at advanced
      · cases advanced
        exact sound.opened open_ _ ran rfl rfl bound started listed rfl
          (sound.observed_ordered nofun) nofun fun _ => unattempted rfl
      · cases advanced
        refine sound.opened open_ _ ran rfl rfl bound started ⟨rfl, within, listed⟩ rfl ?_ ?_
          fun _ => unattempted rfl
        · refine List.pairwise_cons.mpr ⟨?_, sound.ordered⟩
          rintro older member rfl
          exact absurd member (unobserved rfl)
        · intro _
          simpa using unobserved rfl
    · cases advanced
      exact sound.opened open_ _ ran rfl rfl bound started listed rfl sound.ordered nofun
        fun _ => unattempted rfl
  · next service at_ =>
    have open_ : world.application.run.open? = true := by rw [at_]; rfl
    simp only [at_] at upTo unobserved unattempted
    obtain ⟨rfl, within, listed⟩ := upTo
    cases advanced
    refine sound.opened open_ (count + 1) ran rfl rfl within ?_ ⟨rfl, within, listed⟩ rfl
      (sound.observed_ordered nofun) ?_ fun _ => unattempted rfl
    · rw [startsReturned_startReturned, started, List.range_succ]
    · intro _
      simpa using unobserved rfl
  · next service at_ =>
    have open_ : world.application.run.open? = true := by rw [at_]; rfl
    simp only [at_] at upTo
    cases advanced
    exact sound.opened open_ _ ran rfl rfl bound started upTo.2.2 rfl sound.ordered nofun nofun
  · next service at_ =>
    have open_ : world.application.run.open? = true := by rw [at_]; rfl
    simp only [at_] at upTo unobserved unattempted
    obtain ⟨rfl, within, listed⟩ := upTo
    cases advanced
    refine sound.opened open_ _ ran rfl rfl bound started ⟨rfl, ?_⟩ rfl sound.ordered
      (fun _ => unobserved rfl) fun _ => unattempted rfl
    rw [listed, List.range_succ]
  · next at_ =>
    have open_ : world.application.run.open? = true := by rw [at_]; rfl
    simp only [at_] at upTo unattempted
    split at advanced
    · cases advanced
      exact sound.opened open_ _ ran rfl rfl bound started upTo rfl (sound.observed_ordered nofun)
        nofun nofun
    · cases advanced
      exact sound.opened open_ _ ran rfl rfl bound started upTo rfl sound.ordered nofun
        fun _ => unattempted rfl
  · next at_ =>
    have open_ : world.application.run.open? = true := by rw [at_]; rfl
    simp only [at_] at upTo
    simp only [Option.map_eq_some_iff] at advanced
    obtain ⟨runtime, _, rfl⟩ := advanced
    exact sound.opened open_ _ ran rfl rfl bound started upTo rfl sound.ordered nofun nofun
  · next runner at_ =>
    have open_ : world.application.run.open? = true := by rw [at_]; rfl
    simp only [at_] at upTo
    split at advanced
    · contradiction
    · cases advanced
      exact sound.opened open_ _ ran rfl rfl bound started upTo rfl sound.ordered nofun nofun
  · next error at_ =>
    have open_ : world.application.run.open? = true := by rw [at_]; rfl
    have idle := sound.unlaunched open_
    simp only [at_] at upTo
    unfold StreamDockApplication.StoppedDownFrom at downFrom
    simp only [idle] at downFrom
    cases advanced
    refine ⟨⟨count, bound, started, startedUpTo_closed rfl count, downFrom, upTo⟩, nofun,
      sound.ordered, nofun, nofun, ?_, fun _ => ran, ?_⟩
    · intro attempted at_
      cases at_
      rfl
    · exact fun _ elsewhere => absurd rfl (elsewhere _)
  · next error at_ =>
    have open_ : world.application.run.open? = true := by rw [at_]; rfl
    cases advanced
    cases error with
    | none =>
        exact sound.opened open_ _ ran rfl rfl bound started (startedUpTo_closed rfl count) rfl
          sound.ordered nofun nofun
    | some error =>
        exact sound.opened open_ _ ran rfl rfl bound started (startedUpTo_closed rfl count) rfl
          sound.ordered nofun nofun
  · next error at_ =>
    split at advanced
    · cases advanced
      refine sound.ended ran ?_
      split
      · rfl
      · cases error <;> rfl
    · contradiction
  · next error at_ =>
    cases advanced
    refine sound.ended ran ?_
    cases error <;> rfl
  · contradiction

theorem step {label : ApplicationLabel} (sound : ServiceSound world)
    (stepped : world.step label = some after) : ServiceSound after := by
  cases label with
  | run =>
      simp only [ApplicationWorld.step] at stepped
      split at stepped
      · cases stepped
        exact sound
      · next fresh =>
        cases stepped
        have idle : world.application.run = .idle := by
          by_contra running
          simp [sound.ran running] at fresh
        obtain ⟨count, bound, started, upTo, _⟩ := sound.counted
        unfold StreamDockApplication.StartedUpTo at upTo
        simp only [idle] at upTo
        obtain ⟨rfl, listed⟩ := upTo
        refine sound.opened (by rw [idle]; rfl) _ rfl rfl rfl bound started ⟨rfl, listed⟩ rfl
          sound.ordered (fun _ => sound.unobserved (by rw [idle]; rfl))
          fun _ => sound.unattempted (by rw [idle]; rfl)
  | runStep move => exact sound.runStep stepped
  | stop =>
      cases stepped
      exact sound.frame rfl id
  | stopper index fromWorker =>
      simp only [ApplicationWorld.step] at stepped
      split at stepped
      · cases stepped
        exact sound.frame rfl id
      · simp only [Option.map_eq_some_iff] at stepped
        obtain ⟨runtime, moved, rfl⟩ := stepped
        exact sound.frame rfl (RuntimeWorld.step_released moved)
      · contradiction
  | serviceCleanup move =>
      simp only [ApplicationWorld.step, Option.map_eq_some_iff] at stepped
      obtain ⟨application, advanced, rfl⟩ := stepped
      exact sound.cleanupStep advanced
  | runtime label =>
      simp only [ApplicationWorld.step] at stepped
      split at stepped
      · contradiction
      · simp only [Option.map_eq_some_iff] at stepped
        obtain ⟨runtime, moved, rfl⟩ := stepped
        exact sound.frame rfl (RuntimeWorld.step_released moved)

end ServiceSound

theorem serviceSound {services : Nat} {hasOnStop : Bool} {world : ApplicationWorld}
    (reachable : (applicationSystem services hasOnStop).Reachable world) :
    ServiceSound world := by
  refine reachable.invariant ?_ fun _ _ _ sound stepped => sound.step stepped
  rintro _ rfl
  refine ⟨⟨0, Nat.zero_le _, rfl, ⟨rfl, rfl⟩, rfl⟩, fun _ => rfl, .nil, ?_, fun _ => rfl, nofun,
    fun running => absurd rfl running, fun launched => absurd rfl launched⟩
  simp

/-- Nothing but the runtime's release holds up the cleanup thread. -/
theorem StreamDockApplication.cleanup_progress (application : StreamDockApplication)
    (resourcesReleased : Bool) (launched : application.cleanup ≠ .idle)
    (unfinished : application.cleanup ≠ .finished) :
    application.cleanup = .awaiting true ∧ resourcesReleased = false ∨
      ∃ move after, application.advanceCleanup resourcesReleased application.cleanup move =
        some after := by
  unfold StreamDockApplication.advanceCleanup
  cases at_ : application.cleanup with
  | idle => exact absurd at_ launched
  | awaiting attempted =>
      cases attempted <;> cases resourcesReleased <;>
        first
          | exact .inl ⟨rfl, rfl⟩
          | exact .inr ⟨.proceed, _, rfl⟩
  | taking => exact .inr ⟨.proceed, _, rfl⟩
  | stopping rest => cases rest <;> exact .inr ⟨.proceed, _, rfl⟩
  | calling rest => exact .inr ⟨.returns true, _, rfl⟩
  | finishing => exact .inr ⟨.proceed, _, rfl⟩
  | finished => exact absurd at_ unfinished

/-- The thread that stops the services can be started. -/
def startsCleanup (world : ApplicationWorld) : ApplicationLabel → Bool
  | .runStep .raises =>
      match world.application.run with
      | .finishing _ => false
      | _ => true
  | _ => true

/-- The steps of the thread that stops the services. -/
def ofCleanup : ApplicationLabel → Bool
  | .serviceCleanup _ => true
  | _ => false

namespace StreamDockApplication

/-- How many steps the cleanup thread has still to make at most. -/
def cleanupLeft (application : StreamDockApplication) : Nat :=
  match application.cleanup with
  | .idle => 2 * application.services + 4
  | .awaiting _ => 2 * application.startedServices.length + 4
  | .taking => 2 * application.startedServices.length + 3
  | .stopping services => 2 * services.length + 2
  | .calling services => 2 * services.length + 3
  | .finishing => 1
  | .finished => 0

/-- A step of the cleanup thread. -/
structure Cleaned (before after : StreamDockApplication) : Prop where
  left : after.cleanupLeft < before.cleanupLeft
  launched : after.cleanup ≠ .idle
  attempted : after.runtimeAttempted = before.runtimeAttempted
  run : after.run = before.run
  services : after.services = before.services
  asked : after.stopRequested = before.stopRequested

theorem advanceCleanup_cleaned {application after : StreamDockApplication}
    {resourcesReleased : Bool} {move : RuntimeMove}
    (advanced : application.advanceCleanup resourcesReleased application.cleanup move =
      some after) : application.Cleaned after := by
  unfold advanceCleanup at advanced
  split at advanced
  · next at_ =>
    split at advanced
    · contradiction
    · cases advanced
      exact ⟨by simp [cleanupLeft, at_], nofun, rfl, rfl, rfl, rfl⟩
  all_goals
    first
      | contradiction
      | (next at_ =>
          cases advanced
          refine ⟨?_, nofun, rfl, rfl, rfl, rfl⟩
          simp only [cleanupLeft, at_, List.length_reverse, List.length_cons, List.length_nil]
          omega)

end StreamDockApplication

/-- What a step of `run` does to the cleanup thread: it starts the thread, or cannot,
or leaves it alone. -/
inductive Launches (world after : ApplicationWorld) (move : RuntimeMove) : Prop
  | early (before : world.application.run.open? = true) (still : after.application.run.open? = true)
      (cleanup : after.application.cleanup = world.application.cleanup)
      (services : after.application.services = world.application.services)
  | launched {error : Option ApplicationError} (finishing : world.application.run = .finishing error)
      (cleanup : after.application.cleanup = .awaiting world.application.runtimeAttempted)
      (started : after.application.startedServices = world.application.startedServices)
  | unlaunched {error : Option ApplicationError}
      (finishing : world.application.run = .finishing error) (raises : move = .raises)
      (cleanup : after.application.cleanup = world.application.cleanup)
      (services : after.application.services = world.application.services)
  | later (closed : world.application.run.open? = false)
      (cleanup : after.application.cleanup = world.application.cleanup)
      (services : after.application.services = world.application.services)
      (started : after.application.startedServices = world.application.startedServices)

theorem ApplicationWorld.advanceRun_launches {world after : ApplicationWorld} {move : RuntimeMove}
    (advanced : world.advanceRun world.application.run move = some after) :
    Launches world after move := by
  unfold ApplicationWorld.advanceRun at advanced
  split at advanced
  · next at_ =>
    split at advanced
    · split at advanced <;> cases advanced <;> exact .early (by rw [at_]; rfl) rfl rfl rfl
    · cases advanced
      exact .early (by rw [at_]; rfl) rfl rfl rfl
  · next at_ =>
    cases advanced
    exact .early (by rw [at_]; rfl) rfl rfl rfl
  · next at_ =>
    cases advanced
    exact .early (by rw [at_]; rfl) rfl rfl rfl
  · next at_ =>
    cases advanced
    exact .early (by rw [at_]; rfl) rfl rfl rfl
  · next at_ =>
    split at advanced <;> cases advanced <;> exact .early (by rw [at_]; rfl) rfl rfl rfl
  · next at_ =>
    obtain ⟨runtime, _, rfl⟩ := Option.map_eq_some_iff.mp advanced
    exact .early (by rw [at_]; rfl) rfl rfl rfl
  · next at_ =>
    split at advanced
    · contradiction
    · cases advanced
      exact .early (by rw [at_]; rfl) rfl rfl rfl
  · next at_ =>
    cases advanced
    exact .launched at_ rfl rfl
  · next error at_ =>
    cases advanced
    cases error <;> exact .unlaunched at_ rfl rfl rfl
  · next at_ =>
    split at advanced
    · cases advanced
      exact .later (by rw [at_]; rfl) rfl rfl rfl
    · contradiction
  · next at_ =>
    cases advanced
    exact .later (by rw [at_]; rfl) rfl rfl rfl
  · contradiction

/-- The other steps leave the cleanup thread and the list of services alone. -/
theorem ApplicationWorld.step_beside {world after : ApplicationWorld} {label : ApplicationLabel}
    (stepped : world.step label = some after) :
    (∃ move, label = .runStep move) ∨ (∃ move, label = .serviceCleanup move) ∨
      (ofCleanup label = false ∧
        after.application.run = world.application.run ∧
        after.application.cleanup = world.application.cleanup ∧
        after.application.services = world.application.services ∧
        after.application.startedServices = world.application.startedServices) ∨
      label = .run ∧ world.application.hasRun = false ∧
        after = world.after { world.application with hasRun := true, run := .checking 0 } := by
  cases label with
  | run =>
      simp only [ApplicationWorld.step] at stepped
      split at stepped
      · cases stepped
        exact .inr (.inr (.inl ⟨rfl, rfl, rfl, rfl, rfl⟩))
      · next fresh =>
        cases stepped
        refine .inr (.inr (.inr ⟨rfl, ?_, rfl⟩))
        by_contra ran
        simp [ran] at fresh
  | runStep move => exact .inl ⟨move, rfl⟩
  | stop =>
      cases stepped
      exact .inr (.inr (.inl ⟨rfl, rfl, rfl, rfl, rfl⟩))
  | stopper index fromWorker =>
      simp only [ApplicationWorld.step] at stepped
      split at stepped
      · cases stepped
        exact .inr (.inr (.inl ⟨rfl, rfl, rfl, rfl, rfl⟩))
      · obtain ⟨runtime, _, rfl⟩ := Option.map_eq_some_iff.mp stepped
        exact .inr (.inr (.inl ⟨rfl, rfl, rfl, rfl, rfl⟩))
      · contradiction
  | serviceCleanup move => exact .inr (.inl ⟨move, rfl⟩)
  | runtime label =>
      simp only [ApplicationWorld.step] at stepped
      split at stepped
      · contradiction
      · obtain ⟨runtime, _, rfl⟩ := Option.map_eq_some_iff.mp stepped
        exact .inr (.inr (.inl ⟨rfl, rfl, rfl, rfl, rfl⟩))

theorem ServiceSound.step_left {world after : ApplicationWorld} {label : ApplicationLabel}
    (sound : ServiceSound world) (stepped : world.step label = some after) :
    after.application.cleanupLeft + (if ofCleanup label then 1 else 0) ≤
      world.application.cleanupLeft := by
  have same {other : StreamDockApplication} (cleanup : other.cleanup = world.application.cleanup)
      (services : other.services = world.application.services)
      (started : other.startedServices = world.application.startedServices ∨
        world.application.cleanup = .idle) :
      other.cleanupLeft = world.application.cleanupLeft := by
    unfold StreamDockApplication.cleanupLeft
    rw [cleanup, services]
    rcases started with started | idle
    · rw [started]
    · rw [idle]
  rcases ApplicationWorld.step_beside stepped with
    ⟨move, rfl⟩ | ⟨move, rfl⟩ | ⟨other, _, cleanup, services, started⟩ | ⟨rfl, _, rfl⟩
  · cases ApplicationWorld.advanceRun_launches stepped with
    | early before still cleanup services =>
        exact Nat.le_of_eq (same cleanup services (.inr (sound.unlaunched before)))
    | @launched error finishing cleanup started =>
        obtain ⟨count, bound, _, upTo, _⟩ := sound.counted
        simp only [StreamDockApplication.StartedUpTo, finishing] at upTo
        have idle := sound.unlaunched (by rw [finishing]; rfl)
        simp only [StreamDockApplication.cleanupLeft, cleanup, started, idle, upTo, ofCleanup,
          List.length_range, Bool.false_eq_true, if_false]
        omega
    | unlaunched finishing _ cleanup services =>
        exact Nat.le_of_eq
          (same cleanup services (.inr (sound.unlaunched (by rw [finishing]; rfl))))
    | later _ cleanup services started =>
        exact Nat.le_of_eq (same cleanup services (.inl started))
  · obtain ⟨application, advanced, rfl⟩ := Option.map_eq_some_iff.mp stepped
    exact (StreamDockApplication.advanceCleanup_cleaned advanced).left
  · rw [other]
    exact Nat.le_of_eq (same cleanup services (.inl started))
  · exact Nat.le_of_eq (same rfl rfl (.inl rfl))

/-- A `run` that is about to end, or has ended, has started the cleanup thread. -/
theorem launched_of_closed {services : Nat} {hasOnStop : Bool} {world : ApplicationWorld}
    (reachable : (applicationSystem services hasOnStop).ReachableBy
      (fun world label => startsCleanup world label = true) world)
    (closed : world.application.run.open? = false) : world.application.cleanup ≠ .idle := by
  revert closed
  refine reachable.invariant_given (motive := fun world =>
    world.application.run.open? = false → world.application.cleanup ≠ .idle) ServiceSound
    (fun _ => serviceSound) ?_ fun before label after startable sound holds stepped closed => ?_
  · rintro _ rfl
    exact nofun
  rcases ApplicationWorld.step_beside stepped with
    ⟨move, rfl⟩ | ⟨move, rfl⟩ | ⟨_, run, cleanup, _⟩ | ⟨rfl, _, rfl⟩
  · cases ApplicationWorld.advanceRun_launches stepped with
    | early _ still =>
        rw [still] at closed
        contradiction
    | launched _ cleanup =>
        rw [cleanup]
        exact nofun
    | unlaunched finishing raises =>
        simp [startsCleanup, finishing, raises] at startable
    | later closed cleanup =>
        rw [cleanup]
        exact holds closed
  · obtain ⟨application, advanced, rfl⟩ := Option.map_eq_some_iff.mp stepped
    exact (StreamDockApplication.advanceCleanup_cleaned advanced).launched
  · rw [cleanup]
    exact holds (run ▸ closed)
  · contradiction

namespace ServiceSound

variable {world : ApplicationWorld}

/-- The services that were stopped so far are the last ones that were started. -/
theorem stops_prefix (sound : ServiceSound world) : stopsCalled world.application.events <+:
    (startsReturned world.application.events).reverse := by
  obtain ⟨count, _, started, _, downFrom⟩ := sound.counted
  rw [started]
  unfold StreamDockApplication.StoppedDownFrom at downFrom
  split at downFrom
  · rw [downFrom]
    exact List.nil_prefix
  · rw [downFrom.1]
    exact List.nil_prefix
  · rw [downFrom.1]
    exact List.nil_prefix
  · rw [downFrom]
    exact List.prefix_append _ _
  · rw [downFrom]
    exact List.prefix_append _ _
  · exact downFrom ▸ List.prefix_rfl
  · exact downFrom ▸ List.prefix_rfl

theorem stops_all (sound : ServiceSound world) (finished : world.application.cleanup = .finished) :
    stopsCalled world.application.events =
      (startsReturned world.application.events).reverse := by
  obtain ⟨count, _, started, _, downFrom⟩ := sound.counted
  rw [started]
  simpa only [StreamDockApplication.StoppedDownFrom, finished] using downFrom

theorem stops_released (sound : ServiceSound world)
    (attempted : world.application.runtimeAttempted = true)
    (stopped : stopsCalled world.application.events ≠ []) :
    world.runtime.runtime.resourcesReleased = true := by
  obtain ⟨count, _, _, _, downFrom⟩ := sound.counted
  unfold StreamDockApplication.StoppedDownFrom at downFrom
  refine sound.released ?_ ?_ attempted
  · intro idle
    simp only [idle] at downFrom
    exact stopped downFrom
  · intro other waiting
    simp only [waiting] at downFrom
    exact stopped downFrom.1

end ServiceSound

/-- The bracket of services in a state of an application that can start its threads. -/
structure ServiceBracket (services : Nat) (hasOnStop : Bool) (world : ApplicationWorld) :
    Prop where
  stops : stopsCalled world.application.events <+:
    (startsReturned world.application.events).reverse
  once : (startsReturned world.application.events).Nodup
  all : world.application.cleanup = .finished → stopsCalled world.application.events =
    (startsReturned world.application.events).reverse
  ordered : world.application.events.Pairwise ServiceEvent.MayFollow
  released : world.application.runtimeAttempted = true →
    stopsCalled world.application.events ≠ [] → world.runtime.runtime.resourcesReleased = true
  /-- `run` has not ended before it has started the cleanup thread. -/
  launched : world.application.run.open? = false → world.application.cleanup ≠ .idle
  /-- The cleanup thread makes so many steps in any run from here, and no more. -/
  bounded : ∀ labels later, (applicationSystem services hasOnStop).exec world labels = some later →
    labels.countP ofCleanup ≤ world.application.cleanupLeft
  /-- Nothing but the runtime's release holds it up. -/
  progress : world.application.cleanup ≠ .idle → world.application.cleanup ≠ .finished →
    world.application.cleanup = .awaiting true ∧
      world.runtime.runtime.resourcesReleased = false ∨
    ∃ move after, world.step (.serviceCleanup move) = some after
  /-- Once the runtime has released its resources, or where it was never entered, the
  thread's own steps stop every service. -/
  finishes : world.application.cleanup ≠ .idle →
    (world.application.runtimeAttempted = true →
      world.runtime.runtime.resourcesReleased = true) →
    (applicationSystem services hasOnStop).Leads (fun _ label => ofCleanup label = true)
      (fun later => later.application.cleanup = .finished ∧
        stopsCalled later.application.events =
          (startsReturned later.application.events).reverse) world

theorem ServiceSound.progress {world : ApplicationWorld}
    (launched : world.application.cleanup ≠ .idle)
    (unfinished : world.application.cleanup ≠ .finished) :
    world.application.cleanup = .awaiting true ∧
      world.runtime.runtime.resourcesReleased = false ∨
    ∃ move application, world.step (.serviceCleanup move) = some (world.after application) ∧
      world.application.advanceCleanup world.runtime.runtime.resourcesReleased
        world.application.cleanup move = some application := by
  refine (world.application.cleanup_progress _ launched unfinished).imp_right ?_
  rintro ⟨move, application, advanced⟩
  exact ⟨move, application, by simp only [ApplicationWorld.step, advanced, Option.map_some],
    advanced⟩

theorem ServiceSound.finishes {services : Nat} {hasOnStop : Bool} {world : ApplicationWorld}
    (sound : ServiceSound world) (launched : world.application.cleanup ≠ .idle)
    (released : world.application.runtimeAttempted = true →
      world.runtime.runtime.resourcesReleased = true) :
    (applicationSystem services hasOnStop).Leads (fun _ label => ofCleanup label = true)
      (fun later => later.application.cleanup = .finished ∧
        stopsCalled later.application.events =
          (startsReturned later.application.events).reverse) world := by
  refine System.Leads.of_measure (motive := fun reached => ServiceSound reached ∧
      reached.application.cleanup ≠ .idle ∧ (reached.application.runtimeAttempted = true →
        reached.runtime.runtime.resourcesReleased = true))
    (fun reached => reached.application.cleanupLeft) ?_ ⟨sound, launched, released⟩
  rintro before ⟨sound, launched, released⟩
  by_cases finished : before.application.cleanup = .finished
  · exact .inl ⟨finished, sound.stops_all finished⟩
  rcases ServiceSound.progress launched finished with
    ⟨waiting, held⟩ | ⟨move, application, stepped, advanced⟩
  · have attempted := sound.attempted true waiting
    rw [released attempted.symm] at held
    contradiction
  · have cleaned := StreamDockApplication.advanceCleanup_cleaned advanced
    refine .inr ⟨.serviceCleanup move, before.after application, rfl, stepped,
      ⟨sound.cleanupStep advanced, cleaned.launched, ?_⟩, cleaned.left⟩
    intro attempted
    exact released (cleaned.attempted.symm.trans attempted)

/-- Once its resources are released, or where the runtime was not entered, the services
that were started are stopped once each, in the reverse order; a stop that `run` has seen
starts no more. -/
theorem service_bracket {services : Nat} {hasOnStop : Bool} {world : ApplicationWorld}
    (reachable : (applicationSystem services hasOnStop).ReachableBy
      (fun world label => startsCleanup world label = true) world) :
    ServiceBracket services hasOnStop world := by
  have sound := serviceSound reachable.reachable
  obtain ⟨count, _, started, _, _⟩ := sound.counted
  refine ⟨sound.stops_prefix, started ▸ List.nodup_range, sound.stops_all, sound.ordered,
    sound.stops_released, launched_of_closed reachable, fun labels later ran => ?_, ?_,
    sound.finishes⟩
  · have spent := System.exec_countP_le (motive := ServiceSound)
      (fun reached => reached.application.cleanupLeft) ofCleanup
      (fun _ _ _ sound stepped => ⟨sound.step stepped, sound.step_left stepped⟩) sound ran
    exact Nat.le_of_add_right_le spent
  · intro launched unfinished
    refine (ServiceSound.progress launched unfinished).imp_right ?_
    rintro ⟨move, application, stepped, _⟩
    exact ⟨move, _, stepped⟩

/-- Two services are started, a stop is seen before the runtime is run, and the
stop of one service raises. -/
def bracketRun : List ApplicationLabel :=
  [.run, .runStep .proceed, .runStep (.returns true), .runStep .proceed, .runStep .proceed,
    .runStep (.returns true), .runStep .proceed, .stop, .stopper 0 false, .runStep .proceed,
    .runStep .proceed, .runStep .proceed, .serviceCleanup .proceed, .serviceCleanup .proceed,
    .serviceCleanup .proceed, .serviceCleanup .raises, .serviceCleanup .proceed,
    .serviceCleanup (.returns true), .serviceCleanup .proceed, .serviceCleanup .proceed]

def bracketWorld : ApplicationWorld :=
  (((applicationSystem 2 true).restrict startsCleanup).exec
    { application := { services := 2 }, runtime := { runtime := { hasOnStop := true } } }
    bracketRun).get (by decide +kernel)

theorem service_bracket_run : stopsCalled bracketWorld.application.events = [1, 0] :=
  ((service_bracket (System.Reachable.restricted (System.Reachable.exec (.initial rfl)
    (Option.some_get _).symm) : (applicationSystem 2 true).ReachableBy
      (fun world label => startsCleanup world label = true) bracketWorld)).all
        (by decide +kernel)).trans (by decide +kernel)

end StreamDockSdk.Runtime
