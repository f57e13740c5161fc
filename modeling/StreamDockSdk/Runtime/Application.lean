import StreamDockSdk.Runtime.Composition

namespace StreamDockSdk.Runtime

/-! # `StreamDockApplication`

The application starts its services, runs the runtime once and leaves the
services' release to a cleanup thread.  A service is named by its position in
the tuple of services.
-/

/-- Why `run` raises. -/
inductive ApplicationError where
  | serviceStart
  | serviceStop
  | runtimeRejected
  | runtimeFailed (failure : RuntimeFailure)
  | runtimeInterrupted
  | invalidTransition
  | cleanupThread
deriving DecidableEq, Repr

inductive ServiceEvent where
  | startCalled (service : Nat)
  | startReturned (service : Nat)
  /-- `run` found a stop requested. -/
  | stopObserved
  | stopCalled (service : Nat)
deriving DecidableEq, Repr

/-- The call of `run` that was let in. -/
inductive ApplicationRunPc where
  | idle
  | checking (service : Nat)
  | starting (service : Nat)
  | recording (service : Nat)
  | handingOver
  | calling
  | running (runner : Nat)
  | finishing (error : Option ApplicationError)
  | awaiting (error : Option ApplicationError)
  | returned
  | raised (error : ApplicationError)
deriving DecidableEq, Repr

/-- A call of `stop`. -/
inductive ApplicationStopPc where
  | requesting
  | closing
  | called
deriving DecidableEq, Repr

/-- The thread that runs `_cleanup_services`. -/
inductive ServiceCleanupPc where
  | idle
  | awaiting (runtimeAttempted : Bool)
  | taking
  | stopping (services : List Nat)
  | calling (services : List Nat)
  | finishing
  | finished
deriving DecidableEq, Repr

structure StreamDockApplication where
  /-- The number of services. -/
  services : Nat
  startedServices : List Nat := []
  hasRun : Bool := false
  stopRequested : Bool := false
  runtimeAttempted : Bool := false
  serviceErrors : Bool := false
  servicesStopped : Bool := false
  run : ApplicationRunPc := .idle
  cleanup : ServiceCleanupPc := .idle
  /-- Newest first. -/
  events : List ServiceEvent := []

structure ApplicationWorld where
  application : StreamDockApplication
  stoppers : List ApplicationStopPc := []
  runtime : RuntimeWorld

inductive ApplicationLabel where
  | run
  | runStep (move : RuntimeMove)
  | stop
  | stopper (index : Nat) (fromWorker : Bool)
  | serviceCleanup (move : RuntimeMove)
  | runtime (label : RuntimeLabel)
deriving Repr

/-- How `run_forever` ended, as `run` sees it: `none` while it has not. -/
def RunPc.error? : RunPc → Option (Option ApplicationError)
  | .rejected => some (some .runtimeRejected)
  | .ended .returned => some none
  | .ended (.raised failure) => some (some (.runtimeFailed failure))
  | .ended .interrupted => some (some .runtimeInterrupted)
  | .ended .invalidTransition => some (some .invalidTransition)
  | _ => none

/-- The end of `run`, when its `finally` clause raises nothing itself. -/
def conclusion : Option ApplicationError → ApplicationRunPc
  | none => .returned
  | some error => .raised error

namespace StreamDockApplication

variable (application : StreamDockApplication)

/-- One step of `_cleanup_services`. -/
def advanceCleanup (resourcesReleased : Bool) :
    ServiceCleanupPc → RuntimeMove → Option StreamDockApplication
  | .awaiting attempted, .proceed =>
      if attempted && !resourcesReleased then none
      else some { application with cleanup := .taking }
  | .taking, .proceed => some { application with
      startedServices := [], cleanup := .stopping application.startedServices.reverse }
  | .stopping [], .proceed => some { application with cleanup := .finishing }
  | .stopping (service :: rest), .proceed => some { application with
      events := .stopCalled service :: application.events, cleanup := .calling rest }
  | .calling rest, .returns _ => some { application with cleanup := .stopping rest }
  | .calling rest, .raises => some { application with
      serviceErrors := true, cleanup := .stopping rest }
  | .finishing, .proceed => some { application with
      servicesStopped := true, cleanup := .finished }
  | _, _ => none

end StreamDockApplication

namespace ApplicationWorld

variable (world : ApplicationWorld)

/-- The application after one of its own steps. -/
def after (application : StreamDockApplication) : ApplicationWorld :=
  { world with application }

/-- One step of `run` after its single-run check. -/
def advanceRun : ApplicationRunPc → RuntimeMove → Option ApplicationWorld
  | .checking service, .proceed =>
      if service < world.application.services then
        if world.application.stopRequested then some (world.after { world.application with
          events := .stopObserved :: world.application.events, run := .handingOver })
        else some (world.after { world.application with
          events := .startCalled service :: world.application.events, run := .starting service })
      else some (world.after { world.application with run := .handingOver })
  | .starting service, .returns _ => some (world.after { world.application with
      events := .startReturned service :: world.application.events, run := .recording service })
  | .starting _, .raises => some (world.after { world.application with
      run := .finishing (some .serviceStart) })
  | .recording service, .proceed => some (world.after { world.application with
      startedServices := world.application.startedServices ++ [service]
      run := .checking (service + 1) })
  | .handingOver, .proceed =>
      if world.application.stopRequested then some (world.after { world.application with
        events := .stopObserved :: world.application.events, run := .finishing none })
      else some (world.after { world.application with run := .calling })
  | .calling, .proceed =>
      (world.runtime.step .run).map fun runtime => { world with
        runtime
        application := { world.application with
          runtimeAttempted := true, run := .running world.runtime.runners.length } }
  | .running runner, .proceed =>
      match world.runtime.runners[runner]?.bind RunPc.error? with
      | none => none
      | some error => some (world.after { world.application with run := .finishing error })
  | .finishing error, .proceed => some {
      world.after { world.application with
        cleanup := .awaiting world.application.runtimeAttempted, run := .awaiting error } with
      runtime := if error.isSome then
        { world.runtime with runtime := { world.runtime.runtime with
          sharedFailure := world.runtime.runtime.sharedFailure.or (some .application) } }
        else world.runtime }
  | .finishing error, .raises => some (world.after (match error with
      | none => { world.application with run := .raised .cleanupThread }
      | some error => { world.application with
          servicesStopped := true, run := .awaiting (some error) }))
  | .awaiting error, .proceed =>
      if world.application.servicesStopped then
        some (world.after { world.application with
          run := if world.application.serviceErrors && error.isNone then .raised .serviceStop
            else conclusion error })
      else none
  | .awaiting error, .timesOut =>
      some (world.after { world.application with run := conclusion error })
  | _, _ => none

def step : ApplicationLabel → Option ApplicationWorld
  | .run =>
      if world.application.hasRun || world.application.stopRequested then some world
      else some (world.after { world.application with hasRun := true, run := .checking 0 })
  | .runStep move => world.advanceRun world.application.run move
  | .stop => some { world with stoppers := world.stoppers ++ [.requesting] }
  | .stopper index fromWorker =>
      match world.stoppers[index]? with
      | some .requesting => some { world with
          application := { world.application with stopRequested := true }
          stoppers := world.stoppers.set index .closing }
      | some .closing => (world.runtime.step (.close fromWorker)).map fun runtime =>
          { world with runtime, stoppers := world.stoppers.set index .called }
      | _ => none
  | .serviceCleanup move =>
      (world.application.advanceCleanup world.runtime.runtime.resourcesReleased
        world.application.cleanup move).map world.after
  | .runtime label =>
      match label with
      | .run => none
      | _ => (world.runtime.step label).map ({ world with runtime := · })

end ApplicationWorld

/-- Every run of an application over the composed runtime. -/
def applicationSystem (services : Nat) (hasOnStop : Bool) :
    Automaton.System ApplicationWorld ApplicationLabel where
  initial world := world = {
    application := { services }, runtime := { runtime := { hasOnStop } } }
  step := ApplicationWorld.step

end StreamDockSdk.Runtime
