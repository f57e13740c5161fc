import StreamDockSdk.Automaton.System

namespace StreamDockSdk.Automaton

/-! # Threads parked on a condition variable

A waiting loop tests its condition under the lock and parks while the test fails.  It
tests again after the next `notify_all`, or when its own time-out has passed.
-/

structure Monitor (State : Type u) (Label : Type v) (Waiter : Type w) where
  system : System State Label
  /-- The test of the waiter's loop. -/
  ready : State → Waiter → Bool
  /-- The waiter is at its loop, and a failing test changes nothing before it parks. -/
  looks : State → Waiter → Bool
  /-- The waiters that park at the end of the step. -/
  parks : State → Label → List Waiter
  /-- The step calls `notify_all`. -/
  notifies : State → Label → Bool
  /-- The step is none that a parked waiter would have to make. -/
  awake : State → List Waiter → Label → Bool

structure MonitorWorld (State : Type u) (Waiter : Type w) where
  state : State
  /-- The waiters that no one has notified since they parked. -/
  parked : List Waiter := []

inductive MonitorLabel (Label : Type v) (Waiter : Type w) where
  | step (label : Label)
  | park (waiter : Waiter)
  | timeOut (waiter : Waiter)

namespace Monitor

variable {State : Type u} {Label : Type v} {Waiter : Type w} [DecidableEq Waiter]
variable (monitor : Monitor State Label Waiter)

def step (world : MonitorWorld State Waiter) :
    MonitorLabel Label Waiter → Option (MonitorWorld State Waiter)
  | .step label =>
      if monitor.awake world.state world.parked label then
        (monitor.system.step world.state label).map fun next => {
          state := next
          parked := (if monitor.notifies world.state label then [] else world.parked) ++
            monitor.parks world.state label }
      else none
  | .park waiter =>
      if monitor.looks world.state waiter && !monitor.ready world.state waiter &&
          !world.parked.contains waiter then
        some { world with parked := world.parked ++ [waiter] }
      else none
  | .timeOut waiter => some { world with parked := world.parked.erase waiter }

/-- Every run of the system with the threads that wait on its condition. -/
def parking : System (MonitorWorld State Waiter) (MonitorLabel Label Waiter) where
  initial world := monitor.system.initial world.state ∧ world.parked = []
  step := monitor.step

variable {monitor} {world : MonitorWorld State Waiter}

theorem reachable_state (reachable : monitor.parking.Reachable world) :
    monitor.system.Reachable world.state := by
  refine reachable.invariant (motive := fun world => monitor.system.Reachable world.state) ?_ ?_
  · intro first start
    exact .initial start.1
  · intro before label after reached stepped
    cases label with
    | step label =>
        simp only [parking, step] at stepped
        split at stepped
        · obtain ⟨next, moved, rfl⟩ := Option.map_eq_some_iff.mp stepped
          exact reached.next label moved
        · contradiction
    | park waiter =>
        simp only [parking, step] at stepped
        split at stepped
        · cases stepped
          exact reached
        · contradiction
    | timeOut waiter =>
        cases stepped
        exact reached

/-- What holds of a waiter when it parks, and is kept by every step that notifies no one,
holds of every waiter that is still parked. -/
theorem reachable_parked {motive : State → Waiter → Prop}
    (reachable : monitor.parking.Reachable world)
    (unready : ∀ state waiter, monitor.looks state waiter = true →
      monitor.ready state waiter = false → motive state waiter)
    (parked : ∀ before label after waiter, monitor.system.Reachable before →
      monitor.system.step before label = some after → waiter ∈ monitor.parks before label →
        motive after waiter)
    (kept : ∀ before label after waiters waiter, monitor.system.Reachable before →
      monitor.awake before waiters label = true → monitor.system.step before label = some after →
        monitor.notifies before label = false → waiter ∈ waiters →
          motive before waiter → motive after waiter) :
    ∀ waiter ∈ world.parked, motive world.state waiter := by
  refine reachable.invariant_given (fun world => monitor.system.Reachable world.state)
    (motive := fun world => ∀ waiter ∈ world.parked, motive world.state waiter)
    (fun _ => reachable_state) ?_ ?_
  · intro first start waiter member
    rw [start.2] at member
    contradiction
  · intro before label after reached holds stepped waiter member
    cases label with
    | step label =>
        simp only [parking, step] at stepped
        split at stepped
        · next awake =>
          obtain ⟨next, moved, rfl⟩ := Option.map_eq_some_iff.mp stepped
          rcases List.mem_append.mp member with older | new
          · split at older
            · contradiction
            · next silent =>
              exact kept _ label _ _ waiter reached awake moved (by simpa using silent) older
                (holds waiter older)
          · exact parked _ label _ waiter reached moved new
        · contradiction
    | park other =>
        simp only [parking, step, Bool.and_eq_true, Bool.not_eq_true'] at stepped
        split at stepped
        · next looked =>
          cases stepped
          rcases List.mem_append.mp member with older | new
          · exact holds waiter older
          · rw [List.mem_singleton.mp new]
            exact unready _ _ looked.1.1 looked.1.2
        · contradiction
    | timeOut other =>
        cases stepped
        exact holds waiter (List.mem_of_mem_erase member)

end Monitor

end StreamDockSdk.Automaton
