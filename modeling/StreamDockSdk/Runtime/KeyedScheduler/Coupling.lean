import StreamDockSdk.Runtime.KeyedScheduler.SingleWorker

namespace StreamDockSdk.Runtime

open Messaging Automaton KeyedSerialHandlerScheduler

variable {State Error : Type}

namespace Workload

variable (load : Workload State Error)

/-- The work of the submission with the given index. -/
def work (index : Nat) : ScheduledWork where
  token := index + 1
  event := (load.items.getD index default).event
  context := scheduledContext? (load.items.getD index default).event
  size := (load.items.getD index default).size

def works (first count : Nat) : List ScheduledWork :=
  (List.range' first count).map load.work

def events : List StreamDockEvent :=
  load.items.map (·.event)

/-- The service before the submission with the given index. -/
def service (index : Nat) : Service State Error :=
  Service.after load.dispatch { dispatcher := load.dispatcher } (load.events.take index)

/-- How the completion of the submission with the given index has to end. -/
def terminal (index : Nat) : Terminal Error :=
  (load.service index).answer load.dispatch (load.work index).event

/-- The submission with the given index, when the first `settled` of the
`accepted` works are finished. -/
def status (settled accepted : Nat) (waiting : Bool) (index : Nat) : Submitted Error :=
  if index < settled then .done (load.terminal index)
  else if index < accepted then .pending (index + 1)
  else if waiting then .waiting
  else .done .discarded

section

variable {load} {index first count settled accepted : Nat} {waiting : Bool}

@[simp] theorem work_token (index : Nat) : (load.work index).token = index + 1 := rfl

@[simp] theorem works_zero (first : Nat) : load.works first 0 = [] := rfl

theorem works_succ (first count : Nat) :
    load.works first (count + 1) = load.work first :: load.works (first + 1) count := by
  simp [works, List.range'_succ]

theorem works_concat (first count : Nat) :
    load.works first (count + 1) = load.works first count ++ [load.work (first + count)] := by
  simp [works, List.range'_1_concat]

@[simp] theorem length_works (first count : Nat) : (load.works first count).length = count := by
  simp [works]

@[simp] theorem length_events : load.events.length = load.items.length := by
  simp [events]

theorem work_event (bound : index < load.items.length) :
    load.events[index]? = some (load.work index).event := by
  simp [events, work, bound]

theorem service_succ (bound : index < load.items.length) :
    load.service (index + 1) =
      (load.service index).serve load.dispatch (load.work index).event := by
  have taken : load.events.take (index + 1) =
      load.events.take index ++ [(load.work index).event] := by
    rw [List.take_add_one, work_event bound]
    rfl
  rw [service, taken, Service.after_append]
  rfl

theorem service_closed (closed : (load.service index).serving = false) {later : Nat}
    (order : index ≤ later) : load.service later = load.service index := by
  obtain ⟨gap, rfl⟩ := Nat.exists_eq_add_of_le order
  rw [service, List.take_add, Service.after_append]
  exact Service.after_closed closed

theorem terminal_closed (closed : (load.service index).serving = false) {later : Nat}
    (order : index ≤ later) : load.terminal later = .discarded := by
  rw [terminal, service_closed closed order]
  exact Service.answer_closed closed

theorem terminal_serving (serving : (load.service index).serving = true) :
    load.terminal index =
      terminalOf (load.dispatch (load.service index).dispatcher (load.work index).event).2 := by
  rw [terminal, Service.answer_serving serving]

/-- Finishing the next completion settles one more submission. -/
theorem status_finish (pending : settled < accepted) (index : Nat) :
    (load.status settled accepted waiting index).finish (settled + 1) (load.terminal settled) =
      load.status (settled + 1) accepted waiting index := by
  rcases Nat.lt_trichotomy index settled with earlier | rfl | later
  · simp [status, earlier, Nat.lt_succ_of_lt earlier, Submitted.finish]
  · simp [status, pending, Submitted.finish]
  · have unsettled : ¬ index < settled := by omega
    have still : ¬ index < settled + 1 := by omega
    have other : index ≠ settled := by omega
    simp only [status, unsettled, still, if_false]
    split
    · simp [Submitted.finish, other]
    · split <;> rfl

variable (load waiting) in
theorem map_status_finish (pending : settled < accepted) (submitted : Nat) :
    ((List.range submitted).map (load.status settled accepted waiting)).map
        (.finish (settled + 1) (load.terminal settled)) =
      (List.range submitted).map (load.status (settled + 1) accepted waiting) := by
  rw [List.map_map]
  exact List.map_congr_left fun index _ => status_finish pending index

end

/-- The reply that the worker holds goes with the service that it left. -/
def Reflects (serving : Bool) (reply : DispatchReply) : Prop :=
  (serving = true ∧ ∃ outcome, reply = .result outcome) ∨ (serving = false ∧ reply = .error)

/-- The worker's position among the accepted works: how many it has called the
dispatcher with, how many of these calls ended, and how many works are finished. -/
inductive Phase (load : Workload State Error) (accepted : Nat) :
    List ThreadPc → Bool → Option (Terminal Error) → List ScheduledWork →
      (called returned settled : Nat) → Prop
  | unlaunched (threads answer) : threads = [] ∨ threads = [.created] →
      Phase load accepted threads true answer (load.works 0 accepted) 0 0 0
  | ready (index count answer) : accepted = index + count →
      (load.service index).serving = true →
      Phase load accepted [.ready] true answer (load.works index count) index index index
  | taken (index count answer) : accepted = index + 1 + count →
      (load.service index).serving = true →
      Phase load accepted [.taken (load.work index)] true answer
        (load.works (index + 1) count) index index index
  | dispatching (index count answer) : accepted = index + 1 + count →
      (load.service index).serving = true →
      Phase load accepted [.dispatching (load.work index)] true answer
        (load.works (index + 1) count) (index + 1) index index
  | raised (index count) : accepted = index + 1 + count →
      (load.service (index + 1)).serving = false →
      Phase load accepted [.raised (load.work index) .error] true (some (load.terminal index))
        (load.works (index + 1) count) (index + 1) (index + 1) index
  | finishing (index count serving reply) : accepted = index + 1 + count →
      (load.service (index + 1)).serving = serving → Reflects serving reply →
      Phase load accepted [.finishing (load.work index) reply] serving (some (load.terminal index))
        (load.works (index + 1) count) (index + 1) (index + 1) index
  | observing (index count serving reply answer) : accepted = index + 1 + count →
      (load.service (index + 1)).serving = serving → Reflects serving reply →
      Phase load accepted [.observing (load.work index) reply] serving answer
        (load.works (index + 1) count) (index + 1) (index + 1) (index + 1)
  | clearing (index count answer) : accepted = index + count →
      (load.service index).serving = false →
      Phase load accepted [.discarding .afterError .entering] false answer
        (load.works index count) index index index
  | discarding (index settled count answer) : accepted = settled + count → index ≤ settled →
      (load.service index).serving = false →
      Phase load accepted [.discarding .afterError (.finishing (load.works settled count) false)]
        false answer [] index index settled
  | discarded (index settled count answer) : accepted = settled + count → index ≤ settled →
      (load.service index).serving = false →
      Phase load accepted [.discarding .afterError (.observing (load.works settled count) false)]
        false answer [] index index settled
  | leaving (index pc answer) : index ≤ accepted → (load.service index).serving = false →
      pc = .ready ∨ pc = .exiting ∨ pc = .exited →
      Phase load accepted [pc] false answer [] index index accepted

/-- What the producer has submitted and whether it waits. -/
inductive Producing (load : Workload State Error) (accepting : Bool) (accepted : Nat) :
    List SizedEvent → Nat → Bool → Prop
  | free (submitted) : accepted ≤ submitted → (accepting = true → submitted = accepted) →
      Producing load accepting accepted [] submitted false
  | waiting (item) : load.items[accepted]? = some item →
      Producing load accepting accepted [item] (accepted + 1) true

/-- How far `start` has come. -/
inductive Launching (world : KeyedWorld) : Prop
  | fresh : world.scheduler.started = false → world.scheduler.stopped = false →
      world.launching = .idle → world.threads = [] → Launching world
  | counting : world.scheduler.started = true → world.launching = .counting 0 1 →
      world.threads = [.created] → Launching world
  | starting : world.scheduler.started = true → world.launching = .starting 0 0 →
      world.threads = [.created] → Launching world
  | running (pc) : world.scheduler.started = true →
      world.launching = .counting 1 0 ∨ world.launching = .idle →
      world.threads = [pc] → pc ≠ .created → Launching world

/-- The exchange agrees with the service of the producer's events. -/
structure Coupled (load : Workload State Error) (exchange : Exchange State Error)
    (called returned settled : Nat) (waiting : Bool) : Prop where
  phase : Phase load exchange.world.scheduler.internalToken exchange.world.threads
    exchange.world.scheduler.accepting exchange.answer exchange.world.scheduler.pending
    called returned settled
  launching : Launching exchange.world
  producing : Producing load exchange.world.scheduler.accepting
    exchange.world.scheduler.internalToken exchange.world.blocked exchange.completions.length
    waiting
  bound : exchange.completions.length ≤ load.items.length
  remaining : exchange.remaining = load.items.drop exchange.completions.length
  completions : exchange.completions = (List.range exchange.completions.length).map
    (load.status settled exchange.world.scheduler.internalToken waiting)
  dispatched : exchange.world.dispatched = (load.service called).served
  dispatcher : exchange.dispatcher = (load.service returned).dispatcher

section

variable {load : Workload State Error} {accepted called returned settled submitted : Nat}
  {threads : List ThreadPc} {accepting waiting : Bool} {answer : Option (Terminal Error)}
  {pending : List ScheduledWork}

theorem Phase.settled_le
    (phase : Phase load accepted threads accepting answer pending called returned settled) :
    settled ≤ accepted := by
  cases phase <;> omega

/-- Once the scheduler refuses work, the service has stopped at an accepted one. -/
theorem Phase.closed
    (phase : Phase load accepted threads false answer pending called returned settled) :
    ∃ index ≤ accepted, (load.service index).serving = false := by
  cases phase with
  | finishing index count _ reply total closed => exact ⟨_, by omega, closed⟩
  | observing index count _ reply _ total closed => exact ⟨_, by omega, closed⟩
  | clearing index count _ total closed => exact ⟨_, by omega, closed⟩
  | discarding index settled count _ total order closed => exact ⟨_, by omega, closed⟩
  | discarded index settled count _ total order closed => exact ⟨_, by omega, closed⟩
  | leaving index pc _ order closed => exact ⟨_, order, closed⟩

/-- An accepted work goes to the end of the pending ones. -/
theorem Phase.admit
    (phase : Phase load accepted threads true answer pending called returned settled) :
    Phase load (accepted + 1) threads true answer (pending ++ [load.work accepted])
      called returned settled := by
  cases phase with
  | unlaunched threads _ early =>
      have queue := (@works_concat _ _ load) 0 accepted
      rw [Nat.zero_add] at queue
      exact queue ▸ .unlaunched threads answer early
  | ready index count _ total serving =>
      rw [total, ← works_concat]
      exact .ready _ (count + 1) answer rfl serving
  | taken index count _ total serving =>
      rw [total, ← works_concat]
      exact .taken _ (count + 1) answer rfl serving
  | dispatching index count _ total serving =>
      rw [total, ← works_concat]
      exact .dispatching _ (count + 1) answer rfl serving
  | raised index count total closed =>
      rw [total, ← works_concat]
      exact .raised _ (count + 1) rfl closed
  | finishing index count _ reply total serving reflects =>
      rw [total, ← works_concat]
      exact .finishing _ (count + 1) true reply rfl serving reflects
  | observing index count _ reply _ total serving reflects =>
      rw [total, ← works_concat]
      exact .observing _ (count + 1) true reply answer rfl serving reflects

theorem status_accepted {index : Nat} (before : index < accepted) (other : Bool) :
    load.status settled (accepted + 1) other index = load.status settled accepted waiting index := by
  simp [status, before, Nat.lt_succ_of_lt before]

theorem status_waiting {index : Nat} (before : index < accepted) (other : Bool) :
    load.status settled accepted other index = load.status settled accepted waiting index := by
  simp [status, before]

theorem map_status_admitted (order : settled ≤ accepted) :
    (List.range accepted).map (load.status settled accepted waiting) ++ [.pending (accepted + 1)] =
      (List.range (accepted + 1)).map (load.status settled (accepted + 1) false) := by
  have last : load.status settled (accepted + 1) false accepted = .pending (accepted + 1) := by
    simp [status, Nat.not_lt.mpr order]
  rw [List.range_succ, List.map_append, List.map_singleton, last]
  congr 1
  exact List.map_congr_left fun index member =>
    (status_accepted (List.mem_range.mp member) false).symm

theorem map_status_waiting (order : settled ≤ accepted) :
    (List.range accepted).map (load.status settled accepted waiting) ++ [.waiting] =
      (List.range (accepted + 1)).map (load.status settled accepted true) := by
  have last : load.status settled accepted true accepted = .waiting := by
    simp [status, Nat.not_lt.mpr order]
  rw [List.range_succ, List.map_append, List.map_singleton, last]
  congr 1
  exact List.map_congr_left fun index member =>
    (status_waiting (List.mem_range.mp member) true).symm

theorem map_status_discarded (order : settled ≤ accepted) (late : accepted ≤ submitted) :
    (List.range submitted).map (load.status settled accepted false) ++ [.done .discarded] =
      (List.range (submitted + 1)).map (load.status settled accepted false) := by
  have last : load.status settled accepted false submitted = .done .discarded := by
    simp [status, Nat.not_lt.mpr late, Nat.not_lt.mpr (order.trans late)]
  rw [List.range_succ, List.map_append, List.map_singleton, last]

theorem dropLast_status :
    ((List.range (accepted + 1)).map (load.status settled accepted waiting)).dropLast =
      (List.range accepted).map (load.status settled accepted false) := by
  rw [List.range_succ, List.map_append, List.map_singleton, List.dropLast_concat]
  exact List.map_congr_left fun index member =>
    (status_waiting (List.mem_range.mp member) waiting)

end

end Workload

namespace ThreadPc

/-- An upper bound on the steps that a worker makes without taking a work. -/
def distance : ThreadPc → Nat
  | .exiting => 1
  | .ready => 2
  | .created => 3
  | .discarding _ .entering => 4
  | .observing _ _ => 5
  | .finishing _ _ => 6
  | .raised _ _ => 7
  | .dispatching _ => 8
  | .taken _ => 9
  | .discarding _ (.finishing rest _) => 3 + 10 * rest.length
  | .discarding _ (.observing rest _) => 8 + 10 * rest.length
  | _ => 0

end ThreadPc

def LaunchPc.distance : LaunchPc → Nat
  | .counting _ remaining => 1 + 2 * remaining
  | .starting _ remaining => 2 + 2 * remaining
  | _ => 0

/-- Every step that changes an exchange leaves less of this. -/
def Exchange.rest (exchange : Exchange State Error) : Nat :=
  30 * exchange.remaining.length + 20 * exchange.world.blocked.length +
    10 * exchange.world.scheduler.pending.length +
    (exchange.world.threads.map ThreadPc.distance).sum + exchange.world.launching.distance +
    if exchange.world.scheduler.started then 0 else 10

end StreamDockSdk.Runtime
