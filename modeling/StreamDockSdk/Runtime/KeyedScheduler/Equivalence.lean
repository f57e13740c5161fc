import StreamDockSdk.Runtime.KeyedScheduler.Coupling

namespace StreamDockSdk.Runtime

open Messaging Automaton KeyedSerialHandlerScheduler

variable {State Error : Type}

namespace Workload

variable {load : Workload State Error} {exchange after : Exchange State Error}
  {called returned settled : Nat} {waiting : Bool}

/-- The step keeps the exchange coupled and leaves less to do. -/
def Proceeds (load : Workload State Error) (before after : Exchange State Error) : Prop :=
  (∃ called returned settled waiting, Coupled load after called returned settled waiting) ∧
    after.rest < before.rest

/-- The producer woke up although there is no room for its event. -/
def Futile (before after : Exchange State Error) : Prop :=
  after = before ∧ before.world.scheduler.accepting = true ∧
    ∃ item ∈ before.world.blocked, before.world.scheduler.isFull item.size = true

theorem Phase.early {accepted : Nat} {threads : List ThreadPc} {accepting : Bool}
    {answer : Option (Terminal Error)} {pending : List ScheduledWork}
    (phase : Phase load accepted threads accepting answer pending called returned settled)
    (early : threads = [] ∨ threads = [.created]) :
    accepting = true ∧ pending = load.works 0 accepted ∧ called = 0 ∧ returned = 0 ∧ settled = 0 := by
  cases phase with
  | unlaunched => exact ⟨rfl, rfl, rfl, rfl, rfl⟩
  | leaving _ pc _ order closed position =>
      rcases position with rfl | rfl | rfl <;> simp at early
  | _ => simp at early

theorem Coupled.starts (coupled : Coupled load exchange called returned settled waiting)
    (config : exchange.world.scheduler.config = load.config)
    (stepped : exchange.start = some after) : Proceeds load exchange after := by
  obtain ⟨phase, launching, producing, bound, remaining, completions, dispatched, dispatcher⟩ :=
    coupled
  cases launching with
  | fresh unstarted unstopped idle empty =>
      obtain ⟨accepting, pending, rfl, rfl, rfl⟩ := phase.early (.inl empty)
      have label : exchange.startLabel? = some .start := by
        simp [Exchange.startLabel?, unstarted]
      simp only [Exchange.start, label, Option.map_eq_some_iff] at stepped
      obtain ⟨world, moved, rfl⟩ := stepped
      simp only [KeyedWorld.step, KeyedWorld.start] at moved
      rw [if_neg (by simp [unstarted]), if_neg (by simp [accepting, unstopped])] at moved
      cases moved
      rw [accepting, pending] at phase
      refine ⟨⟨0, 0, 0, waiting, ?_, ?_, producing, bound, remaining, completions, dispatched,
        dispatcher⟩, ?_⟩
      · simp only [accepting, pending, empty, config, load.single]
        exact .unlaunched _ _ (.inr rfl)
      · exact .counting rfl (by simp [empty, config, load.single])
          (by simp [empty, config, load.single])
      · simp [Exchange.rest, unstarted, idle, empty, config, load.single, ThreadPc.distance,
          LaunchPc.distance]
  | counting started counts created =>
      obtain ⟨accepting, pending, rfl, rfl, rfl⟩ := phase.early (.inr created)
      have label : exchange.startLabel? = some (.launch true) := by
        simp [Exchange.startLabel?, started, counts]
      simp only [Exchange.start, label, Option.map_eq_some_iff] at stepped
      obtain ⟨world, moved, rfl⟩ := stepped
      simp only [KeyedWorld.step, KeyedWorld.launchStep, counts, Option.some.injEq] at moved
      subst moved
      refine ⟨⟨0, 0, 0, waiting, phase, .starting started rfl created, producing, bound, remaining,
        completions, dispatched, dispatcher⟩, ?_⟩
      simp [Exchange.rest, counts, LaunchPc.distance]
  | starting started starts created =>
      obtain ⟨accepting, pending, rfl, rfl, rfl⟩ := phase.early (.inr created)
      have label : exchange.startLabel? = some (.launch true) := by
        simp [Exchange.startLabel?, started, starts]
      simp only [Exchange.start, label, Option.map_eq_some_iff] at stepped
      obtain ⟨world, moved, rfl⟩ := stepped
      simp only [KeyedWorld.step, KeyedWorld.launchStep, starts, created, if_true,
        List.set_cons_zero, Option.some.injEq] at moved
      subst moved
      refine ⟨⟨0, 0, 0, waiting, ?_, .running .ready started (.inl rfl) rfl (by simp), producing, bound,
        remaining, completions, dispatched, dispatcher⟩, ?_⟩
      · rw [accepting, pending]
        exact .ready 0 _ _ (Nat.zero_add _).symm rfl
      · simp [Exchange.rest, starts, created, ThreadPc.distance, LaunchPc.distance]
  | running pc started counts alive moving =>
      rcases counts with counts | idle
      · have label : exchange.startLabel? = some (.launch true) := by
          simp [Exchange.startLabel?, started, counts]
        simp only [Exchange.start, label, Option.map_eq_some_iff] at stepped
        obtain ⟨world, moved, rfl⟩ := stepped
        simp only [KeyedWorld.step, KeyedWorld.launchStep, counts, Option.some.injEq] at moved
        subst moved
        refine ⟨⟨called, returned, settled, waiting, phase,
          .running pc started (.inr rfl) alive moving, producing, bound, remaining, completions,
          dispatched, dispatcher⟩, ?_⟩
        simp [Exchange.rest, counts, LaunchPc.distance]
      · simp [Exchange.start, Exchange.startLabel?, started, idle] at stepped

theorem Producing.accepted_le {accepting : Bool} {accepted submitted : Nat}
    {blocked : List SizedEvent} (producing : Producing load accepting accepted blocked submitted waiting) :
    accepted ≤ submitted := by
  cases producing with
  | free _ order => exact order
  | waiting => exact Nat.le_succ _

theorem Producing.closing {before accepting : Bool} {accepted submitted : Nat}
    {blocked : List SizedEvent}
    (producing : Producing load before accepted blocked submitted waiting)
    (closes : accepting = true → before = true) :
    Producing load accepting accepted blocked submitted waiting := by
  cases producing with
  | free _ order caught => exact .free _ order fun still => caught (closes still)
  | waiting item found => exact .waiting item found

theorem Launching.frame {before after : KeyedWorld} (launching : Launching before)
    (started : after.scheduler.started = before.scheduler.started)
    (stopped : after.scheduler.stopped = before.scheduler.stopped)
    (launch : after.launching = before.launching) (threads : after.threads = before.threads) :
    Launching after := by
  cases launching with
  | fresh unstarted unstopped idle empty =>
      exact .fresh (started.trans unstarted) (stopped.trans unstopped) (launch.trans idle)
        (threads.trans empty)
  | counting begun counts created =>
      exact .counting (started.trans begun) (launch.trans counts) (threads.trans created)
  | starting begun starts created =>
      exact .starting (started.trans begun) (launch.trans starts) (threads.trans created)
  | running pc begun counts alive moving =>
      exact .running pc (started.trans begun) (launch ▸ counts) (threads.trans alive) moving

/-- The work of an admitted item is the next one. -/
theorem newWork_eq {scheduler : KeyedSerialHandlerScheduler} {item : SizedEvent}
    (next : load.items[scheduler.internalToken]? = some item) :
    scheduler.newWork item = load.work scheduler.internalToken := by
  simp [newWork, work, next]

theorem Coupled.admits (coupled : Coupled load exchange called returned settled waiting)
    {item : SizedEvent} {remaining blocked : List SizedEvent} {completions : List (Submitted Error)}
    (empty : blocked = []) (accepting : exchange.world.scheduler.accepting = true)
    (next : load.items[exchange.world.scheduler.internalToken]? = some item)
    (returns : completions = (List.range exchange.world.scheduler.internalToken).map
      (load.status settled exchange.world.scheduler.internalToken false) ++
        [.pending (exchange.world.scheduler.internalToken + 1)])
    (left : remaining = load.items.drop (exchange.world.scheduler.internalToken + 1)) :
    Coupled load { exchange with
      world := { exchange.world with
        scheduler := (exchange.world.scheduler.admitItem item).1
        blocked
        history := .accepted (exchange.world.scheduler.newWork item) :: exchange.world.history }
      remaining, completions } called returned settled false := by
  obtain ⟨phase, launching, _, _, _, _, dispatched, dispatcher⟩ := coupled
  have length : completions.length = exchange.world.scheduler.internalToken + 1 := by
    simp [returns]
  rw [accepting] at phase
  constructor
  · simp only [admitItem, newWork_eq next, accepting]
    exact phase.admit
  · exact launching.frame rfl rfl rfl rfl
  · rw [length, empty]
    exact .free _ (Nat.le_refl _) fun _ => rfl
  · rw [length]
    exact (List.getElem?_eq_some_iff.mp next).1
  · rw [length]
    exact left
  · rw [length, returns]
    exact map_status_admitted phase.settled_le
  · simpa [KeyedWorld.dispatched] using dispatched
  · exact dispatcher

theorem Coupled.refuses (coupled : Coupled load exchange called returned settled waiting)
    {submitted : Nat} {remaining blocked : List SizedEvent} {completions : List (Submitted Error)}
    (empty : blocked = []) (refusing : exchange.world.scheduler.accepting = false)
    (late : exchange.world.scheduler.internalToken ≤ submitted)
    (bound : submitted < load.items.length)
    (returns : completions = (List.range submitted).map
      (load.status settled exchange.world.scheduler.internalToken false) ++ [.done .discarded])
    (left : remaining = load.items.drop (submitted + 1)) :
    Coupled load { exchange with
      world := { exchange.world with
        scheduler := exchange.world.scheduler.discardSubmission.1, blocked }
      remaining, completions } called returned settled false := by
  obtain ⟨phase, launching, _, _, _, _, dispatched, dispatcher⟩ := coupled
  have length : completions.length = submitted + 1 := by simp [returns]
  constructor
  · exact phase
  · exact launching.frame rfl rfl rfl rfl
  · rw [length, empty]
    refine .free _ (late.trans (Nat.le_succ _)) fun accepting => ?_
    exact absurd (refusing.symm.trans accepting) nofun
  · rw [length]
    exact bound
  · rw [length]
    exact left
  · rw [length, returns]
    exact map_status_discarded phase.settled_le late
  · exact dispatched
  · exact dispatcher

theorem Coupled.waits (coupled : Coupled load exchange called returned settled waiting)
    {item : SizedEvent} {remaining blocked : List SizedEvent} {completions : List (Submitted Error)}
    (single : blocked = [item])
    (next : load.items[exchange.world.scheduler.internalToken]? = some item)
    (returns : completions = (List.range exchange.world.scheduler.internalToken).map
      (load.status settled exchange.world.scheduler.internalToken false) ++ [.waiting])
    (left : remaining = load.items.drop (exchange.world.scheduler.internalToken + 1)) :
    Coupled load { exchange with
      world := { exchange.world with
        scheduler := { exchange.world.scheduler with
          admissionBackpressure := exchange.world.scheduler.admissionBackpressure + 1 }
        blocked }
      remaining, completions } called returned settled true := by
  obtain ⟨phase, launching, _, _, _, _, dispatched, dispatcher⟩ := coupled
  have length : completions.length = exchange.world.scheduler.internalToken + 1 := by
    simp [returns]
  constructor
  · exact phase
  · exact launching.frame rfl rfl rfl rfl
  · rw [length, single]
    exact .waiting item next
  · rw [length]
    exact (List.getElem?_eq_some_iff.mp next).1
  · rw [length]
    exact left
  · rw [length, returns]
    exact map_status_waiting phase.settled_le
  · exact dispatched
  · exact dispatcher

theorem Coupled.submits (coupled : Coupled load exchange called returned settled waiting)
    (config : exchange.world.scheduler.config = load.config)
    (started : exchange.world.scheduler.started = true) {item : SizedEvent}
    {remaining : List SizedEvent} (free : exchange.world.blocked = [])
    (next : exchange.remaining = item :: remaining)
    (stepped : exchange.produce = some after) : Proceeds load exchange after := by
  have left := coupled.remaining
  have producing := coupled.producing
  have settled_le := coupled.phase.settled_le
  rw [free] at producing
  obtain ⟨submitted, submitted_eq⟩ : ∃ submitted, submitted = exchange.completions.length :=
    ⟨_, rfl⟩
  have known := coupled.completions
  rw [← submitted_eq] at left producing known
  obtain ⟨late, caught⟩ : exchange.world.scheduler.internalToken ≤ submitted ∧
      (exchange.world.scheduler.accepting = true →
        submitted = exchange.world.scheduler.internalToken) ∧ waiting = false := by
    cases producing with
    | free _ order caught => exact ⟨order, caught, rfl⟩
  obtain ⟨caught, rfl⟩ := caught
  rw [next] at left
  have bound : submitted < load.items.length := by
    rw [← Nat.not_le, ← List.drop_eq_nil_iff, ← left]
    exact List.cons_ne_nil _ _
  rw [List.drop_eq_getElem_cons bound, List.cons.injEq] at left
  have found : load.items[submitted]? = some item := by
    rw [left.1]
    exact List.getElem?_eq_getElem bound
  obtain ⟨positive, fits⟩ := load.sized item (List.mem_of_getElem? found)
  rw [← config] at fits
  have sizes : ¬ item.size = 0 ∧
      ¬ exchange.world.scheduler.config.pendingByteLimit < item.size := by omega
  simp only [Exchange.produce, started, free, next, Bool.not_true, Bool.false_eq_true, if_false,
    Option.map_eq_some_iff] at stepped
  obtain ⟨world, moved, rfl⟩ := stepped
  cases accepting : exchange.world.scheduler.accepting with
  | false =>
      have decided : exchange.world.scheduler.submitSized item =
          .ok exchange.world.scheduler.discardSubmission := by
        simp [submitSized, sizes, accepting]
      simp only [KeyedWorld.step, decided, KeyedWorld.admitted, discardSubmission,
        Option.some.injEq] at moved
      subst moved
      simp only [decided]
      refine ⟨⟨_, _, _, _, coupled.refuses free accepting late bound
        (congrArg (· ++ [_]) known) left.2⟩, ?_⟩
      simp [Exchange.rest, next]
  | true =>
      obtain rfl := caught accepting
      cases room : exchange.world.scheduler.isFull item.size with
      | true =>
          have decided : exchange.world.scheduler.submitSized item =
              .ok ({ exchange.world.scheduler with
                admissionBackpressure := exchange.world.scheduler.admissionBackpressure + 1 },
                .blocked) := by
            simp [submitSized, sizes, accepting, started, room]
          simp only [KeyedWorld.step, decided, KeyedWorld.admitted, Option.some.injEq] at moved
          subst moved
          simp only [decided]
          refine ⟨⟨_, _, _, _, coupled.waits (by rw [free]; rfl) found
            (congrArg (· ++ [_]) known) left.2⟩, ?_⟩
          simp [Exchange.rest, next, free]
          omega
      | false =>
          have decided : exchange.world.scheduler.submitSized item =
              .ok (exchange.world.scheduler.admitItem item) := by
            simp [submitSized, sizes, accepting, started, room]
          simp only [KeyedWorld.step, decided, KeyedWorld.admitted, admitItem,
            Option.some.injEq] at moved
          subst moved
          simp only [decided]
          refine ⟨⟨_, _, _, _, coupled.admits free accepting found
            (congrArg (· ++ [_]) known) left.2⟩, ?_⟩
          simp [Exchange.rest, next]
          omega

theorem Coupled.resumes (coupled : Coupled load exchange called returned settled waiting)
    (started : exchange.world.scheduler.started = true) {item : SizedEvent}
    {rest : List SizedEvent} (blocked : exchange.world.blocked = item :: rest)
    (stepped : exchange.produce = some after) :
    Futile exchange after ∨ Proceeds load exchange after := by
  have left := coupled.remaining
  have producing := coupled.producing
  have settled_le := coupled.phase.settled_le
  have known := coupled.completions
  rw [blocked] at producing
  obtain ⟨submitted, submitted_eq⟩ : ∃ submitted, submitted = exchange.completions.length :=
    ⟨_, rfl⟩
  rw [← submitted_eq] at left producing known
  obtain ⟨found, count, rfl, rfl⟩ : load.items[exchange.world.scheduler.internalToken]? = some item ∧
      submitted = exchange.world.scheduler.internalToken + 1 ∧ rest = [] ∧ waiting = true := by
    cases producing with
    | waiting _ found => exact ⟨found, rfl, rfl, rfl⟩
  subst count
  have bound := (List.getElem?_eq_some_iff.mp found).1
  have earlier : exchange.completions.dropLast =
      (List.range exchange.world.scheduler.internalToken).map
        (load.status settled exchange.world.scheduler.internalToken false) := by
    rw [known, dropLast_status]
  have first : exchange.world.blocked[0]? = some item := by rw [blocked]; rfl
  have emptied : exchange.world.blocked.eraseIdx 0 = [] := by rw [blocked]; rfl
  simp only [Exchange.produce, started, blocked, Bool.not_true, Bool.false_eq_true, if_false,
    Option.map_eq_some_iff] at stepped
  obtain ⟨world, moved, rfl⟩ := stepped
  simp only [KeyedWorld.step, first, Option.some.injEq] at moved
  subst moved
  cases accepting : exchange.world.scheduler.accepting with
  | false =>
      have decided : exchange.world.scheduler.resumeSubmission item =
          exchange.world.scheduler.discardSubmission := by
        simp [resumeSubmission, accepting]
      simp only [decided]
      refine .inr ⟨⟨_, _, _, _, coupled.refuses emptied accepting (Nat.le_refl _) bound
        (congrArg (· ++ [_]) earlier) left⟩, ?_⟩
      simp [Exchange.rest, blocked, KeyedWorld.admitted, discardSubmission]
  | true =>
      cases room : exchange.world.scheduler.isFull item.size with
      | true =>
          have decided : exchange.world.scheduler.resumeSubmission item =
              (exchange.world.scheduler, .blocked) := by
            simp [resumeSubmission, accepting, room]
          have queued : exchange.world.blocked.eraseIdx 0 ++ [item] = exchange.world.blocked := by
            rw [emptied, blocked]
            rfl
          have kept : exchange.completions.dropLast ++ [.waiting] = exchange.completions := by
            rw [earlier, map_status_waiting settled_le, ← known]
          simp only [decided, KeyedWorld.admitted, Submitted.ofAdmission, queued, kept]
          exact .inl ⟨rfl, accepting, item, by simp [blocked], room⟩
      | false =>
          have decided : exchange.world.scheduler.resumeSubmission item =
              exchange.world.scheduler.admitItem item := by
            simp [resumeSubmission, accepting, room]
          simp only [decided]
          refine .inr ⟨⟨_, _, _, _, coupled.admits emptied accepting found
            (congrArg (· ++ [_]) earlier) left⟩, ?_⟩
          simp [Exchange.rest, blocked, KeyedWorld.admitted, admitItem]
          omega

theorem Coupled.produces (coupled : Coupled load exchange called returned settled waiting)
    (config : exchange.world.scheduler.config = load.config)
    (stepped : exchange.produce = some after) :
    Futile exchange after ∨ Proceeds load exchange after := by
  cases started : exchange.world.scheduler.started with
  | false => simp [Exchange.produce, started] at stepped
  | true =>
      cases blocked : exchange.world.blocked with
      | cons item rest => exact coupled.resumes started blocked stepped
      | nil =>
          cases remaining : exchange.remaining with
          | nil => simp [Exchange.produce, started, blocked, remaining] at stepped
          | cons item rest => exact .inr (coupled.submits config started blocked remaining stepped)

theorem Launching.alive {world : KeyedWorld} {pc : ThreadPc} (launching : Launching world)
    (found : world.threads = [pc]) (moving : pc ≠ .created) :
    world.scheduler.started = true ∧
      (world.launching = .counting 1 0 ∨ world.launching = .idle) := by
  cases launching with
  | fresh _ _ _ empty => simp [empty] at found
  | counting _ _ created => simp [created, Ne.symm moving] at found
  | starting _ _ created => simp [created, Ne.symm moving] at found
  | running _ started counts _ _ => exact ⟨started, counts⟩

/-- A step of the worker keeps what only the producer and `start` change. -/
theorem Coupled.advance (coupled : Coupled load exchange called returned settled waiting)
    {pc next : ThreadPc} {scheduler : KeyedSerialHandlerScheduler} {events : List KeyedEvent}
    {answer : Option (Terminal Error)} {dispatcher : State}
    {completions : List (Submitted Error)} (begun ended finished : Nat)
    (alive : exchange.world.threads = [pc]) (moving : pc ≠ .created ∧ next ≠ .created)
    (started : scheduler.started = exchange.world.scheduler.started)
    (token : scheduler.internalToken = exchange.world.scheduler.internalToken)
    (closes : scheduler.accepting = true → exchange.world.scheduler.accepting = true)
    (phase : Phase load exchange.world.scheduler.internalToken [next] scheduler.accepting
      answer scheduler.pending begun ended finished)
    (statuses : completions = (List.range exchange.completions.length).map
      (load.status finished exchange.world.scheduler.internalToken waiting))
    (record : { exchange.world with history := events ++ exchange.world.history }.dispatched =
      (load.service begun).served)
    (state : dispatcher = (load.service ended).dispatcher)
    (less : 10 * scheduler.pending.length + next.distance <
      10 * exchange.world.scheduler.pending.length + pc.distance) :
    Proceeds load exchange { exchange with
      world := { exchange.world with
        scheduler, threads := [pc].set 0 next, history := events ++ exchange.world.history }
      dispatcher, answer, completions } := by
  obtain ⟨_, launching, producing, bound, remaining, _, _, _⟩ := coupled
  have length : completions.length = exchange.completions.length := by simp [statuses]
  obtain ⟨running, launched⟩ := launching.alive alive moving.1
  refine ⟨⟨begun, ended, finished, waiting, ?_⟩, ?_⟩
  swap
  · simp only [Exchange.rest, started, alive, List.set_cons_zero, List.map_cons, List.map_nil,
      List.sum_cons, List.sum_nil]
    omega
  constructor
  · rw [token]
    exact phase
  · exact .running next (started.trans running) launched rfl moving.2
  · rw [token, length]
    exact producing.closing closes
  · rw [length]
    exact bound
  · rw [length]
    exact remaining
  · rw [token, length]
    exact statuses
  · exact record
  · exact state

/-- A worker that waits for work takes the first pending one. -/
theorem takes_first {world : KeyedWorld} (sound : world.ActiveSound)
    (alive : world.threads = [.ready]) {head : ScheduledWork} {rest : List ScheduledWork}
    (pending : world.scheduler.pending = head :: rest) :
    world.scheduler.takeInternalWork 0 = some (world.scheduler.activate 0 0 head, head) := by
  have idle : ∀ index, world.activeAt index = none ∧ world.leavingAt index = none := by
    intro index
    cases index <;> simp [KeyedWorld.activeAt, KeyedWorld.leavingAt, alive, ThreadPc.active?,
      ThreadPc.leaving?]
  have inactive : world.scheduler.activeByThread = [] := by
    rw [List.eq_nil_iff_forall_not_mem]
    intro entry member
    rcases sound.held entry member with active | leaving
    · simp [idle] at active
    · simp [idle] at leaving
  have unbarred : world.scheduler.barrierActive = false := by
    rw [← Bool.not_eq_true, sound.barrier]
    rintro ⟨index, work, active, _⟩
    simp [idle] at active
  have contexts := sound.activeContexts_empty inactive
  have found : world.scheduler.scan 0 world.scheduler.pending = some (0, head) := by
    rw [pending]
    cases lane : head.context <;> simp [scan, lane, inactive, contexts]
  simp [takeInternalWork, unbarred, found]

/-- Discarding a work is no call of the dispatcher. -/
theorem dispatched_discards {world : KeyedWorld} (works : List ScheduledWork) :
    { world with history := (works.map KeyedEvent.discarded).reverse ++ world.history }.dispatched =
      world.dispatched := by
  simp [KeyedWorld.dispatched, List.filterMap_append]

theorem Coupled.reached (coupled : Coupled load exchange called returned settled waiting) :
    exchange.world.scheduler.internalToken ≤ load.items.length :=
  coupled.producing.accepted_le.trans coupled.bound

section Serves

variable {index count : Nat}

theorem Coupled.serves_ready (coupled : Coupled load exchange index index index waiting)
    (active : exchange.world.ActiveSound) (alive : exchange.world.threads = [.ready])
    (accepting_eq : exchange.world.scheduler.accepting = true)
    (pending_eq : exchange.world.scheduler.pending = load.works index count)
    (total : exchange.world.scheduler.internalToken = index + count)
    (serving : (load.service index).serving = true)
    (stepped : exchange.serve load.dispatch = some after) : Proceeds load exchange after := by
  cases count with
  | zero =>
      simp [Exchange.serve, alive, KeyedWorld.step, Exchange.move,
        KeyedSerialHandlerScheduler.advance, takeInternalWork, scan, pending_eq,
        accepting_eq] at stepped
  | succ count =>
      rw [works_succ] at pending_eq
      have taken := takes_first active alive pending_eq
      simp only [Exchange.serve, alive, List.getElem?_cons_zero, KeyedWorld.step, Exchange.move,
        KeyedSerialHandlerScheduler.advance, taken, Option.map_some, Option.some.injEq,
        Exchange.finished] at stepped
      subst stepped
      refine coupled.advance _ _ _ alive ⟨by simp, by simp⟩ rfl rfl id ?_ coupled.completions
        coupled.dispatched coupled.dispatcher ?_
      · have queue : (exchange.world.scheduler.activate 0 0 (load.work index)).pending =
            load.works (index + 1) count := by simp [activate, pending_eq]
        rw [queue]
        simp only [activate, accepting_eq]
        exact .taken _ count _ (by omega) serving
      · simp [activate, pending_eq, ThreadPc.distance]
        omega

theorem Coupled.serves_taken (coupled : Coupled load exchange index index index waiting)
    (alive : exchange.world.threads = [.taken (load.work index)])
    (accepting_eq : exchange.world.scheduler.accepting = true)
    (pending_eq : exchange.world.scheduler.pending = load.works (index + 1) count)
    (total : exchange.world.scheduler.internalToken = index + 1 + count)
    (serving : (load.service index).serving = true)
    (stepped : exchange.serve load.dispatch = some after) : Proceeds load exchange after := by
  have reached := coupled.reached
  simp only [Exchange.serve, alive, List.getElem?_cons_zero, KeyedWorld.step, Exchange.move,
    KeyedSerialHandlerScheduler.advance, Option.map_some, Option.some.injEq,
    Exchange.finished] at stepped
  subst stepped
  refine coupled.advance (index + 1) _ _ alive ⟨by simp, by simp⟩ rfl rfl id ?_
    coupled.completions ?_ coupled.dispatcher ?_
  · rw [accepting_eq, pending_eq]
    exact .dispatching _ count _ total serving
  · rw [service_succ (by omega), Service.serve_serving serving, ← coupled.dispatched]
    simp [KeyedWorld.dispatched]
  · simp [ThreadPc.distance]

theorem Coupled.serves_dispatching (coupled : Coupled load exchange (index + 1) index index waiting)
    (alive : exchange.world.threads = [.dispatching (load.work index)])
    (accepting_eq : exchange.world.scheduler.accepting = true)
    (pending_eq : exchange.world.scheduler.pending = load.works (index + 1) count)
    (total : exchange.world.scheduler.internalToken = index + 1 + count)
    (serving : (load.service index).serving = true)
    (stepped : exchange.serve load.dispatch = some after) : Proceeds load exchange after := by
  have reached := coupled.reached
  have next := @service_succ _ _ load index (by omega)
  rw [Service.serve_serving serving, ← coupled.dispatcher] at next
  have terminal := terminal_serving serving
  rw [← coupled.dispatcher] at terminal
  simp only [Exchange.serve, alive, List.getElem?_cons_zero, KeyedWorld.step,
    Exchange.move] at stepped
  cases answered : (load.dispatch exchange.dispatcher (load.work index).event).2 with
  | ok result =>
      simp only [answered, KeyedSerialHandlerScheduler.advance, Option.map_some,
        Option.some.injEq, Exchange.finished] at stepped
      subst stepped
      rw [answered] at next terminal
      refine coupled.advance _ (index + 1) _ alive ⟨by simp, by simp⟩ rfl rfl id ?_
        coupled.completions coupled.dispatched (congrArg (·.dispatcher) next).symm ?_
      · rw [accepting_eq, pending_eq, ← terminal]
        exact .finishing _ count _ _ total (congrArg (·.serving) next) (.inl ⟨rfl, _, rfl⟩)
      · simp [ThreadPc.distance]
  | error raised =>
      simp only [answered, KeyedSerialHandlerScheduler.advance, Option.map_some,
        Option.some.injEq, Exchange.finished] at stepped
      subst stepped
      rw [answered] at next terminal
      refine coupled.advance _ (index + 1) _ alive ⟨by simp, by simp⟩ rfl rfl id ?_
        coupled.completions coupled.dispatched (congrArg (·.dispatcher) next).symm ?_
      · rw [accepting_eq, pending_eq, ← terminal]
        exact .raised _ count total (congrArg (·.serving) next)
      · simp [ThreadPc.distance]

theorem Coupled.serves_raised
    (coupled : Coupled load exchange (index + 1) (index + 1) index waiting)
    (alive : exchange.world.threads = [.raised (load.work index) .error])
    (answer_eq : exchange.answer = some (load.terminal index))
    (pending_eq : exchange.world.scheduler.pending = load.works (index + 1) count)
    (total : exchange.world.scheduler.internalToken = index + 1 + count)
    (closed : (load.service (index + 1)).serving = false)
    (stepped : exchange.serve load.dispatch = some after) : Proceeds load exchange after := by
  simp only [Exchange.serve, alive, List.getElem?_cons_zero, KeyedWorld.step, Exchange.move,
    KeyedSerialHandlerScheduler.advance, Option.map_some, Option.some.injEq,
    Exchange.finished] at stepped
  subst stepped
  refine coupled.advance _ _ _ alive ⟨by simp, by simp⟩ rfl rfl
    (fun reopened => by cases reopened) ?_ coupled.completions coupled.dispatched
    coupled.dispatcher ?_
  · simp only [stopAccepting, pending_eq, answer_eq]
    exact .finishing _ count _ _ total closed (.inr ⟨rfl, rfl⟩)
  · simp [ThreadPc.distance, stopAccepting]

theorem Coupled.serves_finishing {accepting : Bool} {reply : DispatchReply}
    (coupled : Coupled load exchange (index + 1) (index + 1) index waiting)
    (alive : exchange.world.threads = [.finishing (load.work index) reply])
    (accepting_eq : exchange.world.scheduler.accepting = accepting)
    (answer_eq : exchange.answer = some (load.terminal index))
    (pending_eq : exchange.world.scheduler.pending = load.works (index + 1) count)
    (total : exchange.world.scheduler.internalToken = index + 1 + count)
    (serving : (load.service (index + 1)).serving = accepting) (reflects : Reflects accepting reply)
    (stepped : exchange.serve load.dispatch = some after) : Proceeds load exchange after := by
  simp only [Exchange.serve, alive, List.getElem?_cons_zero, KeyedWorld.step, Exchange.move,
    KeyedSerialHandlerScheduler.advance, Option.map_some, Option.some.injEq,
    Exchange.finished, answer_eq, work_token] at stepped
  subst stepped
  refine coupled.advance _ _ (index + 1) alive ⟨by simp, by simp⟩ rfl rfl id ?_ ?_
    coupled.dispatched coupled.dispatcher ?_
  · rw [accepting_eq, pending_eq]
    exact .observing _ count _ _ _ total serving reflects
  · exact (congrArg (List.map (Submitted.finish _ _)) coupled.completions).trans
      (map_status_finish _ _ (by omega) _)
  · simp [ThreadPc.distance]

theorem Coupled.serves_observing {accepting : Bool} {reply : DispatchReply}
    (coupled : Coupled load exchange (index + 1) (index + 1) (index + 1) waiting)
    (alive : exchange.world.threads = [.observing (load.work index) reply])
    (accepting_eq : exchange.world.scheduler.accepting = accepting)
    (pending_eq : exchange.world.scheduler.pending = load.works (index + 1) count)
    (total : exchange.world.scheduler.internalToken = index + 1 + count)
    (serving : (load.service (index + 1)).serving = accepting) (reflects : Reflects accepting reply)
    (stepped : exchange.serve load.dispatch = some after) : Proceeds load exchange after := by
  simp only [Exchange.serve, alive, List.getElem?_cons_zero, KeyedWorld.step, Exchange.move,
    KeyedSerialHandlerScheduler.advance, Option.map_some, Option.some.injEq,
    Exchange.finished] at stepped
  subst stepped
  rcases reflects with ⟨rfl, outcome, rfl⟩ | ⟨rfl, rfl⟩
  · refine coupled.advance _ _ _ alive ⟨by simp, by simp [afterRelease]⟩ rfl rfl id ?_
      coupled.completions coupled.dispatched coupled.dispatcher ?_
    · simp only [release, accepting_eq, pending_eq]
      exact .ready _ count _ total serving
    · simp [release, afterRelease, ThreadPc.distance]
  · refine coupled.advance _ _ _ alive ⟨by simp, by simp [afterRelease]⟩ rfl rfl id ?_
      coupled.completions coupled.dispatched coupled.dispatcher ?_
    · simp only [release, accepting_eq, pending_eq]
      exact .clearing _ count _ total serving
    · simp [release, afterRelease, ThreadPc.distance]

theorem Coupled.serves_clearing (coupled : Coupled load exchange index index index waiting)
    (alive : exchange.world.threads = [.discarding .afterError .entering])
    (accepting_eq : exchange.world.scheduler.accepting = false)
    (pending_eq : exchange.world.scheduler.pending = load.works index count)
    (total : exchange.world.scheduler.internalToken = index + count)
    (closed : (load.service index).serving = false)
    (stepped : exchange.serve load.dispatch = some after) : Proceeds load exchange after := by
  simp only [Exchange.serve, alive, List.getElem?_cons_zero, KeyedWorld.step, Exchange.move,
    KeyedSerialHandlerScheduler.advance, advanceDiscard, Option.map_some, Option.some.injEq,
    Exchange.finished] at stepped
  subst stepped
  refine coupled.advance index _ _ alive ⟨by simp, by simp⟩ rfl rfl id ?_ coupled.completions ?_
    coupled.dispatcher ?_
  · simp only [clearPending, accepting_eq, pending_eq]
    exact .discarding _ _ count _ total (Nat.le_refl _) closed
  · rw [← coupled.dispatched]
    exact dispatched_discards _
  · simp [clearPending, pending_eq, ThreadPc.distance]
    omega

theorem Coupled.serves_discarding (coupled : Coupled load exchange index index settled waiting)
    (alive : exchange.world.threads =
      [.discarding .afterError (.finishing (load.works settled count) false)])
    (accepting_eq : exchange.world.scheduler.accepting = false)
    (pending_eq : exchange.world.scheduler.pending = [])
    (total : exchange.world.scheduler.internalToken = settled + count) (order : index ≤ settled)
    (closed : (load.service index).serving = false)
    (stepped : exchange.serve load.dispatch = some after) : Proceeds load exchange after := by
  cases count with
  | zero =>
      simp only [works_zero, Exchange.serve, alive, List.getElem?_cons_zero, KeyedWorld.step,
        Exchange.move, KeyedSerialHandlerScheduler.advance, advanceDiscard, Option.map_some,
        Option.some.injEq, Exchange.finished] at stepped
      subst stepped
      refine coupled.advance _ _ _ alive ⟨by simp, by simp [afterDiscard]⟩ rfl rfl id ?_
        coupled.completions coupled.dispatched coupled.dispatcher ?_
      · obtain rfl : settled = exchange.world.scheduler.internalToken := by omega
        rw [accepting_eq, pending_eq]
        exact .leaving _ _ _ order closed (.inl rfl)
      · simp [afterDiscard, ThreadPc.distance]
  | succ count =>
      have settles := map_status_finish load waiting
        (show settled < exchange.world.scheduler.internalToken by omega)
        exchange.completions.length
      rw [terminal_closed closed order] at settles
      simp only [works_succ, Exchange.serve, alive, List.getElem?_cons_zero, KeyedWorld.step,
        Exchange.move, KeyedSerialHandlerScheduler.advance, advanceDiscard, Option.map_some,
        Option.some.injEq, Exchange.finished, work_token] at stepped
      subst stepped
      refine coupled.advance _ _ (settled + 1) alive ⟨by simp, by simp⟩ rfl rfl id ?_
        ((congrArg (List.map (Submitted.finish _ _)) coupled.completions).trans settles)
        coupled.dispatched coupled.dispatcher ?_
      · rw [accepting_eq, pending_eq]
        exact .discarded _ _ count _ (by omega) (by omega) closed
      · simp [ThreadPc.distance]
        omega

theorem Coupled.serves_discarded (coupled : Coupled load exchange index index settled waiting)
    (alive : exchange.world.threads =
      [.discarding .afterError (.observing (load.works settled count) false)])
    (accepting_eq : exchange.world.scheduler.accepting = false)
    (pending_eq : exchange.world.scheduler.pending = [])
    (total : exchange.world.scheduler.internalToken = settled + count) (order : index ≤ settled)
    (closed : (load.service index).serving = false)
    (stepped : exchange.serve load.dispatch = some after) : Proceeds load exchange after := by
  simp only [Exchange.serve, alive, List.getElem?_cons_zero, KeyedWorld.step, Exchange.move,
    KeyedSerialHandlerScheduler.advance, advanceDiscard, Option.map_some, Option.some.injEq,
    Exchange.finished] at stepped
  subst stepped
  refine coupled.advance _ _ _ alive ⟨by simp, by simp⟩ rfl rfl id ?_ coupled.completions
    coupled.dispatched coupled.dispatcher ?_
  · simp only [countDiscarded, accepting_eq, pending_eq]
    exact .discarding _ _ count _ total order closed
  · simp [countDiscarded, ThreadPc.distance]

/-- The worker ends once nothing is queued any more. -/
theorem Coupled.serves_leaving {pc : ThreadPc}
    (coupled : Coupled load exchange index index exchange.world.scheduler.internalToken waiting)
    (alive : exchange.world.threads = [pc])
    (accepting_eq : exchange.world.scheduler.accepting = false)
    (pending_eq : exchange.world.scheduler.pending = [])
    (order : index ≤ exchange.world.scheduler.internalToken)
    (closed : (load.service index).serving = false)
    (position : pc = .ready ∨ pc = .exiting ∨ pc = .exited)
    (stepped : exchange.serve load.dispatch = some after) : Proceeds load exchange after := by
  rcases position with rfl | rfl | rfl
  · have idle : exchange.world.scheduler.takeInternalWork 0 = none := by
      simp [takeInternalWork, scan, pending_eq]
    simp only [Exchange.serve, alive, List.getElem?_cons_zero, KeyedWorld.step, Exchange.move,
      KeyedSerialHandlerScheduler.advance, idle, accepting_eq, pending_eq, Bool.not_false,
      List.isEmpty_nil, Bool.and_self, if_true, Option.map_some, Option.some.injEq,
      Exchange.finished] at stepped
    subst stepped
    refine coupled.advance _ _ _ alive ⟨by simp, by simp⟩ rfl rfl id ?_ coupled.completions
      coupled.dispatched coupled.dispatcher ?_
    · rw [accepting_eq, pending_eq]
      exact .leaving _ _ _ order closed (.inr (.inl rfl))
    · simp [ThreadPc.distance]
  · simp only [Exchange.serve, alive, List.getElem?_cons_zero, KeyedWorld.step, Exchange.move,
      KeyedSerialHandlerScheduler.advance, Option.map_some, Option.some.injEq,
      Exchange.finished] at stepped
    subst stepped
    refine coupled.advance _ _ _ alive ⟨by simp, by simp⟩ rfl rfl id ?_ coupled.completions
      coupled.dispatched coupled.dispatcher ?_
    · simp only [exitWorker, accepting_eq, pending_eq]
      exact .leaving _ _ _ order closed (.inr (.inr rfl))
    · simp [exitWorker, ThreadPc.distance]
  · simp [Exchange.serve, alive, KeyedWorld.step,
      KeyedSerialHandlerScheduler.advance] at stepped

end Serves

theorem Coupled.serves (coupled : Coupled load exchange called returned settled waiting)
    (active : exchange.world.ActiveSound)
    (stepped : exchange.serve load.dispatch = some after) : Proceeds load exchange after := by
  have phase := coupled.phase
  generalize alive : exchange.world.threads = threads at phase
  generalize accepting_eq : exchange.world.scheduler.accepting = accepting at phase
  generalize answer_eq : exchange.answer = answer at phase
  generalize pending_eq : exchange.world.scheduler.pending = pending at phase
  cases phase with
  | unlaunched _ _ early =>
      rcases early with rfl | rfl
      · simp [Exchange.serve, alive] at stepped
      · simp [Exchange.serve, alive, KeyedWorld.step,
          KeyedSerialHandlerScheduler.advance] at stepped
  | ready _ count _ total serving =>
      exact coupled.serves_ready active alive accepting_eq pending_eq total serving stepped
  | taken _ count _ total serving =>
      exact coupled.serves_taken alive accepting_eq pending_eq total serving stepped
  | dispatching _ count _ total serving =>
      exact coupled.serves_dispatching alive accepting_eq pending_eq total serving stepped
  | raised _ count total closed =>
      exact coupled.serves_raised alive answer_eq pending_eq total closed stepped
  | finishing _ count _ reply total serving reflects =>
      exact coupled.serves_finishing alive accepting_eq answer_eq pending_eq total serving reflects
        stepped
  | observing index count _ reply _ total serving reflects =>
      exact coupled.serves_observing alive accepting_eq pending_eq total serving reflects stepped
  | clearing _ count _ total closed =>
      exact coupled.serves_clearing alive accepting_eq pending_eq total closed stepped
  | discarding _ _ count _ total order closed =>
      exact coupled.serves_discarding alive accepting_eq pending_eq total order closed stepped
  | discarded _ _ count _ total order closed =>
      exact coupled.serves_discarded alive accepting_eq pending_eq total order closed stepped
  | leaving _ pc _ order closed position =>
      exact coupled.serves_leaving alive accepting_eq pending_eq order closed position stepped

theorem proceeds {party : Party}
    (coupled : Coupled load exchange called returned settled waiting)
    (reachable : load.system.Reachable exchange)
    (stepped : load.system.step exchange party = some after) :
    Futile exchange after ∨ Proceeds load exchange after := by
  have config := KeyedWorld.config_eq (reachable_world reachable)
  cases party with
  | starter => exact .inr (coupled.starts config stepped)
  | producer => exact coupled.produces config stepped
  | worker => exact .inr (coupled.serves (KeyedWorld.activeSound (reachable_world reachable)) stepped)

theorem coupled (reachable : load.system.Reachable exchange) :
    ∃ called returned settled waiting, Coupled load exchange called returned settled waiting := by
  refine reachable.invariant_given (motive := fun exchange =>
    ∃ called returned settled waiting, Coupled load exchange called returned settled waiting)
    load.system.Reachable (fun _ reached => reached) ?_ ?_
  · rintro _ rfl
    refine ⟨0, 0, 0, false, .unlaunched _ _ (.inl rfl), .fresh rfl rfl rfl rfl,
      .free _ (Nat.le_refl _) fun _ => rfl, Nat.zero_le _, rfl, rfl, rfl, rfl⟩
  · rintro before party after reached ⟨called, returned, settled, waiting, holds⟩ stepped
    rcases proceeds holds reached stepped with ⟨rfl, _⟩ | ⟨next, _⟩
    · exact ⟨called, returned, settled, waiting, holds⟩
    · exact next

/-- The parties cannot change an exchange for ever. -/
theorem changes_wellFounded (load : Workload State Error) :
    WellFounded fun after before => load.system.Reachable before ∧ load.Changes before after := by
  refine Subrelation.wf (r := InvImage (· < ·) Exchange.rest) ?_ (InvImage.wf _ Nat.lt_wfRel.wf)
  rintro after before ⟨reachable, different, party, stepped⟩
  obtain ⟨_, _, _, _, holds⟩ := coupled reachable
  rcases proceeds holds reachable stepped with ⟨same, _⟩ | ⟨_, less⟩
  · exact absurd same different
  · exact less

theorem Quiescent.still (quiescent : load.Quiescent exchange) {party : Party}
    (stepped : load.system.step exchange party = some after) : after = exchange := by
  by_contra different
  exact quiescent after ⟨different, party, stepped⟩

theorem Quiescent.stuck (quiescent : load.Quiescent exchange) (party : Party)
    (stepped : load.system.step exchange party = some after)
    (proceeds : Proceeds load exchange after) : False := by
  have less := proceeds.2
  rw [quiescent.still stepped] at less
  exact Nat.lt_irrefl _ less

/-- `start` was called and ended. -/
theorem Coupled.launched (coupled : Coupled load exchange called returned settled waiting)
    (config : exchange.world.scheduler.config = load.config)
    (quiescent : load.Quiescent exchange) :
    exchange.world.scheduler.started = true ∧ exchange.world.threads ≠ [] ∧
      exchange.world.threads ≠ [.created] := by
  have stuck (enabled : exchange.start.isSome) : False := by
    obtain ⟨after, stepped⟩ := Option.isSome_iff_exists.mp enabled
    exact quiescent.stuck .starter stepped (coupled.starts config stepped)
  have phase := coupled.phase
  cases coupled.launching with
  | fresh unstarted unstopped idle empty =>
      have accepting := (phase.early (.inl empty)).1
      exact (stuck (by simp [Exchange.start, Exchange.startLabel?, unstarted, KeyedWorld.step,
        KeyedWorld.start, accepting, unstopped])).elim
  | counting started counts created =>
      exact (stuck (by simp [Exchange.start, Exchange.startLabel?, started, counts,
        KeyedWorld.step, KeyedWorld.launchStep])).elim
  | starting started starts created =>
      exact (stuck (by simp [Exchange.start, Exchange.startLabel?, started, starts,
        KeyedWorld.step, KeyedWorld.launchStep])).elim
  | running pc started _ alive moving =>
      exact ⟨started, by simp [alive], by simpa [alive] using moving⟩

/-- The worker has nothing to do: it waits for work or it has returned. -/
theorem Coupled.idles (coupled : Coupled load exchange called returned settled waiting)
    (config : exchange.world.scheduler.config = load.config)
    (active : exchange.world.ActiveSound) (quiescent : load.Quiescent exchange) :
    called = returned ∧ called ≤ exchange.world.scheduler.internalToken ∧
      settled = exchange.world.scheduler.internalToken ∧ exchange.world.scheduler.pending = [] ∧
      (exchange.world.scheduler.accepting = true →
        called = exchange.world.scheduler.internalToken) ∧
      (exchange.world.scheduler.accepting = false → (load.service called).serving = false) := by
  obtain ⟨_, launched, begun⟩ := coupled.launched config quiescent
  have stuck (enabled : (exchange.serve load.dispatch).isSome) : False := by
    obtain ⟨after, stepped⟩ := Option.isSome_iff_exists.mp enabled
    exact quiescent.stuck .worker stepped (coupled.serves active stepped)
  have phase := coupled.phase
  generalize alive : exchange.world.threads = threads at phase launched begun
  generalize accepting_eq : exchange.world.scheduler.accepting = accepting at phase
  generalize answer_eq : exchange.answer = answer at phase
  generalize pending_eq : exchange.world.scheduler.pending = pending at phase
  cases phase with
  | unlaunched _ _ early => rcases early with rfl | rfl <;> contradiction
  | ready _ count _ total serving =>
      cases count with
      | zero => exact ⟨rfl, by omega, total.symm, rfl, fun _ => total.symm, by simp⟩
      | succ count =>
          rw [works_succ] at pending_eq
          have taken := takes_first active alive pending_eq
          exact (stuck (by simp [Exchange.serve, alive, KeyedWorld.step, Exchange.move,
            KeyedSerialHandlerScheduler.advance, taken])).elim
  | leaving _ pc _ order closed position =>
      rcases position with rfl | rfl | rfl
      · exact (stuck (by simp [Exchange.serve, alive, KeyedWorld.step, Exchange.move,
          KeyedSerialHandlerScheduler.advance, takeInternalWork, scan, accepting_eq,
          pending_eq])).elim
      · exact (stuck (by simp [Exchange.serve, alive, KeyedWorld.step, Exchange.move,
          KeyedSerialHandlerScheduler.advance])).elim
      · exact ⟨rfl, order, rfl, rfl, by simp, fun _ => closed⟩
  | dispatching index count _ total serving =>
      refine (stuck ?_).elim
      cases answered : (load.dispatch exchange.dispatcher (load.work returned).event).2 <;>
        simp [Exchange.serve, alive, KeyedWorld.step, Exchange.move, answered,
          KeyedSerialHandlerScheduler.advance]
  | discarding _ _ count _ total order closed =>
      refine (stuck ?_).elim
      cases count <;>
        simp [Exchange.serve, alive, KeyedWorld.step, Exchange.move, works_succ,
          KeyedSerialHandlerScheduler.advance, advanceDiscard]
  | taken | raised | finishing | observing | clearing | discarded =>
      exact (stuck (by simp [Exchange.serve, alive, KeyedWorld.step, Exchange.move,
        KeyedSerialHandlerScheduler.advance, advanceDiscard])).elim

/-- The producer has submitted all its events and waits in no call. -/
theorem Coupled.submitted (coupled : Coupled load exchange called returned settled waiting)
    (config : exchange.world.scheduler.config = load.config)
    (sound : KeyedWorld.LoadSound exchange.world.scheduler) (quiescent : load.Quiescent exchange)
    (empty : exchange.world.scheduler.pending = []) :
    exchange.completions.length = load.items.length ∧ waiting = false ∧
      (exchange.world.scheduler.accepting = true →
        exchange.world.scheduler.internalToken = load.items.length) := by
  obtain ⟨started, _, _⟩ := coupled.launched config quiescent
  have futile (enabled : exchange.produce.isSome) :
      ∃ item ∈ exchange.world.blocked, exchange.world.scheduler.isFull item.size = true := by
    obtain ⟨after, stepped⟩ := Option.isSome_iff_exists.mp enabled
    rcases coupled.produces config stepped with ⟨_, _, full⟩ | proceeds
    · exact full
    · exact (quiescent.stuck .producer stepped proceeds).elim
  have bound := coupled.bound
  have remaining := coupled.remaining
  have producing := coupled.producing
  generalize count : exchange.completions.length = submitted at producing bound remaining
  generalize blocked_eq : exchange.world.blocked = blocked at producing futile
  cases producing with
  | waiting item found =>
      obtain ⟨other, member, full⟩ := futile (by
        simp [Exchange.produce, started, blocked_eq, KeyedWorld.step])
      rw [List.mem_singleton] at member
      subst member
      have fits := (load.sized other (List.mem_of_getElem? found)).2
      have depth := load.config.pendingLimit_pos
      simp only [isFull, sound.bytes, empty, config, List.length_nil, List.map_nil, List.sum_nil,
        Bool.or_eq_true, decide_eq_true_eq] at full
      omega
  | free _ order caught =>
      have finished : exchange.remaining = [] := by
        cases left : exchange.remaining with
        | nil => rfl
        | cons item rest =>
            have enabled : exchange.produce.isSome := by
              cases decided : exchange.world.scheduler.submitSized item <;>
                simp [Exchange.produce, started, blocked_eq, left, KeyedWorld.step, decided]
            obtain ⟨_, member, _⟩ := futile enabled
            simp at member
      rw [finished, eq_comm, List.drop_eq_nil_iff] at remaining
      have all : submitted = load.items.length := Nat.le_antisymm bound remaining
      exact ⟨all, rfl, fun accepting => (caught accepting).symm.trans all⟩

theorem answers_eq (load : Workload State Error) :
    Service.answers load.dispatch { dispatcher := load.dispatcher } load.events =
      (List.range load.items.length).map load.terminal := by
  refine List.ext_getElem? fun index => ?_
  rw [Service.getElem?_answers, List.getElem?_map]
  by_cases bound : index < load.items.length
  · rw [work_event bound, List.getElem?_range bound]
    rfl
  · rw [List.getElem?_eq_none (by simpa using bound), List.getElem?_eq_none (by simpa using bound)]
    rfl

/-- A completion that is done ended as the service says. -/
theorem Coupled.done_eq (coupled : Coupled load exchange called returned settled waiting)
    {index : Nat} {terminal : Terminal Error}
    (done : exchange.completions[index]? = some (.done terminal)) :
    index < load.items.length ∧ terminal = load.terminal index := by
  have bound : index < exchange.completions.length :=
    (List.getElem?_eq_some_iff.mp done).1
  have known := coupled.completions
  have producing := coupled.producing
  have phase := coupled.phase
  refine ⟨bound.trans_le coupled.bound, ?_⟩
  rw [known, List.getElem?_map, List.getElem?_range bound, Option.map_some, Option.some.injEq,
    status] at done
  split at done
  · exact (Submitted.done.inj done).symm
  split at done
  · contradiction
  next late =>
  split at done
  · contradiction
  next resting =>
    cases accepting : exchange.world.scheduler.accepting with
    | true =>
        generalize exchange.world.blocked = blocked at producing
        generalize exchange.completions.length = submitted at producing bound
        cases producing with
        | waiting => contradiction
        | free _ order caught => exact absurd bound (by rw [caught accepting]; exact late)
    | false =>
        rw [accepting] at phase
        obtain ⟨stop, earlier, closed⟩ := phase.closed
        rw [terminal_closed closed (earlier.trans (Nat.not_lt.mp late))]
        exact (Submitted.done.inj done).symm

theorem service_prefix {index : Nat} :
    (load.service index).served <+:
      (Service.after load.dispatch { dispatcher := load.dispatcher } load.events).served := by
  have whole : Service.after load.dispatch { dispatcher := load.dispatcher } load.events =
      (load.service index).after load.dispatch (load.events.drop index) := by
    rw [service, ← Service.after_append, List.take_append_drop]
  rw [whole]
  exact Service.served_prefix _

/-- When nothing can change any more, everything was served. -/
theorem Coupled.complete (coupled : Coupled load exchange called returned settled waiting)
    (reachable : load.system.Reachable exchange) (quiescent : load.Quiescent exchange) :
    exchange.world.dispatched =
        (Service.after load.dispatch { dispatcher := load.dispatcher } load.events).served ∧
      exchange.dispatcher =
        (Service.after load.dispatch { dispatcher := load.dispatcher } load.events).dispatcher ∧
      exchange.completions = (List.range load.items.length).map fun index =>
        .done (load.terminal index) := by
  have world := reachable_world reachable
  have config := KeyedWorld.config_eq world
  obtain ⟨rfl, early, rfl, empty, serving, closed⟩ :=
    coupled.idles config (KeyedWorld.activeSound world) quiescent
  obtain ⟨all, rfl, caught⟩ :=
    coupled.submitted config (KeyedWorld.conserved world).load quiescent empty
  have whole : Service.after load.dispatch { dispatcher := load.dispatcher } load.events =
      load.service load.items.length := by
    rw [service, List.take_of_length_le (by simp)]
  have reached : load.service load.items.length = load.service called := by
    cases accepting : exchange.world.scheduler.accepting with
    | true => rw [serving accepting, caught accepting]
    | false =>
        have inside := coupled.producing.accepted_le.trans coupled.bound
        exact service_closed (closed accepting) (early.trans inside)
  rw [whole, reached]
  refine ⟨coupled.dispatched, coupled.dispatcher, ?_⟩
  rw [coupled.completions, all]
  refine List.map_congr_left fun index member => ?_
  rw [status]
  split
  · rfl
  next late =>
    cases accepting : exchange.world.scheduler.accepting with
    | true =>
        rw [caught accepting] at late
        exact absurd (List.mem_range.mp member) late
    | false =>
        rw [terminal_closed (closed accepting) (early.trans (Nat.not_lt.mp late))]
        simp

/-- With one worker the keyed scheduler dispatches what the sequential scheduler
dispatches, in the same order, and ends each completion as it does, in every
interleaving; it always gets there. -/
theorem single_worker_equals_sequential (load : Workload State Error) :
    ∃ reference, SequentialRun.ofEvents load.dispatch load.dispatcher load.events = .ok reference ∧
      reference.completions.length = load.items.length ∧
      (∀ exchange, load.system.Reachable exchange →
        exchange.world.dispatched <+: reference.dispatched ∧
        (∀ (index : Nat) (terminal : Terminal Error),
          exchange.completions[index]? = some (.done terminal) →
          reference.completions[index]? = some terminal) ∧
        (load.Quiescent exchange →
          exchange.world.dispatched = reference.dispatched ∧
          exchange.dispatcher = reference.dispatcher ∧
          exchange.completions = reference.completions.map Submitted.done)) ∧
      (WellFounded fun after before =>
        load.system.Reachable before ∧ load.Changes before after) ∧
      ∀ (failing later : Nat) (error : CompletionError Error),
        reference.completions[failing]? = some (.error error) →
        failing < later → later < load.items.length →
        reference.completions[later]? = some .discarded := by
  obtain ⟨reference, run, dispatcher, dispatched, ended⟩ :=
    SequentialRun.ofEvents_serves load.dispatch load.dispatcher load.events
  have terminals := ended.trans (answers_eq load)
  refine ⟨reference, run, by simp [terminals], ?_, changes_wellFounded load, ?_⟩
  · intro exchange reachable
    obtain ⟨called, returned, settled, waiting, holds⟩ := coupled reachable
    refine ⟨?_, ?_, ?_⟩
    · rw [holds.dispatched, dispatched]
      exact service_prefix
    · intro index terminal done
      obtain ⟨bound, rfl⟩ := holds.done_eq done
      rw [terminals, List.getElem?_map, List.getElem?_range bound]
      rfl
    · intro quiescent
      obtain ⟨all, state, done⟩ := holds.complete reachable quiescent
      refine ⟨all.trans dispatched.symm, state.trans dispatcher.symm, ?_⟩
      rw [done, terminals, List.map_map]
      rfl
  · intro failing later error failed order bound
    rw [ended] at failed ⊢
    exact Service.answers_after_error failed order (by simpa using bound)

end Workload

def failingWorkload : Workload Nat Nat where
  config := { sampleConfig with workerCount := 1, workerCount_pos := Nat.one_pos }
  single := rfl
  dispatch calls _ := (calls + 1,
    if calls = 1 then .error (.exception 7) else .ok { outcome := .handled })
  dispatcher := 0
  items := [sampleItem ⟨[1]⟩, sampleItem ⟨[2]⟩, sampleItem ⟨[3]⟩]
  sized := by decide

/-- The third event is submitted between the failing call and the end of admission. -/
def failingParties : List Party :=
  List.replicate 4 Party.starter ++ List.replicate 2 Party.producer ++
    List.replicate 8 Party.worker ++ [Party.producer] ++ List.replicate 9 Party.worker

example : ((failingWorkload.system.exec
    { world := { scheduler := { config := failingWorkload.config } }
      dispatcher := 0, remaining := failingWorkload.items } failingParties).map
        fun exchange => exchange.completions) =
    some [.done (.ok { outcome := .handled }), .done (.error (.raised 7)), .done .discarded] := by
  decide

end StreamDockSdk.Runtime
