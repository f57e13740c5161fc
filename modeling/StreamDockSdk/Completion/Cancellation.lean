import StreamDockSdk.Completion.Outcome
import Mathlib.Logic.Relation

namespace StreamDockSdk

open Automaton

/-- The thread whose call of `cancel` the event belongs to. -/
def CompletionEvent.canceller : CompletionEvent → Option Nat
  | .cancelled thread _ | .returned thread _ _ => some thread
  | _ => none

/-- The call is one of `cancel` or the return of one. -/
def CompletionOp.cancels : CompletionOp → Bool
  | .cancel _ _ | .returns _ _ _ => true
  | _ => false

namespace CompletionWorld

variable {world after : CompletionWorld} {completion : CommandFuture} {op : CompletionOp}
variable {next : CompletionAdvance} {thread control tracker command : Nat} {result : Bool}

/-- The first control delegates its `cancel` to the other one, through any number of controls. -/
def Reaches (trackers : List (Nat × Nat)) : Nat → Nat → Prop :=
  Relation.ReflTransGen fun tracker command => (tracker, command) ∈ trackers

/-- Each control of the path delegates `cancel` to the one before it. -/
def Chain (trackers : List (Nat × Nat)) : Nat → List Nat → Prop
  | _, [] => True
  | command, tracker :: path => (tracker, command) ∈ trackers ∧ Chain trackers tracker path

theorem Chain.mono {trackers larger : List (Nat × Nat)} {path : List Nat}
    (chain : Chain trackers control path) (included : ∀ link ∈ trackers, link ∈ larger) :
    Chain larger control path := by
  induction path generalizing control with
  | nil => trivial
  | cons tracker path ih => exact ⟨included _ chain.1, ih chain.2⟩

structure Wired (world : CompletionWorld) : Prop where
  order : ∀ link ∈ world.trackers, link.2 < link.1 ∧ link.1 < world.futures.length
  unique : ∀ tracker first second, (tracker, first) ∈ world.trackers →
    (tracker, second) ∈ world.trackers → first = second
  waiting : ∀ tracker command, (tracker, command) ∈ world.trackers →
    (world.future tracker).terminal = none → (world.future tracker).delegate = some command
  delegates : ∀ control command, (world.future control).delegate = some command →
    (control, command) ∈ world.trackers
  handles : ∀ control ∈ world.handles, control < world.futures.length

theorem run_trackers {index : Nat} (stepped : world.run index = some after) :
    after.trackers = world.trackers ∧ after.handles = world.handles ∧
      after.futures.length = world.futures.length := by
  obtain ⟨call, rest, completion, next, found, at_subject, moves, rfl⟩ := run_cases stepped
  refine ⟨rfl, rfl, ?_⟩
  rcases moves.futures with same | ⟨changed, updated, _⟩
  · exact congrArg List.length same
  · simp only [updated, List.length_set]

theorem Wired.run {index : Nat} (wired : world.Wired) (stepped : world.run index = some after) :
    after.Wired := by
  have kept := run_kept stepped
  obtain ⟨trackers, handles, length⟩ := run_trackers stepped
  constructor
  · rw [trackers, length]
    exact wired.order
  · rw [trackers]
    exact wired.unique
  · intro tracker command link free
    rw [trackers] at link
    rw [(kept tracker).waiting free]
    cases before : (world.future tracker).terminal with
    | none => exact wired.waiting tracker command link before
    | some outcome =>
        rw [(kept tracker).terminal outcome before] at free
        contradiction
  · intro control command delegate
    rw [trackers]
    exact wired.delegates control command ((kept control).delegate command delegate)
  · rw [handles, length]
    exact wired.handles

theorem future_grown {futures : List CommandFuture} {fresh : CommandFuture}
    (inside : control < futures.length) :
    (futures ++ [fresh])[control]?.getD {} = futures[control]?.getD {} := by
  rw [List.getElem?_append_left inside]

theorem future_new {futures : List CommandFuture} (fresh : CommandFuture)
    (outside : ¬ control < futures.length) :
    control = futures.length ∧ (futures ++ [fresh])[control]?.getD {} = fresh ∨
      (futures ++ [fresh])[control]?.getD {} = {} := by
  by_cases same : control = futures.length
  · subst same
    exact .inl ⟨rfl, by simp⟩
  · exact .inr (by rw [List.getElem?_eq_none (by simp; omega)]; rfl)

/-- What calls from outside and new futures leave of the older ones. -/
structure Grows (before after : CompletionWorld) : Prop where
  futures : ∀ control, control < before.futures.length →
    after.future control = before.future control
  length : before.futures.length ≤ after.futures.length
  callbacks : after.callbacks = before.callbacks
  threads : ∀ op, Running before.threads op → Running after.threads op
  trackers : ∀ link, link ∈ before.trackers → link ∈ after.trackers
  older : ∀ link ∈ after.trackers, link.1 < before.futures.length → link ∈ before.trackers

theorem grows_calls {clock : Nat} {handles : List Nat} {threads : List (List CompletionOp)}
    {history : List CompletionEvent}
    (older : ∀ op, Running world.threads op → Running threads op) :
    Grows world { world with clock, handles, threads, history } where
  futures _ _ := rfl
  length := Nat.le_refl _
  callbacks := rfl
  threads := older
  trackers _ member := member
  older _ member _ := member

theorem grows_created (deadline : Option Nat) : Grows world { world with
    futures := world.futures ++ [{ deadline }]
    handles := world.handles ++ [world.futures.length] } where
  futures _ inside := future_grown inside
  length := by simp
  callbacks := rfl
  threads _ running := running
  trackers _ member := member
  older _ member _ := member

theorem grows_tracked (command : Nat) : Grows world { world with
    futures := world.futures ++ [{ delegate := some command }]
    handles := world.handles ++ [world.futures.length]
    trackers := world.trackers ++ [(world.futures.length, command)]
    threads := world.threads ++ [[.addDoneCallback command world.futures.length]] } where
  futures _ inside := future_grown inside
  length := by simp
  callbacks := rfl
  threads _ running := (running_append _ _).mpr (.inl running)
  trackers _ member := List.mem_append_left _ member
  older link member below := by
    rcases List.mem_append.mp member with old | new
    · exact old
    · rw [List.mem_singleton.mp new] at below
      exact absurd below (Nat.lt_irrefl _)

theorem Wired.within {handle : Nat} (wired : world.Wired)
    (at_handle : world.handles[handle]? = some control) : control < world.futures.length :=
  wired.handles control (List.mem_of_getElem? at_handle)

theorem Wired.same_futures {clock : Nat} {handles : List Nat} {threads : List (List CompletionOp)}
    {history : List CompletionEvent} (wired : world.Wired)
    (bounded : ∀ control ∈ handles, control < world.futures.length) :
    Wired { world with clock, handles, threads, history } :=
  ⟨wired.order, wired.unique, wired.waiting, wired.delegates, bounded⟩

/-- A future is made; a link is that of the future. -/
theorem Wired.grown {links : List (Nat × Nat)} {threads : List (List CompletionOp)}
    (wired : world.Wired) (fresh : CommandFuture)
    (link : fresh.delegate.toList.map (fun command => (world.futures.length, command)) = links)
    (bounded : ∀ command, fresh.delegate = some command → command < world.futures.length) :
    Wired { world with
      futures := world.futures ++ [fresh]
      handles := world.handles ++ [world.futures.length]
      trackers := world.trackers ++ links
      threads := threads } := by
  have made {tracker command : Nat} (member : (tracker, command) ∈ links) :
      tracker = world.futures.length ∧ fresh.delegate = some command := by
    rw [← link] at member
    obtain ⟨delegate, held, same⟩ := List.mem_map.mp member
    cases same
    exact ⟨rfl, Option.mem_toList.mp held⟩
  have newest : (world.futures ++ [fresh])[world.futures.length]?.getD {} = fresh := by simp
  constructor
  · intro ⟨tracker, command⟩ member
    simp only [List.length_append, List.length_singleton]
    rcases List.mem_append.mp member with old | new
    · exact ⟨(wired.order _ old).1, Nat.lt_succ_of_lt (wired.order _ old).2⟩
    · obtain ⟨rfl, delegate⟩ := made new
      exact ⟨bounded command delegate, Nat.lt_succ_self _⟩
  · intro tracker first second one two
    rcases List.mem_append.mp one with old | new
    · rcases List.mem_append.mp two with old' | new'
      · exact wired.unique tracker first second old old'
      · exact absurd (wired.order _ old).2 (by rw [(made new').1]; exact Nat.lt_irrefl _)
    · obtain ⟨rfl, delegate⟩ := made new
      rcases List.mem_append.mp two with old' | new'
      · exact absurd (wired.order _ old').2 (Nat.lt_irrefl _)
      · exact Option.some.inj (delegate.symm.trans (made new').2)
  · intro tracker command member free
    rcases List.mem_append.mp member with old | new
    · have inside := (wired.order _ old).2
      simp only [future, future_grown inside] at free ⊢
      exact wired.waiting tracker command old free
    · obtain ⟨rfl, delegate⟩ := made new
      simp only [future, newest]
      exact delegate
  · intro control command delegate
    by_cases inside : control < world.futures.length
    · simp only [future, future_grown inside] at delegate
      exact List.mem_append_left _ (wired.delegates control command delegate)
    · rcases future_new fresh inside with ⟨rfl, new⟩ | blank
      · simp only [future, new] at delegate
        refine List.mem_append_right _ ?_
        rw [← link, delegate]
        exact List.mem_singleton_self _
      · simp only [future, blank] at delegate
        contradiction
  · intro control member
    simp only [List.length_append, List.length_singleton]
    rcases List.mem_append.mp member with old | new
    · exact Nat.lt_succ_of_lt (wired.handles control old)
    · rw [List.mem_singleton.mp new]
      exact Nat.lt_succ_self _

theorem Steps.wired {label : CompletionLabel} (steps : Steps world label after)
    (wired : world.Wired) : after.Wired := by
  cases steps with
  | ran index after stepped => exact wired.run stepped
  | ticked | called | observed => exact wired.same_futures wired.handles
  | created deadline => simpa using wired.grown { deadline } rfl (by simp)
  | shared handle control at_handle =>
      refine wired.same_futures fun other member => ?_
      rcases List.mem_append.mp member with old | new
      · exact wired.handles other old
      · rw [List.mem_singleton.mp new]
        exact wired.within at_handle
  | tracked handle command at_handle =>
      refine wired.grown { delegate := some command } rfl fun other same => ?_
      cases same
      exact wired.within at_handle

theorem reachable_wired (reachable : completionSystem.Reachable world) : world.Wired := by
  refine reachable.invariant ?_ ?_
  · rintro first rfl
    exact ⟨nofun, nofun, nofun, by simp [future], nofun⟩
  · exact fun before label after wired stepped => (step_cases stepped).wired wired

/-- The calls of `cancel` on the thread end at the root, and the result says whether they
took it. -/
def Verdict (world : CompletionWorld) (thread control : Nat) (result : Bool) : Prop :=
  ∃ root, Reaches world.trackers control root ∧
    (result = true ↔ .cancelled thread root ∈ world.history) ∧
    ∀ other, .cancelled thread other ∈ world.history → other = root

/-- Where a call of the thread stands. -/
def Tells (world : CompletionWorld) (thread : Nat) : CompletionOp → Prop
  | .cancel control path => Chain world.trackers control path ∧
      ∀ event ∈ world.history, event.canceller ≠ some thread
  | .returns control path result => Chain world.trackers control path ∧
      world.Verdict thread control result
  | _ => True

structure CancelStands (world : CompletionWorld) (thread : Nat) : Prop where
  single : ∀ stack, world.threads[thread]? = some stack →
    stack.countP CompletionOp.cancels ≤ 1
  tells : ∀ stack, world.threads[thread]? = some stack → ∀ op ∈ stack, world.Tells thread op
  returned : ∀ control result, .returned thread control result ∈ world.history →
    world.Verdict thread control result
  fresh : world.threads.length ≤ thread →
    ∀ event ∈ world.history, event.canceller ≠ some thread

theorem Verdict.kept (verdict : world.Verdict thread control result)
    (trackers : ∀ link ∈ world.trackers, link ∈ after.trackers)
    (history : ∀ root, .cancelled thread root ∈ after.history ↔
      .cancelled thread root ∈ world.history) : after.Verdict thread control result := by
  obtain ⟨root, reaches, took, only⟩ := verdict
  refine ⟨root, Relation.ReflTransGen.mono (fun _ _ => trackers _) _ _ reaches, ?_, fun other taken => ?_⟩
  · rw [history]
    exact took
  · exact only other ((history other).mp taken)

/-- Events of other calls. -/
structure Silent (world after : CompletionWorld) (thread : Nat) : Prop where
  trackers : ∀ link ∈ world.trackers, link ∈ after.trackers
  history : ∀ event, event.canceller = some thread →
    (event ∈ after.history ↔ event ∈ world.history)

theorem Verdict.silent (verdict : world.Verdict thread control result)
    (silent : Silent world after thread) : after.Verdict thread control result :=
  verdict.kept silent.trackers fun _ => silent.history _ rfl

theorem Tells.silent (tells : world.Tells thread op) (silent : Silent world after thread) :
    after.Tells thread op := by
  cases op with
  | cancel control path =>
      refine ⟨tells.1.mono silent.trackers, fun event member own => ?_⟩
      exact tells.2 event ((silent.history event own).mp member) own
  | returns control path result => exact ⟨tells.1.mono silent.trackers, tells.2.silent silent⟩
  | startSend | expire | finish | publish | addDoneCallback | finished => trivial

theorem silent_append (events : List CompletionEvent)
    (trackers : ∀ link ∈ world.trackers, link ∈ after.trackers)
    (history : after.history = events ++ world.history)
    (others : ∀ event ∈ events, event.canceller ≠ some thread) : Silent world after thread := by
  refine ⟨trackers, fun event own => ?_⟩
  rw [history, List.mem_append]
  exact ⟨fun member => member.resolve_left fun new => others event new own, .inr⟩

theorem tells_other (other : op.cancels = false) : world.Tells thread op := by
  cases op with
  | cancel | returns => contradiction
  | startSend | expire | finish | publish | addDoneCallback | finished => trivial

/-- A step of another thread. -/
theorem CancelStands.silent (stands : world.CancelStands thread)
    (silent : Silent world after thread) (length : world.threads.length ≤ after.threads.length)
    (same : ∀ stack, after.threads[thread]? = some stack → world.threads[thread]? = some stack) :
    after.CancelStands thread := by
  constructor
  · exact fun stack found => stands.single stack (same stack found)
  · exact fun stack found op member => (stands.tells stack (same stack found) op member).silent silent
  · intro control result member
    exact (stands.returned control result ((silent.history _ rfl).mp member)).silent silent
  · intro outside event member own
    exact stands.fresh (Nat.le_trans length outside) event ((silent.history event own).mp member) own

/-- A call from outside starts a thread. -/
theorem CancelStands.append (stands : world.CancelStands thread)
    (silent : Silent world after thread) (threads : after.threads = world.threads ++ [[op]])
    (starts : op.cancels = true → ∃ control, op = .cancel control []) :
    after.CancelStands thread := by
  by_cases here : thread = world.threads.length
  · subst here
    have unseen : ∀ event ∈ after.history, event.canceller ≠ some world.threads.length :=
      fun event member own =>
        stands.fresh (Nat.le_refl _) event ((silent.history event own).mp member) own
    have only {stack : List CompletionOp}
        (found : after.threads[world.threads.length]? = some stack) : stack = [op] := by
      rw [threads, List.getElem?_concat_length] at found
      exact (Option.some.inj found).symm
    constructor
    · intro stack found
      rw [only found]
      exact List.countP_le_length
    · intro stack found other member
      rw [only found] at member
      rw [List.mem_singleton.mp member]
      cases cancels : op.cancels with
      | false => exact tells_other cancels
      | true =>
          obtain ⟨control, rfl⟩ := starts cancels
          exact ⟨trivial, unseen⟩
    · exact fun control result member => absurd rfl (unseen _ member)
    · exact fun _ => unseen
  · refine stands.silent silent (by simp [threads]) fun stack found => ?_
    rw [threads, List.getElem?_append] at found
    split at found
    · exact found
    · next outside =>
      rw [List.getElem?_eq_none (by simp; omega)] at found
      contradiction

/-- The events of a step of the thread. -/
theorem Moves.canceller (moves : world.Moves thread completion op next) :
    ∀ event ∈ next.events, event.canceller = if op.cancels then some thread else none := by
  cases moves <;> simp [unchanged, CompletionEvent.canceller, CompletionOp.cancels]

/-- No other call makes one of `cancel`. -/
theorem Moves.cancels (moves : world.Moves thread completion op next) :
    next.calls.countP CompletionOp.cancels ≤ if op.cancels then 1 else 0 := by
  cases moves <;> simp [unchanged, CompletionOp.cancels, List.countP_eq_zero, List.countP_cons]

/-- A step of a call of `cancel` or its return. -/
theorem Moves.tells (moves : world.Moves thread completion op next)
    (wired : world.Wired) (current : world.future (subject op) = completion)
    (tells : world.Tells thread op) (trackers : after.trackers = world.trackers)
    (history : after.history = next.events ++ world.history) :
    (∀ made ∈ next.calls, after.Tells thread made) ∧
      ∀ control result, .returned thread control result ∈ next.events →
        after.Verdict thread control result := by
  cases moves with
  | cancelLost control path =>
      refine ⟨fun made member => ?_, by simp [unchanged]⟩
      rw [List.mem_singleton.mp member, Tells, trackers]
      refine ⟨tells.1, control, .refl, ?_, fun other taken => ?_⟩
      · rw [history]
        exact ⟨fun won => absurd won Bool.false_ne_true, fun taken => absurd rfl (tells.2 _ taken)⟩
      · rw [history] at taken
        exact absurd rfl (tells.2 _ taken)
  | cancelDelegated control command path free delegate =>
      refine ⟨fun made member => ?_, by simp [unchanged]⟩
      rw [List.mem_singleton.mp member, Tells, trackers, history]
      refine ⟨⟨wired.delegates control command ?_, tells.1⟩, tells.2⟩
      rw [show world.future control = completion from current]
      exact delegate
  | cancelWon control path free unsent direct =>
      have taken (other : Nat) : .cancelled thread other ∈ after.history ↔ other = control := by
        rw [history]
        refine ⟨fun member => ?_, fun same => by rw [same]; exact List.mem_cons_self⟩
        rcases List.mem_cons.mp member with new | old
        · cases new
          rfl
        · exact absurd rfl (tells.2 _ old)
      refine ⟨fun made member => ?_, by simp⟩
      rcases List.mem_cons.mp member with rfl | member
      · trivial
      · rw [List.mem_singleton.mp member, Tells, trackers]
        refine ⟨tells.1, control, .refl, ?_, fun other => (taken other).mp⟩
        simp [taken]
  | handedBack control result =>
      refine ⟨by simp [unchanged], fun other value member => ?_⟩
      cases List.mem_singleton.mp member
      refine tells.2.kept (by simp [trackers]) fun root => ?_
      simp [history]
  | handedOn control tracker path result =>
      have verdict : after.Verdict thread control result := by
        refine tells.2.kept (by simp [trackers]) fun root => ?_
        simp [history]
      refine ⟨fun made member => ?_, fun other value member => ?_⟩
      · obtain ⟨root, reaches, took, only⟩ := verdict
        rw [List.mem_singleton.mp member, Tells, trackers]
        refine ⟨tells.1.2, root, .head ?_ reaches, took, only⟩
        rw [trackers]
        exact tells.1.1
      · cases List.mem_singleton.mp member
        exact verdict
  | sendLost | sendStarted | expireLost | finishLost | jammed | registered =>
      exact ⟨by simp [unchanged], by simp [unchanged]⟩
  | sendExpired | expireWon | finishWon | notified | relayed =>
      refine ⟨fun made member => ?_, by simp [unchanged]⟩
      rw [List.mem_singleton.mp member]
      trivial
  | published =>
      refine ⟨fun made member => ?_, by simp⟩
      obtain ⟨callback, _, rfl⟩ := List.mem_map.mp member
      trivial

theorem CancelStands.run {index : Nat} (stands : world.CancelStands thread) (wired : world.Wired)
    (stepped : world.run index = some after) : after.CancelStands thread := by
  obtain ⟨trackers, _, _⟩ := run_trackers stepped
  have links : ∀ link ∈ world.trackers, link ∈ after.trackers := by simp [trackers]
  obtain ⟨call, rest, completion, next, found, at_subject, moves, same⟩ := run_cases stepped
  have history : after.history = next.events ++ world.history := by rw [same]
  have threads (other : Nat) : after.threads[other]? =
      if other = index then some (next.calls ++ rest) else world.threads[other]? := by
    rw [same]
    exact getElem?_set_found found other
  by_cases here : thread = index
  · subst here
    have single := stands.single _ found
    rw [List.countP_cons] at single
    have tells := stands.tells _ found
    obtain ⟨made, told⟩ := moves.tells wired (future_of_found at_subject) (tells call (by simp))
      trackers history
    have only {stack : List CompletionOp} (at_thread : after.threads[thread]? = some stack) :
        stack = next.calls ++ rest := by
      rw [threads, if_pos rfl] at at_thread
      exact (Option.some.inj at_thread).symm
    -- The thread has one call of `cancel` at most, so that no other one sees its events.
    have others : call.cancels = true → rest.countP CompletionOp.cancels = 0 := by
      intro cancels
      rw [cancels, if_pos rfl] at single
      omega
    have silent (other : call.cancels = false) : Silent world after thread := by
      refine silent_append next.events links history fun event member => ?_
      rw [moves.canceller event member, other]
      simp
    constructor
    · intro stack at_thread
      have fewer := moves.cancels
      rw [only at_thread, List.countP_append]
      omega
    · intro stack at_thread op member
      rw [only at_thread] at member
      rcases List.mem_append.mp member with new | old
      · exact made op new
      · cases cancels : call.cancels with
        | false => exact (tells op (List.mem_cons_of_mem _ old)).silent (silent cancels)
        | true =>
            refine tells_other (Bool.eq_false_iff.mpr ?_)
            exact List.countP_eq_zero.mp (others cancels) op old
    · intro control result member
      rw [history] at member
      rcases List.mem_append.mp member with new | old
      · exact told control result new
      · have verdict := stands.returned control result old
        cases cancels : call.cancels with
        | false => exact verdict.silent (silent cancels)
        | true =>
            refine verdict.kept links fun root => ?_
            rw [history]
            cases moves with
            | handedBack | handedOn => simp
            | cancelLost | cancelDelegated => simp [unchanged]
            | cancelWon control path =>
                exact absurd rfl ((tells (.cancel control path) (by simp)).2 _ old)
            | _ => simp [CompletionOp.cancels] at cancels
    · intro outside
      have bound := (List.getElem?_eq_some_iff.mp found).1
      rw [same, resume, List.length_set] at outside
      exact absurd bound (Nat.not_lt.mpr outside)
  · refine stands.silent (silent_append next.events links history fun event member => ?_) ?_
      fun stack at_thread => ?_
    · rw [moves.canceller event member]
      split
      · exact fun same => here (Option.some.inj same).symm
      · simp
    · simp [same, resume]
    · rw [threads, if_neg here] at at_thread
      exact at_thread

theorem Steps.cancelStands {label : CompletionLabel} (steps : Steps world label after)
    (wired : world.Wired) (stands : world.CancelStands thread) : after.CancelStands thread := by
  have quiet {clock : Nat} {futures : List CommandFuture} {handles : List Nat}
      {trackers : List (Nat × Nat)} {threads : List (List CompletionOp)}
      (links : ∀ link ∈ world.trackers, link ∈ trackers) :
      Silent world { world with clock, futures, handles, trackers, threads } thread :=
    ⟨links, fun _ _ => .rfl⟩
  cases steps with
  | ran index after stepped => exact stands.run wired stepped
  | ticked | created | shared =>
      exact stands.silent (quiet fun _ member => member) (Nat.le_refl _) fun _ found => found
  | tracked handle command =>
      exact stands.append (quiet fun _ member => List.mem_append_left _ member) rfl nofun
  | called label handle control op at_handle kind =>
      refine stands.append (quiet fun _ member => member) rfl fun cancels => ?_
      rcases kind with ⟨_, rfl⟩ | ⟨_, rfl⟩ | ⟨_, rfl⟩ | ⟨_, _, rfl⟩
      · exact ⟨control, rfl⟩
      all_goals contradiction
  | observed handle control completion outcome =>
      exact stands.silent (silent_append [_] (fun _ member => member) rfl (by
        simp [CompletionEvent.canceller])) (Nat.le_refl _) fun _ found => found

theorem reachable_cancelStands (reachable : completionSystem.Reachable world) (thread : Nat) :
    world.CancelStands thread := by
  refine reachable.invariant_given (motive := fun world => world.CancelStands thread) Wired
    (fun _ => reachable_wired) ?_ ?_
  · rintro first rfl
    exact ⟨by simp, by simp, nofun, nofun⟩
  · exact fun before label after wired stands stepped =>
      (step_cases stepped).cancelStands wired stands

/-- `cancel` takes no control that delegates it. -/
def Untracked (world : CompletionWorld) : Prop :=
  ∀ thread control, .cancelled thread control ∈ world.history →
    ∀ command, (control, command) ∉ world.trackers

theorem Steps.untracked {label : CompletionLabel} (steps : Steps world label after)
    (wired : world.Wired) (settled : world.Settled) (untracked : world.Untracked) :
    after.Untracked := by
  cases steps with
  | ran index after stepped =>
      obtain ⟨trackers, _, _⟩ := run_trackers stepped
      obtain ⟨call, rest, completion, next, found, at_subject, moves, same⟩ := run_cases stepped
      intro thread control member command link
      rw [trackers] at link
      rw [same] at member
      rcases List.mem_append.mp member with new | old
      · cases moves with
        | cancelWon target path free unsent direct =>
            cases List.mem_singleton.mp new
            have current : world.future control = completion := future_of_found at_subject
            have waiting := wired.waiting control command link (by rw [current]; exact free)
            rw [current, direct] at waiting
            contradiction
        | _ => simp [unchanged] at new
      · exact untracked thread control old command link
  | ticked | created | shared | called => exact untracked
  | tracked handle target at_handle =>
      intro thread control member command link
      rcases List.mem_append.mp link with old | new
      · exact untracked thread control member command old
      · cases List.mem_singleton.mp new
        have taken := ((settled.stands world.futures.length).cancelled thread member).1
        simp [future] at taken
  | observed =>
      intro thread control member
      exact untracked thread control ((List.mem_cons.mp member).resolve_left (by simp))

theorem reachable_untracked (reachable : completionSystem.Reachable world) :
    world.Untracked := by
  refine reachable.invariant_given (fun world => world.Wired ∧ world.Settled)
    (fun _ reached => ⟨reachable_wired reached, reachable_settled reached⟩) ?_ ?_
  · rintro first rfl
    exact nofun
  · exact fun before label after known untracked stepped =>
      (step_cases stepped).untracked known.1 known.2 untracked

/-- What `cancel` returns on a control that it decides itself. -/
theorem returned_direct (reachable : completionSystem.Reachable world)
    (returned : .returned thread control result ∈ world.history)
    (direct : ∀ command, (control, command) ∉ world.trackers) :
    result = true ↔ .cancelled thread control ∈ world.history := by
  obtain ⟨root, reaches, took, only⟩ :=
    (reachable_cancelStands reachable thread).returned control result returned
  rcases reaches.cases_head with rfl | ⟨command, link, _⟩
  · exact took
  · exact absurd link (direct command)

/-- What `cancel` returns on a control that delegates it. -/
theorem returned_delegated (reachable : completionSystem.Reachable world)
    (link : (tracker, command) ∈ world.trackers)
    (returned : .returned thread tracker result ∈ world.history) :
    result = true ↔ ∃ root, Reaches world.trackers command root ∧
      .cancelled thread root ∈ world.history := by
  obtain ⟨root, reaches, took, only⟩ :=
    (reachable_cancelStands reachable thread).returned tracker result returned
  rw [took]
  constructor
  · intro taken
    rcases reaches.cases_head with rfl | ⟨delegate, other, rest⟩
    · exact absurd link (reachable_untracked reachable thread tracker taken command)
    · rw [(reachable_wired reachable).unique tracker command delegate link other]
      exact ⟨root, rest, taken⟩
  · rintro ⟨other, _, taken⟩
    rw [← only other taken]
    exact taken

end CompletionWorld

end StreamDockSdk
