import StreamDockSdk.Completion.Protocol
import Mathlib.Data.List.Basic

namespace StreamDockSdk

open Automaton

namespace CompletionEvent

/-- The event is the call that decides the control. -/
def wins (control : Nat) : CompletionEvent → Bool
  | .cancelled _ first => first == control
  | .finish decided _ _ true | .expire decided _ true => decided == control
  | _ => false

def completes (control : Nat) : CompletionEvent → Bool
  | .completed finished _ => finished == control
  | _ => false

def sends (control : Nat) : CompletionEvent → Bool
  | .startSend begun _ true => begun == control
  | _ => false

/-- The event has a part in what is known of the control. -/
def concerns (control : Nat) (event : CompletionEvent) : Prop :=
  event.wins control = true ∨ event.completes control = true ∨ event.sends control = true ∨
    event = .refused control

end CompletionEvent

namespace CompletionWorld

variable {world : CompletionWorld} {completion : CommandFuture} {op : CompletionOp}
variable {next : CompletionAdvance} {thread control : Nat}

/-- The state of a control; a control that nobody has made yet is fresh. -/
def future (world : CompletionWorld) (control : Nat) : CommandFuture :=
  world.futures[control]?.getD {}

/-- What no call on a control takes back. -/
structure Kept (before after : CommandFuture) : Prop where
  deadline : after.deadline = before.deadline
  terminal : ∀ outcome, before.terminal = some outcome → after.terminal = some outcome
  future : ∀ outcome, before.future = some outcome → after.future = some outcome
  waiting : after.terminal = none → after.delegate = before.delegate
  delegate : ∀ command, after.delegate = some command → before.delegate = some command

theorem Kept.refl (completion : CommandFuture) : Kept completion completion :=
  ⟨rfl, fun _ same => same, fun _ same => same, fun _ => rfl, fun _ same => same⟩

/-- Everything that the first step of a call can do. -/
inductive Moves (world : CompletionWorld) (thread : Nat) (completion : CommandFuture) :
    CompletionOp → CompletionAdvance → Prop
  | cancelLost (control : Nat) (path : List Nat) :
      Moves world thread completion (.cancel control path)
        { world.unchanged with calls := [.returns control path false] }
  | cancelDelegated (control command : Nat) (path : List Nat) :
      completion.terminal = none → completion.delegate = some command →
      Moves world thread completion (.cancel control path)
        { world.unchanged with calls := [.cancel command (control :: path)] }
  | cancelWon (control : Nat) (path : List Nat) : completion.terminal = none →
      completion.sending = false → completion.delegate = none →
      Moves world thread completion (.cancel control path) { world.unchanged with
        futures := world.futures.set control { completion with terminal := some (some .cancelled) }
        calls := [.publish control, .returns control path true]
        events := [.cancelled thread control] }
  | handedBack (control : Nat) (result : Bool) :
      Moves world thread completion (.returns control [] result)
        { world.unchanged with events := [.returned thread control result] }
  | handedOn (control tracker : Nat) (path : List Nat) (result : Bool) :
      Moves world thread completion (.returns control (tracker :: path) result)
        { world.unchanged with
          calls := [.returns tracker path result]
          events := [.returned thread control result] }
  | sendLost (control : Nat) : Moves world thread completion (.startSend control)
      { world.unchanged with events := [.startSend control world.clock false] }
  | sendExpired (control : Nat) : Moves world thread completion (.startSend control) { world.unchanged with
      calls := [.expire control]
      events := [.startSend control world.clock false] }
  | sendStarted (control : Nat) : completion.terminal = none →
      completion.deadlinePassed world.clock = false →
      Moves world thread completion (.startSend control) { world.unchanged with
        futures := world.futures.set control { completion with sending := true, abort := true }
        events := [.startSend control world.clock true] }
  | expireLost (control : Nat) : Moves world thread completion (.expire control)
      { world.unchanged with events := [.expire control world.clock false] }
  | expireWon (control : Nat) : completion.terminal = none →
      Moves world thread completion (.expire control) { world.unchanged with
        futures := world.futures.set control { completion with
          terminal := some (some .deadlineExceeded), abort := false, delegate := none }
        calls := [.publish control]
        events := [.expire control world.clock true] }
  | finishLost (control : Nat) (error : Outcome) : completion.terminal.isSome = true →
      Moves world thread completion (.finish control error)
        { world.unchanged with events := [.finish control world.clock error false] }
  | finishWon (control : Nat) (error : Outcome) : completion.terminal = none →
      Moves world thread completion (.finish control error) { world.unchanged with
        futures := world.futures.set control { completion with
          terminal := some (completion.recorded world.clock error)
          abort := false
          delegate := none }
        calls := [.publish control]
        events := [.finish control world.clock error true] }
  | published (control : Nat) (outcome : Outcome) : completion.terminal = some outcome →
      completion.future = none →
      Moves world thread completion (.publish control) { world.unchanged with
        futures := world.futures.set control { completion with future := some outcome }
        calls := (world.callbacks.filter fun callback => callback.1 == control).map
          fun callback => .finished callback.1 callback.2
        events := [.completed control outcome] }
  | jammed (control : Nat) : completion.terminal = none ∨ completion.future.isSome = true →
      Moves world thread completion (.publish control)
        { world.unchanged with events := [.refused control] }
  | registered (command tracker : Nat) : completion.future = none →
      Moves world thread completion (.addDoneCallback command tracker)
        { world.unchanged with callbacks := world.callbacks ++ [(command, tracker)] }
  | notified (command tracker : Nat) : completion.future.isSome = true →
      Moves world thread completion (.addDoneCallback command tracker)
        { world.unchanged with calls := [.finished command tracker] }
  | relayed (command tracker : Nat) (error : Outcome) : completion.future = some error →
      Moves world thread completion (.finished command tracker)
        { world.unchanged with calls := [.finish tracker error] }

theorem advance_cases (advanced : world.advance thread completion op = some next) :
    world.Moves thread completion op next := by
  cases op with
  | cancel control path =>
      simp only [advance] at advanced
      split at advanced <;> cases advanced
      · exact .cancelLost control path
      · next decided =>
        obtain ⟨free, delegate⟩ := CommandFuture.cancel_delegated decided
        exact .cancelDelegated control _ path free delegate
      · next decided =>
        obtain ⟨free, unsent, direct, rfl⟩ := CommandFuture.cancel_cancelled decided
        exact .cancelWon control path free unsent direct
  | returns control path result =>
      cases path <;> cases advanced
      · exact .handedBack control result
      · exact .handedOn control _ _ result
  | startSend control =>
      simp only [advance] at advanced
      split at advanced <;> cases advanced
      · exact .sendLost control
      · exact .sendExpired control
      · next decided =>
        obtain ⟨free, early, rfl⟩ := CommandFuture.startSend_started decided
        exact .sendStarted control free early
  | expire control =>
      simp only [advance, finish, Option.some.injEq] at advanced
      split at advanced <;> cases advanced
      · exact .expireLost control
      · next decided =>
        obtain ⟨free, rfl, _⟩ := CommandFuture.finish_won decided
        simp only [CommandFuture.recorded, ite_self]
        exact .expireWon control free
  | finish control error =>
      simp only [advance, finish, Option.some.injEq] at advanced
      split at advanced <;> cases advanced
      · next decided => exact .finishLost control error (CommandFuture.finish_lost decided)
      · next decided =>
        obtain ⟨free, rfl, _⟩ := CommandFuture.finish_won decided
        exact .finishWon control error free
  | publish control =>
      simp only [advance] at advanced
      split at advanced <;> cases advanced
      · next decided => exact .jammed control (CommandFuture.publish_none decided)
      · next decided =>
        obtain ⟨outcome, terminal, future, rfl⟩ := CommandFuture.publish_some decided
        exact .published control outcome terminal future
  | addDoneCallback command tracker =>
      simp only [advance] at advanced
      by_cases isOver : completion.done = true
      · rw [if_pos isOver] at advanced
        cases advanced
        exact .notified command tracker isOver
      · rw [if_neg isOver] at advanced
        cases advanced
        exact .registered command tracker (by simpa [CommandFuture.done] using isOver)
  | finished command tracker =>
      simp only [advance] at advanced
      split at advanced <;> cases advanced
      exact .relayed command tracker _ ‹_›

theorem run_cases {index : Nat} {after : CompletionWorld} (stepped : world.run index = some after) :
    ∃ call rest completion next, world.threads[index]? = some (call :: rest) ∧
      world.futures[subject call]? = some completion ∧ world.Moves index completion call next ∧
      after = { world with
        futures := next.futures
        callbacks := next.callbacks
        threads := resume world.threads index (next.calls ++ rest)
        history := next.events ++ world.history } := by
  unfold run at stepped
  split at stepped
  · next call rest found =>
    split at stepped
    · contradiction
    · next completion at_subject =>
      simp only [Option.map_eq_some_iff] at stepped
      obtain ⟨next, advanced, rfl⟩ := stepped
      exact ⟨call, rest, completion, next, found, at_subject, advance_cases advanced, rfl⟩
  · contradiction

theorem future_of_found {completion : CommandFuture}
    (found : world.futures[control]? = some completion) : world.future control = completion := by
  simp [future, found]

theorem future_append (world : CompletionWorld) (fresh : CommandFuture) (control : Nat)
    (blank : world.futures.length = control → fresh.terminal = none ∧ fresh.future = none ∧
      fresh.sending = false) :
    ((world.futures ++ [fresh])[control]?.getD {}).terminal = (world.future control).terminal ∧
      ((world.futures ++ [fresh])[control]?.getD {}).future = (world.future control).future ∧
      ((world.futures ++ [fresh])[control]?.getD {}).sending = (world.future control).sending := by
  unfold future
  rcases Nat.lt_trichotomy control world.futures.length with inside | same | outside
  · rw [List.getElem?_append_left inside]
    exact ⟨rfl, rfl, rfl⟩
  · subst same
    simpa using blank rfl
  · rw [List.getElem?_eq_none (by simp; omega), List.getElem?_eq_none (by omega)]
    exact ⟨rfl, rfl, rfl⟩

theorem future_of_set {after : CompletionWorld} {changed : CommandFuture}
    (updated : after.futures = world.futures.set control changed)
    (inside : control < world.futures.length) : after.future control = changed := by
  simp [future, updated, inside]

/-- A call decides nothing about the controls that it does not look at. -/
theorem Moves.silent (moves : world.Moves thread completion op next) (other : control ≠ subject op) :
    ∀ event ∈ next.events, ¬ event.concerns control := by
  cases moves
  all_goals
    simp only [subject] at other
    simp [unchanged, CompletionEvent.concerns, CompletionEvent.wins, CompletionEvent.completes,
      CompletionEvent.sends, Ne.symm other]

theorem Moves.publishes (moves : world.Moves thread completion op next)
    (pushed : .publish control ∈ next.calls) : control = subject op := by
  cases moves <;> simp_all [unchanged, subject]

theorem Moves.futures (moves : world.Moves thread completion op next) :
    next.futures = world.futures ∨
      ∃ changed, next.futures = world.futures.set (subject op) changed ∧
        Kept completion changed := by
  cases moves with
  | cancelLost | cancelDelegated | handedBack | handedOn | sendLost | sendExpired | expireLost
  | finishLost | jammed | registered | notified | relayed => exact .inl rfl
  | cancelWon target path free =>
      exact .inr ⟨_, rfl, rfl, by rw [free]; nofun, fun _ same => same, nofun, fun _ same => same⟩
  | expireWon target free | finishWon target error free =>
      exact .inr ⟨_, rfl, rfl, by rw [free]; nofun, fun _ same => same, nofun, nofun⟩
  | sendStarted =>
      exact .inr ⟨_, rfl, rfl, fun _ same => same, fun _ same => same, fun _ => rfl,
        fun _ same => same⟩
  | published target outcome terminal unfinished =>
      exact .inr ⟨_, rfl, rfl, fun _ same => same, by rw [unfinished]; nofun, fun _ => rfl,
        fun _ same => same⟩

theorem Moves.elsewhere (moves : world.Moves thread completion op next) (other : control ≠ subject op) :
    next.futures[control]?.getD {} = world.future control := by
  rcases moves.futures with same | ⟨changed, updated, _⟩
  · rw [same]
    rfl
  · rw [updated, List.getElem?_set_ne (Ne.symm other)]
    rfl

/-- What the calls made so far say about a control. -/
structure ControlStands (world : CompletionWorld) (control : Nat) : Prop where
  recorded : ∀ outcome, (world.future control).future = some outcome →
    (world.future control).terminal = some outcome
  decided : world.history.countP (CompletionEvent.wins control) =
    (world.future control).terminal.isSome.toNat
  completing : calls (· == .publish control) world.threads +
    (world.future control).future.isSome.toNat = (world.future control).terminal.isSome.toNat
  completed : world.history.countP (CompletionEvent.completes control) =
    (world.future control).future.isSome.toNat
  unrefused : .refused control ∉ world.history
  sending : ∀ clock, .startSend control clock true ∈ world.history →
    (world.future control).sending = true
  cancelled : ∀ thread, .cancelled thread control ∈ world.history →
    (world.future control).terminal = some (some .cancelled) ∧
      (world.future control).sending = false

theorem ControlStands.inert {after : CompletionWorld}
    (stands : ControlStands world control) (events : List CompletionEvent)
    (history : after.history = events ++ world.history)
    (silent : ∀ event ∈ events, ¬ event.concerns control)
    (publishing : calls (· == .publish control) after.threads =
      calls (· == .publish control) world.threads)
    (terminal : (after.future control).terminal = (world.future control).terminal)
    (future : (after.future control).future = (world.future control).future)
    (sending : (after.future control).sending = (world.future control).sending) :
    ControlStands after control := by
  have uncounted (test : CompletionEvent → Bool)
      (concerning : ∀ event, test event = true → event.concerns control) :
      after.history.countP test = world.history.countP test := by
    have none : events.countP test = 0 := by
      rw [List.countP_eq_zero]
      exact fun event member passes => silent event member (concerning event passes)
    rw [history, List.countP_append, none, Nat.zero_add]
  have older {event : CompletionEvent} (member : event ∈ after.history)
      (concerning : event.concerns control) : event ∈ world.history := by
    rw [history] at member
    exact (List.mem_append.mp member).resolve_left fun new => silent event new concerning
  constructor
  · rw [terminal, future]
    exact stands.recorded
  · rw [terminal, uncounted _ fun event passes => .inl passes]
    exact stands.decided
  · rw [terminal, future, publishing]
    exact stands.completing
  · rw [future, uncounted _ fun event passes => .inr (.inl passes)]
    exact stands.completed
  · exact fun member => stands.unrefused (older member (.inr (.inr (.inr rfl))))
  · rw [sending]
    intro clock member
    exact stands.sending clock (older member (.inr (.inr (.inl (by simp [CompletionEvent.sends])))))
  · rw [terminal, sending]
    intro thread member
    exact stands.cancelled thread (older member (.inl (by simp [CompletionEvent.wins])))

/-- The one call that decides a control. -/
theorem ControlStands.win {after : CompletionWorld} {event : CompletionEvent} {outcome : Outcome}
    {changed : CommandFuture} (updated : after.future control = changed)
    (stands : ControlStands world control) (free : (world.future control).terminal = none)
    (history : after.history = event :: world.history) (wins : event.wins control = true)
    (publishing : calls (· == .publish control) after.threads =
      calls (· == .publish control) world.threads + 1)
    (terminal : changed.terminal = some outcome)
    (future : changed.future = (world.future control).future)
    (sending : changed.sending = (world.future control).sending)
    (cancels : ∀ thread, event = .cancelled thread control →
      outcome = some .cancelled ∧ (world.future control).sending = false) :
    ControlStands after control := by
  have unfinished : (world.future control).future = none := by
    cases found : (world.future control).future with
    | none => rfl
    | some outcome =>
        rw [stands.recorded outcome found] at free
        contradiction
  subst updated
  have decided := stands.decided
  have completing := stands.completing
  have completed := stands.completed
  rw [free] at decided completing
  rw [unfinished] at completing completed
  constructor
  · rw [future, unfinished]
    nofun
  · rw [history, terminal, List.countP_cons, wins, decided]
    rfl
  · rw [terminal, future, publishing, unfinished]
    simpa using completing
  · have other : event.completes control = false := by
      cases event <;> simp_all [CompletionEvent.wins, CompletionEvent.completes]
    rw [history, future, List.countP_cons, other, unfinished, completed]
    rfl
  · rw [history]
    intro member
    rcases List.mem_cons.mp member with rfl | older
    · simp [CompletionEvent.wins] at wins
    · exact stands.unrefused older
  · rw [history, sending]
    intro clock member
    rcases List.mem_cons.mp member with rfl | older
    · simp [CompletionEvent.wins] at wins
    · exact stands.sending clock older
  · rw [history, terminal, sending]
    intro thread member
    rcases List.mem_cons.mp member with same | older
    · obtain ⟨rfl, unsent⟩ := cancels thread same.symm
      exact ⟨rfl, unsent⟩
    · have impossible := (stands.cancelled thread older).1
      rw [free] at impossible
      contradiction

/-- `_start_send` marks the control, which only refuses later calls of `cancel`. -/
theorem ControlStands.send {after : CompletionWorld} {changed : CommandFuture} {clock : Nat}
    (updated : after.future control = changed) (stands : ControlStands world control)
    (free : (world.future control).terminal = none)
    (history : after.history = .startSend control clock true :: world.history)
    (terminal : changed.terminal = (world.future control).terminal)
    (future : changed.future = (world.future control).future) (sending : changed.sending = true)
    (publishing : calls (· == .publish control) after.threads =
      calls (· == .publish control) world.threads) :
    ControlStands after control := by
  subst updated
  constructor
  · rw [terminal, future]
    exact stands.recorded
  · rw [history, terminal, List.countP_cons, stands.decided]
    rfl
  · rw [terminal, future, publishing]
    exact stands.completing
  · rw [history, future, List.countP_cons, stands.completed]
    rfl
  · rw [history]
    simpa using stands.unrefused
  · exact fun _ _ => sending
  · rw [history]
    intro thread member
    have older : .cancelled thread control ∈ world.history := by simpa using member
    have impossible := (stands.cancelled thread older).1
    rw [free] at impossible
    contradiction

/-- The thread that decided the control records the outcome. -/
theorem ControlStands.publish {after : CompletionWorld} {changed : CommandFuture}
    {outcome : Outcome} (updated : after.future control = changed)
    (stands : ControlStands world control)
    (decided : (world.future control).terminal = some outcome)
    (unfinished : (world.future control).future = none)
    (history : after.history = .completed control outcome :: world.history)
    (terminal : changed.terminal = (world.future control).terminal)
    (future : changed.future = some outcome)
    (sending : changed.sending = (world.future control).sending)
    (publishing : calls (· == .publish control) after.threads + 1 =
      calls (· == .publish control) world.threads) :
    ControlStands after control := by
  subst updated
  constructor
  · rw [terminal, future, decided]
    exact fun _ same => same
  · rw [history, terminal, List.countP_cons, stands.decided]
    rfl
  · have completing := stands.completing
    rw [unfinished] at completing
    rw [terminal, future, ← completing]
    simpa using publishing
  · rw [history, future, List.countP_cons, stands.completed, unfinished]
    simp [CompletionEvent.completes]
  · rw [history]
    simpa using stands.unrefused
  · rw [history, sending]
    intro clock member
    exact stands.sending clock (by simpa using member)
  · rw [history, terminal, sending]
    intro thread member
    exact stands.cancelled thread (by simpa using member)

theorem run_stands {index : Nat} {after : CompletionWorld}
    (stands : ∀ control, ControlStands world control)
    (stepped : world.run index = some after) (control : Nat) : ControlStands after control := by
  obtain ⟨call, rest, completion, next, found, at_subject, moves, rfl⟩ := run_cases stepped
  have counted := calls_resume (· == .publish control) next.calls found
  have inside := (List.getElem?_eq_some_iff.mp at_subject).1
  by_cases here : control = subject call
  · have current := future_of_found at_subject
    subst here
    obtain ⟨recorded, decided, completing, completed, unrefused, sending, cancelled⟩ :=
      stands (subject call)
    rw [current] at recorded decided completing completed sending cancelled
    cases moves with
    | cancelLost | cancelDelegated | handedBack | handedOn | sendLost | sendExpired | expireLost
    | finishLost | registered | notified | relayed =>
        refine (stands _).inert _ rfl ?_ ?_ rfl rfl rfl
        · simp [unchanged, CompletionEvent.concerns, CompletionEvent.wins,
            CompletionEvent.completes, CompletionEvent.sends]
        · simpa [unchanged] using counted
    | cancelWon target path free unsent =>
        refine (stands _).win (future_of_set rfl inside) (by rw [current]; exact free) rfl ?_ ?_ rfl
          (by rw [current]) (by rw [current]) fun _ _ => ⟨rfl, by rw [current]; exact unsent⟩
        · simp [subject, CompletionEvent.wins]
        · simpa [subject] using counted
    | expireWon target free =>
        refine (stands _).win (future_of_set rfl inside) (by rw [current]; exact free) rfl ?_ ?_ rfl
          (by rw [current]) (by rw [current]) nofun
        · simp [subject, CompletionEvent.wins]
        · simpa [subject] using counted
    | finishWon target error free =>
        refine (stands _).win (future_of_set rfl inside) (by rw [current]; exact free) rfl ?_ ?_ rfl
          (by rw [current]) (by rw [current]) nofun
        · simp [subject, CompletionEvent.wins]
        · simpa [subject] using counted
    | sendStarted target free early =>
        refine (stands _).send (future_of_set rfl inside) (by rw [current]; exact free) rfl
          (by rw [current]) (by rw [current]) rfl ?_
        simpa [unchanged] using counted
    | published target outcome terminal unfinished =>
        refine (stands _).publish (future_of_set rfl inside) (by rw [current]; exact terminal)
          (by rw [current]; exact unfinished) rfl (by rw [current]) rfl (by rw [current]) ?_
        have pushed : (List.map (fun callback => CompletionOp.finished callback.1 callback.2)
            (world.callbacks.filter fun callback => callback.1 == target)).countP
              (· == .publish target) = 0 := by simp [List.countP_eq_zero]
        simpa [subject, pushed] using counted
    | jammed target reason =>
        have running := calls_pos (· == CompletionOp.publish target) found (by simp)
        simp only [subject] at completing
        rcases reason with free | finished
        · rw [free] at completing
          simp only [Option.isSome_none, Bool.toNat_false] at completing
          omega
        · have bound := Bool.toNat_le completion.terminal.isSome
          rw [finished] at completing
          simp only [Bool.toNat_true] at completing
          omega
  · have elsewhere : (call == CompletionOp.publish control) = false :=
      beq_false_of_ne fun same => here (by rw [same]; rfl)
    have pushed : next.calls.countP (· == .publish control) = 0 := by
      rw [List.countP_eq_zero]
      intro op member same
      rw [beq_iff_eq] at same
      exact here (moves.publishes (same ▸ member))
    have unmoved : future { world with
        futures := next.futures
        callbacks := next.callbacks
        threads := resume world.threads index (next.calls ++ rest)
        history := next.events ++ world.history } control = world.future control :=
      moves.elsewhere here
    refine (stands control).inert _ rfl (moves.silent here) ?_ (by rw [unmoved]) (by rw [unmoved])
      (by rw [unmoved])
    simpa [elsewhere, pushed] using counted

theorem call_cases {handle : Nat} {op : Nat → CompletionOp} {after : CompletionWorld}
    (called : world.call handle op = some after) :
    ∃ control, world.handles[handle]? = some control ∧
      after = { world with threads := world.threads ++ [[op control]] } := by
  simp only [call, Option.map_eq_some_iff] at called
  obtain ⟨control, at_handle, rfl⟩ := called
  exact ⟨control, at_handle, rfl⟩

/-- Every step runs a call, or only adds to the world. -/
inductive Steps (world : CompletionWorld) : CompletionLabel → CompletionWorld → Prop
  | ran (index : Nat) (after : CompletionWorld) : world.run index = some after →
      Steps world (.run index) after
  | ticked : Steps world .tick { world with clock := world.clock + 1 }
  | created (deadline : Option Nat) : Steps world (.create deadline) { world with
      futures := world.futures ++ [{ deadline }]
      handles := world.handles ++ [world.futures.length] }
  | shared (handle control : Nat) : world.handles[handle]? = some control →
      Steps world (.share handle) { world with handles := world.handles ++ [control] }
  | tracked (handle command : Nat) : world.handles[handle]? = some command →
      Steps world (.track handle) { world with
        futures := world.futures ++ [{ delegate := some command }]
        handles := world.handles ++ [world.futures.length]
        trackers := world.trackers ++ [(world.futures.length, command)]
        threads := world.threads ++ [[.addDoneCallback command world.futures.length]] }
  | called (label : CompletionLabel) (handle control : Nat) (op : CompletionOp) :
      world.handles[handle]? = some control →
      label = .cancel handle ∧ op = .cancel control [] ∨
        label = .startSend handle ∧ op = .startSend control ∨
        label = .expire handle ∧ op = .expire control ∨
        (∃ error, label = .finish handle error ∧ op = .finish control error) →
      Steps world label { world with threads := world.threads ++ [[op]] }
  | observed (handle control : Nat) (completion : CommandFuture) (outcome : Outcome) :
      world.handles[handle]? = some control → world.futures[control]? = some completion →
      completion.future = some outcome →
      Steps world (.observe handle)
        { world with history := .observed handle outcome :: world.history }

theorem step_cases {label : CompletionLabel} {after : CompletionWorld}
    (stepped : world.step label = some after) : Steps world label after := by
  cases label with
  | tick =>
      cases stepped
      exact .ticked
  | create deadline =>
      cases stepped
      exact .created deadline
  | share handle =>
      simp only [step, Option.map_eq_some_iff] at stepped
      obtain ⟨control, at_handle, rfl⟩ := stepped
      exact .shared handle control at_handle
  | track handle =>
      simp only [step, Option.map_eq_some_iff] at stepped
      obtain ⟨command, at_handle, rfl⟩ := stepped
      exact .tracked handle command at_handle
  | cancel handle =>
      obtain ⟨control, at_handle, rfl⟩ := call_cases stepped
      exact .called _ handle control _ at_handle (.inl ⟨rfl, rfl⟩)
  | startSend handle =>
      obtain ⟨control, at_handle, rfl⟩ := call_cases stepped
      exact .called _ handle control _ at_handle (.inr (.inl ⟨rfl, rfl⟩))
  | expire handle =>
      obtain ⟨control, at_handle, rfl⟩ := call_cases stepped
      exact .called _ handle control _ at_handle (.inr (.inr (.inl ⟨rfl, rfl⟩)))
  | finish handle error =>
      obtain ⟨control, at_handle, rfl⟩ := call_cases stepped
      exact .called _ handle control _ at_handle (.inr (.inr (.inr ⟨error, rfl, rfl⟩)))
  | observe handle =>
      simp only [step] at stepped
      split at stepped
      · contradiction
      · next control at_handle =>
        split at stepped
        · contradiction
        · next completion at_control =>
          simp only [Option.map_eq_some_iff] at stepped
          obtain ⟨outcome, result, rfl⟩ := stepped
          exact .observed handle control completion outcome at_handle at_control result
  | run index => exact .ran index after stepped

theorem Steps.stands {label : CompletionLabel} {after : CompletionWorld}
    (steps : Steps world label after) (stands : ∀ control, ControlStands world control)
    (control : Nat) : ControlStands after control := by
  cases steps with
  | ran index after stepped => exact run_stands stands stepped control
  | ticked | shared => exact (stands control).inert [] rfl nofun rfl rfl rfl rfl
  | created deadline =>
      obtain ⟨terminal, future, sending⟩ :=
        future_append world { deadline } control fun _ => ⟨rfl, rfl, rfl⟩
      exact (stands control).inert [] rfl nofun rfl terminal future sending
  | tracked handle command at_handle =>
      obtain ⟨terminal, future, sending⟩ :=
        future_append world { delegate := some command } control fun _ => ⟨rfl, rfl, rfl⟩
      exact (stands control).inert [] rfl nofun (by simp) terminal future sending
  | called label handle target op at_handle kind =>
      refine (stands control).inert [] rfl nofun ?_ rfl rfl rfl
      rcases kind with ⟨_, rfl⟩ | ⟨_, rfl⟩ | ⟨_, rfl⟩ | ⟨_, _, rfl⟩ <;> simp
  | observed handle target completion outcome at_handle at_target result =>
      refine (stands control).inert [_] rfl ?_ rfl rfl rfl rfl
      simp [CompletionEvent.concerns, CompletionEvent.wins, CompletionEvent.completes,
        CompletionEvent.sends]

theorem stands_initially (control : Nat) : ControlStands {} control := by
  constructor <;> simp [future]

end CompletionWorld

end StreamDockSdk
