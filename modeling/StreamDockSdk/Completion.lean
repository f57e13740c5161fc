namespace StreamDockSdk

/-- The exceptions that a command can end with. -/
inductive CommandError where
  | cancelled
  | deadlineExceeded
  | busClosed
  | encoding
  | worker
  | writerStopped
  | rejected
  | queueClosed
  | queueFull
  | tooLarge
  | disconnected
  | connectorClosed
  | send
  | invalid
  | timeout
deriving DecidableEq, Repr

/-- `none` is a result, `some` an exception. -/
abbrev Outcome := Option CommandError

/-- The state that all handles of a command share.  `terminal` keeps the outcome
that the call which sets it goes on to record in `future`. -/
structure CommandFuture where
  deadline : Option Nat := none
  terminal : Option Outcome := none
  sending : Bool := false
  abort : Bool := false
  /-- The command that `cancel` is delegated to. -/
  delegate : Option Nat := none
  future : Option Outcome := none
deriving DecidableEq, Repr

inductive CancelDecision where
  | refused
  | delegated (command : Nat)
  | cancelled (completion : CommandFuture)

inductive SendDecision where
  | refused
  | expires
  | started (completion : CommandFuture)

namespace CommandFuture

variable (completion : CommandFuture)

def done : Bool := completion.future.isSome

def deadlinePassed (clock : Nat) : Bool :=
  match completion.deadline with
  | none => false
  | some deadline => decide (deadline ≤ clock)

/-- The region of `cancel` under the control's lock. -/
def cancel : CancelDecision :=
  if completion.terminal.isSome || completion.sending then .refused
  else match completion.delegate with
    | some command => .delegated command
    | none => .cancelled { completion with terminal := some (some .cancelled) }

/-- The region of `_start_send` under the control's lock. -/
def startSend (clock : Nat) : SendDecision :=
  if completion.terminal.isSome then .refused
  else if completion.deadlinePassed clock then .expires
  else .started { completion with sending := true, abort := true }

/-- What `_finish` records at a clock reading. -/
def recorded (clock : Nat) (error : Outcome) : Outcome :=
  if completion.deadlinePassed clock then some .deadlineExceeded else error

/-- The region of `_finish` under the control's lock, with whether the abort
hook is called; `none` is the `InvalidStateError` of its check. -/
def finish (clock : Nat) (error : Outcome) : Option (CommandFuture × Bool) :=
  if completion.terminal.isSome then none
  else
    let error := completion.recorded clock error
    some ({ completion with terminal := some error, abort := false, delegate := none },
      completion.abort && decide (error = some .deadlineExceeded))

/-- `set_result` or `set_exception`; `none` is its `InvalidStateError`. -/
def publish : Option CommandFuture :=
  match completion.terminal, completion.future with
  | some outcome, none => some { completion with future := some outcome }
  | _, _ => none

variable {completion} {after : CommandFuture} {clock command : Nat} {error : Outcome} {abort : Bool}

theorem cancel_delegated (decided : completion.cancel = .delegated command) :
    completion.terminal = none ∧ completion.delegate = some command := by
  unfold cancel at decided
  split at decided
  · contradiction
  · next free =>
    simp only [Bool.or_eq_true, not_or, Bool.not_eq_true, Option.isSome_eq_false_iff,
      Option.isNone_iff_eq_none] at free
    split at decided <;> simp_all

theorem cancel_cancelled (decided : completion.cancel = .cancelled after) :
    completion.terminal = none ∧ completion.sending = false ∧ completion.delegate = none ∧
      after = { completion with terminal := some (some .cancelled) } := by
  unfold cancel at decided
  split at decided
  · contradiction
  · next free =>
    simp only [Bool.or_eq_true, not_or, Bool.not_eq_true, Option.isSome_eq_false_iff,
      Option.isNone_iff_eq_none] at free
    split at decided <;> simp_all

theorem startSend_refused (decided : completion.startSend clock = .refused) :
    completion.terminal.isSome = true := by
  unfold startSend at decided
  split at decided
  · assumption
  · split at decided <;> contradiction

theorem startSend_started (decided : completion.startSend clock = .started after) :
    completion.terminal = none ∧ completion.deadlinePassed clock = false ∧
      after = { completion with sending := true, abort := true } := by
  unfold startSend at decided
  split at decided
  · contradiction
  · next free =>
    split at decided <;> simp_all

theorem finish_lost (lost : completion.finish clock error = none) :
    completion.terminal.isSome = true := by
  unfold finish at lost
  split at lost
  · assumption
  · contradiction

theorem finish_won (won : completion.finish clock error = some (after, abort)) :
    completion.terminal = none ∧
      after = { completion with
        terminal := some (completion.recorded clock error), abort := false, delegate := none } ∧
      abort = (completion.abort && decide (completion.recorded clock error = some .deadlineExceeded)) := by
  unfold finish at won
  split at won
  · contradiction
  · next free =>
    simp only [Option.some.injEq, Prod.mk.injEq] at won
    exact ⟨by simpa using free, won.1.symm, won.2.symm⟩

theorem recorded_eq_none (success : completion.recorded clock error = none) : error = none := by
  unfold recorded at success
  split at success
  · contradiction
  · exact success

theorem publish_some (published : completion.publish = some after) :
    ∃ outcome, completion.terminal = some outcome ∧ completion.future = none ∧
      after = { completion with future := some outcome } := by
  unfold publish at published
  split at published
  · next outcome terminal future => exact ⟨outcome, terminal, future, by simpa using published.symm⟩
  · contradiction

theorem publish_none (refused : completion.publish = none) :
    completion.terminal = none ∨ completion.future.isSome = true := by
  unfold publish at refused
  split at refused
  · contradiction
  · next impossible =>
    cases terminal : completion.terminal with
    | none => exact .inl rfl
    | some outcome =>
        cases future : completion.future with
        | none => exact absurd future (impossible outcome terminal)
        | some result => exact .inr rfl

end CommandFuture

end StreamDockSdk
