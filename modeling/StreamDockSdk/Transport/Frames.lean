import StreamDockSdk.Completion

namespace StreamDockSdk.Transport

/-- The state of a receipt.  `completes` and `discards` tell which of the callbacks
of the writer and of the raw queue it has. -/
structure TransportReceipt where
  claimed : Bool := false
  /-- `_done` with `_error`. -/
  done : Option Outcome := none
  completes : Bool := false
  discards : Bool := false
deriving DecidableEq, Repr

/-- A command is handed out once, so its completion also names the receipt and
the `begin_send` of the frame that is made for it. -/
structure OutboundFrame (Payload : Type) where
  payload : Payload
  completion : Nat
deriving DecidableEq, Repr

namespace TransportReceipt

variable (receipt : TransportReceipt)

/-- `_finish` up to its callbacks; `none` is the `InvalidStateError`. -/
def finish (error : Outcome) : Option TransportReceipt :=
  if receipt.done.isSome then none else some { receipt with done := some error }

/-- `_claim`; `none` is either `ValueError`. -/
def claim : Option TransportReceipt :=
  if receipt.done.isSome || receipt.claimed then none else some { receipt with claimed := true }

variable {receipt} {after : TransportReceipt} {error : Outcome}

theorem finish_some (finished : receipt.finish error = some after) :
    receipt.done = none ∧ after = { receipt with done := some error } := by
  unfold finish at finished
  split at finished
  · contradiction
  · next pending => exact ⟨by simpa using pending, by simpa using finished.symm⟩

theorem finish_none (refused : receipt.finish error = none) : receipt.done.isSome = true := by
  unfold finish at refused
  split at refused
  · assumption
  · contradiction

theorem claim_some (claimed : receipt.claim = some after) :
    receipt.done = none ∧ after = { receipt with claimed := true } := by
  unfold claim at claimed
  split at claimed
  · contradiction
  · next free =>
    simp only [Bool.or_eq_true, not_or, Bool.not_eq_true, Option.isSome_eq_false_iff,
      Option.isNone_iff_eq_none] at free
    exact ⟨free.1, by simpa using claimed.symm⟩

end TransportReceipt

end StreamDockSdk.Transport
