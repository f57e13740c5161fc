import StreamDockSdk.Action.Settings

namespace StreamDockSdk.Action

open StreamDockSdk.Runtime

variable {Settings : Type}

/-- The call is about to find out whether it must wait. -/
def Frame.decides : Frame Settings → Bool
  | .updating _ false | .waiting false | .claiming => true
  | _ => false

namespace ActionWorld

variable {world : ActionWorld Settings} {thread : Nat} {frame : Frame Settings}
variable {next : ActionWorld Settings} {frames : List (Frame Settings)}

/-- The step changes only the calls of its thread. -/
inductive Passes (world : ActionWorld Settings) (thread : Nat) :
    Frame Settings → List (Frame Settings) → Prop
  | decoded (next : Settings) : Passes world thread .decoding [.updating next false]
  | failed : Passes world thread .decoding []
  | slept (next : Settings) : world.refuses thread false = false → world.pending ≠ none →
      Passes world thread (.updating next false) [.updating next true]
  | parked : world.refuses thread false = false → world.pending ≠ none →
      Passes world thread (.waiting false) [.waiting true]
  | expired (waited : Bool) : Passes world thread (.waiting waited) []
  | encoded (write : WriteId) (isAsync : Bool) (next : Settings) :
      Passes world thread (.encoding write isAsync) [.submitting write isAsync next]
  | unencoded (write : WriteId) (isAsync : Bool) : Passes world thread (.encoding write isAsync)
      [if isAsync then .abandoning write else .releasing write]
  | unsubmitted (write : WriteId) (isAsync : Bool) (next : Settings) :
      Passes world thread (.submitting write isAsync next)
        [if isAsync then .abandoning write else .releasing write]
  | resumed (write : WriteId) : Passes world thread (.observing write) []

inductive Moves (world : ActionWorld Settings) (thread : Nat) :
    Frame Settings → ActionWorld Settings → List (Frame Settings) → Prop
  | passes {frame : Frame Settings} {frames : List (Frame Settings)} :
      Passes world thread frame frames → Moves world thread frame world frames
  | busy {frame : Frame Settings} : frame.decides = true → world.pending ≠ none →
      Moves world thread frame (world.log (.busy thread)) []
  | updated (next : Settings) (waited : Bool) : world.pending = none →
      Moves world thread (.updating next waited)
        ({ world with settings := next }.log (.wireUpdated next)) []
  | claimed {frame : Frame Settings} (isAsync : Bool) :
      (∃ waited, frame = .waiting waited) ∨ frame = .claiming → world.pending = none →
      Moves world thread frame (world.claim thread isAsync).1 (world.claim thread isAsync).2
  | submitted (write : WriteId) (next : Settings) :
      Moves world thread (.submitting write true next)
        (world.setSent write (.unwatched next none)) [.resetting write true]
  | delivered (write : WriteId) (next : Settings) :
      Moves world thread (.submitting write false next)
        (world.log (.completed write true)) [.committing write next]
  | committed (write : WriteId) (next : Settings) : Moves world thread (.committing write next)
      ({ world with settings := next }.log (.committed write next)) [.releasing write]
  | released (write : WriteId) : Moves world thread (.releasing write)
      { world with pending := none, submittingThread := none } []
  | abandoned (write : WriteId) : Moves world thread (.abandoning write)
      { world with pending := none } [.resetting write false]
  | reset (write : WriteId) (submitted : Bool) : Moves world thread (.resetting write submitted)
      { world with submittingThread := none } (if submitted then [.registering write] else [])
  | watched (write : WriteId) (next : Settings) : world.sent write = .unwatched next none →
      Moves world thread (.registering write) (world.setSent write (.watched next)) []
  | observed (write : WriteId) (next : Settings) (succeeded : Bool) :
      world.sent write = .unwatched next (some succeeded) →
      Moves world thread (.registering write)
        (world.setSent write (.completing next succeeded)) [.observing write]

theorem pending_of_isSome (pending : world.pending.isSome = true) : world.pending ≠ none :=
  Option.isSome_iff_ne_none.mp pending

theorem pending_of_refuses {waited : Bool} (refuses : world.refuses thread waited = true) :
    waited = false ∧ world.pending ≠ none := by
  simp only [ActionWorld.refuses, Bool.and_eq_true, Bool.not_eq_true'] at refuses
  exact ⟨refuses.1.1, pending_of_isSome refuses.1.2⟩

theorem advance_cases {move : FrameMove Settings}
    (advanced : world.advance thread frame move = some (next, frames)) :
    Moves world thread frame next frames := by
  unfold advance at advanced
  split at advanced
  · cases advanced
    exact .passes (.decoded _)
  · cases advanced
    exact .passes .failed
  · next value waited =>
    split at advanced
    · next refuses =>
      cases advanced
      obtain ⟨rfl, pending⟩ := pending_of_refuses refuses
      exact .busy rfl pending
    next accepts =>
    split at advanced
    · next pending =>
      split at advanced
      · contradiction
      · next first =>
        cases advanced
        rw [Bool.not_eq_true] at first
        subst first
        exact .passes (.slept value (Bool.not_eq_true _ ▸ accepts) (pending_of_isSome pending))
    · next free =>
      cases advanced
      exact .updated value waited (by simpa using free)
  · next waited =>
    split at advanced
    · next refuses =>
      cases advanced
      obtain ⟨rfl, pending⟩ := pending_of_refuses refuses
      exact .busy rfl pending
    next accepts =>
    split at advanced
    · next pending =>
      split at advanced
      · contradiction
      · next first =>
        cases advanced
        rw [Bool.not_eq_true] at first
        subst first
        exact .passes (.parked (Bool.not_eq_true _ ▸ accepts) (pending_of_isSome pending))
    · next free =>
      cases advanced
      exact .claimed false (.inl ⟨waited, rfl⟩) (by simpa using free)
  · next waited =>
    split at advanced
    · next refuses =>
      cases advanced
      obtain ⟨rfl, pending⟩ := pending_of_refuses refuses
      exact .busy rfl pending
    split at advanced
    · cases advanced
      exact .passes (.expired waited)
    · contradiction
  · split at advanced
    · next pending =>
      cases advanced
      exact .busy rfl (pending_of_isSome pending)
    · next free =>
      cases advanced
      exact .claimed true (.inr rfl) (by simpa using free)
  · cases advanced
    exact .passes (.encoded _ _ _)
  · cases advanced
    exact .passes (.unencoded _ _)
  · cases advanced
    exact .passes (.unsubmitted _ _ _)
  · cases advanced
    exact .submitted _ _
  · cases advanced
    exact .delivered _ _
  · cases advanced
    exact .committed _ _
  · cases advanced
    exact .released _
  · cases advanced
    exact .abandoned _
  · cases advanced
    exact .reset _ _
  · split at advanced
    · next sent =>
      cases advanced
      exact .watched _ _ sent
    · next sent =>
      cases advanced
      exact .observed _ _ _ sent
    · contradiction
  · split at advanced
    · cases advanced
      exact .passes (.resumed _)
    · contradiction
  · contradiction

/-- What the completion of a write's command and its callback can do. -/
inductive Settles (world : ActionWorld Settings) (write : WriteId) : ActionWorld Settings → Prop
  | heard (next : Settings) (succeeded : Bool) : world.sent write = .unwatched next none →
      Settles world write ((world.log (.completed write succeeded)).setSent write
        (.unwatched next (some succeeded)))
  | notified (next : Settings) (succeeded : Bool) : world.sent write = .watched next →
      Settles world write ((world.log (.completed write succeeded)).setSent write
        (.completing next succeeded))
  | committed (next : Settings) : world.sent write = .completing next true →
      Settles world write ({ world with settings := next, pending := none }.log
        (.committed write next) |>.setSent write (.finishing true))
  | rolledBack (next : Settings) : world.sent write = .completing next false →
      Settles world write ({ world with pending := none }.setSent write (.finishing false))
  | published (succeeded : Bool) : world.sent write = .finishing succeeded →
      Settles world write (world.setSent write (.finished succeeded))

theorem finishSent_cases {write : WriteId} {succeeded : Bool}
    (finished : world.finishSent write succeeded = some next) : Settles world write next := by
  unfold finishSent at finished
  dsimp only at finished
  split at finished
  · next sent =>
    cases finished
    exact .heard _ succeeded sent
  · next sent =>
    cases finished
    exact .notified _ succeeded sent
  · contradiction

theorem completeAsync_cases {write : WriteId}
    (completed : world.completeAsync write = some next) : Settles world write next := by
  unfold completeAsync at completed
  split at completed
  · next sent =>
    cases completed
    exact .committed _ sent
  · next sent =>
    cases completed
    exact .rolledBack _ sent
  · next sent =>
    cases completed
    exact .published _ sent
  · contradiction

inductive Transition (world : ActionWorld Settings) : ActionWorld Settings → Prop
  | called (thread : Nat) (stack : List (Frame Settings)) (method : SettingsMethod) :
      world.threads[thread]? = some stack →
      Transition world { world with threads := world.threads.set thread (method.entry :: stack) }
  | ran (thread : Nat) (frame : Frame Settings) (frames rest : List (Frame Settings))
      (next : ActionWorld Settings) :
      world.threads[thread]? = some (frame :: rest) → Moves world thread frame next frames →
      Transition world { next with threads := world.threads.set thread (frames ++ rest) }
  | settled (write : WriteId) (next : ActionWorld Settings) : Settles world write next →
      Transition world next

theorem step_cases {label : ActionLabel Settings} (stepped : world.step label = some next) :
    Transition world next := by
  cases label with
  | call thread method =>
      simp only [step] at stepped
      split at stepped
      · contradiction
      next found =>
      split at stepped
      · cases stepped
        exact .called thread _ method found
      · contradiction
  | run thread move =>
      simp only [step] at stepped
      split at stepped
      · next found =>
        split at stepped
        · contradiction
        · next advanced =>
          cases stepped
          exact .ran thread _ _ _ _ found (advance_cases advanced)
      · contradiction
  | finishSent write succeeded => exact .settled write next (finishSent_cases stepped)
  | completeAsync write => exact .settled write next (completeAsync_cases stepped)

end ActionWorld

end StreamDockSdk.Action
