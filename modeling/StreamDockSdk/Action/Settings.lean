import Mathlib.Logic.Function.Basic
import StreamDockSdk.Runtime.GlobalSettings

namespace StreamDockSdk.Action

open StreamDockSdk.Runtime

/-! # Settings writes of `Action`

A thread is the stack of its calls, innermost first: the codec and the send
hooks are user code, which may call the action's methods again.  One step is at
most one region under `_settings_lock`.
-/

/-- The completion of one claim, named by the thread that made the claim. -/
structure WriteId where
  thread : Nat
  number : Nat
deriving DecidableEq, Repr

/-- Where a call is in its method; `waited` tells a turn of the waiting loop from
the check before it. -/
inductive Frame (Settings : Type) where
  | decoding
  | updating (next : Settings) (waited : Bool)
  | waiting (waited : Bool)
  | claiming
  | encoding (write : WriteId) (isAsync : Bool)
  | submitting (write : WriteId) (isAsync : Bool) (next : Settings)
  | committing (write : WriteId) (next : Settings)
  /-- The `finally` block of `set_settings`. -/
  | releasing (write : WriteId)
  /-- The `except` block of `set_settings_async`. -/
  | abandoning (write : WriteId)
  /-- The `finally` block of `set_settings_async`. -/
  | resetting (write : WriteId) (submitted : Bool)
  | registering (write : WriteId)
  /-- `add_done_callback` runs the callback itself. -/
  | observing (write : WriteId)

def Frame.runsUserCode {Settings : Type} : Frame Settings → Bool
  | .decoding | .encoding _ _ | .submitting _ _ _ => true
  | _ => false

inductive SettingsMethod where
  | updateSettingsFromWire
  | setSettings
  | setSettingsAsync

def SettingsMethod.entry {Settings : Type} : SettingsMethod → Frame Settings
  | .updateSettingsFromWire => .decoding
  | .setSettings => .waiting false
  | .setSettingsAsync => .claiming

inductive ActionEvent (Settings : Type) where
  | wireUpdated (next : Settings)
  /-- `ActionSettingsBusyError` -/
  | busy (thread : Nat)
  /-- The command of the write completed. -/
  | completed (write : WriteId) (succeeded : Bool)
  | committed (write : WriteId) (next : Settings)

structure ActionWorld (Settings : Type) where
  settings : Settings
  pending : Option WriteId := none
  submittingThread : Option Nat := none
  threads : List (List (Frame Settings))
  sent : WriteId → SentPhase Settings := fun _ => .absent
  claims : Nat := 0
  /-- Newest first. -/
  history : List (ActionEvent Settings) := []

/-- What the step's own work does: the codec returns, or an error is raised. -/
inductive FrameMove (Settings : Type) where
  | proceed
  | yields (next : Settings)
  | raises

inductive ActionLabel (Settings : Type) where
  | call (thread : Nat) (method : SettingsMethod)
  | run (thread : Nat) (move : FrameMove Settings)
  | finishSent (write : WriteId) (succeeded : Bool)
  | completeAsync (write : WriteId)

namespace ActionWorld

variable {Settings : Type} (world : ActionWorld Settings)

/-- The check before the waiting loop of `_wait_for_settings_write`. -/
def refuses (thread : Nat) (waited : Bool) : Bool :=
  !waited && world.pending.isSome && world.submittingThread == some thread

def setSent (write : WriteId) (phase : SentPhase Settings) : ActionWorld Settings :=
  { world with sent := Function.update world.sent write phase }

def log (event : ActionEvent Settings) : ActionWorld Settings :=
  { world with history := event :: world.history }

/-- The thread claims the write. -/
def claim (thread : Nat) (isAsync : Bool) : ActionWorld Settings × List (Frame Settings) :=
  let write : WriteId := { thread, number := world.claims }
  ({ world with
      pending := some write
      submittingThread := some thread
      claims := world.claims + 1 }, [.encoding write isAsync])

/-- The next step of a thread's innermost call; the frames replace that call's. -/
def advance (thread : Nat) :
    Frame Settings → FrameMove Settings → Option (ActionWorld Settings × List (Frame Settings))
  | .decoding, .yields next => some (world, [.updating next false])
  | .decoding, .raises => some (world, [])
  | .updating next waited, .proceed =>
      if world.refuses thread waited then some (world.log (.busy thread), [])
      else if world.pending.isSome then
        if waited then none else some (world, [.updating next true])
      else some ({ world with settings := next }.log (.wireUpdated next), [])
  | .waiting waited, .proceed =>
      if world.refuses thread waited then some (world.log (.busy thread), [])
      else if world.pending.isSome then if waited then none else some (world, [.waiting true])
      else some (world.claim thread false)
  | .waiting waited, .raises =>
      if world.refuses thread waited then some (world.log (.busy thread), [])
      else if world.pending.isSome then some (world, [])
      else none
  | .claiming, .proceed =>
      if world.pending.isSome then some (world.log (.busy thread), [])
      else some (world.claim thread true)
  | .encoding write isAsync, .yields next => some (world, [.submitting write isAsync next])
  | .encoding write isAsync, .raises | .submitting write isAsync _, .raises =>
      some (world, [if isAsync then .abandoning write else .releasing write])
  | .submitting write true next, .proceed =>
      some (world.setSent write (.unwatched next none), [.resetting write true])
  | .submitting write false next, .proceed =>
      some (world.log (.completed write true), [.committing write next])
  | .committing write next, .proceed =>
      some ({ world with settings := next }.log (.committed write next), [.releasing write])
  | .releasing _, .proceed =>
      some ({ world with pending := none, submittingThread := none }, [])
  | .abandoning write, .proceed =>
      some ({ world with pending := none }, [.resetting write false])
  | .resetting write submitted, .proceed =>
      some ({ world with submittingThread := none },
        if submitted then [.registering write] else [])
  | .registering write, .proceed =>
      match world.sent write with
      | .unwatched next none => some (world.setSent write (.watched next), [])
      | .unwatched next (some succeeded) =>
          some (world.setSent write (.completing next succeeded), [.observing write])
      | _ => none
  | .observing write, .proceed =>
      match world.sent write with
      | .finished _ => some (world, [])
      | _ => none
  | _, _ => none

/-- The command's future completes. -/
def finishSent (write : WriteId) (succeeded : Bool) : Option (ActionWorld Settings) :=
  let completed := world.log (.completed write succeeded)
  match world.sent write with
  | .unwatched next none => some (completed.setSent write (.unwatched next (some succeeded)))
  | .watched next => some (completed.setSent write (.completing next succeeded))
  | _ => none

/-- The next step of the callback `finished`. -/
def completeAsync (write : WriteId) : Option (ActionWorld Settings) :=
  match world.sent write with
  | .completing next true =>
      some ({ world with settings := next, pending := none }.log (.committed write next)
        |>.setSent write (.finishing true))
  | .completing _ false =>
      some ({ world with pending := none }.setSent write (.finishing false))
  | .finishing succeeded => some (world.setSent write (.finished succeeded))
  | _ => none

def step : ActionLabel Settings → Option (ActionWorld Settings)
  | .call thread method =>
      match world.threads[thread]? with
      | none => none
      | some stack =>
          if (stack.head?.map Frame.runsUserCode).getD true then
            some { world with threads := world.threads.set thread (method.entry :: stack) }
          else none
  | .run thread move =>
      match world.threads[thread]? with
      | some (frame :: rest) =>
          match world.advance thread frame move with
          | none => none
          | some (next, frames) =>
              some { next with threads := world.threads.set thread (frames ++ rest) }
      | _ => none
  | .finishSent write succeeded => world.finishSent write succeeded
  | .completeAsync write => world.completeAsync write

end ActionWorld

/-- Every run of an action's settings methods on some number of threads. -/
def actionSystem {Settings : Type} (initial : Settings) :
    Automaton.System (ActionWorld Settings) (ActionLabel Settings) where
  initial world := ∃ count, world = {
    settings := initial
    threads := List.replicate count [] }
  step := ActionWorld.step

end StreamDockSdk.Action
