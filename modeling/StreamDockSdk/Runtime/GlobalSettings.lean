import StreamDockSdk.Automaton.System

namespace StreamDockSdk.Runtime

/-! # `DefaultGlobalSettingsState` and `_track_async_update`

Each call of a method is an entry of its own, which also stands for the thread
that makes it: no thread here calls into its own transaction, so threads matter
only as owners of `_write_lock`.  One step is at most one region under `_lock`.
-/

/-- The settings of a write; `none` where building the command raises.  The
settings of `set_typed` are those that the codec returned. -/
inductive SettingsRequest (Settings : Type) where
  | set (settings : Option Settings)
  | update (change : Settings → Option Settings)

inductive SettingsOperation (Settings : Type) where
  | receive (source : Settings)
  | write (request : SettingsRequest Settings) (isAsync : Bool)

def SettingsOperation.isAsync {Settings : Type} : SettingsOperation Settings → Bool
  | .receive _ => false
  | .write _ isAsync => isAsync

inductive SettingsPc (Settings : Type) where
  | acquiring
  | waiting
  | entering
  | preparing
  | updating (draft : Settings)
  | sending (source : Settings)
  | replacing (source : Settings)
  | marking (source : Settings)
  | submitting (source : Settings)
  | clearing
  | registering
  /-- `add_done_callback` runs the callback itself. -/
  | observing
  | leaving (succeeds : Bool)
  | releasing (succeeds : Bool)
  | returned (succeeds : Bool)

/-- The command's future and the rest of its callback `_complete_async`. -/
inductive SentPhase (Settings : Type) where
  | absent
  | unwatched (source : Settings) (result : Option Bool)
  | watched (source : Settings)
  | completing (source : Settings) (succeeded : Bool)
  | finishing (succeeded : Bool)
  | finished (succeeded : Bool)

/-- The future of `_track_async_update` and the rest of its callback. -/
inductive TrackerPhase where
  | absent
  | watching
  | finishing (succeeded : Bool)
  | finished (succeeded : Bool)

structure SettingsCall (Settings : Type) where
  operation : SettingsOperation Settings
  pc : SettingsPc Settings := .acquiring
  sent : SentPhase Settings := .absent
  tracker : TrackerPhase := .absent

/-- `_pending` is named by the call that set it. -/
structure DefaultGlobalSettingsState (Settings : Type) where
  writeLock : Option Nat := none
  writeDepth : Nat := 0
  pending : Option Nat := none
  settings : Settings
  loaded : Bool := false

inductive SettingsEvent (Settings : Type) where
  | drafted (call : Nat)
  | submitted (call : Nat)
  | committed (call : Nat) (operation : SettingsOperation Settings)
  | rolledBack (call : Nat)
  | returned (call : Nat) (succeeds : Bool)
  | completed (call : Nat) (succeeded : Bool)
  | tracked (call : Nat) (succeeded : Bool)

/-- The state, the call and the new events after one step of a call. -/
structure SettingsAdvance (Settings : Type) where
  state : DefaultGlobalSettingsState Settings
  call : SettingsCall Settings
  events : List (SettingsEvent Settings) := []

namespace DefaultGlobalSettingsState

variable {Settings : Type} (state : DefaultGlobalSettingsState Settings)

/-- `_replace_locked` -/
def replace (source : Settings) : DefaultGlobalSettingsState Settings :=
  { state with settings := source, loaded := true }

/-- `_wait_for_pending` or `_require_idle_locked`, up to a wait. -/
def awaitIdle (isAsync : Bool) : Option (SettingsPc Settings) :=
  if isAsync then
    if state.pending.isSome || state.writeDepth != 0 then some (.releasing false)
    else some .entering
  else if state.writeDepth != 0 && state.pending.isSome then some (.releasing false)
  else if state.pending.isSome then none
  else some .entering

/-- The built command goes to `send` or, after the marker is set, to `send_async`. -/
def submission (isAsync : Bool) : Option Settings → SettingsPc Settings
  | none => .leaving false
  | some source => if isAsync then .marking source else .sending source

/-- The next step of a call; `raises` says that it is an error of the step's own
work, such as `send` raising or a deadline that has passed. -/
def advance (index : Nat) (call : SettingsCall Settings) (raises : Bool) :
    Option (SettingsAdvance Settings) :=
  let stays (pc : SettingsPc Settings) : SettingsAdvance Settings :=
    { state, call := { call with pc } }
  let abandons (pc : SettingsPc Settings) : SettingsAdvance Settings :=
    { state, call := { call with pc }, events := [.rolledBack index] }
  match call.pc, raises with
  | .acquiring, true => some { stays (.returned false) with events := [.returned index false] }
  | .acquiring, false =>
      if state.writeLock.isNone then
        some { stays .waiting with state := { state with writeLock := some index } }
      else if call.operation.isAsync then
        some { stays (.returned false) with events := [.returned index false] }
      else none
  | .waiting, true =>
      if !call.operation.isAsync && state.pending.isSome then some (stays (.releasing false))
      else none
  | .waiting, false => (state.awaitIdle call.operation.isAsync).map stays
  | .entering, false =>
      some { stays .preparing with state := { state with writeDepth := state.writeDepth + 1 } }
  | .preparing, false =>
      match call.operation with
      | .receive source => some (stays (.replacing source))
      | .write (.set none) _ => some (abandons (.leaving false))
      | .write (.set (some source)) isAsync => some (stays (submission isAsync (some source)))
      | .write (.update _) _ =>
          some { stays (.updating state.settings) with events := [.drafted index] }
  | .updating draft, false =>
      match call.operation with
      | .write (.update change) isAsync =>
          match change draft with
          | none => some (abandons (.leaving false))
          | some source => some (stays (submission isAsync (some source)))
      | _ => none
  | .sending source, false => some (stays (.replacing source))
  | .sending _, true => some (abandons (.leaving false))
  | .replacing source, false =>
      some { stays (.leaving true) with
        state := state.replace source
        events := [.committed index call.operation] }
  | .marking source, false =>
      some { stays (.submitting source) with
        state := { state with pending := some index }
        events := [.submitted index] }
  | .submitting source, false =>
      some { state, call := { call with pc := .registering, sent := .unwatched source none } }
  | .submitting _, true => some (stays .clearing)
  | .clearing, false =>
      some { abandons (.leaving false) with state := { state with pending := none } }
  | .registering, false =>
      match call.sent with
      | .unwatched source none =>
          some { state, call := { call with pc := .leaving true, sent := .watched source } }
      | .unwatched source (some succeeded) =>
          some { state, call := { call with
            pc := .observing
            sent := .completing source succeeded } }
      | _ => none
  | .observing, false =>
      match call.sent with
      | .finished _ => some (stays (.leaving true))
      | _ => none
  | .leaving succeeds, false =>
      some { stays (.releasing succeeds) with
        state := { state with writeDepth := state.writeDepth - 1 } }
  | .releasing succeeds, false =>
      some { stays (.returned succeeds) with
        state := { state with writeLock := none }
        events := [.returned index succeeds] }
  | _, _ => none

/-- The sender completes the command's future. -/
def finishSent (call : SettingsCall Settings) (succeeded : Bool) :
    Option (SettingsAdvance Settings) :=
  match call.sent with
  | .unwatched source none =>
      some { state, call := { call with sent := .unwatched source (some succeeded) } }
  | .watched source => some { state, call := { call with sent := .completing source succeeded } }
  | _ => none

/-- The next step of `_complete_async`. -/
def completeAsync (index : Nat) (call : SettingsCall Settings) :
    Option (SettingsAdvance Settings) :=
  match call.sent with
  | .completing source true => some {
      state := { state.replace source with pending := none }
      call := { call with sent := .finishing true }
      events := [.committed index call.operation] }
  | .completing _ false => some {
      state := { state with pending := none }
      call := { call with sent := .finishing false }
      events := [.rolledBack index] }
  | .finishing succeeded => some {
      state
      call := { call with
        sent := .finished succeeded
        tracker := match call.tracker with
          | .watching => .finishing succeeded
          | tracker => tracker }
      events := [.completed index succeeded] }
  | _ => none

/-- `_track_async_update` with the future that the call returned. -/
def track (call : SettingsCall Settings) : Option (SettingsAdvance Settings) :=
  match call.operation.isAsync, call.pc, call.tracker with
  | true, .returned true, .absent => some {
      state
      call := { call with
        tracker := match call.sent with
          | .finished succeeded => .finishing succeeded
          | _ => .watching } }
  | _, _, _ => none

/-- The callback of `_track_async_update`. -/
def completeTracked (index : Nat) (call : SettingsCall Settings) :
    Option (SettingsAdvance Settings) :=
  match call.tracker with
  | .finishing succeeded => some {
      state
      call := { call with tracker := .finished succeeded }
      events := [.tracked index succeeded] }
  | _ => none

end DefaultGlobalSettingsState

structure GlobalSettingsWorld (Settings : Type) where
  state : DefaultGlobalSettingsState Settings
  calls : List (SettingsCall Settings) := []
  /-- Newest first. -/
  history : List (SettingsEvent Settings) := []

inductive SettingsMove where
  | proceed (raises : Bool)
  | finishSent (succeeded : Bool)
  | completeAsync
  | track
  | completeTracked

inductive SettingsLabel (Settings : Type) where
  | begin (operation : SettingsOperation Settings)
  | move (index : Nat) (move : SettingsMove)

namespace GlobalSettingsWorld

variable {Settings : Type} (world : GlobalSettingsWorld Settings)

def moved (index : Nat) (call : SettingsCall Settings) :
    SettingsMove → Option (SettingsAdvance Settings)
  | .proceed raises => world.state.advance index call raises
  | .finishSent succeeded => world.state.finishSent call succeeded
  | .completeAsync => world.state.completeAsync index call
  | .track => world.state.track call
  | .completeTracked => world.state.completeTracked index call

def step : SettingsLabel Settings → Option (GlobalSettingsWorld Settings)
  | .begin operation => some { world with calls := world.calls ++ [{ operation }] }
  | .move index move =>
      match world.calls[index]? with
      | none => none
      | some call => (world.moved index call move).map fun next => {
          state := next.state
          calls := world.calls.set index next.call
          history := next.events ++ world.history }

end GlobalSettingsWorld

/-- Every run from unloaded settings, with any calls on any threads. -/
def globalSettingsSystem {Settings : Type} (initial : Settings) :
    Automaton.System (GlobalSettingsWorld Settings) (SettingsLabel Settings) where
  initial world := world = { state := { settings := initial } }
  step := GlobalSettingsWorld.step

end StreamDockSdk.Runtime
