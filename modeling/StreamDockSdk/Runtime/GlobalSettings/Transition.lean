import StreamDockSdk.Runtime.GlobalSettings

namespace StreamDockSdk.Runtime

variable {Settings : Type}

def SettingsRequest.apply : SettingsRequest Settings → Settings → Option Settings
  | .set settings, _ => settings
  | .update change, current => change current

/-- The settings that the operation makes of the current ones. -/
def SettingsOperation.apply : SettingsOperation Settings → Settings → Option Settings
  | .receive source, _ => some source
  | .write request _, current => request.apply current

namespace DefaultGlobalSettingsState

variable {state : DefaultGlobalSettingsState Settings} {index : Nat}
variable {call : SettingsCall Settings} {next : SettingsAdvance Settings}

/-- The command is built from nothing but the draft, if there is one. -/
def Builds (call : SettingsCall Settings) (source : Settings) : Prop :=
  (call.pc = .preparing ∧ ∀ current, call.operation.apply current = some source) ∨
    ∃ draft, call.pc = .updating draft ∧ call.operation.apply draft = some source

inductive Moves (state : DefaultGlobalSettingsState Settings) (index : Nat)
    (call : SettingsCall Settings) : SettingsAdvance Settings → Prop
  | refused : call.pc = .acquiring → Moves state index call {
      state, call := { call with pc := .returned false }, events := [.returned index false] }
  | acquired : call.pc = .acquiring → state.writeLock = none → Moves state index call {
      state := { state with writeLock := some index }
      call := { call with pc := .waiting } }
  | retreated : call.pc = .waiting →
      Moves state index call { state, call := { call with pc := .releasing false } }
  | entered : call.pc = .waiting → state.pending = none →
      Moves state index call { state, call := { call with pc := .entering } }
  | deepened : call.pc = .entering → Moves state index call {
      state := { state with writeDepth := state.writeDepth + 1 }
      call := { call with pc := .preparing } }
  | drafted : call.pc = .preparing → Moves state index call {
      state
      call := { call with pc := .updating state.settings }
      events := [.drafted index] }
  | built (source : Settings) (pc : SettingsPc Settings) : Builds call source →
      pc = .replacing source ∨ pc = .sending source ∨ pc = .marking source →
      (pc = .marking source → call.operation.isAsync = true) →
      Moves state index call { state, call := { call with pc } }
  | abandoned : call.pc = .preparing ∨ (∃ draft, call.pc = .updating draft) ∨
        (∃ source, call.pc = .sending source) →
      Moves state index call {
        state, call := { call with pc := .leaving false }, events := [.rolledBack index] }
  | persisted (source : Settings) : call.pc = .sending source →
      Moves state index call { state, call := { call with pc := .replacing source } }
  | committed (source : Settings) : call.pc = .replacing source → Moves state index call {
      state := state.replace source
      call := { call with pc := .leaving true }
      events := [.committed index call.operation] }
  | marked (source : Settings) : call.pc = .marking source → Moves state index call {
      state := { state with pending := some index }
      call := { call with pc := .submitting source }
      events := [.submitted index] }
  | submitted (source : Settings) : call.pc = .submitting source → Moves state index call {
      state, call := { call with pc := .registering, sent := .unwatched source none } }
  | unsubmitted (source : Settings) : call.pc = .submitting source →
      Moves state index call { state, call := { call with pc := .clearing } }
  | cleared : call.pc = .clearing → Moves state index call {
      state := { state with pending := none }
      call := { call with pc := .leaving false }
      events := [.rolledBack index] }
  | watched (source : Settings) : call.pc = .registering → call.sent = .unwatched source none →
      Moves state index call {
        state, call := { call with pc := .leaving true, sent := .watched source } }
  | observed (source : Settings) (succeeded : Bool) : call.pc = .registering →
      call.sent = .unwatched source (some succeeded) → Moves state index call {
        state, call := { call with pc := .observing, sent := .completing source succeeded } }
  | resumed (succeeded : Bool) : call.pc = .observing → call.sent = .finished succeeded →
      Moves state index call { state, call := { call with pc := .leaving true } }
  | left (succeeds : Bool) : call.pc = .leaving succeeds → Moves state index call {
      state := { state with writeDepth := state.writeDepth - 1 }
      call := { call with pc := .releasing succeeds } }
  | released (succeeds : Bool) : call.pc = .releasing succeeds → Moves state index call {
      state := { state with writeLock := none }
      call := { call with pc := .returned succeeds }
      events := [.returned index succeeds] }
  | heard (source : Settings) (succeeded : Bool) : call.sent = .unwatched source none →
      Moves state index call {
        state, call := { call with sent := .unwatched source (some succeeded) } }
  | notified (source : Settings) (succeeded : Bool) : call.sent = .watched source →
      Moves state index call { state, call := { call with sent := .completing source succeeded } }
  | settled (source : Settings) : call.sent = .completing source true →
      Moves state index call {
        state := { state.replace source with pending := none }
        call := { call with sent := .finishing true }
        events := [.committed index call.operation] }
  | failed (source : Settings) : call.sent = .completing source false →
      Moves state index call {
        state := { state with pending := none }
        call := { call with sent := .finishing false }
        events := [.rolledBack index] }
  | completed (succeeded : Bool) (tracker : TrackerPhase) : call.sent = .finishing succeeded →
      tracker = call.tracker ∨ tracker = .finishing succeeded →
      (call.tracker = .watching → tracker ≠ .watching) →
      Moves state index call {
        state
        call := { call with sent := .finished succeeded, tracker }
        events := [.completed index succeeded] }
  | follows (tracker : TrackerPhase) : call.pc = .returned true → call.tracker = .absent →
      tracker = .watching ∨
        (∃ succeeded, call.sent = .finished succeeded ∧ tracker = .finishing succeeded) →
      Moves state index call { state, call := { call with tracker } }
  | tracked (succeeded : Bool) : call.tracker = .finishing succeeded → Moves state index call {
      state
      call := { call with tracker := .finished succeeded }
      events := [.tracked index succeeded] }

theorem submission_cases (isAsync : Bool) (source : Settings) :
    submission isAsync (some source) = .replacing source ∨
      submission isAsync (some source) = .sending source ∨
      submission isAsync (some source) = .marking source := by
  cases isAsync with
  | true => exact .inr (.inr rfl)
  | false => exact .inr (.inl rfl)

theorem submission_marks {isAsync : Bool} {source : Settings}
    (marking : submission isAsync (some source) = .marking source) : isAsync = true := by
  cases isAsync with
  | true => rfl
  | false => contradiction

theorem awaitIdle_cases {isAsync : Bool} {pc : SettingsPc Settings}
    (decided : state.awaitIdle isAsync = some pc) :
    pc = .releasing false ∨ pc = .entering ∧ state.pending = none := by
  unfold awaitIdle at decided
  cases pending : state.pending with
  | none =>
      simp only [pending] at decided
      split at decided <;> split at decided <;> simp_all
  | some call =>
      simp only [pending] at decided
      split at decided <;> split at decided <;> simp_all

theorem advance_cases {raises : Bool} (advanced : state.advance index call raises = some next) :
    Moves state index call next := by
  unfold advance at advanced
  dsimp only at advanced
  split at advanced
  · next here =>
    cases advanced
    exact .refused here
  · next here =>
    split at advanced
    · next free =>
      cases advanced
      exact .acquired here (Option.isNone_iff_eq_none.mp free)
    split at advanced
    · cases advanced
      exact .refused here
    · contradiction
  · next here =>
    split at advanced
    · cases advanced
      exact .retreated here
    · contradiction
  · next here =>
    simp only [Option.map_eq_some_iff] at advanced
    obtain ⟨pc, decided, rfl⟩ := advanced
    rcases awaitIdle_cases decided with rfl | ⟨rfl, idle⟩
    · exact .retreated here
    · exact .entered here idle
  · next here =>
    cases advanced
    exact .deepened here
  · next here =>
    split at advanced
    · next source operation =>
      cases advanced
      exact .built source _ (.inl ⟨here, fun _ => by rw [operation]; rfl⟩) (.inl rfl) nofun
    · cases advanced
      exact .abandoned (.inl here)
    · next source isAsync operation =>
      cases advanced
      refine .built source _ (.inl ⟨here, fun _ => by rw [operation]; rfl⟩)
        (submission_cases isAsync source) fun marking => ?_
      rw [operation]
      exact submission_marks marking
    · cases advanced
      exact .drafted here
  · next draft here =>
    split at advanced
    · next change isAsync operation =>
      split at advanced
      · cases advanced
        exact .abandoned (.inr (.inl ⟨draft, here⟩))
      · next source changed =>
        cases advanced
        refine .built source _ (.inr ⟨draft, here, ?_⟩) (submission_cases isAsync source)
          fun marking => ?_
        · rw [operation]
          exact changed
        · rw [operation]
          exact submission_marks marking
    · contradiction
  · next source here =>
    cases advanced
    exact .persisted source here
  · next source here =>
    cases advanced
    exact .abandoned (.inr (.inr ⟨source, here⟩))
  · next source here =>
    cases advanced
    exact .committed source here
  · next source here =>
    cases advanced
    exact .marked source here
  · next source here =>
    cases advanced
    exact .submitted source here
  · next source here =>
    cases advanced
    exact .unsubmitted source here
  · next here =>
    cases advanced
    exact .cleared here
  · next here =>
    split at advanced
    · next source sent =>
      cases advanced
      exact .watched source here sent
    · next source succeeded sent =>
      cases advanced
      exact .observed source succeeded here sent
    · contradiction
  · next here =>
    split at advanced
    · next succeeded sent =>
      cases advanced
      exact .resumed succeeded here sent
    · contradiction
  · next succeeds here =>
    cases advanced
    exact .left succeeds here
  · next succeeds here =>
    cases advanced
    exact .released succeeds here
  · contradiction

theorem finishSent_cases {succeeded : Bool} (heard : state.finishSent call succeeded = some next) :
    Moves state index call next := by
  unfold finishSent at heard
  split at heard
  · next source sent =>
    cases heard
    exact .heard source succeeded sent
  · next source sent =>
    cases heard
    exact .notified source succeeded sent
  · contradiction

theorem completeAsync_cases (completed : state.completeAsync index call = some next) :
    Moves state index call next := by
  unfold completeAsync at completed
  split at completed
  · next source sent =>
    cases completed
    exact .settled source sent
  · next source sent =>
    cases completed
    exact .failed source sent
  · next succeeded sent =>
    cases completed
    cases tracker : call.tracker with
    | watching => exact .completed succeeded _ sent (.inr rfl) nofun
    | absent | finishing | finished =>
        exact .completed succeeded _ sent (.inl tracker.symm) (by simp [tracker])
  · contradiction

theorem track_cases (followed : state.track call = some next) : Moves state index call next := by
  unfold track at followed
  split at followed
  · next here absent =>
    cases followed
    refine .follows _ here absent ?_
    split
    · next succeeded sent => exact .inr ⟨succeeded, sent, rfl⟩
    · exact .inl rfl
  · contradiction

theorem completeTracked_cases (tracked : state.completeTracked index call = some next) :
    Moves state index call next := by
  unfold completeTracked at tracked
  split at tracked
  · next succeeded finishing =>
    cases tracked
    exact .tracked succeeded finishing
  · contradiction

end DefaultGlobalSettingsState

theorem GlobalSettingsWorld.moved_cases {world : GlobalSettingsWorld Settings} {index : Nat}
    {call : SettingsCall Settings} {move : SettingsMove} {next : SettingsAdvance Settings}
    (moved : world.moved index call move = some next) :
    world.state.Moves index call next := by
  cases move with
  | proceed raises => exact DefaultGlobalSettingsState.advance_cases moved
  | finishSent succeeded => exact DefaultGlobalSettingsState.finishSent_cases moved
  | completeAsync => exact DefaultGlobalSettingsState.completeAsync_cases moved
  | track => exact DefaultGlobalSettingsState.track_cases moved
  | completeTracked => exact DefaultGlobalSettingsState.completeTracked_cases moved

end StreamDockSdk.Runtime
