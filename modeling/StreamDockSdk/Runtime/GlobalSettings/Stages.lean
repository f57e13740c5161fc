import StreamDockSdk.Runtime.GlobalSettings.Transition

namespace StreamDockSdk.Runtime

variable {Settings : Type}

namespace SettingsEvent

def call : SettingsEvent Settings → Nat
  | .drafted call | .submitted call | .committed call _ | .rolledBack call
  | .returned call _ | .completed call _ | .tracked call _ => call

def operation? : SettingsEvent Settings → Option (SettingsOperation Settings)
  | .committed _ operation => some operation
  | _ => none

end SettingsEvent

/-- The operations that took effect, newest first. -/
def operations (history : List (SettingsEvent Settings)) : List (SettingsOperation Settings) :=
  history.filterMap SettingsEvent.operation?

/-- The write has been committed or given up. -/
def Concluded (history : List (SettingsEvent Settings)) (call : Nat) : Prop :=
  (∃ operation, .committed call operation ∈ history) ∨ .rolledBack call ∈ history

/-- How far the transaction of a call has come. -/
inductive TransactionStage where
  | outside
  | exclusive
  | outstanding
  | isOver (succeeded : Bool)

namespace SettingsPc

def holdsLock : SettingsPc Settings → Bool
  | .acquiring | .returned _ => false
  | _ => true

def stage : SettingsPc Settings → TransactionStage
  | .acquiring | .waiting => .outside
  | .entering | .preparing | .updating _ | .sending _ | .replacing _ | .marking _ => .exclusive
  | .submitting _ | .clearing | .registering | .observing => .outstanding
  | .leaving succeeds | .releasing succeeds | .returned succeeds => .isOver succeeds

def source? : SettingsPc Settings → Option Settings
  | .sending source | .replacing source | .marking source | .submitting source => some source
  | _ => none

/-- The places that only an asynchronous write comes to. -/
def isAsync : SettingsPc Settings → Bool
  | .marking _ | .submitting _ | .clearing | .registering | .observing => true
  | _ => false

end SettingsPc

namespace SentPhase

def stage? : SentPhase Settings → Option TransactionStage
  | .absent => none
  | .unwatched _ _ | .watched _ | .completing _ _ => some .outstanding
  | .finishing succeeded | .finished succeeded => some (.isOver succeeded)

def source? : SentPhase Settings → Option Settings
  | .unwatched source _ | .watched source | .completing source _ => some source
  | _ => none

end SentPhase

namespace SettingsCall

def stage (call : SettingsCall Settings) : TransactionStage :=
  call.sent.stage?.getD call.pc.stage

/-- Which phases of the command's future go with the place of the call. -/
def Placed (call : SettingsCall Settings) : Prop :=
  match call.pc with
  | .registering | .observing => call.sent ≠ .absent
  | .leaving succeeds | .releasing succeeds | .returned succeeds =>
      call.sent = .absent ∨ succeeds = true
  | _ => call.sent = .absent

theorem stage_absent {call : SettingsCall Settings} (absent : call.sent = .absent) :
    call.stage = call.pc.stage := by
  simp only [stage, absent, SentPhase.stage?, Option.getD_none]

theorem exclusive_holdsLock {call : SettingsCall Settings} (exclusive : call.stage = .exclusive) :
    call.pc.holdsLock = true := by
  unfold stage at exclusive
  cases sent : call.sent with
  | absent =>
      cases here : call.pc <;> simp_all [SentPhase.stage?, SettingsPc.stage, SettingsPc.holdsLock]
  | unwatched | watched | completing | finishing | finished =>
      simp [sent, SentPhase.stage?] at exclusive

theorem source_stage {call : SettingsCall Settings} {source : Settings} (placed : call.Placed)
    (ready : call.pc.source? = some source ∨ call.sent.source? = some source) :
    call.stage = .exclusive ∨ call.stage = .outstanding := by
  unfold Placed at placed
  unfold stage
  rcases ready with ready | ready
  · cases here : call.pc <;>
      simp_all [SentPhase.stage?, SettingsPc.stage, SettingsPc.source?]
  · cases sent : call.sent <;> simp_all [SentPhase.stage?, SentPhase.source?]

theorem draft_stage {call : SettingsCall Settings} {draft : Settings} (placed : call.Placed)
    (here : call.pc = .updating draft) : call.stage = .exclusive := by
  unfold Placed at placed
  simp only [here] at placed
  rw [stage_absent placed, here]
  rfl

end SettingsCall

/-- What a call may rely on in the shared state. -/
structure CallStands (state : DefaultGlobalSettingsState Settings) (index : Nat)
    (call : SettingsCall Settings) : Prop where
  locked : call.pc.holdsLock = true → state.writeLock = some index
  exclusive : call.stage = .exclusive → state.pending = none
  outstanding : call.stage = .outstanding → state.pending = some index
  ready : ∀ source, call.pc.source? = some source ∨ call.sent.source? = some source →
    call.operation.apply state.settings = some source
  draft : ∀ draft, call.pc = .updating draft → draft = state.settings
  placed : call.Placed
  direct : call.operation.isAsync = false → call.pc.isAsync = false ∧ call.sent = .absent

/-- Steps of one call leave what the others rely on as it is. -/
structure Respects (index : Nat) (before after : DefaultGlobalSettingsState Settings) : Prop where
  lock : ∀ other, other ≠ index → before.writeLock = some other → after.writeLock = some other
  marker : ∀ other, other ≠ index → before.pending = some other →
    after.pending = some other ∧ after.settings = before.settings
  idle : ∀ other, other ≠ index → before.writeLock = some other → before.pending = none →
    after.pending = none ∧ after.settings = before.settings

/-- The steps of the abstract transaction of a call, with their events. -/
inductive StageMoves (index : Nat) (operation : SettingsOperation Settings) :
    TransactionStage → List (SettingsEvent Settings) → TransactionStage → Prop
  | idle (stage : TransactionStage) : StageMoves index operation stage [] stage
  | draft : StageMoves index operation .exclusive [.drafted index] .exclusive
  | report (stage : TransactionStage) (event : SettingsEvent Settings) :
      (∃ succeeds, event = .returned index succeeds) ∨
        (∃ succeeded, event = .completed index succeeded) ∨
        (∃ succeeded, event = .tracked index succeeded) →
      StageMoves index operation stage [event] stage
  | refuse : StageMoves index operation .outside [.returned index false] (.isOver false)
  | retreat : StageMoves index operation .outside [] (.isOver false)
  | enter : StageMoves index operation .outside [] .exclusive
  | submit : StageMoves index operation .exclusive [.submitted index] .outstanding
  | commit (stage : TransactionStage) : stage = .exclusive ∨ stage = .outstanding →
      StageMoves index operation stage [.committed index operation] (.isOver true)
  | rollBack (stage : TransactionStage) : stage = .exclusive ∨ stage = .outstanding →
      StageMoves index operation stage [.rolledBack index] (.isOver false)

namespace DefaultGlobalSettingsState

variable {state : DefaultGlobalSettingsState Settings} {index : Nat}
variable {call : SettingsCall Settings} {next : SettingsAdvance Settings}

/-- Every step of a call is one of its transaction. -/
theorem Moves.stageMoves (moves : state.Moves index call next) (placed : call.Placed) :
    StageMoves index call.operation call.stage next.events next.call.stage := by
  unfold SettingsCall.Placed at placed
  unfold SettingsCall.stage
  cases moves with
  | refused here | acquired here | retreated here | entered here | deepened here | drafted here
  | persisted source here | committed source here | marked source here | submitted source here
  | unsubmitted source here | cleared here =>
      simp only [here] at placed
      simp only [here, placed, SentPhase.stage?, SettingsPc.stage, Option.getD_none,
        Option.getD_some]
      constructor <;> simp
  | built source pc builds goes =>
      have exclusive : call.pc.stage = .exclusive ∧ call.sent = .absent := by
        rcases builds with ⟨here, _⟩ | ⟨draft, here, _⟩
        all_goals
          simp only [here] at placed
          exact ⟨by rw [here]; rfl, placed⟩
      rcases goes with rfl | rfl | rfl
      all_goals
        simp only [exclusive, SentPhase.stage?, Option.getD_none]
        exact .idle .exclusive
  | abandoned here =>
      have exclusive : call.pc.stage = .exclusive ∧ call.sent = .absent := by
        rcases here with here | ⟨draft, here⟩ | ⟨source, here⟩
        all_goals
          simp only [here] at placed
          exact ⟨by rw [here]; rfl, placed⟩
      simp only [exclusive, SentPhase.stage?, Option.getD_none]
      exact .rollBack .exclusive (.inl rfl)
  | watched source here sent | observed source succeeded here sent | resumed succeeded here sent =>
      simp only [sent, SentPhase.stage?, Option.getD_some]
      exact .idle _
  | left succeeds here =>
      simp only [here, SettingsPc.stage]
      exact .idle _
  | released succeeds here =>
      simp only [here, SettingsPc.stage]
      exact .report _ _ (.inl ⟨succeeds, rfl⟩)
  | heard source succeeded sent | notified source succeeded sent =>
      simp only [sent, SentPhase.stage?, Option.getD_some]
      exact .idle _
  | settled source sent =>
      simp only [sent, SentPhase.stage?, Option.getD_some]
      exact .commit .outstanding (.inr rfl)
  | failed source sent =>
      simp only [sent, SentPhase.stage?, Option.getD_some]
      exact .rollBack .outstanding (.inr rfl)
  | completed succeeded tracker sent =>
      simp only [sent, SentPhase.stage?, Option.getD_some]
      exact .report _ _ (.inr (.inl ⟨succeeded, rfl⟩))
  | follows => exact .idle _
  | tracked succeeded => exact .report _ _ (.inr (.inr ⟨succeeded, rfl⟩))

theorem Moves.placed (moves : state.Moves index call next) (placed : call.Placed) :
    next.call.Placed := by
  unfold SettingsCall.Placed at placed ⊢
  cases moves with
  | refused here | acquired here | retreated here | entered here | deepened here | drafted here
  | persisted source here | committed source here | marked source here | submitted source here
  | unsubmitted source here | cleared here | watched source here | observed source succeeded here
  | resumed succeeded here | left succeeds here | released succeeds here =>
      simp only [here] at placed
      simp [placed]
  | built source pc builds goes =>
      have absent : call.sent = .absent := by
        rcases builds with ⟨here, _⟩ | ⟨draft, here, _⟩ <;> simpa only [here] using placed
      rcases goes with rfl | rfl | rfl <;> exact absent
  | abandoned here =>
      have absent : call.sent = .absent := by
        rcases here with here | ⟨draft, here⟩ | ⟨source, here⟩ <;> simpa only [here] using placed
      exact .inl absent
  | heard source succeeded sent | notified source succeeded sent | settled source sent
  | failed source sent | completed succeeded tracker sent =>
      cases here : call.pc <;> simp_all
  | follows | tracked => exact placed

/-- What a call relies on in the shared state survives the steps of the others. -/
theorem Moves.respects (moves : state.Moves index call next)
    (stands : CallStands state index call) : Respects index state next.state := by
  have quiet : ∀ {after : DefaultGlobalSettingsState Settings},
      after.writeLock = state.writeLock → after.pending = state.pending →
      after.settings = state.settings → Respects index state after := by
    intro after lock pending settings
    exact ⟨fun _ _ held => lock.trans held, fun _ _ held => ⟨pending.trans held, settings⟩,
      fun _ _ _ idle => ⟨pending.trans idle, settings⟩⟩
  have locked : call.pc.holdsLock = true → ∀ other, other ≠ index →
      state.writeLock ≠ some other := by
    intro holds other different held
    rw [stands.locked holds, Option.some.injEq] at held
    exact different held.symm
  have alone : call.pc.holdsLock = true → call.stage = .exclusive →
      ∀ after : DefaultGlobalSettingsState Settings, after.writeLock = state.writeLock →
        Respects index state after := by
    intro holds exclusive after lock
    refine ⟨fun _ _ held => lock.trans held, fun other _ held => ?_,
      fun other different held => absurd held (locked holds other different)⟩
    rw [stands.exclusive exclusive] at held
    contradiction
  have marked : call.stage = .outstanding →
      ∀ after : DefaultGlobalSettingsState Settings, after.writeLock = state.writeLock →
        Respects index state after := by
    intro outstanding after lock
    have mine := stands.outstanding outstanding
    refine ⟨fun _ _ held => lock.trans held, fun other different held => ?_,
      fun _ _ _ idle => ?_⟩
    · rw [mine, Option.some.injEq] at held
      exact absurd held.symm different
    · rw [mine] at idle
      contradiction
  have placed := stands.placed
  unfold SettingsCall.Placed at placed
  cases moves with
  | acquired _ free =>
      refine ⟨fun other _ held => ?_, fun _ _ held => ⟨held, rfl⟩, fun other _ held => ?_⟩
      all_goals
        rw [free] at held
        contradiction
  | committed source here | marked source here =>
      simp only [here] at placed
      exact alone (by rw [here]; rfl) (by rw [SettingsCall.stage_absent placed, here]; rfl) _ rfl
  | cleared here =>
      simp only [here] at placed
      exact marked (by rw [SettingsCall.stage_absent placed, here]; rfl) _ rfl
  | released succeeds here =>
      have holds : call.pc.holdsLock = true := by rw [here]; rfl
      exact ⟨fun other different held => absurd held (locked holds other different),
        fun _ _ held => ⟨held, rfl⟩, fun _ _ _ idle => ⟨idle, rfl⟩⟩
  | settled source sent | failed source sent =>
      exact marked (by simp only [SettingsCall.stage, sent]; rfl) _ rfl
  | _ => exact quiet rfl rfl rfl

theorem Moves.locked (moves : state.Moves index call next)
    (stands : CallStands state index call) (holds : next.call.pc.holdsLock = true) :
    next.state.writeLock = some index := by
  have locked := stands.locked
  cases moves with
  | refused | released => contradiction
  | acquired => rfl
  | built source pc builds =>
      rcases builds with ⟨here, _⟩ | ⟨draft, here, _⟩ <;> exact locked (by rw [here]; rfl)
  | abandoned here =>
      rcases here with here | ⟨draft, here⟩ | ⟨source, here⟩ <;>
        exact locked (by rw [here]; rfl)
  | heard | notified | settled | failed | completed | follows | tracked => exact locked holds
  | retreated here | entered here | deepened here | drafted here | persisted source here
  | committed source here | marked source here | submitted source here | unsubmitted source here
  | cleared here | watched source here | observed source succeeded here | resumed succeeded here
  | left succeeds here => exact locked (by rw [here]; rfl)

/-- The pending marker follows the stage of the call that moves. -/
theorem Moves.marker (moves : state.Moves index call next) (placed : call.Placed) :
    (next.call.stage = .exclusive ∧ next.state.pending = none) ∨
    (next.call.stage = .outstanding ∧ next.state.pending = some index) ∨
    ((∃ succeeded, next.call.stage = .isOver succeeded) ∧
      (next.state.pending = none ∨
        next.state.pending = state.pending ∧ call.stage ≠ .outstanding)) ∨
    (next.call.stage = call.stage ∧ next.state.pending = state.pending) := by
  unfold SettingsCall.Placed at placed
  unfold SettingsCall.stage
  cases moves with
  | entered here idle =>
      simp only [here] at placed
      exact .inl ⟨by rw [placed]; rfl, idle⟩
  | marked source here =>
      simp only [here] at placed
      exact .inr (.inl ⟨by rw [placed]; rfl, rfl⟩)
  | refused here | retreated here | committed source here =>
      simp only [here] at placed
      refine .inr (.inr (.inl ⟨⟨_, by rw [placed]; rfl⟩, .inr ⟨rfl, ?_⟩⟩))
      simp [placed, here, SentPhase.stage?, SettingsPc.stage]
  | abandoned here =>
      have exclusive : call.pc.stage = .exclusive ∧ call.sent = .absent := by
        rcases here with here | ⟨draft, here⟩ | ⟨source, here⟩
        all_goals
          simp only [here] at placed
          exact ⟨by rw [here]; rfl, placed⟩
      refine .inr (.inr (.inl ⟨⟨false, by rw [exclusive.2]; rfl⟩, .inr ⟨rfl, ?_⟩⟩))
      simp [exclusive, SentPhase.stage?]
  | cleared here =>
      simp only [here] at placed
      exact .inr (.inr (.inl ⟨⟨false, by rw [placed]; rfl⟩, .inl rfl⟩))
  | settled | failed => exact .inr (.inr (.inl ⟨⟨_, rfl⟩, .inl rfl⟩))
  | completed succeeded tracker sent =>
      refine .inr (.inr (.inl ⟨⟨_, rfl⟩, .inr ⟨rfl, ?_⟩⟩))
      simp [sent, SentPhase.stage?]
  | acquired here | deepened here | drafted here | persisted source here
  | submitted source here | unsubmitted source here =>
      simp only [here] at placed
      refine .inr (.inr (.inr ⟨?_, rfl⟩))
      simp only [placed, here]
      rfl
  | built source pc builds goes =>
      refine .inr (.inr (.inr ⟨congrArg _ ?_, rfl⟩))
      rcases builds with ⟨here, _⟩ | ⟨draft, here, _⟩ <;> rcases goes with rfl | rfl | rfl <;>
        rw [here] <;> rfl
  | watched source here sent | observed source succeeded here sent | resumed succeeded here sent =>
      refine .inr (.inr (.inr ⟨?_, rfl⟩))
      rw [sent]
      rfl
  | heard source succeeded sent | notified source succeeded sent =>
      refine .inr (.inr (.inr ⟨?_, rfl⟩))
      rw [sent]
      rfl
  | left succeeds here | released succeeds here =>
      refine .inr (.inr (.inr ⟨congrArg _ ?_, rfl⟩))
      rw [here]
      rfl
  | follows | tracked => exact .inr (.inr (.inr ⟨rfl, rfl⟩))

theorem Moves.ready (moves : state.Moves index call next) (stands : CallStands state index call)
    (source : Settings)
    (ready : next.call.pc.source? = some source ∨ next.call.sent.source? = some source) :
    next.call.operation.apply next.state.settings = some source := by
  have earlier := stands.ready source
  have placed := stands.placed
  unfold SettingsCall.Placed at placed
  cases moves with
  | built chosen pc builds goes =>
      have absent : call.sent = .absent := by
        rcases builds with ⟨here, _⟩ | ⟨draft, here, _⟩ <;> simpa only [here] using placed
      have same : chosen = source := by
        rcases ready with ready | ready
        · rcases goes with rfl | rfl | rfl <;> exact Option.some.inj ready
        · simp [absent, SentPhase.source?] at ready
      rw [← same]
      rcases builds with ⟨_, built⟩ | ⟨draft, here, built⟩
      · exact built _
      · rw [← stands.draft draft here]
        exact built
  | refused here | acquired here | retreated here | entered here | deepened here | drafted here
  | cleared here | committed source here =>
      simp only [here] at placed
      simp [placed, SettingsPc.source?, SentPhase.source?] at ready
  | abandoned here =>
      have absent : call.sent = .absent := by
        rcases here with here | ⟨draft, here⟩ | ⟨source, here⟩ <;> simpa only [here] using placed
      simp [absent, SettingsPc.source?, SentPhase.source?] at ready
  | persisted chosen here | marked chosen here =>
      simp only [here] at placed
      simp only [placed, SettingsPc.source?, SentPhase.source?, reduceCtorEq, or_false] at ready
      exact earlier (.inl (by rw [here]; exact ready))
  | submitted chosen here =>
      simp only [SettingsPc.source?, SentPhase.source?, reduceCtorEq, false_or] at ready
      exact earlier (.inl (by rw [here]; exact ready))
  | unsubmitted chosen here =>
      simp only [here] at placed
      simp [placed, SettingsPc.source?, SentPhase.source?] at ready
  | watched chosen here sent | observed chosen succeeded here sent =>
      simp only [SettingsPc.source?, SentPhase.source?, reduceCtorEq, false_or] at ready
      exact earlier (.inr (by rw [sent]; exact ready))
  | resumed succeeded here sent =>
      simp [sent, SettingsPc.source?, SentPhase.source?] at ready
  | left succeeds here | released succeeds here =>
      simp only [SettingsPc.source?, reduceCtorEq, false_or] at ready
      exact earlier (.inr ready)
  | heard chosen succeeded sent | notified chosen succeeded sent =>
      rcases ready with ready | ready
      · exact earlier (.inl ready)
      · exact earlier (.inr (by rw [sent]; exact ready))
  | settled chosen sent | failed chosen sent | completed succeeded tracker sent =>
      cases here : call.pc <;> simp_all [SettingsPc.source?, SentPhase.source?]
  | follows | tracked => exact earlier ready

theorem Moves.draft (moves : state.Moves index call next) (stands : CallStands state index call)
    (draft : Settings) (here : next.call.pc = .updating draft) : draft = next.state.settings := by
  have placed := stands.placed
  unfold SettingsCall.Placed at placed
  cases moves with
  | drafted =>
      cases here
      rfl
  | built source pc builds goes =>
      rcases goes with rfl | rfl | rfl <;> cases here
  | heard | notified | failed | completed | follows | tracked => exact stands.draft draft here
  | settled source sent =>
      have stuck : call.pc = .updating draft := here
      simp [stuck, sent] at placed
  | _ => cases here

theorem Moves.operation (moves : state.Moves index call next) :
    next.call.operation = call.operation := by
  cases moves <;> rfl

theorem Moves.direct (moves : state.Moves index call next) (stands : CallStands state index call)
    (synchronous : next.call.operation.isAsync = false) :
    next.call.pc.isAsync = false ∧ next.call.sent = .absent := by
  rw [moves.operation] at synchronous
  obtain ⟨direct, absent⟩ := stands.direct synchronous
  cases moves with
  | built source pc builds goes marks =>
      refine ⟨?_, absent⟩
      rcases goes with rfl | rfl | rfl
      · rfl
      · rfl
      · rw [marks rfl] at synchronous
        contradiction
  | submitted source here | unsubmitted source here | marked source here =>
      rw [here] at direct
      contradiction
  | watched source here sent | observed source succeeded here sent =>
      rw [sent] at absent
      contradiction
  | heard source succeeded sent | notified source succeeded sent | settled source sent
  | failed source sent | completed succeeded tracker sent =>
      rw [sent] at absent
      contradiction
  | follows | tracked => exact ⟨direct, absent⟩
  | _ => exact ⟨rfl, absent⟩

theorem Moves.stands (moves : state.Moves index call next)
    (stands : CallStands state index call) : CallStands next.state index next.call := by
  refine ⟨moves.locked stands, ?_, ?_, moves.ready stands, moves.draft stands,
    moves.placed stands.placed, moves.direct stands⟩
  · intro exclusive
    rcases moves.marker stands.placed with ⟨_, idle⟩ | ⟨other, _⟩ | ⟨⟨_, other⟩, _⟩ | ⟨same, idle⟩
    · exact idle
    · rw [exclusive] at other
      contradiction
    · rw [exclusive] at other
      contradiction
    · exact idle.trans (stands.exclusive (same.symm.trans exclusive))
  · intro outstanding
    rcases moves.marker stands.placed with ⟨other, _⟩ | ⟨_, marker⟩ | ⟨⟨_, other⟩, _⟩ | ⟨same, marker⟩
    · rw [outstanding] at other
      contradiction
    · exact marker
    · rw [outstanding] at other
      contradiction
    · exact marker.trans (stands.outstanding (same.symm.trans outstanding))

theorem Moves.events (moves : state.Moves index call next) :
    ∀ event ∈ next.events, event.call = index := by
  cases moves <;> simp [SettingsEvent.call]

/-- A step performs the call's operation or leaves the settings alone. -/
theorem Moves.effect (moves : state.Moves index call next)
    (stands : CallStands state index call) :
    (operations next.events = [] ∧ next.state.settings = state.settings ∧
      next.state.loaded = state.loaded) ∨
    (operations next.events = [call.operation] ∧
      call.operation.apply state.settings = some next.state.settings ∧
      next.state.loaded = true) := by
  cases moves with
  | committed source here =>
      exact .inr ⟨rfl, stands.ready source (.inl (by rw [here]; rfl)), rfl⟩
  | settled source sent =>
      exact .inr ⟨rfl, stands.ready source (.inr (by rw [sent]; rfl)), rfl⟩
  | _ => exact .inl ⟨rfl, rfl, rfl⟩

end DefaultGlobalSettingsState

theorem CallStands.others {state after : DefaultGlobalSettingsState Settings}
    {index other : Nat} {call : SettingsCall Settings}
    (stands : CallStands state other call) (respects : Respects index state after)
    (different : other ≠ index) : CallStands after other call := by
  have settings : call.stage = .exclusive ∨ call.stage = .outstanding →
      after.settings = state.settings := by
    rintro (exclusive | outstanding)
    · exact (respects.idle other different (stands.locked (SettingsCall.exclusive_holdsLock exclusive))
        (stands.exclusive exclusive)).2
    · exact (respects.marker other different (stands.outstanding outstanding)).2
  constructor
  · intro holds
    exact respects.lock other different (stands.locked holds)
  · intro exclusive
    exact (respects.idle other different (stands.locked (SettingsCall.exclusive_holdsLock exclusive))
      (stands.exclusive exclusive)).1
  · intro outstanding
    exact (respects.marker other different (stands.outstanding outstanding)).1
  · intro source ready
    rw [settings (SettingsCall.source_stage stands.placed ready)]
    exact stands.ready source ready
  · intro draft here
    rw [settings (.inl (SettingsCall.draft_stage stands.placed here))]
    exact stands.draft draft here
  · exact stands.placed
  · exact stands.direct

/-- What the history says about the transaction of a call. -/
structure StageLogged (history : List (SettingsEvent Settings)) (index : Nat)
    (operation : SettingsOperation Settings) (stage : TransactionStage) : Prop where
  committed : ∀ performed, .committed index performed ∈ history →
    performed = operation ∧ stage = .isOver true
  rolledBack : .rolledBack index ∈ history → stage = .isOver false
  succeeded : stage = .isOver true → .committed index operation ∈ history
  drafted : .drafted index ∈ history →
    stage = .exclusive ∨ stage = .outstanding ∨ Concluded history index
  submitted : .submitted index ∈ history → stage = .outstanding ∨ Concluded history index
  outstanding : stage = .outstanding → .submitted index ∈ history

theorem Concluded.mono {older newer : List (SettingsEvent Settings)} {call : Nat}
    (concluded : Concluded older call) (included : older ⊆ newer) : Concluded newer call := by
  rcases concluded with ⟨operation, committed⟩ | rolledBack
  · exact .inl ⟨operation, included committed⟩
  · exact .inr (included rolledBack)

theorem StageLogged.unconcluded {history : List (SettingsEvent Settings)} {index : Nat}
    {operation : SettingsOperation Settings} {stage : TransactionStage}
    (logged : StageLogged history index operation stage)
    (running : stage = .exclusive ∨ stage = .outstanding) : ¬ Concluded history index := by
  rintro (⟨performed, committed⟩ | rolledBack)
  · have isOver := (logged.committed performed committed).2
    rcases running with running | running <;> rw [running] at isOver <;> contradiction
  · have isOver := logged.rolledBack rolledBack
    rcases running with running | running <;> rw [running] at isOver <;> contradiction

theorem StageMoves.logged {history events : List (SettingsEvent Settings)} {index : Nat}
    {operation : SettingsOperation Settings} {before after : TransactionStage}
    (moves : StageMoves index operation before events after)
    (logged : StageLogged history index operation before) :
    StageLogged (events ++ history) index operation after := by
  obtain ⟨committed, rolledBack, succeeded, drafted, submitted, outstanding⟩ := logged
  cases moves with
  | idle stage => exact ⟨committed, rolledBack, succeeded, drafted, submitted, outstanding⟩
  | draft => constructor <;> simp_all [Concluded]
  | report stage event kind =>
      rcases kind with ⟨_, rfl⟩ | ⟨_, rfl⟩ | ⟨_, rfl⟩
      all_goals
        constructor
        all_goals simpa [Concluded]
  | refuse => constructor <;> simp_all [Concluded]
  | retreat => constructor <;> simp_all [Concluded]
  | enter => constructor <;> simp_all [Concluded]
  | submit => constructor <;> simp_all [Concluded]
  | commit stage running =>
      rcases running with rfl | rfl <;> constructor <;> simp_all [Concluded]
  | rollBack stage running =>
      rcases running with rfl | rfl <;> constructor <;> simp_all [Concluded]

end StreamDockSdk.Runtime
