import StreamDockSdk.Runtime.Session

namespace StreamDockSdk.Runtime

open Automaton

namespace SessionWorld

variable (world : SessionWorld)

def Unsent : Prop := world.attempts = [] ∧ world.sent = []

/-- The registration did not get through, or the request did not. -/
def Partly : Prop :=
  (world.attempts = [world.registration] ∧ world.sent = []) ∨
    (world.attempts = [world.registration, world.settingsRequest] ∧
      world.sent = [world.registration])

def Complete : Prop :=
  world.attempts = [world.registration, world.settingsRequest] ∧
    world.sent = [world.registration, world.settingsRequest]

/-- What was sent in each state. -/
def Sends : Prop :=
  match world.coordinator.state with
  | .waitingConnected => world.Unsent
  | .initializing => world.Partly ∨ world.Complete
  | .ready | .disconnected => world.Complete
  | .failed => world.Partly

/-- Where the call of `handle` is in each state. -/
def Placed : Prop :=
  match world.point with
  | .starting => world.coordinator.state = .waitingConnected
  | .registering => world.coordinator.state = .initializing ∧
      world.attempts = [world.registration] ∧ world.sent = []
  | .requesting => world.coordinator.state = .initializing ∧
      world.attempts = [world.registration, world.settingsRequest] ∧
      world.sent = [world.registration]
  | .initialized => world.coordinator.state = .initializing ∧ world.Complete
  | .failed _ _ => world.coordinator.state = .initializing ∧ world.Partly
  | .opening => world.coordinator.state = .ready
  | _ => True

/-- What a coordinator, its gate and the call of `handle` have to do with each other. -/
structure Coordinated : Prop where
  sends : world.Sends
  placed : world.Placed
  permitted : world.forbidden = false
  opened : world.coordinator.readiness.ready = true → world.Complete
  failure : world.coordinator.readiness.failure.isSome = true →
    world.coordinator.readiness.terminal = true ∧ world.coordinator.readiness.ready = false
  failed : 0 < world.coordinator.initializationFailed → world.coordinator.state = .failed
  disconnected : 0 < world.coordinator.disconnected →
    world.coordinator.readiness.terminal = true ∨ world.point = .closing

variable {world} {after : SessionWorld} {label : SessionLabel}

/-- What happens to the gate alone. -/
theorem Coordinated.setGate (sound : world.Coordinated) {gate : SessionReadinessGate}
    (ready : gate.ready = true → world.coordinator.readiness.ready = true)
    (failure : gate.failure.isSome = true → gate.terminal = true ∧ gate.ready = false)
    (terminal : world.coordinator.readiness.terminal = true → gate.terminal = true) :
    (world.setGate gate).Coordinated where
  sends := sound.sends
  placed := sound.placed
  permitted := sound.permitted
  opened opened := sound.opened (ready opened)
  failure := failure
  failed := sound.failed
  disconnected counted := (sound.disconnected counted).imp_left terminal

theorem Coordinated.close (sound : world.Coordinated) :
    (world.setGate world.coordinator.readiness.close).Coordinated :=
  sound.setGate id (fun failed => ⟨rfl, (sound.failure failed).2⟩) fun _ => rfl

theorem fail_ready {gate : SessionReadinessGate} (error : SessionError) :
    (gate.fail error).ready = gate.ready ∧
      (gate.terminal = true → (gate.fail error).terminal = true) := by
  unfold SessionReadinessGate.fail
  split
  · exact ⟨rfl, id⟩
  · exact ⟨rfl, fun _ => rfl⟩

theorem Coordinated.fail (sound : world.Coordinated) (error : SessionError) :
    (world.setGate (world.coordinator.readiness.fail error)).Coordinated := by
  obtain ⟨ready, terminal⟩ := @fail_ready world.coordinator.readiness error
  refine sound.setGate (fun opened => ready ▸ opened) (fun failed => ?_) terminal
  unfold SessionReadinessGate.fail at failed ⊢
  split
  · next kept =>
    rw [if_pos kept] at failed
    exact sound.failure failed
  · next free =>
    simp only [Bool.or_eq_true, not_or, Bool.not_eq_true] at free
    exact ⟨rfl, free.1⟩

/-- A call that leaves `handle`. -/
theorem Coordinated.leave (sound : world.Coordinated) (elsewhere : world.point ≠ .closing) :
    world.leave.Coordinated where
  sends := sound.sends
  placed := trivial
  permitted := sound.permitted
  opened := sound.opened
  failure := sound.failure
  failed := sound.failed
  disconnected counted := .inl ((sound.disconnected counted).resolve_right elsewhere)

theorem Coordinated.begin (sound : world.Coordinated) (idle : world.point = .idle)
    (event : SessionEvent) : (world.begin event).Coordinated := by
  have terminal (counted : 0 < world.coordinator.disconnected) :
      world.coordinator.readiness.terminal = true :=
    (sound.disconnected counted).resolve_right (by rw [idle]; nofun)
  have placed : (world.begin event).Placed := by
    cases event <;> first | trivial | simp only [Placed, SessionWorld.begin, idle]
  cases event <;>
    exact ⟨sound.sends, placed, sound.permitted, sound.opened, sound.failure, sound.failed,
      fun counted => .inl (terminal counted)⟩

theorem Coordinated.sendEnds (sound : world.Coordinated) {ending : SendEnd}
    (stepped : world.sendEnds ending = some after) : after.Coordinated := by
  have placed := sound.placed
  have unopened (state : world.coordinator.state = .initializing) (short : world.sent.length < 2) :
      world.coordinator.readiness.ready ≠ true := fun ready => by
    rw [(sound.opened ready).2] at short
    exact absurd short (by simp)
  have elsewhere (point : world.point = .registering ∨ world.point = .requesting)
      (counted : 0 < world.coordinator.disconnected) :
      world.coordinator.readiness.terminal = true :=
    (sound.disconnected counted).resolve_right (by rcases point with here | here <;> rw [here] <;> nofun)
  unfold SessionWorld.sendEnds at stepped
  split at stepped
  · next point =>
    cases stepped
    simp only [Placed, point] at placed
    obtain ⟨state, attempts, sent⟩ := placed
    have partly : world.attempts ++ [world.settingsRequest] =
        [world.registration, world.settingsRequest] ∧
        world.sent ++ [world.registration] = [world.registration] := by
      rw [attempts, sent]
      exact ⟨rfl, rfl⟩
    refine ⟨?_, ⟨state, partly⟩, sound.permitted, fun ready => ?_, sound.failure, sound.failed,
      fun counted => .inl (elsewhere (.inl point) counted)⟩
    · simp only [Sends, state]
      exact .inl (.inr partly)
    · exact absurd ready (unopened state (by rw [sent]; decide))
  · next error point =>
    cases stepped
    simp only [Placed, point] at placed
    obtain ⟨state, partly⟩ := placed
    exact ⟨sound.sends, ⟨state, .inl partly⟩, sound.permitted, sound.opened, sound.failure,
      sound.failed, fun counted => .inl (elsewhere (.inl point) counted)⟩
  · next point =>
    cases stepped
    simp only [Placed, point] at placed
    obtain ⟨state, attempts, sent⟩ := placed
    have complete : world.attempts = [world.registration, world.settingsRequest] ∧
        world.sent ++ [world.settingsRequest] = [world.registration, world.settingsRequest] := by
      rw [attempts, sent]
      exact ⟨rfl, rfl⟩
    refine ⟨?_, ⟨state, complete⟩, sound.permitted, fun ready => ?_, sound.failure, sound.failed,
      fun counted => .inl (elsewhere (.inr point) counted)⟩
    · simp only [Sends, state]
      exact .inr complete
    · exact absurd ready (unopened state (by rw [sent]; exact Nat.one_lt_two))
  · next error point =>
    cases stepped
    simp only [Placed, point] at placed
    obtain ⟨state, partly⟩ := placed
    exact ⟨sound.sends, ⟨state, .inr partly⟩, sound.permitted, sound.opened, sound.failure,
      sound.failed, fun counted => .inl (elsewhere (.inr point) counted)⟩
  · next point =>
    cases stepped
    exact sound.leave (by rw [point]; nofun)
  · next point =>
    cases stepped
    exact sound.leave (by rw [point]; nofun)
  · contradiction

/-- The transitions of the code are in the table. -/
theorem transition_eq {target : SessionState} {go : SessionState → SessionWorld}
    (permitted : target ∈ sessionTransitions world.coordinator.state) :
    world.transition target go = go target := by
  unfold transition transitionSessionState
  rw [if_pos permitted]

theorem Coordinated.proceed (sound : world.Coordinated) (stepped : world.proceed = some after) :
    after.Coordinated := by
  have placed := sound.placed
  have terminal (elsewhere : world.point ≠ .closing) (counted : 0 < world.coordinator.disconnected) :
      world.coordinator.readiness.terminal = true :=
    (sound.disconnected counted).resolve_right elsewhere
  unfold SessionWorld.proceed at stepped
  dsimp only at stepped
  split at stepped
  · contradiction
  · contradiction
  · contradiction
  · next point =>
    have closed := terminal (by rw [point]; nofun)
    split at stepped
    · cases stepped
      exact ⟨sound.sends, trivial, sound.permitted, sound.opened, sound.failure, sound.failed,
        fun counted => .inl (closed counted)⟩
    · next free =>
      cases stepped
      simp only [Bool.or_eq_true, not_or, Bool.not_eq_true, bne_eq_false_iff_eq] at free
      exact ⟨sound.sends, free.1, sound.permitted, sound.opened, sound.failure, sound.failed,
        fun counted => .inl (closed counted)⟩
  · next point =>
    simp only [Placed, point] at placed
    have sends := sound.sends
    simp only [Sends, placed] at sends
    obtain ⟨attempts, sent⟩ := sends
    have failed (counted : 0 < world.coordinator.initializationFailed) : False := by
      have state := sound.failed counted
      rw [placed] at state
      contradiction
    rw [transition_eq (by rw [placed]; decide)] at stepped
    cases stepped
    have partly : world.attempts ++ [world.registration] = [world.registration] ∧ world.sent = [] := by
      rw [attempts]
      exact ⟨rfl, sent⟩
    refine ⟨.inl (.inl partly), ⟨rfl, partly⟩, sound.permitted, fun ready => ?_, sound.failure,
      fun counted => (failed counted).elim,
      fun counted => .inl (terminal (by rw [point]; nofun) counted)⟩
    have complete := (sound.opened ready).2
    rw [sent] at complete
    contradiction
  · next point =>
    simp only [Placed, point] at placed
    obtain ⟨state, complete⟩ := placed
    rw [transition_eq (by rw [state]; decide)] at stepped
    cases stepped
    refine ⟨complete, rfl, sound.permitted, sound.opened, sound.failure, fun counted => ?_,
      fun counted => .inl (terminal (by rw [point]; nofun) counted)⟩
    have failed := sound.failed counted
    rw [state] at failed
    contradiction
  · next point =>
    simp only [Placed, point] at placed
    have sends := sound.sends
    simp only [Sends, placed] at sends
    have elsewhere : world.point ≠ .closing := by
      rw [point]
      nofun
    split at stepped
    · next gate opened =>
      cases stepped
      unfold SessionReadinessGate.open at opened
      split at opened
      · cases opened
        exact sound.leave elsewhere
      · split at opened
        · contradiction
        · next unready unterminal =>
          cases opened
          refine ⟨sound.sends, trivial, sound.permitted, fun _ => sends, fun failed => ?_, sound.failed,
            fun counted => .inl (terminal elsewhere counted)⟩
          exact absurd (sound.failure failed).1 unterminal
    · cases stepped
      exact sound.leave elsewhere
  · next error registration point =>
    simp only [Placed, point] at placed
    obtain ⟨state, partly⟩ := placed
    rw [transition_eq] at stepped
    · cases stepped
      exact ⟨partly, trivial, sound.permitted, sound.opened, sound.failure, fun _ => rfl,
        fun counted => .inl (terminal (by rw [point]; nofun) counted)⟩
    · show SessionState.failed ∈ sessionTransitions world.coordinator.state
      rw [state]
      decide
  · next error point =>
    cases stepped
    exact (sound.fail error).leave (by show world.point ≠ _; rw [point]; nofun)
  · next code reason point =>
    split at stepped
    · next ready =>
      have sends := sound.sends
      simp only [Sends, ready] at sends
      rw [transition_eq] at stepped
      · cases stepped
        refine ⟨sends, trivial, sound.permitted, sound.opened, sound.failure, fun counted => ?_,
          fun _ => .inr rfl⟩
        have failed := sound.failed counted
        rw [ready] at failed
        contradiction
      · show SessionState.disconnected ∈ sessionTransitions world.coordinator.state
        rw [ready]
        decide
    · cases stepped
      exact ⟨sound.sends, trivial, sound.permitted, sound.opened, sound.failure, sound.failed,
        fun _ => .inr rfl⟩
  · next point =>
    cases stepped
    exact ⟨sound.sends, trivial, sound.permitted, sound.opened,
      sound.close.failure, sound.failed, fun _ => .inl rfl⟩

theorem Coordinated.step (sound : world.Coordinated) (stepped : world.step label = some after) :
    after.Coordinated := by
  cases label with
  | handle event =>
      simp only [SessionWorld.step] at stepped
      split at stepped
      · next idle =>
        cases stepped
        exact sound.begin idle event
      · contradiction
  | proceed => exact sound.proceed stepped
  | sends ending => exact sound.sendEnds stepped
  | close =>
      cases stepped
      exact sound.close
  | fail error =>
      cases stepped
      exact sound.fail error

variable {registerEvent pluginUuid : String}

theorem reachable_coordinated (reachable : (sessionSystem registerEvent pluginUuid).Reachable world) :
    world.Coordinated := by
  refine reachable.invariant ?_ fun before label after sound stepped => sound.step stepped
  rintro first rfl
  exact ⟨⟨rfl, rfl⟩, trivial, rfl, nofun, nofun, nofun, nofun⟩

/-- What holds of the world before a transition, and of what comes after a permitted one. -/
theorem transition_keeps {motive : SessionWorld → Prop} {target : SessionState}
    {go : SessionState → SessionWorld} (refused : motive { world.leave with forbidden := true })
    (kept : motive (go target)) : motive (world.transition target go) := by
  unfold transition transitionSessionState
  split
  · next state permitted =>
    split at permitted
    · cases permitted
      exact kept
    · contradiction
  · exact refused

def Readied (world : SessionWorld) : Prop := world.coordinator.readiness.ready = true

theorem Readied.step (ready : world.Readied) (stepped : world.step label = some after) :
    after.Readied := by
  cases label with
  | handle event =>
      simp only [SessionWorld.step] at stepped
      split at stepped
      · cases stepped
        cases event <;> exact ready
      · contradiction
  | proceed =>
      simp only [SessionWorld.step, SessionWorld.proceed] at stepped
      split at stepped
      · contradiction
      · contradiction
      · contradiction
      · split at stepped <;> cases stepped <;> exact ready
      · cases stepped
        exact transition_keeps (motive := Readied) ready ready
      · cases stepped
        exact transition_keeps (motive := Readied) ready ready
      · simp only [SessionReadinessGate.open, show world.coordinator.readiness.ready = true from ready,
          if_true] at stepped
        cases stepped
        exact ready
      · cases stepped
        exact transition_keeps (motive := Readied) ready ready
      · cases stepped
        exact (fail_ready _).1.trans ready
      · split at stepped
        · cases stepped
          exact transition_keeps (motive := Readied) ready ready
        · cases stepped
          exact ready
      · cases stepped
        exact ready
  | sends ending =>
      simp only [SessionWorld.step, SessionWorld.sendEnds] at stepped
      split at stepped <;> first | contradiction | (cases stepped; exact ready)
  | close =>
      cases stepped
      exact ready
  | fail error =>
      cases stepped
      exact (fail_ready error).1.trans ready

/-- A failure was recorded or a disconnect, or the gate is closed. -/
def Ended (world : SessionWorld) : Prop :=
  0 < world.coordinator.initializationFailed ∨ 0 < world.coordinator.disconnected ∨
    world.coordinator.readiness.terminal = true

/-- The coordinator is past its initial state, or the gate is closed before a call of
`handle` looks at it again. -/
def Past (world : SessionWorld) : Prop :=
  world.coordinator.state ≠ .waitingConnected ∨
    world.coordinator.readiness.terminal = true ∨ world.point = .closing

theorem Ended.step (ended : world.Ended) (stepped : world.step label = some after) :
    after.Ended := by
  cases label with
  | handle event =>
      simp only [SessionWorld.step] at stepped
      split at stepped
      · cases stepped
        cases event <;> exact ended
      · contradiction
  | proceed =>
      simp only [SessionWorld.step, SessionWorld.proceed] at stepped
      split at stepped
      · contradiction
      · contradiction
      · contradiction
      · split at stepped <;> cases stepped <;> exact ended
      · cases stepped
        exact transition_keeps (motive := Ended) ended ended
      · cases stepped
        exact transition_keeps (motive := Ended) ended ended
      · split at stepped
        · next gate opened =>
          cases stepped
          refine ended.imp_right (Or.imp_right fun terminal => ?_)
          unfold SessionReadinessGate.open at opened
          split at opened
          · cases opened
            exact terminal
          · simp at opened
        · cases stepped
          exact ended
      · cases stepped
        exact transition_keeps (motive := Ended) (.inl (Nat.succ_pos _)) (.inl (Nat.succ_pos _))
      · next error point =>
        cases stepped
        exact ended.imp_right (Or.imp_right (fail_ready error).2)
      · split at stepped
        · cases stepped
          exact transition_keeps (motive := Ended) (.inr (.inl (Nat.succ_pos _)))
            (.inr (.inl (Nat.succ_pos _)))
        · cases stepped
          exact .inr (.inl (Nat.succ_pos _))
      · cases stepped
        exact .inr (.inr rfl)
  | sends ending =>
      simp only [SessionWorld.step, SessionWorld.sendEnds] at stepped
      split at stepped <;> first | contradiction | (cases stepped; exact ended)
  | close =>
      cases stepped
      exact .inr (.inr rfl)
  | fail error =>
      cases stepped
      exact ended.imp_right (Or.imp_right (fail_ready error).2)

/-- No call of `handle` begins to initialize from here on. -/
structure Barred (started : Nat) (world : SessionWorld) : Prop where
  elsewhere : world.point ≠ .starting
  past : world.Past
  unchanged : world.coordinator.initializationStarted = started

theorem Coordinated.barred (sound : world.Coordinated) (ended : world.Ended)
    (elsewhere : world.point ≠ .starting) :
    Barred world.coordinator.initializationStarted world := by
  refine ⟨elsewhere, ?_, rfl⟩
  rcases ended with failed | disconnected | terminal
  · refine .inl ?_
    rw [sound.failed failed]
    nofun
  · exact .inr (sound.disconnected disconnected)
  · exact .inr (.inl terminal)

variable {started : Nat}

/-- What happens to the gate alone. -/
theorem Barred.setGate (barred : Barred started world) {gate : SessionReadinessGate}
    (terminal : world.coordinator.readiness.terminal = true → gate.terminal = true) :
    Barred started (world.setGate gate) :=
  ⟨barred.elsewhere, barred.past.imp_right (Or.imp_left terminal), barred.unchanged⟩

theorem Barred.proceed (barred : Barred started world) (stepped : world.proceed = some after) :
    Barred started after := by
  obtain ⟨elsewhere, past, unchanged⟩ := barred
  have open_past (notClosing : world.point ≠ .closing) :
      world.coordinator.state ≠ .waitingConnected ∨
        world.coordinator.readiness.terminal = true :=
    past.imp_right fun closed => closed.resolve_right notClosing
  unfold SessionWorld.proceed at stepped
  dsimp only at stepped
  split at stepped
  · contradiction
  · contradiction
  · contradiction
  · next point =>
    have known := open_past (by rw [point]; nofun)
    split at stepped
    · cases stepped
      exact ⟨nofun, known.imp_right .inl, unchanged⟩
    · next free =>
      simp only [Bool.or_eq_true, not_or, bne_iff_ne, Classical.not_not] at free
      exact absurd known (by simp [free.1, free.2])
  · next point => exact absurd point elsewhere
  · next point =>
    have known := open_past (by rw [point]; nofun)
    cases stepped
    exact transition_keeps (motive := Barred started)
      ⟨nofun, known.imp_right .inl, unchanged⟩ ⟨nofun, .inl nofun, unchanged⟩
  · next point =>
    have known := open_past (by rw [point]; nofun)
    split at stepped
    · next gate opened =>
      cases stepped
      refine ⟨nofun, known.imp_right fun terminal => .inl ?_, unchanged⟩
      unfold SessionReadinessGate.open at opened
      split at opened
      · cases opened
        exact terminal
      · simp at opened
    · cases stepped
      exact ⟨nofun, known.imp_right .inl, unchanged⟩
  · next error registration point =>
    have known := open_past (by rw [point]; nofun)
    cases stepped
    exact transition_keeps (motive := Barred started)
      ⟨nofun, known.imp_right .inl, unchanged⟩ ⟨nofun, .inl nofun, unchanged⟩
  · next error point =>
    have known := open_past (by rw [point]; nofun)
    cases stepped
    exact ⟨nofun, known.imp_right fun terminal => .inl ((fail_ready error).2 terminal), unchanged⟩
  · split at stepped
    · next ready =>
      have known : world.coordinator.state ≠ .waitingConnected := by
        rw [ready]
        nofun
      cases stepped
      exact transition_keeps (motive := Barred started) ⟨nofun, .inl known, unchanged⟩
        ⟨nofun, .inl nofun, unchanged⟩
    · cases stepped
      exact ⟨nofun, .inr (.inr rfl), unchanged⟩
  · cases stepped
    exact ⟨nofun, .inr (.inl rfl), unchanged⟩

theorem Barred.sendEnds (barred : Barred started world) {ending : SendEnd}
    (stepped : world.sendEnds ending = some after) : Barred started after := by
  have known (elsewhere : world.point ≠ .closing) :
      world.coordinator.state ≠ .waitingConnected ∨ world.coordinator.readiness.terminal = true :=
    barred.past.imp_right fun closed => closed.resolve_right elsewhere
  unfold SessionWorld.sendEnds at stepped
  split at stepped <;> first
    | contradiction
    | (next point =>
        cases stepped
        exact ⟨nofun, (known (by rw [point]; nofun)).imp_right .inl, barred.unchanged⟩)

theorem Barred.step (barred : Barred started world) (stepped : world.step label = some after) :
    Barred started after := by
  cases label with
  | handle event =>
      simp only [SessionWorld.step] at stepped
      split at stepped
      · next idle =>
        have known := barred.past.imp_right fun closed => closed.resolve_right (by rw [idle]; nofun)
        cases stepped
        cases event with
        | connected | disconnected => exact ⟨nofun, known.imp_right .inl, barred.unchanged⟩
        | transportError | unsupported => exact ⟨barred.elsewhere, barred.past, barred.unchanged⟩
      · contradiction
  | proceed => exact barred.proceed stepped
  | sends ending => exact barred.sendEnds stepped
  | close =>
      cases stepped
      exact barred.setGate fun _ => rfl
  | fail error =>
      cases stepped
      exact barred.setGate (fail_ready error).2

/-- What a coordinator has done so far, by its `sender` and its gate. -/
structure Initializes (world : SessionWorld) : Prop where
  inOrder : world.attempts <+: [world.registration, world.settingsRequest]
  requested : world.settingsRequest ∈ world.attempts → world.sent.head? = some world.registration
  opened : world.coordinator.readiness.ready = true →
    world.sent = [world.registration, world.settingsRequest]
  exclusive : world.coordinator.readiness.ready = true →
    world.coordinator.readiness.failure = none
  permitted : world.forbidden = false

theorem registration_ne_settingsRequest : world.settingsRequest ≠ world.registration :=
  nofun

theorem Coordinated.sends_cases (sound : world.Coordinated) :
    world.Unsent ∨ world.Partly ∨ world.Complete := by
  have sends := sound.sends
  unfold Sends at sends
  split at sends
  · exact .inl sends
  · exact .inr sends
  · exact .inr (.inr sends)
  · exact .inr (.inr sends)
  · exact .inr (.inl sends)

theorem Coordinated.initializes (sound : world.Coordinated) : world.Initializes where
  inOrder := by
    obtain ⟨attempts, -⟩ | (⟨attempts, -⟩ | ⟨attempts, -⟩) | ⟨attempts, -⟩ := sound.sends_cases <;>
      simp only [attempts]
    · exact List.nil_prefix
    · exact ⟨[world.settingsRequest], rfl⟩
    · exact List.prefix_rfl
    · exact List.prefix_rfl
  requested requested := by
    obtain ⟨attempts, -⟩ | (⟨attempts, -⟩ | ⟨-, sent⟩) | ⟨-, sent⟩ := sound.sends_cases
    · rw [attempts] at requested
      contradiction
    · rw [attempts, List.mem_singleton] at requested
      exact absurd requested registration_ne_settingsRequest
    · rw [sent]
      rfl
    · rw [sent]
      rfl
  opened opened := (sound.opened opened).2
  exclusive opened := by
    have unfailed : ¬ world.coordinator.readiness.failure.isSome = true := fun failed => by
      rw [(sound.failure failed).2] at opened
      contradiction
    simpa using unfailed
  permitted := sound.permitted

/-- A coordinator sends its registration at most once and its settings request after it,
only a complete initialization opens the gate, which stays open, and no transition of the
code is forbidden.  Once the session has ended, what was not past the gate by then does not
begin to initialize. -/
theorem session_initialization
    (reachable : (sessionSystem registerEvent pluginUuid).Reachable world) :
    world.Initializes ∧
      (world.Readied → ∀ labels later,
        (sessionSystem registerEvent pluginUuid).exec world labels = some later →
        later.Readied) ∧
      (world.Ended → ∀ labels between,
        (sessionSystem registerEvent pluginUuid).exec world labels = some between →
        between.point ≠ .starting → ∀ more later,
        (sessionSystem registerEvent pluginUuid).exec between more = some later →
        later.coordinator.initializationStarted =
          between.coordinator.initializationStarted) := by
  have sound := reachable_coordinated reachable
  refine ⟨sound.initializes, fun ready labels later ran => ?_,
    fun ended labels between ran elsewhere more later continued => ?_⟩
  · exact System.exec_invariant (motive := Readied) ready ran
      fun before label after holds stepped => holds.step stepped
  · have stillEnded : between.Ended :=
      System.exec_invariant (motive := Ended) ended ran
        fun before label after holds stepped => holds.step stepped
    have barred := (reachable_coordinated (reachable.exec ran)).barred stillEnded elsewhere
    exact (System.exec_invariant
      (motive := Barred between.coordinator.initializationStarted) barred continued
      fun before label after holds stepped => holds.step stepped).unchanged

/-- A session that got ready, after both of its commands. -/
def readySession : SessionWorld :=
  ((sessionSystem "register" "plugin").exec
    { coordinator := { registerEvent := "register", pluginUuid := "plugin" } }
    [.handle .connected, .proceed, .proceed, .sends .returned, .sends .returned, .proceed,
      .proceed]).get (by decide)

theorem readySession_reachable : (sessionSystem "register" "plugin").Reachable readySession :=
  System.Reachable.exec (.initial rfl) (Option.some_get _).symm

/-- Its gate is closed by another thread, and the host connects once more. -/
theorem session_initialization_run :
    readySession.Initializes ∧ (readySession.setGate { ready := true, terminal := true }).Readied ∧
      ∀ more later, (sessionSystem "register" "plugin").exec
        ((readySession.setGate { ready := true, terminal := true }).begin .connected) more =
          some later → later.coordinator.initializationStarted = 1 := by
  have closed : (sessionSystem "register" "plugin").exec readySession [.close] =
      some (readySession.setGate { ready := true, terminal := true }) := by decide
  have settled := session_initialization (readySession_reachable.exec closed)
  have opened : readySession.coordinator.readiness.ready = true := by decide
  have ready := (session_initialization readySession_reachable).2.1 opened _ _ closed
  refine ⟨(session_initialization readySession_reachable).1, ready, fun more later ran => ?_⟩
  exact settled.2.2 (.inr (.inr rfl)) [.handle .connected] _ (by decide) (by decide) more later ran

end SessionWorld

end StreamDockSdk.Runtime
