import StreamDockSdk.PropertyInspector.Order

namespace StreamDockSdk.PropertyInspector

open Automaton

/-! # Sessions

Which socket is current, what is delivered of its events, and who can change the settings.
-/

/-- The socket that was connected last. -/
def latest : List ClientEvent → Option Nat
  | [] => none
  | .connected websocket :: _ => some websocket
  | .delivered _ _ _ :: older => latest older

structure InspectorSession (Value : Type) where
  websocket : Option Nat
  settings : Nat
  objects : List Value
  known : List Nat
  trace : List ClientEvent
  written : Value
  uncaught : Bool

variable {Value : Type}

/-- One step of a session; the settings are assigned where `Assigns` holds. -/
inductive SessionStep (Assigns : Prop) : InspectorSession Value → InspectorSession Value → Prop where
  | create (session : InspectorSession Value) (value : Value) :
      SessionStep Assigns session { session with
        objects := session.objects ++ [value]
        known := session.objects.length :: session.known }
  | mutate (session : InspectorSession Value) (object : Nat) (value : Value)
      (known : object ∈ session.known) :
      SessionStep Assigns session { session with objects := session.objects.set object value }
  | assign (session : InspectorSession Value) (value : Value) (assigns : Assigns) :
      SessionStep Assigns session { session with
        objects := session.objects ++ [value]
        settings := session.objects.length
        written := value }
  | connect (session : InspectorSession Value) (websocket : Nat) :
      SessionStep Assigns session { session with
        websocket := some websocket
        trace := .connected websocket :: session.trace }
  | deliver (session : InspectorSession Value) (guard : Option Nat) (event : JsString)
      (listener : Nat) (current : guard.isSome = true → session.websocket = guard) :
      SessionStep Assigns session { session with
        trace := .delivered guard event listener :: session.trace }

namespace InspectorSession

variable {Assigns : Prop} {session after : InspectorSession Value}

/-- An event of a socket is delivered while the socket is the one connected last. -/
def Guarded (trace : List ClientEvent) : Prop :=
  ∀ newer older websocket event listener,
    trace = newer ++ .delivered (some websocket) event listener :: older →
      latest older = some websocket

structure SessionSound (session : InspectorSession Value) : Prop where
  current : latest session.trace = session.websocket
  guarded : Guarded session.trace
  settings : session.objects[session.settings]? = some session.written
  hidden : session.settings ∉ session.known
  known : ∀ object ∈ session.known, object < session.objects.length
  caught : session.uncaught = false

theorem Guarded.cons {trace : List ClientEvent} {event : ClientEvent} (guarded : Guarded trace)
    (current : ∀ websocket name listener, event = .delivered (some websocket) name listener →
      latest trace = some websocket) : Guarded (event :: trace) := by
  intro newer older websocket name listener split
  cases newer with
  | nil =>
      cases split
      exact current websocket name listener rfl
  | cons first rest =>
      cases split
      exact guarded rest older websocket name listener rfl

theorem SessionSound.step (sound : session.SessionSound) (step : SessionStep Assigns session after) :
    after.SessionSound := by
  have within : session.settings < session.objects.length :=
    (List.getElem?_eq_some_iff.mp sound.settings).1
  cases step with
  | create value =>
      refine ⟨sound.current, sound.guarded, ?_, ?_, ?_, sound.caught⟩
      · exact (List.getElem?_append_left within).trans sound.settings
      · intro member
        rcases List.mem_cons.mp member with same | old
        · exact absurd within (same ▸ Nat.lt_irrefl _)
        · exact sound.hidden old
      · intro object member
        rw [List.length_append, List.length_singleton]
        rcases List.mem_cons.mp member with rfl | old
        · exact Nat.lt_succ_self _
        · exact Nat.lt_succ_of_lt (sound.known object old)
  | mutate object value known =>
      refine ⟨sound.current, sound.guarded, ?_, sound.hidden, ?_, sound.caught⟩
      · have elsewhere : object ≠ session.settings := fun same => sound.hidden (same ▸ known)
        exact (List.getElem?_set_ne elsewhere).trans sound.settings
      · intro other member
        rw [List.length_set]
        exact sound.known other member
  | assign value assigns =>
      refine ⟨sound.current, sound.guarded, List.getElem?_concat_length, ?_, ?_, sound.caught⟩
      · exact fun member => absurd (sound.known _ member) (Nat.lt_irrefl _)
      · intro object member
        rw [List.length_append]
        exact Nat.lt_add_right _ (sound.known object member)
  | connect websocket =>
      exact ⟨rfl, sound.guarded.cons nofun, sound.settings, sound.hidden, sound.known, sound.caught⟩
  | deliver guard event listener current =>
      refine ⟨sound.current, sound.guarded.cons ?_, sound.settings, sound.hidden, sound.known,
        sound.caught⟩
      intro websocket name other same
      cases same
      exact sound.current.trans (current rfl)

theorem SessionSound.run (sound : session.SessionSound)
    (run : Relation.ReflTransGen (SessionStep Assigns) session after) : after.SessionSound := by
  induction run with
  | refl => exact sound
  | tail _ last ih => exact ih.step last

/-- Where no step assigns the settings, they are what they were. -/
theorem written_run (never : ¬Assigns)
    (run : Relation.ReflTransGen (SessionStep Assigns) session after) :
    after.written = session.written := by
  induction run with
  | refl => rfl
  | tail _ last ih =>
      cases last with
      | assign value assigns => exact absurd assigns never
      | _ => exact ih

end InspectorSession

theorem SessionStep.weaken {Assigns Other : Prop} {session after : InspectorSession Value}
    (step : SessionStep Assigns session after) (included : Assigns → Other) :
    SessionStep Other session after := by
  cases step with
  | create value => exact .create session value
  | mutate object value known => exact .mutate session object value known
  | assign value assigns => exact .assign session value (included assigns)
  | connect websocket => exact .connect session websocket
  | deliver guard event listener current => exact .deliver session guard event listener current

/-- The socket whose event a call handles. -/
def JsFrame.socket : JsFrame Value → Option Nat
  | .emitting _ guard _ => guard
  | .flushing websocket _ | .registrationFailed websocket | .disconnecting websocket
  | .receiving websocket _ => some websocket
  | .listener | .rejecting _ => none

namespace InspectorWorld

variable {js : JavaScript Value} {world after : InspectorWorld Value}

def session (world : InspectorWorld Value) : InspectorSession Value where
  websocket := world.client.websocket
  settings := world.client.settings
  objects := world.objects
  known := world.known
  trace := world.trace
  written := world.written
  uncaught := world.uncaught

abbrev SessionRun (Assigns : Prop) : InspectorSession Value → InspectorSession Value → Prop :=
  Relation.ReflTransGen (SessionStep Assigns)

theorem sessionRun_of_eq {Assigns : Prop} {session other : InspectorSession Value}
    (same : session = other) : SessionRun Assigns session other :=
  same ▸ .refl

theorem weaken_run {Assigns Other : Prop} {session other : InspectorSession Value}
    (included : Assigns → Other) (run : SessionRun Assigns session other) :
    SessionRun Other session other :=
  Relation.ReflTransGen.mono (fun _ _ step => SessionStep.weaken step included) _ _ run

theorem session_setClient {client : MiraBoxPropertyInspectorClient}
    (same : SameQueue world.client client) : (world.setClient client).session = world.session := by
  simp [session, setClient, same.websocket, same.settings]

theorem SendEffect.session {message : Value} {result : InspectorWorld Value × CallResult}
    (effect : SendEffect js world message result) : result.1.session = world.session := by
  cases effect with
  | raised client same => exact session_setClient same
  | immediate | enqueued => rfl

theorem setSettings_sessionRun (settings : Value) (wire : Wire) :
    SessionRun True world.session (world.setSettings js settings wire).1.session := by
  unfold setSettings
  split
  · exact .refl
  · split
    · exact .refl
    · next snapshot _ =>
      have sent := ((@send_effect _ js world)
        (world.settingsMessage js snapshot) wire).session
      split
      · next accepted _ same =>
        rw [same] at sent
        rw [← sent]
        exact .single (.assign accepted.session snapshot trivial)
      · next same =>
        rw [same] at sent
        exact sessionRun_of_eq sent.symm

theorem place_sessionRun {Assigns : Prop} (parsed : Nat ⊕ Value) :
    SessionRun Assigns world.session (world.place parsed).1.session := by
  cases parsed with
  | inl object => exact .refl
  | inr value => exact .single (.create world.session value)

theorem connect_sessionRun (arguments : ConnectArguments) :
    SessionRun True world.session (world.connect js arguments).1.session := by
  unfold connect
  split
  · exact .refl
  · next session _ =>
    obtain ⟨uuid, register, info, actionInfo, action, settings⟩ := session
    have placed : SessionRun True world.session
        ((world.place info).1.place actionInfo).1.session :=
      (place_sessionRun info).trans (place_sessionRun actionInfo)
    have connected := (placed.tail (.assign _ settings trivial)).tail
      (.connect _ world.sockets.length)
    refine connected.trans (sessionRun_of_eq ?_)
    cases info <;> cases actionInfo <;> cases world.client.websocket <;> rfl

/-- The calls that set the settings. -/
def setsSettings : ClientCall → Bool
  | .setSettings _ | .updateSettings _ => true
  | _ => false

/-- The steps that can set the settings. -/
def assigns (world : InspectorWorld Value) : InspectorLabel Value → Bool
  | .call (.connect _) _ => true
  | .call call _ => setsSettings call
  | .event websocket (.message _) _ => world.client.websocket = some websocket
  | _ => false

theorem perform_sessionRun (call : ClientCall) (wire : Wire) :
    SessionRun (world.assigns (.call call wire) = true) world.session
      (world.perform js wire call).1.session := by
  have sent (message : Value) : SessionRun (world.assigns (.call call wire) = true) world.session
      (world.send js message wire).1.session :=
    sessionRun_of_eq (send_effect message wire).session.symm
  cases call with
  | on event listener =>
      refine sessionRun_of_eq ?_
      simp only [perform]
      split
      · rfl
      · refine (session_setClient ?_).symm
        unfold MiraBoxPropertyInspectorClient.on
        split <;> exact ⟨rfl, rfl, rfl, rfl, rfl⟩
  | off event listener => exact .refl
  | connect arguments =>
      exact weaken_run (fun _ => rfl) (connect_sessionRun arguments)
  | send message => exact sent _
  | sendToPlugin payload =>
      simp only [perform, sendToPlugin]
      split
      · exact .refl
      · exact sent _
  | setSettings settings =>
      exact weaken_run (fun _ => rfl) (setSettings_sessionRun _ wire)
  | updateSettings patch =>
      simp only [perform, updateSettings]
      split
      · exact .refl
      · split
        · exact .refl
        · exact weaken_run (fun _ => rfl) (setSettings_sessionRun _ wire)
  | getSettings => exact sent _

theorem opens_session (websocket : Nat) (socket : InspectorSocket) (wire : Wire) :
    (world.opens js websocket socket wire).session = world.session := by
  unfold opens
  dsimp only
  split
  · rfl
  · rcases (@register_cases _ js (world.setSocket websocket (.settle .open)) websocket socket wire) with
      ⟨data, other, -, -, same⟩ | ⟨client, kept, same⟩
    · rw [same]
      rfl
    · rw [same]
      exact session_setClient kept

theorem receive_sessionRun (websocket : Nat) (data : Value) :
    SessionRun (world.client.websocket = some websocket) world.session
      (world.receive js websocket data).session := by
  have counted := messageSize_same world.client (js.string? data)
  unfold receive
  split
  · exact .refl
  · next current =>
    push Not at current
    split
    · next client sized =>
      have same : SameQueue world.client client := by simpa [sized] using counted
      exact sessionRun_of_eq (session_setClient same).symm
    · next client size sized =>
      cases messageSize_client sized
      dsimp only
      split
      · exact .refl
      · split
        · exact .refl
        · next event _ =>
          split
          · exact .refl
          · next received kept =>
            split at kept
            · obtain ⟨settings, -, rfl⟩ := Option.map_eq_some_iff.mp kept
              exact .single (.assign world.session settings current)
            · cases kept
              exact .refl

theorem closes_session (websocket : Nat) :
    (world.closes websocket).session = world.session := by
  unfold closes
  dsimp only
  split <;> rfl

theorem report_session {message : PendingMessage} (parsable : Parsable js message.data) :
    (world.report js message).session = world.session := by
  obtain ⟨value, parsed⟩ := parsable.parse
  unfold report
  rw [parsed]
  rfl

theorem proceed_sessionRun {wire : Wire} (parses : ∀ message ∈ world.queue.held,
    Parsable js message.data) (stepped : world.proceed js wire = some after) :
    SessionRun False world.session after.session := by
  have waits {frame : QueueFrame} {message : PendingMessage} (among : frame ∈ world.queue.stack)
      (member : message ∈ frame.messages) : Parsable js message.data :=
    parses message (List.mem_append_right _ (List.mem_flatMap.mpr ⟨frame, among, member⟩))
  unfold proceed at stepped
  split at stepped
  · contradiction
  · contradiction
  · cases stepped
    exact .refl
  · next listener listeners guard event rest place =>
    split at stepped
    · cases stepped
      exact .refl
    · next current =>
      cases stepped
      refine .single (.deliver world.session guard event listener fun guarded => ?_)
      by_contra other
      exact current ⟨guarded, other⟩
  · dsimp only at stepped
    split at stepped
    · cases stepped
      exact .refl
    · split at stepped <;> cases stepped <;> exact .refl
  · next websocket message messages rest place =>
    dsimp only at stepped
    rcases (@flush_cases _ { world with stack := .flushing websocket messages :: rest } websocket message wire) with
      ⟨socket, -, -, -, same⟩ | ⟨client, kept, same⟩
    · rw [same] at stepped
      cases stepped
      exact .refl
    · rw [same] at stepped
      cases stepped
      have among : QueueFrame.flushing websocket (message :: messages) ∈ world.queue.stack := by
        simp [queue, place, JsFrame.queued]
      rw [report_session (waits among List.mem_cons_self), session_setClient kept]
      exact .refl
  · dsimp only at stepped
    split at stepped <;> cases stepped <;> exact .refl
  · cases stepped
    exact .refl
  · next message messages rest place =>
    cases stepped
    have among : QueueFrame.rejecting (message :: messages) ∈ world.queue.stack := by
      simp [queue, place, JsFrame.queued]
    rw [report_session (waits among List.mem_cons_self)]
    exact .refl
  · cases stepped
    exact .refl
  · cases stepped
    exact .refl

theorem step_sessionRun {label : InspectorLabel Value} (parses : ∀ message ∈ world.queue.held,
    Parsable js message.data) (stepped : world.step js label = some after) :
    SessionRun (world.assigns label = true) world.session after.session := by
  cases label with
  | create value =>
      simp only [step] at stepped
      split at stepped
      · cases stepped
        exact .single (.create world.session value)
      · contradiction
  | mutate object value =>
      simp only [step] at stepped
      split at stepped
      · next permitted =>
        cases stepped
        exact .single (.mutate world.session object value permitted.2)
      · contradiction
  | call call wire =>
      simp only [step] at stepped
      split at stepped
      · cases stepped
        exact perform_sessionRun call wire
      · contradiction
  | finish =>
      simp only [step] at stepped
      split at stepped
      · cases stepped
        exact .refl
      · contradiction
  | proceed wire =>
      exact weaken_run False.elim (proceed_sessionRun parses stepped)
  | event websocket event wire =>
      simp only [step] at stepped
      split at stepped
      · cases event with
        | opens =>
            simp only [handle] at stepped
            split at stepped
            · cases stepped
              exact sessionRun_of_eq (opens_session websocket _ wire).symm
            · contradiction
        | message data =>
            cases stepped
            exact weaken_run (fun current => decide_eq_true current)
              (receive_sessionRun websocket data)
        | error =>
            cases stepped
            exact .refl
        | closes =>
            simp only [handle] at stepped
            split at stepped
            · cases stepped
              exact sessionRun_of_eq (closes_session websocket).symm
            · contradiction
      · contradiction
  | closing websocket =>
      cases stepped
      exact .refl

theorem reachable_session (reachable : (inspectorSystem js).Reachable world) :
    world.session.SessionSound := by
  refine reachable.invariant_given (motive := fun world => world.session.SessionSound)
    (fun world => world.queue.QueueSound (Parsable js)) (fun _ => reachable_queue) ?_
    fun _ _ _ queued sound stepped => sound.run (step_sessionRun queued.parses stepped)
  rintro first rfl
  refine ⟨rfl, ?_, rfl, ?_, ?_, rfl⟩
  · intro newer older websocket event listener split
    exact absurd split.symm (List.append_ne_nil_of_right_ne_nil _ (List.cons_ne_nil _ _))
  · change 0 ∉ [1, 2]
    decide
  · change ∀ object ∈ [1, 2], object < 3
    decide

/-- Nothing of the client but a counter has changed. -/
structure SameState (world after : InspectorWorld Value) : Prop where
  client : SameQueue world.client after.client
  action : after.client.action = world.client.action
  info : after.client.info = world.client.info
  actionInfo : after.client.actionInfo = world.client.actionInfo
  listeners : after.client.listeners = world.client.listeners
  objects : after.objects = world.objects
  accepted : after.accepted = world.accepted
  trace : after.trace = world.trace

theorem SameState.of_client {world after : InspectorWorld Value}
    (client : after.client = world.client) (objects : after.objects = world.objects)
    (accepted : after.accepted = world.accepted) (trace : after.trace = world.trace) :
    SameState world after := by
  refine ⟨?_, ?_, ?_, ?_, ?_, objects, accepted, trace⟩
  · rw [client]
    exact .refl _
  all_goals rw [client]

/-- An event of a replaced socket. -/
theorem stale_event {websocket : Nat} {event : SocketEvent Value} {wire : Wire}
    (stale : world.client.websocket ≠ some websocket)
    (stepped : world.step js (.event websocket event wire) = some after) :
    after.client = world.client ∧ SameState world after := by
  simp only [step] at stepped
  split at stepped
  · cases event with
    | opens =>
        simp only [handle, opens, stale, ne_eq, not_false_eq_true, if_true] at stepped
        split at stepped
        · cases stepped
          exact ⟨rfl, .of_client rfl rfl rfl rfl⟩
        · contradiction
    | message data =>
        simp only [handle, receive, stale, ne_eq, not_false_eq_true, if_true] at stepped
        cases stepped
        exact ⟨rfl, .of_client rfl rfl rfl rfl⟩
    | error =>
        cases stepped
        exact ⟨rfl, .of_client rfl rfl rfl rfl⟩
    | closes =>
        simp only [handle, closes, stale, ne_eq, not_false_eq_true, if_true] at stepped
        split at stepped
        · cases stepped
          exact ⟨rfl, .of_client rfl rfl rfl rfl⟩
        · contradiction
  · contradiction

theorem messageSize_state (client : MiraBoxPropertyInspectorClient) (data : Option JsString) :
    ∃ rejectedOversized, (client.messageSize data).1 = { client with rejectedOversized } := by
  unfold MiraBoxPropertyInspectorClient.messageSize
  split
  · exact ⟨client.rejectedOversized, rfl⟩
  · split
    · exact ⟨_, rfl⟩
    · exact ⟨client.rejectedOversized, rfl⟩

theorem stale_flush {websocket : Nat} {message : PendingMessage} {wire : Wire}
    (stale : world.client.websocket ≠ some websocket) :
    world.flush websocket message wire =
      (world.setClient (world.client.messageSize (some message.data)).1, false) := by
  unfold flush
  split
  · next same => rw [same]
  · next same =>
    rw [same]
    cases messageSize_client same
    exact if_pos stale

/-- The call goes on that handles an event of a socket that was replaced meanwhile. -/
theorem replaced_proceed {frame : JsFrame Value} {rest : List (JsFrame Value)} {websocket : Nat}
    {wire : Wire} (parses : ∀ message ∈ world.queue.held, Parsable js message.data)
    (place : world.stack = frame :: rest) (handles : frame.socket = some websocket)
    (stale : world.client.websocket ≠ some websocket)
    (stepped : world.proceed js wire = some after) : SameState world after := by
  unfold proceed at stepped
  rw [place] at stepped
  cases frame with
  | listener => contradiction
  | rejecting messages => contradiction
  | emitting listeners guard event =>
      cases handles
      cases listeners with
      | nil =>
          cases stepped
          exact .of_client rfl rfl rfl rfl
      | cons listener listeners =>
          simp only [Option.isSome_some, true_and, ne_eq, stale, not_false_eq_true, if_true]
            at stepped
          cases stepped
          exact .of_client rfl rfl rfl rfl
  | registrationFailed other =>
      cases handles
      simp only [ne_eq, stale, not_false_eq_true, if_true] at stepped
      cases stepped
      exact .of_client rfl rfl rfl rfl
  | disconnecting other | receiving other message =>
      cases stepped
      exact .of_client rfl rfl rfl rfl
  | flushing other messages =>
      cases handles
      cases messages with
      | nil =>
          simp only [ne_eq, stale, not_false_eq_true, true_or, if_true] at stepped
          cases stepped
          exact .of_client rfl rfl rfl rfl
      | cons message messages =>
          have held : message ∈ world.queue.held := by
            refine List.mem_append_right _ (List.mem_flatMap.mpr
              ⟨.flushing websocket (message :: messages), ?_, List.mem_cons_self⟩)
            simp [queue, place, JsFrame.queued]
          obtain ⟨value, parsed⟩ := (parses message held).parse
          obtain ⟨rejectedOversized, counted⟩ :=
            messageSize_state world.client (some message.data)
          have flushed := @stale_flush Value
            { world with stack := .flushing websocket messages :: rest } websocket message wire stale
          dsimp only at stepped flushed
          rw [flushed, counted] at stepped
          simp only [report, parsed] at stepped
          cases stepped
          exact ⟨⟨rfl, rfl, rfl, rfl, rfl⟩, rfl, rfl, rfl, rfl, rfl, rfl, rfl⟩

/-- What a call that sets the settings makes of its argument. -/
def settingsPayload (js : JavaScript Value) (world : InspectorWorld Value) :
    ClientCall → Option Value
  | .setSettings settings => js.snapshotObject (world.read js settings)
  | .updateSettings patch =>
      (js.spread (world.read js world.client.settings) (world.read js patch)).bind js.snapshotObject
  | _ => none

/-- A call that sets the settings has thrown or has had its payload accepted. -/
inductive SettingsEffect (js : JavaScript Value) (world : InspectorWorld Value)
    (payload : Option Value) : InspectorWorld Value × CallResult → Prop where
  | raised (client : MiraBoxPropertyInspectorClient) (same : SameQueue world.client client) :
      SettingsEffect js world payload (world.setClient client, .raised)
  | accepted (snapshot : Value) (acceptance : Acceptance) (after : InspectorWorld Value)
      (named : payload = some snapshot)
      (text : js.stringify (world.settingsMessage js snapshot) = some (some acceptance.data))
      (appended : after.accepted = world.accepted ++ [acceptance])
      (settings : after.objects[after.client.settings]? = some snapshot) :
      SettingsEffect js world payload (after, .sent acceptance.immediate)

theorem setSettings_effect (settings : Value) (wire : Wire) :
    SettingsEffect js world (js.snapshotObject settings) (world.setSettings js settings wire) := by
  unfold setSettings
  split
  · exact .raised world.client (.refl _)
  · split
    · exact .raised world.client (.refl _)
    · next snapshot named =>
      rw [named]
      have effect := (@send_effect _ js world) (world.settingsMessage js snapshot) wire
      cases sent : world.send js (world.settingsMessage js snapshot) wire with
      | mk after result =>
          rw [sent] at effect
          cases effect with
          | raised client same => exact .raised client same
          | immediate websocket socket data current found isOpen text parsable =>
              exact .accepted snapshot ⟨websocket, true, data, _⟩ _ rfl text rfl
                List.getElem?_concat_length
          | enqueued websocket socket data current found connecting text parsable room =>
              exact .accepted snapshot ⟨websocket, false, data, _⟩ _ rfl text rfl
                List.getElem?_concat_length

theorem perform_settings {call : ClientCall} (sets : setsSettings call = true) (wire : Wire) :
    SettingsEffect js world (world.settingsPayload js call) (world.perform js wire call) := by
  cases call with
  | setSettings settings => exact setSettings_effect _ wire
  | updateSettings patch =>
      simp only [perform, updateSettings, settingsPayload]
      split
      · exact .raised world.client (.refl _)
      · split
        · exact .raised world.client (.refl _)
        · next merged spread =>
          rw [spread]
          exact setSettings_effect merged wire
  | _ => contradiction

theorem connect_raised {arguments : ConnectArguments}
    (raised : (world.connect js arguments).2 = .raised) :
    (world.connect js arguments).1 = world := by
  unfold connect at *
  split at raised
  · rfl
  · contradiction

/-- What one session of the client is safe from. -/
structure Isolated (js : JavaScript Value) (world : InspectorWorld Value) : Prop where
  /-- A call of `connect` that throws changes nothing. -/
  connect : ∀ arguments, (world.connect js arguments).2 = .raised →
    (world.connect js arguments).1 = world
  /-- Neither has one thrown in its last loop. -/
  caught : world.uncaught = false
  stale : ∀ websocket event wire after, world.client.websocket ≠ some websocket →
    world.step js (.event websocket event wire) = some after →
    after.client = world.client ∧ SameState world after
  /-- The handler of a socket that was replaced while it runs. -/
  replaced : ∀ frame rest websocket wire after, world.stack = frame :: rest →
    frame.socket = some websocket → world.client.websocket ≠ some websocket →
    world.step js (.proceed wire) = some after → SameState world after
  current : latest world.trace = world.client.websocket
  /-- Every delivery of a socket's event is before the next `connect`. -/
  delivered : InspectorSession.Guarded world.trace
  rejected : ∀ call wire, setsSettings call = true → (world.perform js wire call).2 = .raised →
    ∃ client, SameQueue world.client client ∧
      (world.perform js wire call).1 = world.setClient client
  accepted : ∀ call wire, setsSettings call = true → (world.perform js wire call).2 ≠ .raised →
    ∃ snapshot acceptance, world.settingsPayload js call = some snapshot ∧
      js.stringify (world.settingsMessage js snapshot) = some (some acceptance.data) ∧
      (world.perform js wire call).1.accepted = world.accepted ++ [acceptance] ∧
      (world.perform js wire call).1.objects[(world.perform js wire call).1.client.settings]? =
        some snapshot
  /-- The settings are those that were set last, whatever the application has written to
  its objects since. -/
  settings : world.objects[world.client.settings]? = some world.written
  kept : ∀ label after, world.step js label = some after → world.assigns label = false →
    after.objects[after.client.settings]? = world.objects[world.client.settings]?

theorem session_isolation (js : JavaScript Value)
    (reachable : (inspectorSystem js).Reachable world) : Isolated js world := by
  have sound := reachable_session reachable
  have queued := reachable_queue reachable
  refine {
    connect := fun _ => connect_raised
    caught := sound.caught
    stale := fun _ _ _ _ => stale_event
    replaced := fun _ _ _ _ _ place handles stale stepped =>
      replaced_proceed queued.parses place handles stale stepped
    current := sound.current
    delivered := sound.guarded
    rejected := ?_
    accepted := ?_
    settings := sound.settings
    kept := ?_ }
  · intro call wire sets raised
    have effect := (@perform_settings _ js world) sets wire
    cases performed : world.perform js wire call with
    | mk after result =>
        rw [performed] at effect raised
        cases effect with
        | raised client same => exact ⟨client, same, rfl⟩
        | accepted => contradiction
  · intro call wire sets accepted
    have effect := (@perform_settings _ js world) sets wire
    cases performed : world.perform js wire call with
    | mk after result =>
        rw [performed] at effect accepted
        cases effect with
        | raised client same => exact absurd rfl accepted
        | accepted snapshot acceptance other named text appended settings =>
            exact ⟨snapshot, acceptance, named, text, appended, settings⟩
  · intro label after stepped idle
    have later := reachable_session (reachable.next label stepped)
    have same : after.written = world.written :=
      InspectorSession.written_run (by rw [idle]; exact Bool.false_ne_true)
        (step_sessionRun queued.parses stepped)
    exact later.settings.trans ((congrArg some same).trans sound.settings.symm)

/-- A listener of the first socket's error connects again; then the settings are set, and
the application writes to the object that it has given. -/
def isolatedWorld : InspectorWorld SampleValue :=
  ((inspectorSystem SampleValue.engine).exec (start SampleValue.engine) (connectRun ++
    ([.call (.on (.ofString "error") 0) {}, .call (.on (.ofString "error") 1) {},
      .event 0 .error {}, .proceed {}, .call (.connect ⟨some 1000, 3, 4, 5, 6, false⟩) {},
      .proceed {}, .finish, .proceed {}, .event 1 .opens {}, .proceed {}, .proceed {},
      .create (.object [("mode", SampleValue.named "new")]), .call (.setSettings 12) {},
      .mutate 12 (.object [])] : List (InspectorLabel SampleValue)))).get (by decide +kernel)

theorem isolatedWorld_reachable : (inspectorSystem SampleValue.engine).Reachable isolatedWorld :=
  .exec (.initial rfl) (Option.some_get _).symm

theorem session_isolation_run :
    isolatedWorld.trace =
      [.connected 1, .delivered (some 0) (.ofString "error") 0, .connected 0] ∧
    isolatedWorld.accepted.map (·.immediate) = [true] ∧
    Isolated SampleValue.engine isolatedWorld :=
  ⟨by decide +kernel, by decide +kernel,
    session_isolation SampleValue.engine isolatedWorld_reachable⟩

end InspectorWorld

end StreamDockSdk.PropertyInspector
