import StreamDockSdk.PropertyInspector.Queue

namespace StreamDockSdk.PropertyInspector

open Automaton

def JsFrame.queued {Value : Type} : JsFrame Value → Option QueueFrame
  | .flushing websocket rest => some (.flushing websocket rest)
  | .registrationFailed websocket => some (.registrationFailed websocket)
  | .rejecting rest => some (.rejecting rest)
  | _ => none

namespace InspectorWorld

variable {Value : Type} {js : JavaScript Value} {world after : InspectorWorld Value}

def queue (world : InspectorWorld Value) : InspectorQueue where
  websocket := world.client.websocket
  pending := world.client.pendingMessages
  bytes := world.client.pendingBytes
  sockets := world.sockets
  stack := world.stack.filterMap JsFrame.queued
  accepted := world.accepted
  reported := world.sendErrors.filterMap id

/-- What `send` has checked of a text: `parseObject` of it returns, and its size. -/
structure Parsable (js : JavaScript Value) (data : JsString) : Prop where
  parsed : (js.parseText data).isSome = true
  fits : utf8Size data maxMessageBytes ≤ maxMessageBytes

theorem Parsable.parse {data : JsString} (parsable : Parsable js data) :
    ∃ value, js.parse data = some value := by
  have parsable := parsable.parsed
  unfold JavaScript.parseText at parsable
  cases found : js.parse data with
  | none => simp [found] at parsable
  | some value => exact ⟨value, rfl⟩

/-- A client that has only counted something. -/
structure SameQueue (client after : MiraBoxPropertyInspectorClient) : Prop where
  websocket : after.websocket = client.websocket
  pending : after.pendingMessages = client.pendingMessages
  bytes : after.pendingBytes = client.pendingBytes
  settings : after.settings = client.settings
  context : after.context = client.context

theorem SameQueue.refl (client : MiraBoxPropertyInspectorClient) : SameQueue client client :=
  ⟨rfl, rfl, rfl, rfl, rfl⟩

theorem queue_setClient {client : MiraBoxPropertyInspectorClient}
    (same : SameQueue world.client client) : (world.setClient client).queue = world.queue := by
  simp [queue, setClient, same.websocket, same.pending, same.bytes]

theorem messageSize_same (client : MiraBoxPropertyInspectorClient) (data : Option JsString) :
    SameQueue client (client.messageSize data).1 := by
  unfold MiraBoxPropertyInspectorClient.messageSize
  split
  · exact .refl _
  · split
    · exact ⟨rfl, rfl, rfl, rfl, rfl⟩
    · exact .refl _

theorem messageSize_some {client after : MiraBoxPropertyInspectorClient} {data : Option JsString}
    {size : Nat} (sized : client.messageSize data = (after, some size)) :
    ∃ text, data = some text ∧ size = utf8Size text maxMessageBytes ∧ size ≤ maxMessageBytes := by
  unfold MiraBoxPropertyInspectorClient.messageSize at sized
  split at sized
  · cases sized
  · split at sized
    · cases sized
    · next text fits =>
      cases sized
      exact ⟨_, rfl, rfl, Nat.not_lt.mp fits⟩

/-- What `_sendData` leaves behind when it returns, and when it throws. -/
theorem sendData_cases {websocket size : Nat} {frame : SentFrame} {wire : Wire} :
    (∃ socket, world.client.websocket = some websocket ∧
      world.sockets[websocket]? = some socket ∧ socket.readyState = .open ∧
      world.sendData websocket frame size wire =
        (world.setSocket websocket (.sends frame), true)) ∨
    ∃ client, SameQueue world.client client ∧
      world.sendData websocket frame size wire = (world.setClient client, false) := by
  unfold sendData
  split
  · exact .inr ⟨world.client, .refl _, rfl⟩
  · next current =>
    split
    · exact .inr ⟨world.client, .refl _, rfl⟩
    · next isOpen =>
      split
      · exact .inr ⟨world.client.countFull, ⟨rfl, rfl, rfl, rfl, rfl⟩, rfl⟩
      · split
        · exact .inr ⟨world.client, .refl _, rfl⟩
        · refine .inl ?_
          push Not at current isOpen
          unfold readyState at isOpen
          cases found : world.sockets[websocket]? with
          | none => simp [found] at isOpen
          | some socket =>
              refine ⟨socket, current, rfl, ?_, rfl⟩
              simpa [found] using isOpen

/-- Some steps of the queue, whose messages can be parsed again. -/
abbrev QueueRun (js : JavaScript Value) : InspectorQueue → InspectorQueue → Prop :=
  Relation.ReflTransGen (QueueStep (Parsable js))

theorem queueRun_of_eq {queue after : InspectorQueue} (same : queue = after) :
    QueueRun js queue after :=
  same ▸ .refl

theorem queue_waiting (websocket : Nat) : world.waiting websocket = world.queue.waiting websocket := by
  unfold waiting InspectorQueue.waiting queue
  dsimp only
  induction world.stack with
  | nil => rfl
  | cons frame rest ih =>
      cases frame <;> simp only [List.flatMap_cons, List.filterMap_cons, JsFrame.queued, ih,
        QueueFrame.waiting, List.nil_append]

theorem queue_accept (websocket : Nat) (immediate : Bool) (data : JsString) :
    (world.accept websocket immediate data).queue =
      world.queue.accept websocket immediate data := by
  unfold accept InspectorQueue.accept
  rw [queue_waiting]
  rfl

inductive SendEffect (js : JavaScript Value) (world : InspectorWorld Value) (message : Value) :
    InspectorWorld Value × CallResult → Prop where
  | raised (client : MiraBoxPropertyInspectorClient) (same : SameQueue world.client client) :
      SendEffect js world message (world.setClient client, .raised)
  | immediate (websocket : Nat) (socket : InspectorSocket) (data : JsString)
      (current : world.client.websocket = some websocket)
      (found : world.sockets[websocket]? = some socket) (isOpen : socket.readyState = .open)
      (text : js.stringify message = some (some data)) (parsable : Parsable js data) :
      SendEffect js world message
        ((world.setSocket websocket (.sends ⟨data, some world.accepted.length⟩)).accept
          websocket true data, .sent true)
  | enqueued (websocket : Nat) (socket : InspectorSocket) (data : JsString)
      (current : world.client.websocket = some websocket)
      (found : world.sockets[websocket]? = some socket)
      (connecting : socket.readyState = .connecting)
      (text : js.stringify message = some (some data)) (parsable : Parsable js data)
      (room : world.client.isFull (utf8Size data maxMessageBytes) = false) :
      SendEffect js world message
        ((world.setClient (world.client.queue ⟨data, world.accepted.length⟩
          (utf8Size data maxMessageBytes))).accept websocket false data, .sent false)

theorem messageSize_client {client after : MiraBoxPropertyInspectorClient}
    {data : Option JsString} {size : Nat}
    (sized : client.messageSize data = (after, some size)) : after = client := by
  unfold MiraBoxPropertyInspectorClient.messageSize at sized
  split at sized
  · cases sized
  · split at sized
    · cases sized
    · cases sized
      rfl

theorem sendSized_effect {message : Value} {websocket : Nat} {data : JsString} {wire : Wire}
    (current : world.client.websocket = some websocket)
    (text : js.stringify message = some (some data)) (parsable : Parsable js data)
    (ready : world.readyState websocket = .open ∨ world.readyState websocket = .connecting) :
    SendEffect js world message
      (world.sendSized websocket data (utf8Size data maxMessageBytes) wire) := by
  have located {readyState : ReadyState} (known : world.readyState websocket = readyState)
      (alive : readyState ≠ .closed) :
      ∃ socket, world.sockets[websocket]? = some socket ∧ socket.readyState = readyState := by
    unfold InspectorWorld.readyState at known
    cases found : world.sockets[websocket]? with
    | none =>
        rw [found] at known
        exact absurd known.symm alive
    | some socket => exact ⟨socket, rfl, by simpa [found] using known⟩
  unfold sendSized
  split
  · rcases (@sendData_cases _ world websocket (utf8Size data maxMessageBytes) ⟨data, some world.accepted.length⟩ wire) with ⟨socket, named, found, isOpen, same⟩ | ⟨client, kept, same⟩
    · rw [same]
      exact .immediate websocket socket data current found isOpen text parsable
    · rw [same]
      exact .raised client kept
  · next notOpen =>
    obtain ⟨socket, found, connecting⟩ := located (ready.resolve_left notOpen) nofun
    cases full : world.client.isFull (utf8Size data maxMessageBytes) with
    | true =>
        rw [if_pos rfl]
        exact .raised _ ⟨rfl, rfl, rfl, rfl, rfl⟩
    | false =>
        rw [if_neg (by decide)]
        exact .enqueued websocket socket data current found connecting text parsable full

theorem send_effect (message : Value) (wire : Wire) :
    SendEffect js world message (world.send js message wire) := by
  unfold send
  split
  · exact .raised world.client (.refl _)
  · split
    · exact .raised world.client (.refl _)
    · next websocket current =>
      split
      · exact .raised world.client (.refl _)
      · next alive =>
        split
        · exact .raised world.client (.refl _)
        · next data text =>
          have counted := messageSize_same world.client data
          split
          · next client size data_ sized =>
            cases messageSize_client sized
            obtain ⟨_, named, rfl, fits⟩ := messageSize_some sized
            cases named
            split
            · next parsable =>
              refine sendSized_effect current text ⟨parsable, fits⟩ ?_
              by_contra neither
              push Not at neither
              exact alive neither
            · exact .raised world.client (.refl _)
          · next client _ _ sized =>
            have same := counted
            exact .raised _ (by simpa [sized] using counted)

theorem SendEffect.queueRun {message : Value} {result : InspectorWorld Value × CallResult}
    (effect : SendEffect js world message result) : QueueRun js world.queue result.1.queue := by
  cases effect with
  | raised client same =>
      rw [queue_setClient same]
  | immediate websocket socket data current found isOpen text parsable =>
      rw [queue_accept]
      refine .single ?_
      exact .immediate world.queue websocket socket data current found isOpen
  | enqueued websocket socket data current found connecting text parsable room =>
      rw [queue_accept]
      simp only [MiraBoxPropertyInspectorClient.isFull, Bool.or_eq_false_iff,
        decide_eq_false_iff_not, Nat.not_le, Nat.not_lt] at room
      refine .single ?_
      exact .enqueue world.queue websocket socket data current found connecting parsable room.1
        room.2

theorem setSettings_queueRun (settings : Value) (wire : Wire) :
    QueueRun js world.queue (world.setSettings js settings wire).1.queue := by
  unfold setSettings
  split
  · exact .refl
  · split
    · exact .refl
    · next snapshot _ =>
      have sent := ((@send_effect _ js world)
        (world.settingsMessage js snapshot) wire).queueRun
      split
      · next same =>
        rw [same] at sent
        exact sent
      · next same =>
        rw [same] at sent
        exact sent

theorem place_queue (parsed : Nat ⊕ Value) : (world.place parsed).1.queue = world.queue := by
  cases parsed <;> rfl

theorem connect_queueRun (arguments : ConnectArguments) :
    QueueRun js world.queue (world.connect js arguments).1.queue := by
  unfold connect
  split
  · exact .refl
  · next session _ =>
    have fresh : QueueStep (Parsable js) world.queue { world.queue with
        websocket := some world.sockets.length, pending := [], bytes := 0
        sockets := world.sockets ++ [{
          propertyInspectorUUID := session.propertyInspectorUUID
          registerEvent := session.registerEvent }]
        stack := .rejecting world.client.pendingMessages :: world.queue.stack } :=
      .connect world.queue _ rfl rfl rfl
    have placed := ((@place_queue _ ((world.place session.info).1)) session.actionInfo).trans
      (place_queue session.info)
    have stack := congrArg InspectorQueue.stack placed
    have accepted := congrArg InspectorQueue.accepted placed
    have reported := congrArg InspectorQueue.reported placed
    simp only [queue] at stack accepted reported
    cases previous : world.client.websocket with
    | none =>
        refine .trans (.single fresh) (queueRun_of_eq ?_)
        simp only [queue, push, assignSettings, List.filterMap_cons, JsFrame.queued, stack,
          accepted, reported]
        rfl
    | some other =>
        refine .trans (.single fresh) (.trans (.single (.closing _ other)) (queueRun_of_eq ?_))
        simp only [queue, push, assignSettings, closeSocket, setSocket, List.filterMap_cons,
          JsFrame.queued, stack, accepted, reported]
        rfl

theorem perform_queueRun (call : ClientCall) (wire : Wire) :
    QueueRun js world.queue (world.perform js wire call).1.queue := by
  cases call with
  | on event listener =>
      simp only [perform]
      split
      · exact .refl
      · rw [queue_setClient]
        unfold MiraBoxPropertyInspectorClient.on
        split <;> exact ⟨rfl, rfl, rfl, rfl, rfl⟩
  | off event listener =>
      simp only [perform]
      rw [queue_setClient]
      exact ⟨rfl, rfl, rfl, rfl, rfl⟩
  | connect arguments => exact connect_queueRun arguments
  | send message => exact (send_effect _ wire).queueRun
  | sendToPlugin payload =>
      simp only [perform, sendToPlugin]
      split
      · exact .refl
      · exact (send_effect _ wire).queueRun
  | setSettings settings => exact setSettings_queueRun _ wire
  | updateSettings patch =>
      simp only [perform, updateSettings]
      split
      · exact .refl
      · split
        · exact .refl
        · exact setSettings_queueRun _ wire
  | getSettings => exact (send_effect _ wire).queueRun

theorem register_cases {websocket : Nat} {socket : InspectorSocket} {wire : Wire} :
    (∃ data found, world.client.websocket = some websocket ∧
      world.sockets[websocket]? = some found ∧
      world.register js websocket socket wire =
        (world.setSocket websocket (.sends ⟨data, none⟩), true)) ∨
    ∃ client, SameQueue world.client client ∧
      world.register js websocket socket wire = (world.setClient client, false) := by
  unfold register
  split
  · exact .inr ⟨world.client, .refl _, rfl⟩
  · next data _ =>
    have counted := messageSize_same world.client data
    split
    · next client size text _ sized =>
      cases messageSize_client sized
      rcases (@sendData_cases _ world websocket size ⟨text, none⟩ wire) with ⟨found, current, located, -, same⟩ | ⟨client, kept, same⟩
      · exact .inl ⟨text, found, current, located, same⟩
      · exact .inr ⟨client, kept, same⟩
    · next client _ _ _ sized => exact .inr ⟨client, by simpa [sized] using counted, rfl⟩

theorem opens_queueRun {websocket : Nat} {socket : InspectorSocket} {wire : Wire}
    (idle : world.stack = []) (found : world.sockets[websocket]? = some socket)
    (connecting : socket.readyState = .connecting) :
    QueueRun js world.queue (world.opens js websocket socket wire).queue := by
  have empty : world.queue.stack = [] := by rw [queue, idle, List.filterMap_nil]
  unfold opens
  dsimp only
  split
  · next stale => exact .single (.openStale world.queue websocket stale)
  · next current =>
    push Not at current
    rcases (@register_cases _ js (world.setSocket websocket (.settle .open)) websocket socket wire) with
      ⟨data, other, -, -, same⟩ | ⟨client, kept, same⟩
    · rw [same]
      refine .trans (.single
        (.opened world.queue websocket socket data empty current found connecting)) ?_
      refine queueRun_of_eq ?_
      simp only [queue, push, setClient, setSocket, List.filterMap_cons, JsFrame.queued, idle,
        List.filterMap_nil, List.modify_modify_eq]
      rfl
    · rw [same]
      refine .trans (.single (.openFailed world.queue websocket current)) ?_
      refine queueRun_of_eq ?_
      simp only [queue, push, emitSendError, emit, closeSocket, setClient, setSocket,
        List.filterMap_cons, JsFrame.queued, idle, List.filterMap_nil, List.modify_modify_eq,
        kept.websocket, kept.pending, kept.bytes]
      rfl

theorem queue_emit (event : JsString) (guard : Option Nat) :
    (world.emit event guard).queue = world.queue :=
  rfl

theorem receive_queueRun (websocket : Nat) (data : Value) :
    QueueRun js world.queue (world.receive js websocket data).queue := by
  have counted := messageSize_same world.client (js.string? data)
  refine queueRun_of_eq ?_
  unfold receive
  split
  · rfl
  · split
    · next client sized =>
      rw [queue_emit, queue_setClient (by simpa [sized] using counted)]
    · next client size sized =>
      cases messageSize_client sized
      dsimp only
      split
      · rfl
      · split
        · rfl
        · next event _ =>
          split
          · next received => rfl
          · next received kept =>
            split at kept
            · obtain ⟨settings, -, rfl⟩ := Option.map_eq_some_iff.mp kept
              rfl
            · cases kept
              rfl

theorem closes_queueRun (websocket : Nat) :
    QueueRun js world.queue (world.closes websocket).queue := by
  unfold closes
  dsimp only
  split
  · next stale => exact .single (.closeStale world.queue websocket stale)
  · next current =>
    push Not at current
    exact .single (.closed world.queue websocket current)

theorem report_queue {message : PendingMessage} (parsable : Parsable js message.data) :
    (world.report js message).queue = world.queue.report message.token := by
  obtain ⟨value, parsed⟩ := parsable.parse
  unfold report
  rw [parsed]
  rfl

theorem flush_cases {websocket : Nat} {message : PendingMessage} {wire : Wire} :
    (∃ socket, world.client.websocket = some websocket ∧
      world.sockets[websocket]? = some socket ∧ socket.readyState = .open ∧
      world.flush websocket message wire =
        (world.setSocket websocket (.sends ⟨message.data, some message.token⟩), true)) ∨
    ∃ client, SameQueue world.client client ∧
      world.flush websocket message wire = (world.setClient client, false) := by
  have counted := messageSize_same world.client (some message.data)
  unfold flush
  split
  · next client sized => exact .inr ⟨client, by simpa [sized] using counted, rfl⟩
  · next client size sized =>
    cases messageSize_client sized
    exact sendData_cases

theorem proceed_queueRun {wire : Wire} (parses : ∀ message ∈ world.queue.held,
    Parsable js message.data) (stepped : world.proceed js wire = some after) :
    QueueRun js world.queue after.queue := by
  have waits {frame : QueueFrame} {message : PendingMessage} (among : frame ∈ world.queue.stack)
      (member : message ∈ frame.messages) : Parsable js message.data :=
    parses message (List.mem_append_right _ (List.mem_flatMap.mpr ⟨frame, among, member⟩))
  unfold proceed at stepped
  split at stepped
  · contradiction
  · contradiction
  · next place =>
    cases stepped
    refine queueRun_of_eq ?_
    simp only [queue, place]
    rfl
  · next place =>
    split at stepped <;> cases stepped <;> refine queueRun_of_eq ?_ <;> simp only [queue, place] <;>
      rfl
  · next websocket rest place =>
    have isOver : QueueStep (Parsable js) world.queue { world with stack := rest }.queue := by
      refine .isOver world.queue (.flushing websocket []) (rest.filterMap JsFrame.queued) ?_ rfl nofun
      simp [queue, place, JsFrame.queued]
    dsimp only at stepped
    split at stepped
    · cases stepped
      exact .single isOver
    · split at stepped <;> cases stepped <;> exact .single isOver
  · next websocket message messages rest place =>
    have stack : world.queue.stack =
        .flushing websocket (message :: messages) :: rest.filterMap JsFrame.queued := by
      simp [queue, place, JsFrame.queued]
    dsimp only at stepped
    rcases (@flush_cases _ { world with stack := .flushing websocket messages :: rest } websocket message wire) with
      ⟨socket, current, found, isOpen, same⟩ | ⟨client, kept, same⟩
    · rw [same] at stepped
      cases stepped
      exact .single (.flushSent world.queue websocket socket message messages _ stack current found
        isOpen)
    · rw [same] at stepped
      cases stepped
      have parsable := waits (stack ▸ List.mem_cons_self) (List.mem_cons_self (a := message))
      rw [report_queue parsable, queue_setClient kept]
      exact .single (.flushFailed world.queue websocket message messages _ stack)
  · next websocket rest place =>
    have stack : world.queue.stack =
        .registrationFailed websocket :: rest.filterMap JsFrame.queued := by
      simp [queue, place, JsFrame.queued]
    dsimp only at stepped
    split at stepped
    · next replaced =>
      cases stepped
      refine .single (.isOver world.queue _ _ stack rfl fun other same => ?_)
      cases same
      exact replaced
    · next current =>
      cases stepped
      push Not at current
      exact .single (.rejectAll world.queue websocket _ stack current)
  · next rest place =>
    cases stepped
    refine .single (.isOver world.queue (.rejecting []) (rest.filterMap JsFrame.queued) ?_ rfl nofun)
    simp [queue, place, JsFrame.queued]
  · next message messages rest place =>
    cases stepped
    have stack : world.queue.stack =
        .rejecting (message :: messages) :: rest.filterMap JsFrame.queued := by
      simp [queue, place, JsFrame.queued]
    have parsable := waits (stack ▸ List.mem_cons_self) (List.mem_cons_self (a := message))
    rw [report_queue parsable]
    exact .single (.rejectNext world.queue message messages _ stack)
  · next place =>
    cases stepped
    refine queueRun_of_eq ?_
    simp only [queue, emit, push, place]
    rfl
  · next place =>
    cases stepped
    refine queueRun_of_eq ?_
    simp only [queue, emit, push, place]
    rfl

theorem step_queueRun {label : InspectorLabel Value} (parses : ∀ message ∈ world.queue.held,
    Parsable js message.data) (stepped : world.step js label = some after) :
    QueueRun js world.queue after.queue := by
  cases label with
  | create value | mutate object value =>
      simp only [step] at stepped
      split at stepped
      · cases stepped
        exact .refl
      · contradiction
  | call call wire =>
      simp only [step] at stepped
      split at stepped
      · cases stepped
        exact perform_queueRun call wire
      · contradiction
  | finish =>
      simp only [step] at stepped
      split at stepped
      · next place =>
        cases stepped
        refine queueRun_of_eq ?_
        simp only [queue, place]
        rfl
      · contradiction
  | proceed wire => exact proceed_queueRun parses stepped
  | event websocket event wire =>
      simp only [step] at stepped
      split at stepped
      · next socket idle found =>
        cases event with
        | opens =>
            simp only [handle] at stepped
            split at stepped
            · next connecting =>
              cases stepped
              exact opens_queueRun idle found connecting
            · contradiction
        | message data =>
            cases stepped
            exact receive_queueRun websocket data
        | error =>
            cases stepped
            exact .refl
        | closes =>
            simp only [handle] at stepped
            split at stepped
            · cases stepped
              exact closes_queueRun websocket
            · contradiction
      · contradiction
  | closing websocket =>
      cases stepped
      exact .single (.closing world.queue websocket)

theorem reachable_queue (reachable : (inspectorSystem js).Reachable world) :
    world.queue.QueueSound (Parsable js) := by
  refine reachable.invariant (motive := fun world => world.queue.QueueSound (Parsable js)) ?_
    fun _ _ _ sound stepped => sound.run (step_queueRun sound.parses stepped)
  rintro first rfl
  exact ⟨.refl _, rfl, ⟨Nat.zero_le _, Nat.zero_le _⟩, List.forall_mem_nil _, List.forall_mem_nil _,
    nofun, nofun, fun some_ => absurd rfl some_, List.forall_mem_nil _⟩

/-- The message waits in the queue of the current socket. -/
def Queued (world : InspectorWorld Value) (token websocket : Nat) : Prop :=
  token ∈ world.client.pendingMessages.map (·.token) ∧ world.client.websocket = some websocket ∧
    ∃ socket, world.sockets[websocket]? = some socket ∧ socket.handled = false

/-- How often a socket's `send` took the message. -/
def passes (world : InspectorWorld Value) (token websocket : Nat) : Nat :=
  (world.sockets[websocket]?.map fun socket => socket.tokens.count token).getD 0

/-- How often a `sendError` was emitted for the message. -/
def reports (world : InspectorWorld Value) (token : Nat) : Nat :=
  world.sendErrors.count (some token)

/-- Of a message that is queued for a socket. -/
inductive MessageFate (world : InspectorWorld Value) (token websocket : Nat) : Prop where
  | queued (waits : world.Queued token websocket)
      (unsent : ∀ other, world.passes token other = 0) (unreported : world.reports token = 0)
  | passed (left : token ∉ world.client.pendingMessages.map (·.token))
      (once : world.passes token websocket = 1)
      (elsewhere : ∀ other ≠ websocket, world.passes token other = 0)
      (unreported : world.reports token = 0)
  | reported (left : token ∉ world.client.pendingMessages.map (·.token))
      (unsent : ∀ other, world.passes token other = 0) (once : world.reports token = 1)

theorem reports_eq (token : Nat) : world.queue.reported.count token = world.reports token := by
  unfold reports queue
  dsimp only
  induction world.sendErrors with
  | nil => rfl
  | cons first rest ih =>
      cases first with
      | none => simpa using ih
      | some other => simpa [List.count_cons] using ih

theorem passes_le (token websocket : Nat) :
    world.passes token websocket ≤ (InspectorQueue.sentTokens world.sockets).count token := by
  unfold passes
  cases found : world.sockets[websocket]? with
  | none => exact Nat.zero_le _
  | some socket =>
      obtain ⟨before, behind, split⟩ := List.append_of_mem (List.mem_of_getElem? found)
      simp only [Option.map_some, Option.getD_some, InspectorQueue.sentTokens, split,
        List.flatMap_append, List.flatMap_cons, List.count_append]
      omega

theorem passes_owner (sound : world.queue.QueueSound (Parsable js)) {token websocket : Nat}
    {acceptance : Acceptance} (found : world.accepted[token]? = some acceptance)
    (passed : 0 < world.passes token websocket) : acceptance.websocket = websocket := by
  unfold passes at passed
  cases located : world.sockets[websocket]? with
  | none =>
      rw [located] at passed
      contradiction
  | some socket =>
      rw [located] at passed
      obtain ⟨other, known, same⟩ :=
        sound.sentFor websocket socket located token (List.count_pos_iff.mp passed)
      cases Option.some.inj (known.symm.trans found)
      exact same

theorem passes_pos {token : Nat} (sent : token ∈ InspectorQueue.sentTokens world.sockets) :
    ∃ websocket, 0 < world.passes token websocket := by
  obtain ⟨socket, member, took⟩ := List.mem_flatMap.mp sent
  obtain ⟨websocket, located⟩ := List.mem_iff_getElem?.mp member
  refine ⟨websocket, ?_⟩
  rw [passes, located]
  exact List.count_pos_iff.mpr took

theorem fate_of_idle (sound : world.queue.QueueSound (Parsable js)) (idle : world.stack = [])
    {token : Nat} {acceptance : Acceptance} (found : world.accepted[token]? = some acceptance) :
    world.MessageFate token acceptance.websocket := by
  have empty : world.queue.stack = [] := by rw [queue, idle, List.filterMap_nil]
  have within := (List.getElem?_eq_some_iff.mp found).1
  have counted : world.queue.tokens.count token = (List.range world.accepted.length).count token :=
    sound.conserved.count_eq token
  rw [List.count_eq_one_of_mem List.nodup_range (List.mem_range.mpr within)] at counted
  simp only [InspectorQueue.tokens, empty, InspectorQueue.stackTokens_nil, List.append_nil,
    List.count_append, reports_eq] at counted
  have bound (websocket : Nat) := world.passes_le token websocket
  by_cases waits : token ∈ world.client.pendingMessages.map (·.token)
  · have one : 0 < (world.client.pendingMessages.map (·.token)).count token :=
      List.count_pos_iff.mpr waits
    obtain ⟨message, member, rfl⟩ := List.mem_map.mp waits
    obtain ⟨websocket, current, known, accepted, same⟩ := sound.pendingFor message member
    cases Option.some.inj (accepted.symm.trans found)
    obtain ⟨index, socket, named, located, unhandled⟩ :=
      sound.unhandled (List.ne_nil_of_mem member)
    rw [empty] at unhandled
    have here : index = websocket := Option.some.inj (named.symm.trans current)
    subst here
    simp only [queue] at counted bound
    refine .queued ⟨waits, same ▸ current, socket, same ▸ located,
      unhandled.resolve_right List.not_mem_nil⟩ (fun other => ?_) (by omega)
    have smaller := bound other
    omega
  · have none := List.count_eq_zero_of_not_mem waits
    simp only [queue] at counted bound
    rw [none, Nat.zero_add] at counted
    by_cases sent : token ∈ InspectorQueue.sentTokens world.sockets
    · have one : 0 < (InspectorQueue.sentTokens world.sockets).count token :=
        List.count_pos_iff.mpr sent
      obtain ⟨websocket, passed⟩ := passes_pos sent
      have owner := passes_owner sound found passed
      subst owner
      have most := bound acceptance.websocket
      refine .passed waits (by omega) (fun other different => ?_) (by omega)
      by_contra again
      exact different (passes_owner sound found (Nat.pos_of_ne_zero again)).symm
    · have zero := List.count_eq_zero_of_not_mem sent
      refine .reported waits (fun other => ?_) (by omega)
      have smaller := bound other
      omega

/-- What the queue holds is counted and bounded, and whenever no call is on, a message that
`send` has queued waits for its socket, was sent by it once, or was reported once. -/
theorem message_fate (js : JavaScript Value)
    (reachable : (inspectorSystem js).Reachable world) :
    world.client.pendingBytes = (world.client.pendingMessages.map fun message =>
      utf8Size message.data maxMessageBytes).sum ∧
    world.client.pendingBytes ≤ queueByteLimit ∧
    world.client.pendingMessages.length ≤ pendingMessageLimit ∧
    (world.stack = [] → ∀ token acceptance, world.accepted[token]? = some acceptance →
      acceptance.immediate = false → world.MessageFate token acceptance.websocket) := by
  have sound := reachable_queue reachable
  exact ⟨sound.bytes, sound.room.2, sound.room.1,
    fun idle _ _ found _ => fate_of_idle sound idle found⟩

end InspectorWorld

/-- Strings and objects. -/
inductive SampleValue where
  | string (text : JsString)
  | object (fields : List (String × SampleValue))

namespace SampleValue

def named (text : String) : SampleValue := .string (.ofString text)

mutual

def codeUnits : SampleValue → List (Fin 65536)
  | .string text => 34 :: text.codeUnits ++ [34]
  | .object fields => 123 :: fieldUnits fields ++ [125]

def fieldUnits : List (String × SampleValue) → List (Fin 65536)
  | [] => []
  | (name, value) :: rest =>
      34 :: (JsString.ofString name).codeUnits ++ 34 :: 58 :: codeUnits value ++
        (if rest.isEmpty then [] else [44]) ++ fieldUnits rest

end

/-- The messages of the samples. -/
def message (name : String) : SampleValue := .object [("event", named name)]

/-- What the samples parse. -/
def samples : List SampleValue :=
  [.object [], message "first", message "second", message "third",
    .object [("mode", named "new")],
    .object [("event", named "setSettings"), ("context", named "uuid"),
      ("payload", .object [("mode", named "new")])]]

def fields : SampleValue → List (String × SampleValue)
  | .string _ => []
  | .object fields => fields

/-- An engine that parses the texts of the samples. -/
def engine : JavaScript SampleValue where
  isObject
    | .string _ => false
    | .object _ => true
  string?
    | .string text => some text
    | .object _ => none
  ofString := .string
  property value name := (value.fields.find? (·.1 = name)).map (·.2)
  object fields := .object (fields.filterMap fun field => field.2.map fun value => (field.1, value))
  spread value patch :=
    some (.object (value.fields.filter (fun field => patch.fields.all (·.1 ≠ field.1)) ++
      patch.fields))
  stringify value := some (some ⟨value.codeUnits⟩)
  parse text := samples.find? fun value => decide (value.codeUnits = text.codeUnits)

end SampleValue

namespace InspectorWorld

open SampleValue

/-- The application makes its objects, and connects. -/
def connectRun : List (InspectorLabel SampleValue) :=
  [.create (named "uuid"), .create (named "register"), .create (.object []),
    .create (.object [("action", named "action")]), .create (message "first"),
    .create (message "second"), .create (message "third"),
    .call (.connect ⟨some 1000, 3, 4, 5, 6, false⟩) {}, .proceed {}]

/-- Two messages are queued; the socket takes the second one only. -/
def fateRun : List (InspectorLabel SampleValue) :=
  connectRun ++ ([.call (.send 7) {}, .call (.send 8) {}, .event 0 .opens {},
    .proceed { raises := true }, .proceed {}, .proceed {}, .proceed {}, .proceed {}] : List (InspectorLabel SampleValue))

def fateWorld : InspectorWorld SampleValue :=
  ((inspectorSystem engine).exec (start engine) fateRun).get (by decide +kernel)

theorem fateWorld_reachable : (inspectorSystem engine).Reachable fateWorld :=
  .exec (.initial rfl) (Option.some_get _).symm

theorem message_fate_run :
    fateWorld.accepted.map (·.immediate) = [false, false] ∧
      fateWorld.MessageFate 0 0 ∧ fateWorld.reports 0 = 1 ∧
      fateWorld.MessageFate 1 0 ∧ fateWorld.passes 1 0 = 1 := by
  have fate := (message_fate engine fateWorld_reachable).2.2.2
    (List.isEmpty_iff.mp (by decide +kernel))
  have accepted : fateWorld.accepted =
      [⟨0, false, ⟨(message "first").codeUnits⟩, []⟩,
        ⟨0, false, ⟨(message "second").codeUnits⟩, []⟩] := by decide +kernel
  exact ⟨by decide +kernel, fate 0 _ (by rw [accepted]; rfl) rfl, by decide +kernel,
    fate 1 _ (by rw [accepted]; rfl) rfl, by decide +kernel⟩

end InspectorWorld

end StreamDockSdk.PropertyInspector
