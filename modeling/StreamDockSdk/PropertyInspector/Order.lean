import StreamDockSdk.PropertyInspector.Fate

namespace StreamDockSdk.PropertyInspector

open Automaton

theorem sublist_of_eq {α : Type} {first second : List α} (same : first = second) :
    first.Sublist second :=
  same ▸ .refl _

namespace InspectorQueue

variable {Parses : JsString → Prop} {queue after : InspectorQueue}

/-- A message was accepted at once, while the open handler had the other one still to send. -/
def Overtakes (accepted : List Acceptance) (token other : Nat) : Prop :=
  other < token ∧ ∃ acceptance, accepted[token]? = some acceptance ∧
    acceptance.immediate = true ∧ other ∈ acceptance.ahead

/-- The order of the messages of one socket. -/
def Before (accepted : List Acceptance) (token other : Nat) : Prop :=
  Overtakes accepted token other ∨ token < other ∧ ¬Overtakes accepted other token

theorem overtakes_append {accepted : List Acceptance} {token other : Nat} (more : List Acceptance)
    (within : token < accepted.length) :
    Overtakes (accepted ++ more) token other ↔ Overtakes accepted token other := by
  unfold Overtakes
  rw [List.getElem?_append_left within]

theorem Before.append {accepted : List Acceptance} {token other : Nat} (more : List Acceptance)
    (within : token < accepted.length) (inside : other < accepted.length)
    (before : Before accepted token other) : Before (accepted ++ more) token other := by
  unfold Before
  rwa [overtakes_append more within, overtakes_append more inside]

theorem Before.ne {accepted : List Acceptance} {token other : Nat}
    (before : Before accepted token other) : token ≠ other := by
  rcases before with ⟨older, -⟩ | ⟨older, -⟩ <;> omega

def sent (queue : InspectorQueue) (websocket : Nat) : List Nat :=
  (queue.sockets[websocket]?.map InspectorSocket.tokens).getD []

/-- The queued messages, when they are for the socket. -/
def queuedFor (queue : InspectorQueue) (websocket : Nat) : List Nat :=
  if queue.websocket = some websocket then queue.pending.map (·.token) else []

/-- The messages that a socket took, and those that it has still to take. -/
def sequence (queue : InspectorQueue) (websocket : Nat) : List Nat :=
  queue.sent websocket ++ queue.waiting websocket ++ queue.queuedFor websocket

/-- The first frame is the registration, and the only one. -/
def Registered (frames : List SentFrame) : Prop :=
  frames = [] ∨ ∃ data rest, frames = ⟨data, none⟩ :: rest ∧ ∀ frame ∈ rest, frame.token ≠ none

structure Ordered (queue : InspectorQueue) : Prop where
  within : ∀ websocket, ∀ token ∈ queue.sequence websocket, token < queue.accepted.length
  sequence : ∀ websocket, (queue.sequence websocket).Pairwise (Before queue.accepted)
  registered : ∀ socket ∈ queue.sockets, Registered socket.frames
  early : ∀ socket ∈ queue.sockets, socket.readyState = .connecting → socket.frames = []
  live : ∀ websocket socket, queue.websocket = some websocket →
    queue.sockets[websocket]? = some socket → socket.readyState = .open →
    socket.frames ≠ [] ∧ queue.pending = []

/-- What a step makes of the sequence of a socket. -/
inductive SequenceStep (queue after : InspectorQueue) (websocket : Nat) : Prop where
  | kept (sequence : (after.sequence websocket).Sublist (queue.sequence websocket))
      (more : List Acceptance) (accepted : after.accepted = queue.accepted ++ more)
  | queued (sequence : after.sequence websocket =
        queue.sequence websocket ++ [queue.accepted.length])
      (acceptance : Acceptance) (accepted : after.accepted = queue.accepted ++ [acceptance])
      (later : acceptance.immediate = false)
  | sent (empty : queue.queuedFor websocket = [])
      (sequence : after.sequence websocket =
        queue.sent websocket ++ queue.accepted.length :: queue.waiting websocket)
      (acceptance : Acceptance) (accepted : after.accepted = queue.accepted ++ [acceptance])
      (immediate : acceptance.immediate = true)
      (ahead : acceptance.ahead = queue.waiting websocket)

theorem sent_modify {index websocket : Nat} {update : InspectorSocket → InspectorSocket}
    (same : ∀ socket, (update socket).tokens = socket.tokens) :
    (queue.setSocket index update).sent websocket = queue.sent websocket := by
  simp only [sent, setSocket, List.getElem?_modify]
  cases queue.sockets[websocket]? with
  | none => rfl
  | some socket =>
      by_cases here : index = websocket <;> simp [here, same]

theorem sent_sends {index websocket : Nat} {socket : InspectorSocket} (data : JsString)
    (token : Nat) (found : queue.sockets[index]? = some socket) :
    (queue.setSocket index (.sends ⟨data, some token⟩)).sent websocket =
      if websocket = index then queue.sent websocket ++ [token] else queue.sent websocket := by
  simp only [sent, setSocket, List.getElem?_modify]
  by_cases here : websocket = index
  · subst here
    simp [found]
  · simp [here, Ne.symm here]

theorem waiting_cons {frame : QueueFrame} {rest : List QueueFrame}
    (place : queue.stack = frame :: rest) (websocket : Nat) :
    queue.waiting websocket =
      frame.waiting websocket ++ (queue.setStack rest).waiting websocket := by
  rw [waiting, place]
  rfl

theorem SequenceStep.unchanged {websocket : Nat}
    (sequence : after.sequence websocket = queue.sequence websocket)
    (accepted : after.accepted = queue.accepted) : SequenceStep queue after websocket :=
  .kept (sublist_of_eq sequence) [] (accepted.trans (List.append_nil _).symm)

/-- The queued messages are gone. -/
theorem SequenceStep.dropped {websocket : Nat}
    (sequence : after.sequence websocket = queue.sent websocket ++ queue.waiting websocket)
    (accepted : after.accepted = queue.accepted) : SequenceStep queue after websocket :=
  .kept ((sublist_of_eq sequence).trans (List.sublist_append_left _ _)) []
    (accepted.trans (List.append_nil _).symm)

theorem sequence_modify {index websocket : Nat} {update : InspectorSocket → InspectorSocket}
    (same : ∀ socket, (update socket).tokens = socket.tokens) :
    SequenceStep queue (queue.setSocket index update) websocket := by
  refine .unchanged ?_ rfl
  simp only [sequence, sent_modify same]
  rfl

theorem sequence_immediate {index websocket : Nat} {socket : InspectorSocket} {data : JsString}
    (found : queue.sockets[index]? = some socket) (empty : queue.pending = []) :
    SequenceStep queue ((queue.setSocket index
      (.sends ⟨data, some queue.accepted.length⟩)).accept index true data) websocket := by
  have none : queue.queuedFor websocket = [] := by simp [queuedFor, empty]
  have sends := @sent_sends queue index websocket socket data queue.accepted.length found
  by_cases here : websocket = index
  · subst here
    refine .sent none ?_ _ rfl rfl rfl
    rw [if_pos rfl] at sends
    change (queue.setSocket websocket _).sent websocket ++ queue.waiting websocket ++
      queue.queuedFor websocket = _
    rw [sends, none]
    simp
  · rw [if_neg here] at sends
    refine .kept (sublist_of_eq ?_) _ rfl
    change (queue.setSocket index _).sent websocket ++ queue.waiting websocket ++
      queue.queuedFor websocket = _
    rw [sends]
    rfl

theorem sequence_enqueue {index websocket : Nat} {data : JsString}
    (current : queue.websocket = some index) :
    SequenceStep queue ((queue.add data).accept index false data) websocket := by
  by_cases here : index = websocket
  · subst here
    refine .queued ?_ _ rfl rfl
    change queue.sent index ++ queue.waiting index ++ (queue.add data).queuedFor index = _
    simp [sequence, queuedFor, add, current]
  · refine .kept (sublist_of_eq ?_) _ rfl
    change queue.sent websocket ++ queue.waiting websocket ++
      (queue.add data).queuedFor websocket = _
    simp [sequence, queuedFor, add, current, here]

theorem sequence_connect {websocket : Nat} {socket : InspectorSocket} (unsent : socket.frames = []) :
    SequenceStep queue { queue with
      websocket := some queue.sockets.length, pending := [], bytes := 0
      sockets := queue.sockets ++ [socket]
      stack := .rejecting queue.pending :: queue.stack } websocket := by
  have none : socket.tokens = [] := by rw [InspectorSocket.tokens, unsent, List.filterMap_nil]
  have same : ((queue.sockets ++ [socket])[websocket]?.map InspectorSocket.tokens).getD [] =
      queue.sent websocket := by
    unfold sent
    rw [List.getElem?_append]
    split
    · rfl
    · next beyond =>
      rw [List.getElem?_eq_none (Nat.not_lt.mp beyond), List.getElem?_singleton]
      split
      · exact none
      · rfl
  refine .dropped ?_ rfl
  change ((queue.sockets ++ [socket])[websocket]?.map InspectorSocket.tokens).getD [] ++
    ([] ++ queue.waiting websocket) ++ (if _ then [] else []) = _
  rw [same, ite_self, List.append_nil, List.nil_append]

/-- The open handler has still to send what was queued for its socket. -/
theorem sequence_opened {index websocket : Nat} {data : JsString} (idle : queue.stack = [])
    (current : queue.websocket = some index) :
    SequenceStep queue ((queue.setSocket index fun socket =>
      (socket.settle .open).sends ⟨data, none⟩).spliced [.flushing index queue.pending])
      websocket := by
  have same : (queue.setSocket index fun socket =>
      (socket.settle .open).sends ⟨data, none⟩).sent websocket = queue.sent websocket :=
    sent_modify fun socket => by
      rw [tokens_sends, tokens_settle]
      exact List.append_nil _
  have empty : queue.waiting websocket = [] := by simp [waiting, idle]
  refine .unchanged ?_ rfl
  change (queue.setSocket index _).sent websocket ++
    ((QueueFrame.flushing index queue.pending).waiting websocket ++ []) ++ (if _ then [] else []) =
      _
  rw [same, sequence, empty, queuedFor, current, ite_self]
  simp only [QueueFrame.waiting, List.append_nil, Option.some.injEq]

theorem sequence_openFailed {index websocket : Nat} :
    SequenceStep queue ((queue.setSocket index (.settle .closing)).setStack
      (.registrationFailed index :: queue.stack)) websocket := by
  refine .unchanged ?_ rfl
  change (queue.setSocket index _).sent websocket ++ ([] ++ queue.waiting websocket) ++
    queue.queuedFor websocket = _
  rw [sent_modify fun socket => tokens_settle socket .closing, List.nil_append]
  rfl

theorem sequence_closed {index websocket : Nat} :
    SequenceStep queue ((queue.setSocket index (.settle .closed)).spliced
      (.rejecting queue.pending :: queue.stack)) websocket := by
  refine .dropped ?_ rfl
  change (queue.setSocket index _).sent websocket ++ ([] ++ queue.waiting websocket) ++
    (if _ then [] else []) = _
  rw [sent_modify fun socket => tokens_settle socket .closed, ite_self, List.append_nil,
    List.nil_append]

section Frames

variable {index websocket : Nat} {message : PendingMessage} {messages : List PendingMessage}
variable {rest : List QueueFrame}

/-- The message goes from the end of what was sent to the front of what waits. -/
theorem sequence_flushSent {socket : InspectorSocket}
    (place : queue.stack = .flushing index (message :: messages) :: rest)
    (found : queue.sockets[index]? = some socket) (empty : queue.pending = []) :
    SequenceStep queue ((queue.setSocket index (.sends ⟨message.data, some message.token⟩)).setStack
      (.flushing index messages :: rest)) websocket := by
  have none : queue.queuedFor websocket = [] := by simp [queuedFor, empty]
  have sends := @sent_sends queue index websocket socket message.data message.token found
  refine .unchanged ?_ rfl
  change (queue.setSocket index _).sent websocket ++
    ((QueueFrame.flushing index messages).waiting websocket ++
      (queue.setStack rest).waiting websocket) ++ queue.queuedFor websocket = _
  rw [sequence, sends, waiting_cons place]
  by_cases here : websocket = index
  · simp [here, QueueFrame.waiting]
  · simp [here, Ne.symm here, QueueFrame.waiting]

theorem sequence_flushFailed
    (place : queue.stack = .flushing index (message :: messages) :: rest) :
    SequenceStep queue
      ((queue.setStack (.flushing index messages :: rest)).report message.token) websocket := by
  refine .kept ?_ [] (List.append_nil _).symm
  change (queue.sent websocket ++
    ((QueueFrame.flushing index messages).waiting websocket ++
      (queue.setStack rest).waiting websocket) ++ queue.queuedFor websocket).Sublist _
  rw [sequence, waiting_cons place]
  refine List.Sublist.append_right (List.Sublist.append_left
    (List.Sublist.append_right ?_ _) _) _
  by_cases here : index = websocket <;> simp [QueueFrame.waiting, here]

theorem sequence_rejectNext (place : queue.stack = .rejecting (message :: messages) :: rest) :
    SequenceStep queue
      ((queue.setStack (.rejecting messages :: rest)).report message.token) websocket := by
  refine .unchanged ?_ rfl
  rw [sequence, sequence, waiting_cons place]
  rfl

theorem sequence_isOver {frame : QueueFrame} (place : queue.stack = frame :: rest)
    (empty : frame.messages = []) : SequenceStep queue (queue.setStack rest) websocket := by
  have none : frame.waiting websocket = [] := by
    cases frame with
    | flushing other messages =>
        rw [messages_flushing] at empty
        simp [QueueFrame.waiting, empty]
    | _ => rfl
  refine .unchanged ?_ rfl
  rw [sequence, sequence, waiting_cons place, none]
  rfl

theorem sequence_rejectAll (place : queue.stack = .registrationFailed index :: rest) :
    SequenceStep queue (queue.spliced (.rejecting queue.pending :: rest)) websocket := by
  refine .dropped ?_ rfl
  change queue.sent websocket ++ ([] ++ (queue.setStack rest).waiting websocket) ++
    (if _ then [] else []) = _
  rw [ite_self, List.append_nil, waiting_cons place]
  rfl

end Frames

/-- A step takes messages out of the sequence of a socket, or a message is accepted for it. -/
theorem sequence_step (step : QueueStep Parses queue after)
    (live : ∀ websocket socket, queue.websocket = some websocket →
      queue.sockets[websocket]? = some socket → socket.readyState = .open →
      socket.frames ≠ [] ∧ queue.pending = []) (websocket : Nat) :
    SequenceStep queue after websocket := by
  cases step with
  | closing index => exact sequence_modify tokens_closing
  | openStale index stale | closeStale index stale =>
      exact sequence_modify fun socket => tokens_settle socket _
  | immediate index socket data current found isOpen =>
      exact sequence_immediate found (live index socket current found isOpen).2
  | enqueue index socket data current found connecting parses room bytes =>
      exact sequence_enqueue current
  | connect socket connecting unhandled unsent => exact sequence_connect unsent
  | opened index socket data idle current found connecting => exact sequence_opened idle current
  | openFailed index current => exact sequence_openFailed
  | closed index current => exact sequence_closed
  | flushSent index socket message messages rest place current found isOpen =>
      exact sequence_flushSent place found (live index socket current found isOpen).2
  | flushFailed index message messages rest place => exact sequence_flushFailed place
  | rejectNext message messages rest place => exact sequence_rejectNext place
  | isOver frame rest place empty replaced => exact sequence_isOver place empty
  | rejectAll index rest place current => exact sequence_rejectAll place

theorem SequenceStep.within {websocket : Nat} (step : SequenceStep queue after websocket)
    (within : ∀ token ∈ queue.sequence websocket, token < queue.accepted.length) :
    ∀ token ∈ after.sequence websocket, token < after.accepted.length := by
  intro token member
  cases step with
  | kept sequence more accepted =>
      have inside := within token (sequence.subset member)
      rw [accepted, List.length_append]
      omega
  | queued sequence acceptance accepted later =>
      rw [sequence] at member
      rw [accepted, List.length_append, List.length_singleton]
      rcases List.mem_append.mp member with old | fresh
      · exact Nat.lt_succ_of_lt (within token old)
      · rw [List.mem_singleton.mp fresh]
        exact Nat.lt_succ_self _
  | sent empty sequence acceptance accepted immediate ahead =>
      have split : queue.sequence websocket =
          queue.sent websocket ++ queue.waiting websocket := by
        rw [InspectorQueue.sequence, empty, List.append_nil]
      rw [split] at within
      rw [sequence] at member
      rw [accepted, List.length_append, List.length_singleton]
      rcases List.mem_append.mp member with old | later
      · exact Nat.lt_succ_of_lt (within token (List.mem_append_left _ old))
      · rcases List.mem_cons.mp later with rfl | old
        · exact Nat.lt_succ_self _
        · exact Nat.lt_succ_of_lt (within token (List.mem_append_right _ old))

theorem SequenceStep.ordered {websocket : Nat} (step : SequenceStep queue after websocket)
    (within : ∀ token ∈ queue.sequence websocket, token < queue.accepted.length)
    (ordered : (queue.sequence websocket).Pairwise (Before queue.accepted)) :
    (after.sequence websocket).Pairwise (Before after.accepted) := by
  have grown (more : List Acceptance) :
      (queue.sequence websocket).Pairwise (Before (queue.accepted ++ more)) :=
    ordered.imp_of_mem fun first second before =>
      before.append more (within _ first) (within _ second)
  cases step with
  | kept sequence more accepted =>
      rw [accepted]
      exact (grown more).sublist sequence
  | queued sequence acceptance accepted later =>
      rw [sequence, accepted]
      refine List.pairwise_append.mpr ⟨grown _, List.pairwise_singleton _ _, ?_⟩
      intro token old other fresh
      rw [List.mem_singleton.mp fresh]
      refine .inr ⟨within token old, ?_⟩
      rintro ⟨-, entry, found, immediate, -⟩
      rw [List.getElem?_concat_length] at found
      cases Option.some.inj found
      rw [later] at immediate
      contradiction
  | sent empty sequence acceptance accepted immediate ahead =>
      have split : queue.sequence websocket =
          queue.sent websocket ++ queue.waiting websocket := by
        rw [InspectorQueue.sequence, empty, List.append_nil]
      have old := grown [acceptance]
      rw [split] at old within
      obtain ⟨first, second, cross⟩ := List.pairwise_append.mp old
      rw [sequence, accepted]
      refine List.pairwise_append.mpr ⟨first, List.pairwise_cons.mpr ⟨?_, second⟩, ?_⟩
      · intro other waits
        refine .inl ⟨within other (List.mem_append_right _ waits), acceptance, ?_, immediate,
          ahead ▸ waits⟩
        exact List.getElem?_concat_length
      · intro token sent other later
        rcases List.mem_cons.mp later with rfl | waits
        · refine .inr ⟨within token (List.mem_append_left _ sent), ?_⟩
          rintro ⟨-, entry, found, -, among⟩
          rw [List.getElem?_concat_length] at found
          cases Option.some.inj found
          exact (cross token sent token (ahead ▸ among)).ne rfl
        · exact cross token sent other waits

theorem Registered.append {frames : List SentFrame} (registered : Registered frames)
    (some_ : frames ≠ []) (data : JsString) (token : Nat) :
    Registered (frames ++ [⟨data, some token⟩]) := by
  obtain ⟨first, rest, rfl, none⟩ := registered.resolve_left some_
  refine .inr ⟨first, rest ++ [⟨data, some token⟩], rfl, fun frame member => ?_⟩
  rcases List.mem_append.mp member with old | fresh
  · exact none frame old
  · rw [List.mem_singleton.mp fresh]
    nofun

theorem frames_closing (socket : InspectorSocket) : socket.closing.frames = socket.frames := by
  unfold InspectorSocket.closing
  split <;> rfl

theorem registered_step (step : QueueStep Parses queue after)
    (ordered : queue.Ordered) : ∀ socket ∈ after.sockets, Registered socket.frames := by
  intro socket member
  have same {index : Nat} {update : InspectorSocket → InspectorSocket}
      (there : socket ∈ queue.sockets.modify index update)
      (keeps : ∀ old, (update old).frames = old.frames) : Registered socket.frames := by
    rcases mem_modify there with among | ⟨old, among, rfl⟩
    · exact ordered.registered socket among
    · rw [keeps]
      exact ordered.registered old among
  have sends {index : Nat} {current : InspectorSocket} {data : JsString} {token : Nat}
      (there : socket ∈ queue.sockets.modify index (.sends ⟨data, some token⟩))
      (named : queue.websocket = some index) (found : queue.sockets[index]? = some current)
      (isOpen : current.readyState = .open) : Registered socket.frames := by
    obtain ⟨place, located⟩ := List.mem_iff_getElem?.mp there
    rcases located_modify located with ⟨-, other⟩ | ⟨old, rfl, here, rfl⟩
    · exact ordered.registered socket (List.mem_of_getElem? other)
    · cases Option.some.inj (here.symm.trans found)
      exact (ordered.registered current (List.mem_of_getElem? found)).append
        (ordered.live place current named found isOpen).1 data token
  cases step with
  | closing index => exact same member frames_closing
  | openStale | closeStale | openFailed | closed => exact same member fun _ => rfl
  | immediate index current data named found isOpen => exact sends member named found isOpen
  | flushSent index current message messages rest place named found isOpen =>
      exact sends member named found isOpen
  | connect other connecting unhandled unsent =>
      rcases List.mem_append.mp member with among | fresh
      · exact ordered.registered socket among
      · rw [List.mem_singleton.mp fresh]
        exact .inl unsent
  | opened index current data idle named found connecting =>
      obtain ⟨place, located⟩ := List.mem_iff_getElem?.mp member
      rcases located_modify located with ⟨-, other⟩ | ⟨old, rfl, here, rfl⟩
      · exact ordered.registered socket (List.mem_of_getElem? other)
      · cases Option.some.inj (here.symm.trans found)
        have unsent := ordered.early current (List.mem_of_getElem? found) connecting
        refine .inr ⟨data, [], ?_, List.forall_mem_nil _⟩
        simp only [InspectorSocket.sends, InspectorSocket.settle, unsent, List.nil_append]
  | _ => exact ordered.registered socket member

theorem early_step (step : QueueStep Parses queue after)
    (early : ∀ socket ∈ queue.sockets, socket.readyState = .connecting → socket.frames = []) :
    ∀ socket ∈ after.sockets, socket.readyState = .connecting → socket.frames = [] := by
  intro socket member connecting
  have settled {index : Nat} {update : InspectorSocket → InspectorSocket}
      (there : socket ∈ queue.sockets.modify index update)
      (keeps : ∀ old, (update old).readyState ≠ .connecting) : socket.frames = [] := by
    rcases mem_modify there with among | ⟨old, among, rfl⟩
    · exact early socket among connecting
    · exact absurd connecting (keeps old)
  have sends {index : Nat} {current : InspectorSocket} {frame : SentFrame}
      (there : socket ∈ queue.sockets.modify index (.sends frame))
      (found : queue.sockets[index]? = some current) (isOpen : current.readyState = .open) :
      socket.frames = [] := by
    obtain ⟨place, located⟩ := List.mem_iff_getElem?.mp there
    rcases located_modify located with ⟨-, other⟩ | ⟨old, rfl, here, rfl⟩
    · exact early socket (List.mem_of_getElem? other) connecting
    · cases Option.some.inj (here.symm.trans found)
      change current.readyState = .connecting at connecting
      rw [isOpen] at connecting
      contradiction
  cases step with
  | closing index => exact settled member not_connecting_closing
  | openStale | closeStale | openFailed | closed | opened => exact settled member nofun
  | immediate index current data named found isOpen => exact sends member found isOpen
  | flushSent index current message messages rest place named found isOpen =>
      exact sends member found isOpen
  | connect other fresh unhandled unsent =>
      rcases List.mem_append.mp member with among | new
      · exact early socket among connecting
      · rw [List.mem_singleton.mp new]
        exact unsent
  | _ => exact early socket member connecting

theorem live_step (step : QueueStep Parses queue after)
    (live : ∀ websocket socket, queue.websocket = some websocket →
      queue.sockets[websocket]? = some socket → socket.readyState = .open →
      socket.frames ≠ [] ∧ queue.pending = []) :
    ∀ websocket socket, after.websocket = some websocket →
      after.sockets[websocket]? = some socket → socket.readyState = .open →
      socket.frames ≠ [] ∧ after.pending = [] := by
  intro websocket socket named located isOpen
  have sends {index : Nat} {frame : SentFrame} (current : queue.websocket = some websocket)
      (there : (queue.sockets.modify index (.sends frame))[websocket]? = some socket) :
      socket.frames ≠ [] ∧ queue.pending = [] := by
    rcases located_modify there with ⟨-, other⟩ | ⟨old, rfl, here, rfl⟩
    · exact live websocket socket current other isOpen
    · exact ⟨List.append_ne_nil_of_right_ne_nil _ (List.cons_ne_nil _ _),
        (live websocket old current here isOpen).2⟩
  cases step with
  | closing index =>
      rcases located_modify located with ⟨-, other⟩ | ⟨old, rfl, here, rfl⟩
      · exact live websocket socket named other isOpen
      · revert isOpen
        unfold InspectorSocket.closing
        split
        · nofun
        · nofun
        · next notOpen => exact fun isOpen => absurd isOpen notOpen
  | immediate | flushSent => exact sends named located
  | enqueue index other data current found connecting =>
      cases Option.some.inj (named.symm.trans current)
      cases Option.some.inj (located.symm.trans found)
      rw [isOpen] at connecting
      contradiction
  | connect other connecting unhandled unsent =>
      cases Option.some.inj named
      rw [List.getElem?_concat_length] at located
      cases Option.some.inj located
      rw [isOpen] at connecting
      contradiction
  | openStale index stale =>
      rcases located_modify located with ⟨-, other⟩ | ⟨old, rfl, here, rfl⟩
      · exact live websocket socket named other isOpen
      · exact absurd named stale
  | closeStale index stale =>
      rcases located_modify located with ⟨-, other⟩ | ⟨old, rfl, here, rfl⟩
      · exact live websocket socket named other isOpen
      · contradiction
  | opened index other data idle current found connecting =>
      cases Option.some.inj (named.symm.trans current)
      rcases located_modify located with ⟨elsewhere, -⟩ | ⟨old, -, here, rfl⟩
      · exact absurd rfl elsewhere
      · exact ⟨List.append_ne_nil_of_right_ne_nil _ (List.cons_ne_nil _ _), rfl⟩
  | openFailed index current | closed index current =>
      cases Option.some.inj (named.symm.trans current)
      rcases located_modify located with ⟨elsewhere, -⟩ | ⟨old, -, here, rfl⟩
      · exact absurd rfl elsewhere
      · contradiction
  | rejectAll index rest place current =>
      exact ⟨(live websocket socket named located isOpen).1, rfl⟩
  | _ => exact live websocket socket named located isOpen

theorem Ordered.step (ordered : queue.Ordered) (step : QueueStep Parses queue after) :
    after.Ordered where
  within websocket := (sequence_step step ordered.live websocket).within (ordered.within websocket)
  sequence websocket := (sequence_step step ordered.live websocket).ordered
    (ordered.within websocket) (ordered.sequence websocket)
  registered := registered_step step ordered
  early := early_step step ordered.early
  live := live_step step ordered.live

theorem Ordered.run (ordered : queue.Ordered)
    (run : Relation.ReflTransGen (QueueStep Parses) queue after) : after.Ordered := by
  induction run with
  | refl => exact ordered
  | tail _ last ih => exact ih.step last

/-- The messages of a socket are in the order of their acceptance unless one of them has
overtaken another one. -/
theorem Ordered.increasing_iff (ordered : queue.Ordered) {websocket : Nat}
    {socket : InspectorSocket} (found : queue.sockets[websocket]? = some socket) :
    socket.tokens.Pairwise (· < ·) ↔
      ∀ token ∈ socket.tokens, ∀ other ∈ socket.tokens,
        ¬Overtakes queue.accepted token other := by
  have sequence : socket.tokens.Pairwise (Before queue.accepted) := by
    have all := ordered.sequence websocket
    simp only [InspectorQueue.sequence, sent, found, Option.map_some, Option.getD_some,
      List.append_assoc] at all
    exact (List.pairwise_append.mp all).1
  constructor
  · intro increasing token member other among overtakes
    have forward : socket.tokens.Pairwise fun first second =>
        first < second → Before queue.accepted first second :=
      sequence.imp (S := fun first second => first < second → Before queue.accepted first second)
        fun before _ => before
    have sorted : ∀ first ∈ socket.tokens, ∀ second ∈ socket.tokens, first < second →
        Before queue.accepted first second :=
      List.Pairwise.forall_of_forall_of_flip (fun token _ never => absurd never (Nat.lt_irrefl _))
        forward (increasing.imp fun older newer => absurd older (Nat.lt_asymm newer))
    rcases sorted other among token member overtakes.1 with ⟨older, -⟩ | ⟨-, never⟩
    · exact absurd older (Nat.lt_asymm overtakes.1)
    · exact never overtakes
  · intro never
    exact sequence.imp_of_mem fun first second before =>
      (before.resolve_left (never _ first _ second)).1

end InspectorQueue

namespace InspectorWorld

variable {Value : Type} {js : JavaScript Value} {world after : InspectorWorld Value}

theorem reachable_ordered (reachable : (inspectorSystem js).Reachable world) :
    world.queue.Ordered := by
  refine reachable.invariant_given (motive := fun world => world.queue.Ordered)
    (fun world => world.queue.QueueSound (Parsable js)) (fun _ => reachable_queue) ?_
    fun _ _ _ sound ordered stepped => ordered.run (step_queueRun sound.parses stepped)
  rintro first rfl
  refine ⟨fun _ => ?_, fun _ => ?_, List.forall_mem_nil _, List.forall_mem_nil _, nofun⟩
  · exact List.forall_mem_nil _
  · exact .nil

/-- The calls that send a message. -/
def sendsMessage : ClientCall → Bool
  | .send _ | .sendToPlugin _ | .setSettings _ | .updateSettings _ | .getSettings => true
  | .on _ _ | .off _ _ | .connect _ => false

/-- The current socket is open, and its open handler has still to send a queued message. -/
def flushes (world : InspectorWorld Value) : Bool :=
  match world.client.websocket with
  | some websocket => world.readyState websocket = .open && !(world.waiting websocket).isEmpty
  | none => false

/-- No message is sent while the open handler has still to send a queued one. -/
def patient (world : InspectorWorld Value) : InspectorLabel Value → Bool
  | .call call _ => !(sendsMessage call && world.flushes)
  | _ => true

/-- What a step adds to the accepted messages. -/
inductive Accepting (world after : InspectorWorld Value) : Prop where
  | same (accepted : after.accepted = world.accepted)
  | one (acceptance : Acceptance) (accepted : after.accepted = world.accepted ++ [acceptance])
      (ahead : acceptance.immediate = true → ∃ websocket,
        world.client.websocket = some websocket ∧ world.readyState websocket = .open ∧
          acceptance.ahead = world.waiting websocket)

theorem SendEffect.accepting {message : Value} {result : InspectorWorld Value × CallResult}
    (effect : SendEffect js world message result) : Accepting world result.1 := by
  cases effect with
  | raised client same => exact .same rfl
  | immediate websocket socket data current found isOpen text parsable =>
      refine .one _ rfl fun _ => ⟨websocket, current, ?_, rfl⟩
      simp [readyState, found, isOpen]
  | enqueued websocket socket data current found connecting text parsable room =>
      exact .one _ rfl nofun

theorem setSettings_accepting (settings : Value) (wire : Wire) :
    Accepting world (world.setSettings js settings wire).1 := by
  unfold setSettings
  split
  · exact .same rfl
  · split
    · exact .same rfl
    · next snapshot _ =>
      have sent := ((@send_effect _ js world)
        (world.settingsMessage js snapshot) wire).accepting
      split
      · next same =>
        rw [same] at sent
        cases sent with
        | same accepted => exact .same accepted
        | one acceptance accepted ahead => exact .one acceptance accepted ahead
      · next same =>
        rw [same] at sent
        exact sent

theorem perform_accepting (call : ClientCall) (wire : Wire) (sends : sendsMessage call = true) :
    Accepting world (world.perform js wire call).1 := by
  cases call with
  | on | off | connect => contradiction
  | send message => exact (send_effect _ wire).accepting
  | sendToPlugin payload =>
      simp only [perform, sendToPlugin]
      split
      · exact .same rfl
      · exact (send_effect _ wire).accepting
  | setSettings settings => exact setSettings_accepting _ wire
  | updateSettings patch =>
      simp only [perform, updateSettings]
      split
      · exact .same rfl
      · split
        · exact .same rfl
        · exact setSettings_accepting _ wire
  | getSettings => exact (send_effect _ wire).accepting

theorem place_accepted (parsed : Nat ⊕ Value) :
    (world.place parsed).1.accepted = world.accepted := by
  cases parsed <;> rfl

theorem connect_accepted (arguments : ConnectArguments) :
    (world.connect js arguments).1.accepted = world.accepted := by
  unfold connect
  split
  · rfl
  · next session _ =>
    have placed := ((@place_accepted _ ((world.place session.info).1))
      session.actionInfo).trans (place_accepted session.info)
    cases world.client.websocket <;> exact placed

theorem register_accepted (websocket : Nat) (socket : InspectorSocket) (wire : Wire) :
    (world.register js websocket socket wire).1.accepted = world.accepted := by
  rcases (@register_cases _ js world websocket socket wire) with ⟨_, _, -, -, same⟩ | ⟨_, -, same⟩ <;> rw [same] <;> rfl

theorem flush_accepted (websocket : Nat) (message : PendingMessage) (wire : Wire) :
    (world.flush websocket message wire).1.accepted = world.accepted := by
  rcases (@flush_cases _ world websocket message wire)
    with ⟨_, -, -, -, same⟩ | ⟨_, -, same⟩ <;> rw [same] <;> rfl

theorem report_accepted (message : PendingMessage) :
    (world.report js message).accepted = world.accepted := by
  unfold report
  split <;> rfl

theorem opens_accepted (websocket : Nat) (socket : InspectorSocket) (wire : Wire) :
    (world.opens js websocket socket wire).accepted = world.accepted := by
  have registered := (@register_accepted _ js (world.setSocket websocket (.settle .open))) websocket socket wire
  unfold opens
  dsimp only
  split
  · rfl
  · split <;> next same => rw [same] at registered; exact registered

theorem receive_accepted (websocket : Nat) (data : Value) :
    (world.receive js websocket data).accepted = world.accepted := by
  unfold receive
  split
  · rfl
  · split
    · rfl
    · dsimp only
      split
      · rfl
      · split
        · rfl
        · split
          · rfl
          · next received =>
            split at received
            · obtain ⟨_, -, rfl⟩ := Option.map_eq_some_iff.mp received
              rfl
            · cases received
              rfl

theorem proceed_accepted {wire : Wire} (stepped : world.proceed js wire = some after) :
    after.accepted = world.accepted := by
  unfold proceed at stepped
  split at stepped
  · contradiction
  · contradiction
  · cases stepped
    rfl
  · split at stepped <;> cases stepped <;> rfl
  · dsimp only at stepped
    split at stepped
    · cases stepped
      rfl
    · split at stepped <;> cases stepped <;> rfl
  · next websocket message messages rest place =>
    have flushed := @flush_accepted _
      { world with stack := .flushing websocket messages :: rest } websocket message wire
    dsimp only at stepped
    split at stepped
    · next same =>
      cases stepped
      rw [same] at flushed
      exact flushed
    · next same =>
      cases stepped
      rw [same] at flushed
      exact (report_accepted message).trans flushed
  · dsimp only at stepped
    split at stepped <;> cases stepped <;> rfl
  · cases stepped
    rfl
  · cases stepped
    exact report_accepted _
  · cases stepped
    rfl
  · cases stepped
    rfl

/-- Only a call that sends a message has one accepted. -/
theorem step_accepting {label : InspectorLabel Value} (stepped : world.step js label = some after) :
    after.accepted = world.accepted ∨
      ∃ call wire, label = .call call wire ∧ sendsMessage call = true ∧ Accepting world after := by
  cases label with
  | create value | mutate object value =>
      simp only [step] at stepped
      split at stepped
      · cases stepped
        exact .inl rfl
      · contradiction
  | call call wire =>
      simp only [step] at stepped
      split at stepped
      · cases stepped
        cases sends : sendsMessage call with
        | true => exact .inr ⟨call, wire, rfl, sends, perform_accepting call wire sends⟩
        | false =>
            refine .inl ?_
            cases call with
            | on event listener =>
                simp only [perform]
                split <;> rfl
            | off event listener => rfl
            | connect arguments => exact connect_accepted arguments
            | _ => contradiction
      · contradiction
  | finish =>
      simp only [step] at stepped
      split at stepped
      · cases stepped
        exact .inl rfl
      · contradiction
  | proceed wire => exact .inl (proceed_accepted stepped)
  | event websocket event wire =>
      refine .inl ?_
      simp only [step] at stepped
      split at stepped
      · cases event with
        | opens =>
            simp only [handle] at stepped
            split at stepped
            · cases stepped
              exact opens_accepted websocket _ wire
            · contradiction
        | message data =>
            cases stepped
            exact receive_accepted websocket data
        | error =>
            cases stepped
            rfl
        | closes =>
            simp only [handle] at stepped
            split at stepped
            · cases stepped
              unfold closes
              dsimp only
              split <;> rfl
            · contradiction
      · contradiction
  | closing websocket =>
      cases stepped
      exact .inl rfl

/-- Whatever is accepted at once, no queued message is left to send. -/
theorem patient_ahead (waiting : (inspectorSystem js).ReachableBy
    (fun world label => world.patient label = true) world) :
    ∀ acceptance ∈ world.accepted, acceptance.immediate = true → acceptance.ahead = [] := by
  refine waiting.invariant (motive := fun world => ∀ acceptance ∈ world.accepted,
    acceptance.immediate = true → acceptance.ahead = []) ?_ ?_
  · rintro first rfl
    exact List.forall_mem_nil _
  · intro before label next allowed holds stepped acceptance member immediate
    rcases step_accepting stepped with same | ⟨call, wire, rfl, sends, accepting⟩
    · exact holds acceptance (same ▸ member) immediate
    · cases accepting with
      | same accepted => exact holds acceptance (accepted ▸ member) immediate
      | one fresh accepted ahead =>
          rw [accepted] at member
          rcases List.mem_append.mp member with old | new
          · exact holds acceptance old immediate
          · cases List.mem_singleton.mp new
            obtain ⟨websocket, current, isOpen, waits⟩ := ahead immediate
            simp only [patient, sends, flushes, current, isOpen, decide_true, Bool.true_and,
              Bool.not_not, List.isEmpty_iff] at allowed
            exact waits.trans allowed

/-- On every socket the registration is first.  The messages are in the order of their
acceptance exactly when none of them was accepted at once while the open handler had
another one of them still to send; and so they are in every run where no message is sent
while it has. -/
theorem wire_order (js : JavaScript Value) (reachable : (inspectorSystem js).Reachable world) :
    ∀ socket ∈ world.sockets, InspectorQueue.Registered socket.frames ∧
      (socket.tokens.Pairwise (· < ·) ↔ ∀ token ∈ socket.tokens, ∀ other ∈ socket.tokens,
        ¬InspectorQueue.Overtakes world.accepted token other) ∧
      ((inspectorSystem js).ReachableBy (fun world label => world.patient label = true) world →
        socket.tokens.Pairwise (· < ·)) := by
  intro socket member
  have ordered := reachable_ordered reachable
  obtain ⟨websocket, found⟩ := List.mem_iff_getElem?.mp member
  have exact_ := InspectorQueue.Ordered.increasing_iff ordered found
  refine ⟨ordered.registered socket member, exact_, fun waiting => exact_.mpr ?_⟩
  rintro token - other - ⟨-, acceptance, located, immediate, ahead⟩
  rw [patient_ahead waiting acceptance (List.mem_of_getElem? located) immediate] at ahead
  contradiction

def patientWorld : InspectorWorld SampleValue :=
  (((inspectorSystem SampleValue.engine).restrict patient).exec (start SampleValue.engine)
    (connectRun ++ ([.call (.send 7) {}, .event 0 .opens {}, .proceed {}, .proceed {}, .proceed {},
      .call (.send 8) {}] : List (InspectorLabel SampleValue)))).get (by decide +kernel)

theorem patientWorld_reachable : (inspectorSystem SampleValue.engine).ReachableBy
    (fun world label => world.patient label = true) patientWorld :=
  System.Reachable.restricted (System.Reachable.exec (.initial rfl) (Option.some_get _).symm)

theorem wire_order_run :
    patientWorld.sockets.map (·.frames.map (·.token)) = [[none, some 0, some 1]] ∧
      ∀ socket ∈ patientWorld.sockets, socket.tokens.Pairwise (· < ·) :=
  ⟨by decide +kernel, fun socket member =>
    (wire_order SampleValue.engine patientWorld_reachable.reachable socket member).2.2
      patientWorld_reachable⟩

/-- The second queued message is sent in the loop of the open handler, after what the
listener of the first one's `sendError` has sent. -/
def overtakingRun : List (InspectorLabel SampleValue) :=
  connectRun ++ ([.call (.on (.ofString "sendError") 0) {}, .call (.send 7) {}, .call (.send 8) {},
    .event 0 .opens {}, .proceed { bufferedAmount := queueByteLimit }, .proceed {},
    .call (.send 9) {}, .finish, .proceed {}, .proceed {}] : List (InspectorLabel SampleValue))

def overtakenWorld : InspectorWorld SampleValue :=
  ((inspectorSystem SampleValue.engine).exec (start SampleValue.engine) overtakingRun).get
    (by decide +kernel)

theorem overtakenWorld_reachable :
    (inspectorSystem SampleValue.engine).Reachable overtakenWorld :=
  .exec (.initial rfl) (Option.some_get _).symm

theorem queued_message_overtaken : ¬∀ world : InspectorWorld SampleValue,
    (inspectorSystem SampleValue.engine).Reachable world →
      ∀ socket ∈ world.sockets, socket.tokens.Pairwise (· < ·) := by
  intro ordered
  have sent : overtakenWorld.sockets.map (·.tokens) = [[2, 1]] := by decide +kernel
  obtain ⟨socket, member, tokens⟩ := List.mem_map.mp (sent ▸ List.mem_cons_self)
  have increasing := ordered _ overtakenWorld_reachable socket member
  rw [tokens] at increasing
  exact absurd increasing (by decide)

end InspectorWorld

end StreamDockSdk.PropertyInspector
