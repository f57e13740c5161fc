import Mathlib.Algebra.GroupWithZero.Nat
import Mathlib.Data.List.Nodup
import Mathlib.Data.List.Perm.Basic
import Mathlib.Data.List.Pairwise
import Mathlib.Logic.Relation
import StreamDockSdk.PropertyInspector.Client

namespace StreamDockSdk.PropertyInspector

/-! # The queue of the client

What the calls on the stack and the sockets hold of accepted messages, without the
listeners, the settings and the calls that hold none.
-/

inductive QueueFrame where
  | flushing (websocket : Nat) (rest : List PendingMessage)
  | registrationFailed (websocket : Nat)
  | rejecting (rest : List PendingMessage)
deriving DecidableEq, Repr

def QueueFrame.messages : QueueFrame → List PendingMessage
  | .flushing _ rest | .rejecting rest => rest
  | .registrationFailed _ => []

/-- The messages that a frame has still to send to a socket. -/
def QueueFrame.waiting (websocket : Nat) : QueueFrame → List Nat
  | .flushing other rest => if other = websocket then rest.map (·.token) else []
  | _ => []

structure InspectorQueue where
  websocket : Option Nat
  pending : List PendingMessage
  bytes : Nat
  sockets : List InspectorSocket
  stack : List QueueFrame
  accepted : List Acceptance
  reported : List Nat
deriving DecidableEq, Repr

namespace InspectorQueue

variable (queue : InspectorQueue)

def setSocket (websocket : Nat) (update : InspectorSocket → InspectorSocket) : InspectorQueue :=
  { queue with sockets := queue.sockets.modify websocket update }

def setStack (stack : List QueueFrame) : InspectorQueue :=
  { queue with stack }

def spliced (stack : List QueueFrame) : InspectorQueue :=
  { queue with pending := [], bytes := 0, stack }

def waiting (websocket : Nat) : List Nat :=
  queue.stack.flatMap (QueueFrame.waiting websocket)

def accept (websocket : Nat) (immediate : Bool) (data : JsString) : InspectorQueue :=
  { queue with accepted := queue.accepted ++
      [{ websocket, immediate, data, ahead := queue.waiting websocket }] }

def add (data : JsString) : InspectorQueue :=
  { queue with
    pending := queue.pending ++ [{ data, token := queue.accepted.length }]
    bytes := queue.bytes + utf8Size data maxMessageBytes }

def report (token : Nat) : InspectorQueue :=
  { queue with reported := token :: queue.reported }

end InspectorQueue

/-- One step of the queue; every message that it takes satisfies `Parses`. -/
inductive QueueStep (Parses : JsString → Prop) : InspectorQueue → InspectorQueue → Prop where
  | closing (queue : InspectorQueue) (websocket : Nat) :
      QueueStep Parses queue (queue.setSocket websocket .closing)
  | immediate (queue : InspectorQueue) (websocket : Nat) (socket : InspectorSocket)
      (data : JsString) (current : queue.websocket = some websocket)
      (found : queue.sockets[websocket]? = some socket) (isOpen : socket.readyState = .open) :
      QueueStep Parses queue ((queue.setSocket websocket
        (.sends ⟨data, some queue.accepted.length⟩)).accept websocket true data)
  | enqueue (queue : InspectorQueue) (websocket : Nat) (socket : InspectorSocket)
      (data : JsString) (current : queue.websocket = some websocket)
      (found : queue.sockets[websocket]? = some socket)
      (connecting : socket.readyState = .connecting) (parses : Parses data)
      (room : queue.pending.length < pendingMessageLimit)
      (bytes : queue.bytes + utf8Size data maxMessageBytes ≤ queueByteLimit) :
      QueueStep Parses queue ((queue.add data).accept websocket false data)
  | connect (queue : InspectorQueue) (socket : InspectorSocket)
      (connecting : socket.readyState = .connecting) (unhandled : socket.handled = false)
      (unsent : socket.frames = []) :
      QueueStep Parses queue { queue with
        websocket := some queue.sockets.length, pending := [], bytes := 0
        sockets := queue.sockets ++ [socket]
        stack := .rejecting queue.pending :: queue.stack }
  | openStale (queue : InspectorQueue) (websocket : Nat)
      (stale : queue.websocket ≠ some websocket) :
      QueueStep Parses queue (queue.setSocket websocket (.settle .open))
  | opened (queue : InspectorQueue) (websocket : Nat) (socket : InspectorSocket) (data : JsString)
      (idle : queue.stack = []) (current : queue.websocket = some websocket)
      (found : queue.sockets[websocket]? = some socket)
      (connecting : socket.readyState = .connecting) :
      QueueStep Parses queue ((queue.setSocket websocket fun socket =>
        (socket.settle .open).sends ⟨data, none⟩).spliced
          [.flushing websocket queue.pending])
  | openFailed (queue : InspectorQueue) (websocket : Nat)
      (current : queue.websocket = some websocket) :
      QueueStep Parses queue ((queue.setSocket websocket (.settle .closing)).setStack
        (.registrationFailed websocket :: queue.stack))
  | closeStale (queue : InspectorQueue) (websocket : Nat)
      (stale : queue.websocket ≠ some websocket) :
      QueueStep Parses queue (queue.setSocket websocket (.settle .closed))
  | closed (queue : InspectorQueue) (websocket : Nat)
      (current : queue.websocket = some websocket) :
      QueueStep Parses queue ((queue.setSocket websocket (.settle .closed)).spliced
        (.rejecting queue.pending :: queue.stack))
  | flushSent (queue : InspectorQueue) (websocket : Nat) (socket : InspectorSocket)
      (message : PendingMessage) (messages : List PendingMessage) (rest : List QueueFrame)
      (place : queue.stack = .flushing websocket (message :: messages) :: rest)
      (current : queue.websocket = some websocket)
      (found : queue.sockets[websocket]? = some socket) (isOpen : socket.readyState = .open) :
      QueueStep Parses queue ((queue.setSocket websocket
        (.sends ⟨message.data, some message.token⟩)).setStack
          (.flushing websocket messages :: rest))
  | flushFailed (queue : InspectorQueue) (websocket : Nat) (message : PendingMessage)
      (messages : List PendingMessage) (rest : List QueueFrame)
      (place : queue.stack = .flushing websocket (message :: messages) :: rest) :
      QueueStep Parses queue
        ((queue.setStack (.flushing websocket messages :: rest)).report message.token)
  | rejectNext (queue : InspectorQueue) (message : PendingMessage) (messages : List PendingMessage)
      (rest : List QueueFrame) (place : queue.stack = .rejecting (message :: messages) :: rest) :
      QueueStep Parses queue
        ((queue.setStack (.rejecting messages :: rest)).report message.token)
  | isOver (queue : InspectorQueue) (frame : QueueFrame) (rest : List QueueFrame)
      (place : queue.stack = frame :: rest) (empty : frame.messages = [])
      (replaced : ∀ websocket, frame = .registrationFailed websocket →
        queue.websocket ≠ some websocket) :
      QueueStep Parses queue (queue.setStack rest)
  | rejectAll (queue : InspectorQueue) (websocket : Nat) (rest : List QueueFrame)
      (place : queue.stack = .registrationFailed websocket :: rest)
      (current : queue.websocket = some websocket) :
      QueueStep Parses queue (queue.spliced (.rejecting queue.pending :: rest))

namespace InspectorQueue

variable {Parses : JsString → Prop} {queue after : InspectorQueue}

def sentTokens (sockets : List InspectorSocket) : List Nat :=
  sockets.flatMap (·.tokens)

def stackTokens (stack : List QueueFrame) : List Nat :=
  stack.flatMap fun frame => frame.messages.map (·.token)

def tokens (queue : InspectorQueue) : List Nat :=
  queue.pending.map (·.token) ++ stackTokens queue.stack ++ sentTokens queue.sockets ++
    queue.reported

/-- The messages that are not sent and not reported. -/
def held (queue : InspectorQueue) : List PendingMessage :=
  queue.pending ++ queue.stack.flatMap (·.messages)

/-- The call of `send` that accepted a message, and the socket that it accepted it for. -/
def AcceptedFor (queue : InspectorQueue) (token websocket : Nat) : Prop :=
  ∃ acceptance, queue.accepted[token]? = some acceptance ∧ acceptance.websocket = websocket

/-- The open or close event of the current socket was not handled, or its open handler is
about to reject the queue. -/
def Unhandled (websocket : Option Nat) (sockets : List InspectorSocket)
    (stack : List QueueFrame) : Prop :=
  ∃ index socket, websocket = some index ∧ sockets[index]? = some socket ∧
    (socket.handled = false ∨ .registrationFailed index ∈ stack)

structure QueueSound (Parses : JsString → Prop) (queue : InspectorQueue) : Prop where
  conserved : queue.tokens.Perm (List.range queue.accepted.length)
  bytes : queue.bytes = (queue.pending.map fun message => utf8Size message.data maxMessageBytes).sum
  room : queue.pending.length ≤ pendingMessageLimit ∧ queue.bytes ≤ queueByteLimit
  parses : ∀ message ∈ queue.held, Parses message.data
  pendingFor : ∀ message ∈ queue.pending, ∃ websocket, queue.websocket = some websocket ∧
    queue.AcceptedFor message.token websocket
  flushingFor : ∀ websocket rest, .flushing websocket rest ∈ queue.stack →
    ∀ message ∈ rest, queue.AcceptedFor message.token websocket
  sentFor : ∀ websocket socket, queue.sockets[websocket]? = some socket →
    ∀ token ∈ socket.tokens, queue.AcceptedFor token websocket
  unhandled : queue.pending ≠ [] → Unhandled queue.websocket queue.sockets queue.stack
  connecting : ∀ socket ∈ queue.sockets, socket.readyState = .connecting → socket.handled = false

theorem mem_modify {α : Type*} {list : List α} {index : Nat} {update : α → α} {value : α}
    (member : value ∈ list.modify index update) :
    value ∈ list ∨ ∃ old ∈ list, value = update old := by
  obtain ⟨place, located⟩ := List.mem_iff_getElem?.mp member
  rw [List.getElem?_modify] at located
  obtain ⟨old, found, same⟩ := Option.map_eq_some_iff.mp located
  have among := List.mem_of_getElem? found
  split at same
  · exact .inr ⟨old, among, same.symm⟩
  · exact .inl (same ▸ among)

/-- A list with one entry changed, collected. -/
theorem flatMap_modify_perm {α β : Type*} (collect : α → List β) {list : List α} {index : Nat}
    {old : α} {update : α → α} {more : List β} (found : list[index]? = some old)
    (grows : collect (update old) = collect old ++ more) :
    ((list.modify index update).flatMap collect).Perm (list.flatMap collect ++ more) := by
  induction list generalizing index with
  | nil => contradiction
  | cons head tail ih =>
      cases index with
      | zero =>
          cases Option.some.inj found
          simp only [List.modify_zero_cons, List.flatMap_cons, grows, List.append_assoc]
          exact List.perm_append_comm.append_left _
      | succ index =>
          simp only [List.modify_succ_cons, List.flatMap_cons, List.append_assoc]
          exact (ih found).append_left _

theorem flatMap_modify_same {α β : Type*} (collect : α → List β) (list : List α) (index : Nat)
    {update : α → α} (same : ∀ value, collect (update value) = collect value) :
    (list.modify index update).flatMap collect = list.flatMap collect := by
  induction list generalizing index with
  | nil => simp
  | cons head tail ih =>
      cases index with
      | zero => simp [same]
      | succ index => simp [ih]

theorem located_modify {α : Type*} {list : List α} {index place : Nat} {update : α → α} {value : α}
    (located : (list.modify index update)[place]? = some value) :
    (place ≠ index ∧ list[place]? = some value) ∨
      ∃ old, place = index ∧ list[place]? = some old ∧ value = update old := by
  rw [List.getElem?_modify] at located
  obtain ⟨old, found, same⟩ := Option.map_eq_some_iff.mp located
  split at same
  · next here => exact .inr ⟨old, here.symm, found, same.symm⟩
  · next elsewhere => exact .inl ⟨Ne.symm elsewhere, same ▸ found⟩

@[simp] theorem tokens_closing (socket : InspectorSocket) :
    socket.closing.tokens = socket.tokens := by
  unfold InspectorSocket.closing
  split <;> rfl

@[simp] theorem tokens_settle (socket : InspectorSocket) (readyState : ReadyState) :
    (socket.settle readyState).tokens = socket.tokens :=
  rfl

@[simp] theorem tokens_sends (socket : InspectorSocket) (frame : SentFrame) :
    (socket.sends frame).tokens = socket.tokens ++ frame.token.toList := by
  simp only [InspectorSocket.tokens, InspectorSocket.sends, List.filterMap_append]
  cases token : frame.token <;> simp [token]

theorem handled_closing (socket : InspectorSocket) : socket.closing.handled = socket.handled := by
  unfold InspectorSocket.closing
  split <;> rfl

theorem not_connecting_closing (socket : InspectorSocket) :
    socket.closing.readyState ≠ .connecting := by
  unfold InspectorSocket.closing
  split
  · nofun
  · nofun
  · next other _ => exact other

@[simp] theorem messages_flushing (websocket : Nat) (rest : List PendingMessage) :
    (QueueFrame.flushing websocket rest).messages = rest :=
  rfl

@[simp] theorem messages_rejecting (rest : List PendingMessage) :
    (QueueFrame.rejecting rest).messages = rest :=
  rfl

@[simp] theorem messages_registrationFailed (websocket : Nat) :
    (QueueFrame.registrationFailed websocket).messages = [] :=
  rfl

@[simp] theorem stackTokens_cons (frame : QueueFrame) (rest : List QueueFrame) :
    stackTokens (frame :: rest) = frame.messages.map (·.token) ++ stackTokens rest :=
  rfl

@[simp] theorem stackTokens_nil : stackTokens [] = [] := rfl

theorem sentTokens_sends {sockets : List InspectorSocket} {websocket : Nat}
    {socket : InspectorSocket} (data : JsString) (token : Nat)
    (found : sockets[websocket]? = some socket) :
    (sentTokens (sockets.modify websocket (.sends ⟨data, some token⟩))).Perm
      (sentTokens sockets ++ [token]) :=
  flatMap_modify_perm InspectorSocket.tokens found (tokens_sends _ _)

theorem sentTokens_same {sockets : List InspectorSocket} {websocket : Nat}
    {update : InspectorSocket → InspectorSocket}
    (same : ∀ socket, (update socket).tokens = socket.tokens) :
    sentTokens (sockets.modify websocket update) = sentTokens sockets :=
  flatMap_modify_same _ _ _ same

theorem conserved_step (step : QueueStep Parses queue after)
    (conserved : queue.tokens.Perm (List.range queue.accepted.length)) :
    after.tokens.Perm (List.range after.accepted.length) := by
  have settle (readyState : ReadyState) (websocket : Nat) :
      sentTokens (queue.sockets.modify websocket (.settle readyState)) =
        sentTokens queue.sockets :=
    sentTokens_same fun socket => tokens_settle socket readyState
  refine List.perm_iff_count.mpr fun token => ?_
  have counted := conserved.count_eq token
  simp only [tokens, List.count_append] at counted
  cases step with
  | closing websocket =>
      simp only [tokens, setSocket, sentTokens_same tokens_closing, List.count_append]
      exact counted
  | openStale websocket stale | closeStale websocket stale =>
      simp only [tokens, setSocket, settle, List.count_append]
      exact counted
  | immediate websocket socket data current found isOpen =>
      have moved := (sentTokens_sends data queue.accepted.length found).count_eq token
      simp only [List.count_append] at moved
      simp only [tokens, accept, setSocket, List.length_append, List.length_singleton,
        List.range_succ, List.count_append]
      omega
  | enqueue websocket socket data current found connecting parses room bytes =>
      simp only [tokens, accept, add, List.length_append, List.length_singleton, List.range_succ,
        List.map_append, List.map_singleton, List.count_append]
      omega
  | connect socket connecting unhandled unsent =>
      have none : sentTokens (queue.sockets ++ [socket]) = sentTokens queue.sockets := by
        simp [sentTokens, InspectorSocket.tokens, unsent]
      simp only [tokens, none, stackTokens_cons, messages_rejecting, List.map_nil,
        List.count_append, List.count_nil]
      omega
  | opened websocket socket data idle current found connecting =>
      have same : sentTokens (queue.sockets.modify websocket fun socket =>
          (socket.settle .open).sends ⟨data, none⟩) = sentTokens queue.sockets :=
        sentTokens_same fun socket => by
          rw [tokens_sends, tokens_settle]
          exact List.append_nil _
      simp only [idle, stackTokens_nil, List.count_nil] at counted
      simp only [tokens, spliced, setSocket, same, stackTokens_cons, stackTokens_nil,
        messages_flushing, List.map_nil, List.count_append, List.count_nil]
      omega
  | openFailed websocket current =>
      simp only [tokens, setStack, setSocket, settle, stackTokens_cons,
        messages_registrationFailed, List.map_nil, List.nil_append, List.count_append]
      exact counted
  | closed websocket current =>
      simp only [tokens, spliced, setSocket, settle, stackTokens_cons, messages_rejecting,
        List.map_nil, List.count_append, List.count_nil]
      omega
  | flushSent websocket socket message messages rest place current found isOpen =>
      have moved := (sentTokens_sends message.data message.token found).count_eq token
      simp only [List.count_append, List.count_singleton] at moved
      simp only [place, stackTokens_cons, messages_flushing, List.map_cons, List.count_append,
        List.count_cons] at counted
      simp only [tokens, setStack, setSocket, stackTokens_cons, messages_flushing,
        List.count_append]
      omega
  | flushFailed websocket message messages rest place | rejectNext message messages rest place =>
      simp only [place, stackTokens_cons, messages_flushing, messages_rejecting, List.map_cons,
        List.count_append, List.count_cons] at counted
      simp only [tokens, report, setStack, stackTokens_cons, messages_flushing,
        messages_rejecting, List.count_append, List.count_cons]
      omega
  | isOver frame rest place empty replaced =>
      simp only [place, stackTokens_cons, empty, List.map_nil, List.nil_append] at counted
      simp only [tokens, setStack, List.count_append]
      exact counted
  | rejectAll websocket rest place current =>
      simp only [place, stackTokens_cons, messages_registrationFailed, List.map_nil,
        List.nil_append] at counted
      simp only [tokens, spliced, stackTokens_cons, messages_rejecting, List.map_nil,
        List.count_append, List.count_nil]
      omega

theorem bytes_step (step : QueueStep Parses queue after)
    (bytes : queue.bytes =
      (queue.pending.map fun message => utf8Size message.data maxMessageBytes).sum)
    (room : queue.pending.length ≤ pendingMessageLimit ∧ queue.bytes ≤ queueByteLimit) :
    after.bytes = (after.pending.map fun message => utf8Size message.data maxMessageBytes).sum ∧
      after.pending.length ≤ pendingMessageLimit ∧ after.bytes ≤ queueByteLimit := by
  cases step with
  | enqueue websocket socket data current found connecting parses free fits =>
      refine ⟨?_, ?_, fits⟩
      · simp [accept, add, bytes]
      · simp only [accept, add, List.length_append, List.length_singleton]
        omega
  | connect | opened | closed | rejectAll => exact ⟨rfl, Nat.zero_le _, Nat.zero_le _⟩
  | _ => exact ⟨bytes, room⟩

theorem held_step (step : QueueStep Parses queue after) (parses : ∀ message ∈ queue.held,
    Parses message.data) : ∀ message ∈ after.held, Parses message.data := by
  intro message member
  simp only [held, List.mem_append, List.mem_flatMap] at parses member
  have pending (waits : message ∈ queue.pending) := parses message (.inl waits)
  have stacked {frame : QueueFrame} (among : frame ∈ queue.stack)
      (waits : message ∈ frame.messages) := parses message (.inr ⟨frame, among, waits⟩)
  cases step with
  | enqueue websocket socket data current found connecting fine room bytes =>
      rcases member with waits | ⟨frame, among, waits⟩
      · rcases List.mem_append.mp waits with kept | fresh
        · exact pending kept
        · rw [List.mem_singleton.mp fresh]
          exact fine
      · exact stacked among waits
  | connect | closed =>
      rcases member with waits | ⟨frame, among, waits⟩
      · contradiction
      · rcases List.mem_cons.mp among with rfl | kept
        · exact pending waits
        · exact stacked kept waits
  | opened =>
      rcases member with waits | ⟨frame, among, waits⟩
      · contradiction
      · rw [List.mem_singleton.mp among] at waits
        exact pending waits
  | openFailed =>
      rcases member with waits | ⟨frame, among, waits⟩
      · exact pending waits
      · rcases List.mem_cons.mp among with rfl | kept
        · contradiction
        · exact stacked kept waits
  | flushSent websocket socket first messages rest place
  | flushFailed websocket first messages rest place =>
      have top : .flushing websocket (first :: messages) ∈ queue.stack := by
        rw [place]
        exact List.mem_cons_self
      rcases member with waits | ⟨frame, among, waits⟩
      · exact pending waits
      · rcases List.mem_cons.mp among with rfl | kept
        · exact stacked top (List.mem_cons_of_mem _ waits)
        · exact stacked (place ▸ List.mem_cons_of_mem _ kept) waits
  | rejectNext first messages rest place =>
      have top : .rejecting (first :: messages) ∈ queue.stack := by
        rw [place]
        exact List.mem_cons_self
      rcases member with waits | ⟨frame, among, waits⟩
      · exact pending waits
      · rcases List.mem_cons.mp among with rfl | kept
        · exact stacked top (List.mem_cons_of_mem _ waits)
        · exact stacked (place ▸ List.mem_cons_of_mem _ kept) waits
  | isOver frame rest place empty replaced =>
      rcases member with waits | ⟨frame, among, waits⟩
      · exact pending waits
      · exact stacked (place ▸ List.mem_cons_of_mem _ among) waits
  | rejectAll websocket rest place current =>
      rcases member with waits | ⟨frame, among, waits⟩
      · contradiction
      · rcases List.mem_cons.mp among with rfl | kept
        · exact pending waits
        · exact stacked (place ▸ List.mem_cons_of_mem _ kept) waits
  | _ =>
      rcases member with waits | ⟨frame, among, waits⟩
      · exact pending waits
      · exact stacked among waits

theorem AcceptedFor.step {token websocket : Nat} (acceptedFor : queue.AcceptedFor token websocket)
    (step : QueueStep Parses queue after) : after.AcceptedFor token websocket := by
  obtain ⟨acceptance, found, same⟩ := acceptedFor
  have within := (List.getElem?_eq_some_iff.mp found).1
  cases step with
  | immediate | enqueue =>
      exact ⟨acceptance, (List.getElem?_append_left within).trans found, same⟩
  | _ => exact ⟨acceptance, found, same⟩

theorem acceptedFor_accept (websocket : Nat) (immediate : Bool) (data : JsString) :
    (queue.accept websocket immediate data).AcceptedFor queue.accepted.length websocket :=
  ⟨_, List.getElem?_concat_length, rfl⟩

theorem pendingFor_step (step : QueueStep Parses queue after)
    (pendingFor : ∀ message ∈ queue.pending, ∃ websocket, queue.websocket = some websocket ∧
      queue.AcceptedFor message.token websocket) :
    ∀ message ∈ after.pending, ∃ websocket, after.websocket = some websocket ∧
      after.AcceptedFor message.token websocket := by
  intro message member
  have kept (waits : message ∈ queue.pending) (same : after.websocket = queue.websocket) :
      ∃ websocket, after.websocket = some websocket ∧
        after.AcceptedFor message.token websocket := by
    obtain ⟨websocket, current, acceptedFor⟩ := pendingFor message waits
    exact ⟨websocket, same.trans current, acceptedFor.step step⟩
  cases step with
  | enqueue websocket socket data current found connecting parses room bytes =>
      rcases List.mem_append.mp member with waits | fresh
      · exact kept waits rfl
      · rw [List.mem_singleton.mp fresh]
        exact ⟨websocket, current, (@acceptedFor_accept (queue.add data)) websocket false data⟩
  | connect | opened | closed | rejectAll => contradiction
  | _ => exact kept member rfl

theorem flushingFor_step (step : QueueStep Parses queue after)
    (pendingFor : ∀ message ∈ queue.pending, ∃ websocket, queue.websocket = some websocket ∧
      queue.AcceptedFor message.token websocket)
    (flushingFor : ∀ websocket rest, .flushing websocket rest ∈ queue.stack →
      ∀ message ∈ rest, queue.AcceptedFor message.token websocket) :
    ∀ websocket rest, .flushing websocket rest ∈ after.stack →
      ∀ message ∈ rest, after.AcceptedFor message.token websocket := by
  intro websocket rest among message member
  have kept {longer : List PendingMessage} (there : .flushing websocket longer ∈ queue.stack)
      (inside : message ∈ longer) : after.AcceptedFor message.token websocket :=
    (flushingFor websocket longer there message inside).step step
  have whole := step
  cases step with
  | connect | closed | openFailed =>
      rcases List.mem_cons.mp among with same | there
      · cases same
      · exact kept there member
  | opened other socket data idle current found connecting =>
      have same := List.mem_singleton.mp among
      cases same
      obtain ⟨owner, named, acceptedFor⟩ := pendingFor message member
      rw [current] at named
      cases named
      exact acceptedFor.step whole
  | flushSent other socket first messages below place
  | flushFailed other first messages below place =>
      rcases List.mem_cons.mp among with same | there
      · cases same
        refine @kept (first :: rest) ?_ (List.mem_cons_of_mem _ member)
        rw [place]
        exact List.mem_cons_self
      · exact kept (place ▸ List.mem_cons_of_mem _ there) member
  | rejectNext first messages below place =>
      rcases List.mem_cons.mp among with same | there
      · cases same
      · exact kept (place ▸ List.mem_cons_of_mem _ there) member
  | isOver frame below place => exact kept (place ▸ List.mem_cons_of_mem _ among) member
  | rejectAll other below place current =>
      rcases List.mem_cons.mp among with same | there
      · cases same
      · exact kept (place ▸ List.mem_cons_of_mem _ there) member
  | _ => exact kept among member

/-- What a step makes of one socket. -/
theorem socket_step (step : QueueStep Parses queue after) {websocket : Nat}
    {socket : InspectorSocket} (located : after.sockets[websocket]? = some socket) :
    (∃ old, queue.sockets[websocket]? = some old ∧ socket.tokens = old.tokens) ∨
      socket.tokens = [] ∨
      ∃ old token, queue.sockets[websocket]? = some old ∧ socket.tokens = old.tokens ++ [token] ∧
        (token = queue.accepted.length ∧ after.AcceptedFor token websocket ∨
          ∃ messages rest message, message.token = token ∧
            queue.stack = .flushing websocket (message :: messages) :: rest) := by
  have modified {index : Nat} {update : InspectorSocket → InspectorSocket}
      (same : ∀ socket, (update socket).tokens = socket.tokens)
      (there : (queue.sockets.modify index update)[websocket]? = some socket) :
      ∃ old, queue.sockets[websocket]? = some old ∧ socket.tokens = old.tokens := by
    rcases located_modify there with ⟨-, found⟩ | ⟨old, -, found, rfl⟩
    · exact ⟨socket, found, rfl⟩
    · exact ⟨old, found, same old⟩
  cases step with
  | closing index => exact .inl (modified tokens_closing located)
  | openStale index | closeStale index | openFailed index | closed index =>
      exact .inl (modified (fun socket => tokens_settle socket _) located)
  | opened index other data =>
      refine .inl (modified (fun socket => ?_) located)
      rw [tokens_sends, tokens_settle]
      exact List.append_nil _
  | immediate index other data current found isOpen =>
      rcases located_modify located with ⟨-, there⟩ | ⟨old, rfl, there, rfl⟩
      · exact .inl ⟨socket, there, rfl⟩
      · refine .inr (.inr ⟨old, _, there, tokens_sends _ _, .inl ⟨rfl, ?_⟩⟩)
        exact (@acceptedFor_accept (queue.setSocket websocket _)) websocket true data
  | connect other connecting unhandled unsent =>
      rw [List.getElem?_append] at located
      split at located
      · exact .inl ⟨socket, located, rfl⟩
      · rw [List.getElem?_singleton] at located
        split at located
        · cases Option.some.inj located
          exact .inr (.inl (by rw [InspectorSocket.tokens, unsent, List.filterMap_nil]))
        · contradiction
  | flushSent index other message messages rest place =>
      rcases located_modify located with ⟨-, there⟩ | ⟨old, rfl, there, rfl⟩
      · exact .inl ⟨socket, there, rfl⟩
      · exact .inr (.inr ⟨old, _, there, tokens_sends _ _, .inr ⟨messages, rest, message, rfl,
          place⟩⟩)
  | _ => exact .inl ⟨socket, located, rfl⟩

theorem sentFor_step (step : QueueStep Parses queue after)
    (flushingFor : ∀ websocket rest, .flushing websocket rest ∈ queue.stack →
      ∀ message ∈ rest, queue.AcceptedFor message.token websocket)
    (sentFor : ∀ websocket socket, queue.sockets[websocket]? = some socket →
      ∀ token ∈ socket.tokens, queue.AcceptedFor token websocket) :
    ∀ websocket socket, after.sockets[websocket]? = some socket →
      ∀ token ∈ socket.tokens, after.AcceptedFor token websocket := by
  intro websocket socket located token member
  rcases socket_step step located with ⟨old, found, same⟩ | none | ⟨old, new, found, grown, origin⟩
  · rw [same] at member
    exact (sentFor websocket old found token member).step step
  · rw [none] at member
    contradiction
  · rw [grown] at member
    rcases List.mem_append.mp member with kept | fresh
    · exact (sentFor websocket old found token kept).step step
    · rw [List.mem_singleton.mp fresh]
      rcases origin with ⟨-, acceptedFor⟩ | ⟨messages, rest, message, rfl, place⟩
      · exact acceptedFor
      · refine (flushingFor websocket (message :: messages) ?_ message List.mem_cons_self).step step
        rw [place]
        exact List.mem_cons_self

theorem connecting_step (step : QueueStep Parses queue after)
    (connecting : ∀ socket ∈ queue.sockets,
      socket.readyState = .connecting → socket.handled = false) :
    ∀ socket ∈ after.sockets, socket.readyState = .connecting → socket.handled = false := by
  intro socket member waits
  have modified {index : Nat} {update : InspectorSocket → InspectorSocket}
      (there : socket ∈ queue.sockets.modify index update)
      (keeps : ∀ old, (update old).readyState = .connecting →
        old.readyState = .connecting ∧ (update old).handled = old.handled) :
      socket.handled = false := by
    rcases mem_modify there with among | ⟨old, among, rfl⟩
    · exact connecting socket among waits
    · obtain ⟨waited, same⟩ := keeps old waits
      exact same.trans (connecting old among waited)
  cases step with
  | closing index =>
      exact modified member fun old closing => absurd closing (not_connecting_closing old)
  | openStale | closeStale | openFailed | closed | opened => exact modified member nofun
  | immediate | flushSent => exact modified member fun old same => ⟨same, rfl⟩
  | connect other fresh unhandled unsent =>
      rcases List.mem_append.mp member with among | new
      · exact connecting socket among waits
      · rw [List.mem_singleton.mp new]
        exact unhandled
  | _ => exact connecting socket member waits

theorem Unhandled.modify {websocket : Option Nat} {sockets : List InspectorSocket}
    {stack : List QueueFrame} (unhandled : Unhandled websocket sockets stack) (index : Nat)
    (update : InspectorSocket → InspectorSocket)
    (keeps : ∀ socket, websocket = some index → (update socket).handled = socket.handled) :
    Unhandled websocket (sockets.modify index update) stack := by
  obtain ⟨current, socket, named, found, waits⟩ := unhandled
  by_cases here : index = current
  · subst here
    refine ⟨index, update socket, named, ?_, ?_⟩
    · rw [List.getElem?_modify, found]
      simp
    · rwa [keeps socket named]
  · refine ⟨current, socket, named, ?_, waits⟩
    rw [List.getElem?_modify, found]
    simp [here]

theorem Unhandled.restack {websocket : Option Nat} {sockets : List InspectorSocket}
    {stack other : List QueueFrame} (unhandled : Unhandled websocket sockets stack)
    (keeps : ∀ index, websocket = some index → .registrationFailed index ∈ stack →
      .registrationFailed index ∈ other) : Unhandled websocket sockets other := by
  obtain ⟨current, socket, named, found, waits⟩ := unhandled
  exact ⟨current, socket, named, found, waits.imp_right (keeps current named)⟩

theorem unhandled_step (step : QueueStep Parses queue after)
    (connecting : ∀ socket ∈ queue.sockets,
      socket.readyState = .connecting → socket.handled = false)
    (unhandled : queue.pending ≠ [] → Unhandled queue.websocket queue.sockets queue.stack) :
    after.pending ≠ [] → Unhandled after.websocket after.sockets after.stack := by
  intro waits
  -- The frames above a failed registration come and go.
  have next {frame other : QueueFrame} {rest : List QueueFrame}
      (place : queue.stack = frame :: rest) (elsewhere : ∀ index, frame ≠ .registrationFailed index)
      (index : Nat) (member : .registrationFailed index ∈ queue.stack) :
      .registrationFailed index ∈ other :: rest := by
    rw [place] at member
    rcases List.mem_cons.mp member with same | kept
    · exact absurd same.symm (elsewhere index)
    · exact List.mem_cons_of_mem _ kept
  cases step with
  | closing index => exact (unhandled waits).modify index _ fun socket _ => handled_closing socket
  | immediate index => exact (unhandled waits).modify index _ fun _ _ => rfl
  | openStale index stale | closeStale index stale =>
      exact (unhandled waits).modify index _ fun _ current => absurd current stale
  | enqueue websocket socket data current found early parses room bytes =>
      exact ⟨websocket, socket, current, found,
        .inl (connecting socket (List.mem_of_getElem? found) early)⟩
  | connect | opened | closed | rejectAll => contradiction
  | openFailed websocket current =>
      obtain ⟨index, socket, named, found, -⟩ := unhandled waits
      have same : index = websocket := Option.some.inj (named.symm.trans current)
      subst same
      refine ⟨index, socket.settle .closing, named, ?_, .inr List.mem_cons_self⟩
      rw [setSocket, setStack, List.getElem?_modify, found]
      simp
  | flushSent index socket message messages rest place =>
      have sent := (unhandled waits).modify index (.sends ⟨message.data, some message.token⟩)
        fun _ _ => rfl
      exact sent.restack fun current _ member => next place nofun current member
  | flushFailed index message messages rest place | rejectNext message messages rest place =>
      exact (unhandled waits).restack fun current _ member => next place nofun current member
  | isOver frame rest place empty replaced =>
      refine (unhandled waits).restack fun current named member => ?_
      rw [place] at member
      rcases List.mem_cons.mp member with same | kept
      · exact absurd named (replaced current same.symm)
      · exact kept

theorem QueueSound.step (sound : queue.QueueSound Parses) (step : QueueStep Parses queue after) :
    after.QueueSound Parses where
  conserved := conserved_step step sound.conserved
  bytes := (bytes_step step sound.bytes sound.room).1
  room := (bytes_step step sound.bytes sound.room).2
  parses := held_step step sound.parses
  pendingFor := pendingFor_step step sound.pendingFor
  flushingFor := flushingFor_step step sound.pendingFor sound.flushingFor
  sentFor := sentFor_step step sound.flushingFor sound.sentFor
  unhandled := unhandled_step step sound.connecting sound.unhandled
  connecting := connecting_step step sound.connecting

theorem QueueSound.run (sound : queue.QueueSound Parses)
    (run : Relation.ReflTransGen (QueueStep Parses) queue after) : after.QueueSound Parses := by
  induction run with
  | refl => exact sound
  | tail _ last ih => exact ih.step last

end InspectorQueue

end StreamDockSdk.PropertyInspector
