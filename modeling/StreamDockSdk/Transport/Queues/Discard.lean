import Mathlib.Data.List.Nodup
import StreamDockSdk.Transport.Queues.Accounting

namespace StreamDockSdk.Transport

open Automaton

variable {Item Receipt : Type} [DecidableEq Item]
variable {config : TransportQueueConfig Item} {equals : Item → Item → Bool}
variable {receipt : Item → Receipt}

namespace BoundedTransportQueue

variable {queue : BoundedTransportQueue Item}

omit [DecidableEq Item] in
theorem mem_items {item : Item} :
    item ∈ queue.items ↔ ∃ entry ∈ queue.queue, entry.1 = item := by
  simp [items]

theorem entryOf_none {item : Item} (absent : item ∉ queue.items) : queue.entryOf item = none := by
  refine List.find?_eq_none.mpr fun entry member same => ?_
  exact absent (mem_items.mpr ⟨entry, member, of_decide_eq_true same⟩)

/-- Equal entries are one, where the receipts of the items are distinct. -/
theorem entryEquals_false (compared : ∀ first second, equals first second = true →
      receipt first = receipt second)
    {front back : List (Item × Nat)} {entry other : Item × Nat}
    (distinct : ((front ++ entry :: back).map fun entry => receipt entry.1).Nodup)
    (member : other ∈ front) : entryEquals equals other entry = false := by
  refine Bool.eq_false_iff.mpr fun equal => ?_
  simp only [entryEquals, Bool.and_eq_true, Bool.or_eq_true, decide_eq_true_eq] at equal
  have same : receipt other.1 = receipt entry.1 := by
    rcases equal.1 with identical | equal
    · rw [identical]
    · exact compared _ _ equal
  rw [List.map_append, List.map_cons] at distinct
  exact (List.nodup_append.mp distinct).2.2 _ (List.mem_map_of_mem member) _ List.mem_cons_self same

/-- `discard` takes out the entry of its own item. -/
theorem discardItem_split (compared : ∀ first second, equals first second = true →
      receipt first = receipt second)
    (distinct : (queue.queue.map fun entry => receipt entry.1).Nodup) {item : Item}
    (member : item ∈ queue.items) :
    ∃ front size back, queue.queue = front ++ (item, size) :: back ∧
      (queue.discardItem equals item).queue = front ++ back ∧
      (queue.discardItem equals item).currentBytes = queue.currentBytes - size := by
  cases searched : queue.entryOf item with
  | none =>
      obtain ⟨entry, queued, same⟩ := mem_items.mp member
      have different := List.find?_eq_none.mp searched entry queued
      exact absurd (decide_eq_true same) different
  | some entry =>
      obtain ⟨same, front, back, split, -⟩ := List.find?_eq_some_iff_append.mp searched
      obtain ⟨other, size⟩ := entry
      have same : other = item := of_decide_eq_true same
      subst same
      refine ⟨front, size, back, split, ?_, ?_⟩
      · simp only [discardItem, searched]
        rw [split] at distinct ⊢
        rw [List.eraseP_append_right, List.eraseP_cons_of_pos]
        · simp [entryEquals]
        · intro earlier within
          simpa using entryEquals_false compared distinct within
      · simp only [discardItem, searched]

end BoundedTransportQueue

omit [DecidableEq Item] in
theorem QueueCall.submits_notify (call : QueueCall Item) : call.notify.submits = call.submits := by
  cases call <;> rfl

namespace QueueWorld

variable {world after : QueueWorld Item} {label : QueueLabel Item}

/-- What `_claim` lets through: a frame whose receipt no earlier call of `submit` had. -/
def Claims (receipt : Item → Receipt) (world : QueueWorld Item) : QueueLabel Item → Prop
  | .begins call => ∀ item, call.submits = some item →
      some (receipt item) ∉ world.calls.map fun earlier => earlier.submits.map receipt
  | .proceeds _ _ _ => True

/-- No two calls of `submit` have one receipt. -/
def Distinct (receipt : Item → Receipt) (world : QueueWorld Item) : Prop :=
  ∀ (first second : Nat) (shared : Receipt),
    (world.calls.map fun call => call.submits.map receipt)[first]? = some (some shared) →
    (world.calls.map fun call => call.submits.map receipt)[second]? = some (some shared) →
    first = second

omit [DecidableEq Item] in
theorem setCall_submits {index : Nat} {before call : QueueCall Item}
    (found : world.calls[index]? = some before) (same : call.submits = before.submits) :
    (world.setCall index call).calls.map QueueCall.submits =
      world.calls.map QueueCall.submits := by
  refine List.ext_getElem? fun other => ?_
  rw [List.getElem?_map, List.getElem?_map, getElem?_setCall found]
  split
  · next here =>
    subst here
    rw [found, Option.map_some, Option.map_some, same]
  · rfl

omit [DecidableEq Item] in
theorem notifyAll_submits :
    world.notifyAll.calls.map QueueCall.submits = world.calls.map QueueCall.submits := by
  show (world.calls.map QueueCall.notify).map QueueCall.submits = _
  rw [List.map_map]
  exact List.map_congr_left fun call _ => call.submits_notify

omit [DecidableEq Item] in
theorem looks_submits {index : Nat} {before : QueueCall Item} {item : Item}
    (found : world.calls[index]? = some before) (same : before.submits = some item)
    (look : BoundedTransportQueue Item × SubmitDecision) :
    (world.looks index item look).calls.map QueueCall.submits =
      world.calls.map QueueCall.submits := by
  unfold looks
  dsimp only
  split
  · exact setCall_submits (by exact found) same.symm
  · exact setCall_submits (by exact found) same.symm
  · exact setCall_submits (by exact found) same.symm
  · exact notifyAll_submits.trans (setCall_submits (by exact found) same.symm)

theorem proceed_submits {index : Nat} {cancelled expired : Bool}
    (stepped : world.proceed config equals index cancelled expired = some after) :
    after.calls.map QueueCall.submits = world.calls.map QueueCall.submits := by
  unfold proceed at stepped
  split at stepped
  · next found =>
    cases stepped
    exact looks_submits found rfl _
  · next found =>
    cases stepped
    exact looks_submits found rfl _
  · next found =>
    unfold receives at stepped
    split at stepped
    · cases stepped
      exact notifyAll_submits.trans (setCall_submits found rfl)
    · split at stepped
      · cases stepped
        exact setCall_submits found rfl
      · contradiction
  · next found =>
    cases stepped
    unfold discards
    split
    · exact setCall_submits found rfl
    · exact notifyAll_submits.trans (setCall_submits found rfl)
  · next found =>
    cases stepped
    exact notifyAll_submits.trans (setCall_submits found rfl)
  · next found =>
    cases stepped
    exact notifyAll_submits.trans (setCall_submits found rfl)
  · next found =>
    unfold drains at stepped
    split at stepped
    · cases stepped
      exact setCall_submits found rfl
    · split at stepped
      · cases stepped
        exact setCall_submits found rfl
      · contradiction
  · next found =>
    cases stepped
    exact notifyAll_submits.trans (setCall_submits found rfl)
  · next found =>
    unfold drains at stepped
    split at stepped
    · cases stepped
      exact setCall_submits found rfl
    · split at stepped
      · cases stepped
        exact setCall_submits found rfl
      · contradiction
  · next found =>
    cases stepped
    exact notifyAll_submits.trans (setCall_submits found rfl)
  · contradiction
  · contradiction
  · contradiction
  · contradiction

theorem Distinct.step (distinct : world.Distinct receipt) (claims : world.Claims receipt label)
    (stepped : world.step config equals label = some after) : after.Distinct receipt := by
  cases label with
  | begins call =>
      simp only [QueueWorld.step] at stepped
      split at stepped
      · cases stepped
        have fresh (index : Nat) (shared : Receipt)
            (found : (world.calls.map fun call => call.submits.map receipt)[index]? =
              some (some shared)) : call.submits.map receipt ≠ some shared := by
          intro same
          obtain ⟨item, submits, rfl⟩ := Option.map_eq_some_iff.mp same
          exact claims item submits (List.mem_of_getElem? found)
        intro first second shared atFirst atSecond
        simp only [List.map_append, List.map_singleton, List.getElem?_append,
          List.getElem?_singleton] at atFirst atSecond
        split at atFirst <;> split at atSecond
        · exact distinct first second shared atFirst atSecond
        · split at atSecond
          · exact absurd (Option.some.inj atSecond) (fresh first shared atFirst)
          · contradiction
        · split at atFirst
          · exact absurd (Option.some.inj atFirst) (fresh second shared atSecond)
          · contradiction
        · split at atFirst
          · split at atSecond
            · omega
            · contradiction
          · contradiction
      · contradiction
  | proceeds index cancelled expired =>
      have kept : after.calls.map (fun call => call.submits.map receipt) =
          world.calls.map fun call => call.submits.map receipt := by
        have same := congrArg (List.map (Option.map receipt)) (proceed_submits stepped)
        rw [List.map_map, List.map_map] at same
        exact same
      unfold Distinct
      rw [kept]
      exact distinct

theorem reachable_distinct
    (reachable : (queueSystem config equals).ReachableBy (Claims receipt) world) :
    world.Distinct receipt := by
  refine reachable.invariant ?_ fun before label after claims distinct stepped =>
    distinct.step claims stepped
  rintro first rfl
  exact fun _ _ _ => nofun

theorem reachable_accounted (positive : 0 < config.queueLimit)
    (reachable : (queueSystem config equals).Reachable world) : world.Accounted config := by
  refine reachable.invariant ?_ fun before label after accounted stepped =>
    accounted.step positive stepped
  rintro first rfl
  exact ⟨⟨rfl, List.Sublist.refl _, List.Perm.refl _, List.nodup_nil, fun _ _ => ⟨nofun, nofun⟩,
    Nat.zero_le _, rfl, Nat.zero_le _, fun _ _ _ => nofun⟩, fun _ _ _ => nofun⟩

omit [DecidableEq Item] in
/-- The receipts of the entries are those of the calls that appended them. -/
theorem Tallies.distinct (tallies : world.Tallies config) (distinct : world.Distinct receipt) :
    (world.queue.queue.map fun entry => receipt entry.1).Nodup := by
  have within {append : QueueAppend Item} (member : append ∈ world.line) :
      world.calls[append.1]? = some (.submitted append.2 true) :=
    (tallies.returned append.1 append.2).mp
      (tallies.inOrder.subset (List.mem_append_right _ member))
  have lines : world.line.Nodup :=
    (List.Nodup.of_map _ tallies.once).sublist
      ((List.sublist_append_right _ _).trans tallies.inOrder)
  rw [tallies.entries, List.map_map]
  refine List.Nodup.map_on (fun first atFirst second atSecond same => ?_) lines
  have earlier := within atFirst
  have later := within atSecond
  have place : first.1 = second.1 := by
    refine distinct first.1 second.1 (receipt first.2) ?_ ?_
    · rw [List.getElem?_map, earlier]
      rfl
    · rw [List.getElem?_map, later]
      exact congrArg (some ∘ some) same.symm
  rw [place, later, Option.some.injEq, QueueCall.submitted.injEq] at earlier
  exact Prod.ext place earlier.1.symm

/-- What a queue keeps to in every run. -/
structure Keeps (config : TransportQueueConfig Item) (world : QueueWorld Item) : Prop where
  inOrder : (world.received ++ world.line).Sublist world.appended
  once : (world.appended.map Prod.fst).Nodup
  queued : world.queue.queue = world.line.map fun append => (append.2, config.size append.2)
  fates : world.appended.Perm
    (world.received ++ world.discarded ++ world.cleared ++ world.line)
  returned : ∀ index item, (index, item) ∈ world.appended ↔
    world.calls[index]? = some (.submitted item true)
  depth : world.queue.queue.length ≤ config.queueLimit
  bytes : world.queue.currentBytes = (world.queue.queue.map Prod.snd).sum
  byteLimit : world.queue.currentBytes ≤ config.byteLimit
  roomy : world.queue.queue = [] → world.queue.accepting = true → ∀ item expired,
    config.size item ≤ config.messageLimit →
      (world.queue.submit config item false expired).2 = .accepted ∧
        (world.queue.resubmit config item false expired).2 = .accepted
  awake : world.queue.queue = [] →
    ∀ (index : Nat) item, world.calls[index]? ≠ some (.waits item false)

omit [DecidableEq Item] in
theorem Accounted.keeps (accounted : world.Accounted config) (positive : 0 < config.queueLimit) :
    world.Keeps config := by
  obtain ⟨tallies, woken⟩ := accounted
  refine ⟨tallies.inOrder, tallies.once, tallies.entries, tallies.fates, tallies.returned,
    tallies.depth, tallies.bytes, tallies.byteLimit, fun empty accepting item expired fits => ?_,
    woken⟩
  have none : world.queue.currentBytes = 0 := by
    rw [tallies.bytes, empty]
    rfl
  have room := BoundedTransportQueue.full_empty positive fits empty none
  constructor
  · simp only [BoundedTransportQueue.submit, accepting, Bool.not_true, Bool.false_eq_true,
      if_false, if_neg (Nat.not_lt.mpr fits)]
    exact BoundedTransportQueue.attempt_room expired true room
  · simp only [BoundedTransportQueue.resubmit, accepting, Bool.not_true, Bool.false_eq_true,
      if_false]
    exact BoundedTransportQueue.attempt_room expired false room

/-- `discard` of a frame that is queued takes out its entry and its bytes, and no others. -/
structure DiscardsOnly (config : TransportQueueConfig Item) (equals : Item → Item → Bool)
    (queue : BoundedTransportQueue Item) (frame : Item) : Prop where
  absent : frame ∉ queue.items → queue.discardItem equals frame = queue
  queued : frame ∈ queue.items → ∃ front back,
    queue.queue = front ++ (frame, config.size frame) :: back ∧
    (∀ entry ∈ front ++ back, entry.1 ≠ frame) ∧
    (queue.discardItem equals frame).queue = front ++ back ∧
    (queue.discardItem equals frame).currentBytes + config.size frame = queue.currentBytes

theorem Tallies.discardsOnly (tallies : world.Tallies config) (distinct : world.Distinct receipt)
    (compared : ∀ first second, equals first second = true → receipt first = receipt second)
    (frame : Item) : DiscardsOnly config equals world.queue frame := by
  refine ⟨fun absent => ?_, fun member => ?_⟩
  · simp only [BoundedTransportQueue.discardItem, BoundedTransportQueue.entryOf_none absent]
  · have receipts := tallies.distinct distinct
    obtain ⟨front, size, back, split, queue, bytes⟩ :=
      BoundedTransportQueue.discardItem_split compared receipts member
    have sized : size = config.size frame := by
      have within : (frame, size) ∈ world.queue.queue := by
        rw [split]
        exact List.mem_append_right _ List.mem_cons_self
      rw [tallies.entries] at within
      obtain ⟨append, -, same⟩ := List.mem_map.mp within
      cases same
      rfl
    subst sized
    refine ⟨front, back, split, fun entry member same => ?_, queue, ?_⟩
    · rw [split] at receipts
      have apart := (List.perm_middle.map _).nodup_iff.mp receipts
      rw [List.map_cons, List.nodup_cons] at apart
      exact apart.1 (List.mem_map.mpr ⟨entry, member, congrArg receipt same⟩)
    · have total := tallies.bytes
      rw [split, List.map_append, List.map_cons, List.sum_append, List.sum_cons] at total
      omega

/-- Items leave a queue in the order of their appends, each in one way, the counts of the
queue are exact, and an empty queue keeps no producer waiting.  Frames that are submitted
with receipts of their own are discarded one by one. -/
theorem bounded_queue_keeps (positive : 0 < config.queueLimit) :
    (∀ (equals : Item → Item → Bool) (world : QueueWorld Item),
      (queueSystem config equals).Reachable world → world.Keeps config) ∧
    ∀ (Payload : Type) [DecidableEq Payload] (fields : Item → FrameFields Payload)
      (world : QueueWorld Item),
      (queueSystem config (frameEquals fields)).ReachableBy
        (Claims fun frame => (fields frame).receipt) world →
      ∀ frame, DiscardsOnly config (frameEquals fields) world.queue frame := by
  refine ⟨fun equals world reachable => (reachable_accounted positive reachable).keeps positive,
    fun Payload _ fields world claimed frame => ?_⟩
  refine (reachable_accounted positive claimed.reachable).tallies.discardsOnly
    (reachable_distinct claimed) (fun first second equal => ?_) frame
  exact congrArg FrameFields.receipt (of_decide_eq_true equal)

/-- A queue of one frame. -/
def singleQueue : TransportQueueConfig Nat where
  queueLimit := 1
  byteLimit := 10
  maxMessageBytes := 10
  itemSize _ _ := 4

/-- Equal texts, each with its own receipt. -/
def sampleFrames (frame : Nat) : FrameFields String := ⟨"\x7b\x7d", frame, none⟩

/-- The first frame is queued and the second waits for its place. -/
def crowdedQueue : QueueWorld Nat :=
  ((queueSystem singleQueue (frameEquals sampleFrames)).exec {}
    [.begins (.submit 1), .begins (.submit 2), .proceeds 0 false false,
      .proceeds 1 false false]).get (by decide)

theorem crowdedQueue_reachable :
    (queueSystem singleQueue (frameEquals sampleFrames)).ReachableBy
      (Claims fun frame => (sampleFrames frame).receipt) crowdedQueue := by
  have first : Claims (fun frame => (sampleFrames frame).receipt) {} (.begins (.submit 1)) :=
    fun item same => List.not_mem_nil
  have second : Claims (fun frame => (sampleFrames frame).receipt) { calls := [.submit 1] }
      (.begins (.submit 2)) := by
    rintro item same
    cases same
    decide
  have looks (world : QueueWorld Nat) (index : Nat) :
      Claims (fun frame => (sampleFrames frame).receipt) world (.proceeds index false false) :=
    trivial
  exact .step (.step (.step (.step (.initial rfl) first rfl) second rfl) (looks _ 0) rfl)
    (looks _ 1) rfl

theorem bounded_queue_keeps_run :
    crowdedQueue.Keeps singleQueue ∧
      DiscardsOnly singleQueue (frameEquals sampleFrames) crowdedQueue.queue 1 := by
  have positive : 0 < singleQueue.queueLimit := by decide
  have keeps := bounded_queue_keeps positive
  exact ⟨keeps.1 _ crowdedQueue crowdedQueue_reachable.reachable,
    keeps.2 String sampleFrames crowdedQueue crowdedQueue_reachable 1⟩

end QueueWorld

end StreamDockSdk.Transport
