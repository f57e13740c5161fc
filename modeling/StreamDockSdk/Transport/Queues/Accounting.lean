import Mathlib.Algebra.GroupWithZero.Nat
import Mathlib.Algebra.Order.BigOperators.Group.List
import Mathlib.Algebra.Order.Group.Nat
import StreamDockSdk.Transport.Queues.Calls

namespace StreamDockSdk.Transport

open Automaton

variable {Item : Type} {config : TransportQueueConfig Item}

namespace BoundedTransportQueue

variable {queue : BoundedTransportQueue Item}

/-- The entries of the queue and their bytes are the same. -/
structure SameStore (queue after : BoundedTransportQueue Item) : Prop where
  entries : after.queue = queue.queue
  bytes : after.currentBytes = queue.currentBytes

/-- What a look of `submit` does to the entries. -/
inductive Looks (config : TransportQueueConfig Item) (queue : BoundedTransportQueue Item)
    (item : Item) (after : BoundedTransportQueue Item) : SubmitDecision → Prop
  | refused {decision : SubmitDecision} (same : queue.SameStore after)
      (isOver : decision ≠ .waits ∧ decision ≠ .accepted) : Looks config queue item after decision
  | waits (same : queue.SameStore after) (full : queue.full config (config.size item) = true)
      (fits : config.size item ≤ config.messageLimit) : Looks config queue item after .waits
  | accepted (entries : after.queue = queue.queue ++ [(item, config.size item)])
      (bytes : after.currentBytes = queue.currentBytes + config.size item)
      (room : queue.full config (config.size item) = false)
      (fits : config.size item ≤ config.messageLimit) : Looks config queue item after .accepted

theorem attempt_looks {item : Item} (cancelled expired first : Bool)
    (fits : config.size item ≤ config.messageLimit) :
    Looks config queue item (queue.attempt config item cancelled expired first).1
      (queue.attempt config item cancelled expired first).2 := by
  unfold attempt
  split
  · next full =>
    split
    · exact .refused ⟨rfl, rfl⟩ ⟨nofun, nofun⟩
    · split
      · exact .refused ⟨rfl, rfl⟩ ⟨nofun, nofun⟩
      · cases first <;> exact .waits ⟨rfl, rfl⟩ full fits
  · next room =>
    split
    · exact .refused ⟨rfl, rfl⟩ ⟨nofun, nofun⟩
    · exact .accepted rfl rfl (by simpa using room) fits

theorem submit_looks (item : Item) (cancelled expired : Bool) :
    Looks config queue item (queue.submit config item cancelled expired).1
      (queue.submit config item cancelled expired).2 := by
  unfold submit
  dsimp only
  split
  · exact .refused ⟨rfl, rfl⟩ ⟨nofun, nofun⟩
  · split
    · exact .refused ⟨rfl, rfl⟩ ⟨nofun, nofun⟩
    · next small =>
      have looks := @attempt_looks _ config { queue with submitted := queue.submitted + 1 } item
        cancelled expired true (by simpa using small)
      revert looks
      generalize BoundedTransportQueue.attempt _ config item cancelled expired true = look
      obtain ⟨after, decision⟩ := look
      rintro (⟨same, isOver⟩ | ⟨same, full, fits⟩ | ⟨entries, bytes, room, fits⟩)
      · exact .refused ⟨same.entries, same.bytes⟩ isOver
      · exact .waits ⟨same.entries, same.bytes⟩ full fits
      · exact .accepted entries bytes room fits

theorem resubmit_looks {item : Item} (cancelled expired : Bool)
    (fits : config.size item ≤ config.messageLimit) :
    Looks config queue item (queue.resubmit config item cancelled expired).1
      (queue.resubmit config item cancelled expired).2 := by
  unfold resubmit
  split
  · exact .refused ⟨rfl, rfl⟩ ⟨nofun, nofun⟩
  · exact attempt_looks cancelled expired false fits

theorem attempt_room {item : Item} (expired first : Bool)
    (room : queue.full config (config.size item) = false) :
    (queue.attempt config item false expired first).2 = .accepted := by
  simp [attempt, room]

/-- There is room for every item in an empty queue. -/
theorem full_empty {size : Nat} (positive : 0 < config.queueLimit)
    (fits : size ≤ config.messageLimit) (empty : queue.queue = [])
    (currentBytes : queue.currentBytes = 0) : queue.full config size = false := by
  have limit : config.messageLimit ≤ config.byteLimit := Nat.min_le_right _ _
  simp only [full, empty, List.length_nil, currentBytes, Nat.zero_add, Bool.or_eq_false_iff,
    decide_eq_false_iff_not, Bool.and_eq_false_iff]
  exact ⟨by omega, .inr (by omega)⟩

end BoundedTransportQueue

namespace QueueWorld

variable {world : QueueWorld Item}

/-- The items of the queue, of the appends so far and of the calls. -/
structure Tallies (config : TransportQueueConfig Item) (world : QueueWorld Item) : Prop where
  entries : world.queue.queue =
    world.line.map fun append => (append.2, config.size append.2)
  inOrder : (world.received ++ world.line).Sublist world.appended
  fates : world.appended.Perm
    (world.received ++ world.discarded ++ world.cleared ++ world.line)
  once : (world.appended.map Prod.fst).Nodup
  returned : ∀ index item, (index, item) ∈ world.appended ↔
    world.calls[index]? = some (.submitted item true)
  depth : world.queue.queue.length ≤ config.queueLimit
  bytes : world.queue.currentBytes = (world.queue.queue.map Prod.snd).sum
  byteLimit : world.queue.currentBytes ≤ config.byteLimit
  fits : ∀ (index : Nat) item notified, world.calls[index]? = some (QueueCall.waits item notified) →
    config.size item ≤ config.messageLimit

/-- No producer waits for a notification while the queue is empty. -/
def Woken (world : QueueWorld Item) : Prop :=
  world.queue.queue = [] → ∀ (index : Nat) item, world.calls[index]? ≠ some (QueueCall.waits item false)

theorem notify_submitted {call : QueueCall Item} {item : Item} {accepted : Bool} :
    call.notify = .submitted item accepted ↔ call = .submitted item accepted := by
  cases call <;> simp [QueueCall.notify]

theorem notify_waits {call : QueueCall Item} {item : Item} {notified : Bool}
    (waits : call.notify = .waits item notified) :
    notified = true ∧ ∃ before, call = .waits item before := by
  cases call with
  | waits other before =>
      cases waits
      exact ⟨rfl, before, rfl⟩
  | _ => contradiction

theorem Tallies.notifyAll (tallies : world.Tallies config) : world.notifyAll.Tallies config where
  entries := tallies.entries
  inOrder := tallies.inOrder
  fates := tallies.fates
  once := tallies.once
  returned index item := by
    rw [show world.notifyAll.calls = world.calls.map QueueCall.notify from rfl, List.getElem?_map,
      Option.map_eq_some_iff]
    simp only [notify_submitted, exists_eq_right]
    exact tallies.returned index item
  depth := tallies.depth
  bytes := tallies.bytes
  byteLimit := tallies.byteLimit
  fits index item notified waits := by
    rw [show world.notifyAll.calls = world.calls.map QueueCall.notify from rfl, List.getElem?_map,
      Option.map_eq_some_iff] at waits
    obtain ⟨call, found, waits⟩ := waits
    obtain ⟨-, before, rfl⟩ := notify_waits waits
    exact tallies.fits index item before found

theorem woken_notifyAll : world.notifyAll.Woken := by
  intro empty index item waits
  rw [show world.notifyAll.calls = world.calls.map QueueCall.notify from rfl, List.getElem?_map,
    Option.map_eq_some_iff] at waits
  obtain ⟨call, -, waits⟩ := waits
  exact Bool.false_ne_true (notify_waits waits).1

/-- A call that is not over with an accepted item. -/
def Unaccepted (call : QueueCall Item) : Prop := ∀ item, call ≠ .submitted item true

theorem getElem?_setCall {index : Nat} {call before : QueueCall Item}
    (found : world.calls[index]? = some before) (other : Nat) :
    (world.setCall index call).calls[other]? =
      if index = other then some call else world.calls[other]? := by
  obtain ⟨within, -⟩ := List.getElem?_eq_some_iff.mp found
  show (world.calls.set index call)[other]? = _
  rw [List.getElem?_set]
  split <;> rfl

theorem Tallies.setCall (tallies : world.Tallies config) {index : Nat}
    {before call : QueueCall Item} (found : world.calls[index]? = some before)
    (unaccepted : Unaccepted before) (stays : Unaccepted call)
    (fits : ∀ item notified, call = .waits item notified →
      config.size item ≤ config.messageLimit) :
    (world.setCall index call).Tallies config where
  entries := tallies.entries
  inOrder := tallies.inOrder
  fates := tallies.fates
  once := tallies.once
  returned other item := by
    rw [getElem?_setCall found]
    split
    · next same =>
      subst same
      refine (tallies.returned index item).trans ⟨fun accepted => ?_, fun accepted => ?_⟩
      · rw [found, Option.some.injEq] at accepted
        exact absurd accepted (unaccepted item)
      · exact absurd (Option.some.inj accepted) (stays item)
    · exact tallies.returned other item
  depth := tallies.depth
  bytes := tallies.bytes
  byteLimit := tallies.byteLimit
  fits other item notified waits := by
    rw [getElem?_setCall found] at waits
    split at waits
    · exact fits item notified (Option.some.inj waits)
    · exact tallies.fits other item notified waits

theorem Woken.setCall (woken : world.Woken) {index : Nat} {before call : QueueCall Item}
    (found : world.calls[index]? = some before)
    (notified : world.queue.queue = [] → ∀ item, call ≠ .waits item false) :
    (world.setCall index call).Woken := by
  intro empty other item waits
  rw [getElem?_setCall found] at waits
  split at waits
  · exact notified empty item (Option.some.inj waits)
  · exact woken empty other item waits

/-- What does not touch the entries. -/
theorem Tallies.setQueue (tallies : world.Tallies config) (queue : BoundedTransportQueue Item)
    (same : world.queue.SameStore queue) : { world with queue }.Tallies config where
  entries := same.entries.trans tallies.entries
  inOrder := tallies.inOrder
  fates := tallies.fates
  once := tallies.once
  returned := tallies.returned
  depth := same.entries ▸ tallies.depth
  bytes := by
    rw [same.entries, same.bytes]
    exact tallies.bytes
  byteLimit := same.bytes ▸ tallies.byteLimit
  fits := tallies.fits

theorem Woken.setQueue (woken : world.Woken) (queue : BoundedTransportQueue Item)
    (same : world.queue.SameStore queue) : { world with queue }.Woken := by
  intro empty
  exact woken (same.entries ▸ empty)

/-- The accounts with the number of bytes that is left when entries leave the queue. -/
theorem Tallies.shrink (tallies : world.Tallies config) {queue : BoundedTransportQueue Item}
    {line received discarded cleared : List (QueueAppend Item)}
    (entries : queue.queue = line.map fun append => (append.2, config.size append.2))
    (bytes : queue.currentBytes = (queue.queue.map Prod.snd).sum)
    (fewer : queue.queue.Sublist world.queue.queue)
    (inOrder : (received ++ line).Sublist (world.received ++ world.line))
    (fates : (world.received ++ world.discarded ++ world.cleared ++ world.line).Perm
      (received ++ discarded ++ cleared ++ line)) :
    { world with queue, line, received, discarded, cleared }.Tallies config where
  entries := entries
  inOrder := inOrder.trans tallies.inOrder
  fates := tallies.fates.trans fates
  once := tallies.once
  returned := tallies.returned
  depth := Nat.le_trans fewer.length_le tallies.depth
  bytes := bytes
  byteLimit := by
    have less : (queue.queue.map Prod.snd).sum ≤ (world.queue.queue.map Prod.snd).sum :=
      (fewer.map Prod.snd).sum_le_sum fun _ _ => Nat.zero_le _
    rw [← tallies.bytes, ← bytes] at less
    exact Nat.le_trans less tallies.byteLimit
  fits := tallies.fits

/-- An entry that leaves the line for the end of another list. -/
theorem moves_perm {Entry : Type} {entry : Entry} (front back : List Entry)
    {line rest : List Entry} (leaves : line.Perm (entry :: rest)) :
    (front ++ back ++ line).Perm (front ++ [entry] ++ back ++ rest) := by
  have moved : (back ++ line).Perm (entry :: (back ++ rest)) :=
    (leaves.append_left back).trans List.perm_middle
  simpa only [List.append_assoc, List.cons_append, List.nil_append] using moved.append_left front

theorem Tallies.receive (tallies : world.Tallies config) {queue : BoundedTransportQueue Item}
    {item : Item} (received : world.queue.receive = some (queue, item)) :
    { world with
      queue
      received := world.received ++ world.line.take 1
      line := world.line.drop 1 }.Tallies config := by
  have entries := tallies.entries
  have bytes := tallies.bytes
  unfold BoundedTransportQueue.receive at received
  split at received
  · contradiction
  · next head size rest queued =>
    cases received
    rw [queued] at entries bytes
    obtain ⟨first, more, line, -, tail⟩ := List.map_eq_cons_iff.mp entries.symm
    refine tallies.shrink ?_ ?_ ?_ ?_ ?_
    · rw [line]
      exact tail.symm
    · simp only [List.map_cons, List.sum_cons] at bytes
      show world.queue.currentBytes - size = _
      rw [bytes]
      exact Nat.add_sub_cancel_left _ _
    · rw [queued]
      exact List.sublist_cons_self _ _
    · rw [List.append_assoc, List.take_append_drop]
    · rw [line]
      have moved := moves_perm world.received (world.discarded ++ world.cleared)
        (List.Perm.refl (first :: more))
      simpa only [List.append_assoc, List.take_succ_cons, List.take_zero, List.drop_succ_cons,
        List.drop_zero] using moved

theorem Tallies.clear (tallies : world.Tallies config) :
    { world with
      queue := world.queue.clear
      cleared := world.cleared ++ world.line
      line := [] }.Tallies config := by
  refine tallies.shrink rfl rfl (List.nil_sublist _) ?_ ?_
  · simp
  · simp

theorem Tallies.append (tallies : world.Tallies config) {index : Nat} {item : Item}
    {before : QueueCall Item} (found : world.calls[index]? = some before)
    (unaccepted : Unaccepted before) {queue : BoundedTransportQueue Item}
    (entries : queue.queue = world.queue.queue ++ [(item, config.size item)])
    (bytes : queue.currentBytes = world.queue.currentBytes + config.size item)
    (room : world.queue.full config (config.size item) = false)
    (fits : config.size item ≤ config.messageLimit) :
    ({ world with
      queue
      appended := world.appended ++ [(index, item)]
      line := world.line ++ [(index, item)] }.setCall index (.submitted item true)).Tallies
        config where
  entries := by
    show queue.queue = (world.line ++ [(index, item)]).map _
    rw [entries, tallies.entries, List.map_append]
    rfl
  inOrder := by
    show (world.received ++ (world.line ++ [(index, item)])).Sublist _
    rw [← List.append_assoc]
    exact tallies.inOrder.append (List.Sublist.refl _)
  fates := by
    show (world.appended ++ [(index, item)]).Perm
      (world.received ++ world.discarded ++ world.cleared ++ (world.line ++ [(index, item)]))
    rw [← List.append_assoc]
    exact tallies.fates.append_right _
  once := by
    show ((world.appended ++ [(index, item)]).map Prod.fst).Nodup
    rw [List.map_append, List.map_singleton, List.nodup_append]
    refine ⟨tallies.once, List.pairwise_singleton _ _, ?_⟩
    rintro known member other same rfl
    obtain ⟨⟨place, earlier⟩, within, rfl⟩ := List.mem_map.mp member
    rw [List.mem_singleton] at same
    subst same
    have accepted := (tallies.returned _ _).mp within
    rw [found, Option.some.injEq] at accepted
    exact unaccepted earlier accepted
  returned other wanted := by
    rw [getElem?_setCall (by exact found)]
    show (other, wanted) ∈ world.appended ++ [(index, item)] ↔ _
    rw [List.mem_append, List.mem_singleton, tallies.returned]
    split
    · next same =>
      subst same
      rw [found]
      constructor
      · rintro (accepted | same)
        · exact absurd (Option.some.inj accepted) (unaccepted wanted)
        · cases same
          rfl
      · intro same
        cases same
        exact .inr rfl
    · next different =>
      refine ⟨fun either => either.resolve_right fun same => ?_, .inl⟩
      cases same
      exact different rfl
  depth := by
    show queue.queue.length ≤ _
    simp only [BoundedTransportQueue.full, Bool.or_eq_false_iff, decide_eq_false_iff_not] at room
    rw [entries, List.length_append, List.length_singleton]
    omega
  bytes := by
    show queue.currentBytes = (queue.queue.map Prod.snd).sum
    rw [entries, bytes, tallies.bytes]
    simp
  byteLimit := by
    have limit : config.messageLimit ≤ config.byteLimit := Nat.min_le_right _ _
    have below := tallies.byteLimit
    show queue.currentBytes ≤ _
    simp only [BoundedTransportQueue.full, Bool.or_eq_false_iff, Bool.and_eq_false_iff,
      bne_eq_false_iff_eq, decide_eq_false_iff_not] at room
    rw [bytes]
    omega
  fits other wanted notified waits := by
    rw [getElem?_setCall (by exact found)] at waits
    split at waits
    · cases waits
    · exact tallies.fits other wanted notified waits

/-- The accounts of the items, with nobody asleep before an empty queue. -/
structure Accounted (config : TransportQueueConfig Item) (world : QueueWorld Item) : Prop where
  tallies : world.Tallies config
  woken : world.Woken

theorem Tallies.accounted (tallies : world.Tallies config) :
    world.notifyAll.Accounted config :=
  ⟨tallies.notifyAll, woken_notifyAll⟩

theorem Tallies.setNotified (tallies : world.Tallies config) {index : Nat}
    {before call : QueueCall Item} (found : world.calls[index]? = some before)
    (unaccepted : Unaccepted before) (stays : Unaccepted call)
    (elsewhere : ∀ item notified, call ≠ .waits item notified) :
    (world.setCall index call).notifyAll.Accounted config :=
  (tallies.setCall found unaccepted stays
    fun item notified waits => absurd waits (elsewhere item notified)).accounted

theorem Accounted.setCall (accounted : world.Accounted config) {index : Nat}
    {before call : QueueCall Item} (found : world.calls[index]? = some before)
    (unaccepted : Unaccepted before) (stays : Unaccepted call)
    (elsewhere : ∀ item notified, call ≠ .waits item notified) :
    (world.setCall index call).Accounted config :=
  ⟨accounted.tallies.setCall found unaccepted stays
      fun item notified waits => absurd waits (elsewhere item notified),
    accounted.woken.setCall found fun _ item => elsewhere item false⟩

variable [DecidableEq Item] {equals : Item → Item → Bool}

theorem Tallies.discard (tallies : world.Tallies config) {item : Item} {place : Nat}
    (found : world.queue.removalIndex equals item = some place) :
    { world with
      queue := world.queue.discardItem equals item
      discarded := world.discarded ++ world.line[place]?.toList
      line := world.line.eraseIdx place }.Tallies config := by
  unfold BoundedTransportQueue.removalIndex at found
  obtain ⟨entry, searched, located⟩ := Option.bind_eq_some_iff.mp found
  obtain ⟨within, equal, -⟩ := List.findIdx?_eq_some_iff_getElem.mp located
  have length : place < world.line.length := by
    rw [tallies.entries, List.length_map] at within
    exact within
  have erased : (world.queue.discardItem equals item).queue = world.queue.queue.eraseIdx place := by
    simp only [BoundedTransportQueue.discardItem, searched, List.eraseP_eq_eraseIdx, located]
  have currentBytes : (world.queue.discardItem equals item).currentBytes =
      world.queue.currentBytes - entry.2 := by
    simp only [BoundedTransportQueue.discardItem, searched]
  have size : world.queue.queue[place].2 = entry.2 := by
    simp only [BoundedTransportQueue.entryEquals, Bool.and_eq_true, beq_iff_eq] at equal
    exact equal.2
  refine tallies.shrink ?_ ?_ ?_ ?_ ?_
  · rw [erased, tallies.entries, List.eraseIdx_map]
  · have total := ((List.getElem_cons_eraseIdx_perm within).map Prod.snd).sum_eq
    rw [List.map_cons, List.sum_cons, size] at total
    rw [currentBytes, erased, tallies.bytes, ← total]
    exact Nat.add_sub_cancel_left _ _
  · rw [erased]
    exact List.eraseIdx_sublist _ _
  · exact (List.eraseIdx_sublist _ _).append_left _
  · have moved := moves_perm (world.received ++ world.discarded) world.cleared
      (List.getElem_cons_eraseIdx_perm length).symm
    rw [List.getElem?_eq_getElem length, Option.toList_some]
    simpa only [List.append_assoc] using moved

omit [DecidableEq Item] in
theorem Accounted.looks (accounted : world.Accounted config) (positive : 0 < config.queueLimit)
    {index : Nat} {before : QueueCall Item} (found : world.calls[index]? = some before)
    (unaccepted : Unaccepted before) {item : Item}
    {look : BoundedTransportQueue Item × SubmitDecision}
    (seen : BoundedTransportQueue.Looks config world.queue item look.1 look.2) :
    (world.looks index item look).Accounted config := by
  obtain ⟨queue, decision⟩ := look
  cases seen with
  | refused same isOver =>
      have kept : ({ world with queue }.setCall index (.submitted item false)).Accounted config :=
        Accounted.setCall ⟨accounted.tallies.setQueue queue same, accounted.woken.setQueue queue same⟩
          (by exact found) unaccepted nofun nofun
      cases decision with
      | rejected | cancelled => exact kept
      | waits => exact absurd rfl isOver.1
      | accepted => exact absurd rfl isOver.2
  | waits same full fits =>
      refine ⟨(accounted.tallies.setQueue queue same).setCall (by exact found) unaccepted nofun ?_,
        (accounted.woken.setQueue queue same).setCall (by exact found) ?_⟩
      · rintro other notified waits
        cases waits
        exact fits
      · intro empty
        have bytes := accounted.tallies.bytes
        rw [← same.entries, empty] at bytes
        have room := BoundedTransportQueue.full_empty positive fits (same.entries ▸ empty) bytes
        rw [room] at full
        contradiction
  | accepted entries bytes room fits =>
      exact (accounted.tallies.append found unaccepted entries bytes room fits).accounted

theorem Accounted.proceed (accounted : world.Accounted config) (positive : 0 < config.queueLimit)
    {after : QueueWorld Item} {index : Nat} {cancelled expired : Bool}
    (stepped : world.proceed config equals index cancelled expired = some after) :
    after.Accounted config := by
  have tallies := accounted.tallies
  unfold QueueWorld.proceed at stepped
  split at stepped
  · next item found =>
    cases stepped
    exact accounted.looks positive found nofun
      (BoundedTransportQueue.submit_looks item cancelled expired)
  · next item notified found =>
    cases stepped
    exact accounted.looks positive found nofun
      (BoundedTransportQueue.resubmit_looks cancelled expired (tallies.fits _ _ _ found))
  · next found =>
    unfold QueueWorld.receives at stepped
    split at stepped
    · next queue item received =>
      cases stepped
      exact (tallies.receive received).setNotified found nofun nofun nofun
    · split at stepped
      · cases stepped
        exact accounted.setCall found nofun nofun nofun
      · contradiction
  · next item found =>
    cases stepped
    unfold QueueWorld.discards
    split
    · exact accounted.setCall found nofun nofun nofun
    · next place located =>
      exact (tallies.discard located).setNotified found nofun nofun nofun
  · next found =>
    cases stepped
    exact (tallies.setQueue world.queue.stopAccepting ⟨rfl, rfl⟩).setNotified found nofun nofun nofun
  · next found =>
    cases stepped
    exact tallies.setNotified found nofun nofun nofun
  · next found =>
    unfold QueueWorld.drains at stepped
    split at stepped
    · cases stepped
      exact accounted.setCall found nofun nofun nofun
    · split at stepped
      · cases stepped
        exact accounted.setCall found nofun nofun nofun
      · contradiction
  · next found =>
    cases stepped
    exact (tallies.setQueue world.queue.stopAccepting ⟨rfl, rfl⟩).setNotified found nofun nofun nofun
  · next found =>
    unfold QueueWorld.drains at stepped
    split at stepped
    · cases stepped
      exact accounted.setCall found nofun nofun nofun
    · split at stepped
      · cases stepped
        exact accounted.setCall found nofun nofun nofun
      · contradiction
  · next found =>
    cases stepped
    exact tallies.clear.setNotified found nofun nofun nofun
  · contradiction
  · contradiction
  · contradiction
  · contradiction

omit [DecidableEq Item] in
/-- A call that has not begun holds no item of the queue. -/
theorem Accounted.begins (accounted : world.Accounted config) {call : QueueCall Item}
    (starts : call.starts = true) :
    { world with calls := world.calls ++ [call] }.Accounted config := by
  have found {index : Nat} {wanted : QueueCall Item} (started : wanted.starts = false) :
      (world.calls ++ [call])[index]? = some wanted ↔ world.calls[index]? = some wanted := by
    rw [List.getElem?_append]
    split
    · rfl
    · next beyond =>
      rw [List.getElem?_eq_none (Nat.not_lt.mp beyond), List.getElem?_singleton]
      split
      · refine ⟨fun same => ?_, nofun⟩
        rw [Option.some.inj same, started] at starts
        contradiction
      · rfl
  have tallies := accounted.tallies
  refine ⟨⟨tallies.entries, tallies.inOrder, tallies.fates, tallies.once, fun index item => ?_,
    tallies.depth, tallies.bytes, tallies.byteLimit, fun index item notified waits => ?_⟩,
    fun empty index item waits => ?_⟩
  · exact (tallies.returned index item).trans (found rfl).symm
  · exact tallies.fits index item notified ((found rfl).mp waits)
  · exact accounted.woken empty index item ((found rfl).mp waits)

theorem Accounted.step (accounted : world.Accounted config) (positive : 0 < config.queueLimit)
    {after : QueueWorld Item} {label : QueueLabel Item}
    (stepped : world.step config equals label = some after) : after.Accounted config := by
  cases label with
  | begins call =>
      simp only [QueueWorld.step] at stepped
      split at stepped
      · next starts =>
        cases stepped
        exact accounted.begins starts
      · contradiction
  | proceeds index cancelled expired => exact accounted.proceed positive stepped

end QueueWorld

end StreamDockSdk.Transport
