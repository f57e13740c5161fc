import Mathlib.Data.List.Count
import Mathlib.Data.List.Nodup
import Mathlib.Data.List.Perm.Basic
import Mathlib.Data.List.Range
import StreamDockSdk.Automaton.History
import StreamDockSdk.Logging.Queue

namespace StreamDockSdk.Logging

open Automaton

/-- A record that was put and neither delivered nor dropped. -/
def Queued (history : List LogEvent) (record : LogRecord) : Prop :=
  record ∈ puts history ∧ record ∉ deliveries history ∧ record ∉ losses history

/-- When an event may happen. -/
def Lawful (older : List LogEvent) : LogEvent → Prop
  | .put record => record ∉ puts older
  | .dropped record incoming =>
      Queued older record ∧
        (record.urgent → incoming.urgent ∧ ∀ other, Queued older other → other.urgent)
  | .stopRequested => True
  | .delivered record =>
      Queued older record ∧
        (record.urgent = false → ∀ other, Queued older other → other.urgent = false)
  | .ended =>
      (∀ other, ¬Queued older other) ∧ older.count .ended < older.count .stopRequested

namespace BoundedPriorityLogQueue

variable {queue after trimmed : BoundedPriorityLogQueue} {record lost other : LogRecord}
variable {rest lane : List LogRecord} {urgent another : Bool}

@[simp] theorem recordsFor_setRecordsFor :
    (queue.setRecordsFor lane urgent).recordsFor urgent = lane := by
  cases urgent <;> rfl

@[simp] theorem recordsFor_setRecordsFor_not :
    (queue.setRecordsFor lane urgent).recordsFor (!urgent) = queue.recordsFor (!urgent) := by
  cases urgent <;> rfl

theorem recordsFor_setRecordsFor_of_ne (different : another ≠ urgent) :
    (queue.setRecordsFor lane urgent).recordsFor another = queue.recordsFor another := by
  rw [Bool.eq_not.mpr different]
  exact recordsFor_setRecordsFor_not

@[simp] theorem setRecordsFor_limit : (queue.setRecordsFor lane urgent).limit = queue.limit := by
  cases urgent <;> rfl

@[simp] theorem setRecordsFor_sentinelPending :
    (queue.setRecordsFor lane urgent).sentinelPending = queue.sentinelPending := by
  cases urgent <;> rfl

@[simp] theorem append_limit : (queue.append record).limit = queue.limit :=
  setRecordsFor_limit

@[simp] theorem append_sentinelPending :
    (queue.append record).sentinelPending = queue.sentinelPending :=
  setRecordsFor_sentinelPending

@[simp] theorem recordsFor_append :
    (queue.append record).recordsFor record.urgent =
      queue.recordsFor record.urgent ++ [record] :=
  recordsFor_setRecordsFor

variable (queue) in
theorem depth_eq (urgent : Bool) :
    queue.depth = (queue.recordsFor urgent).length + (queue.recordsFor (!urgent)).length := by
  cases urgent
  · exact Nat.add_comm _ _
  · rfl

variable (queue) in
theorem count_records (urgent : Bool) (other : LogRecord) :
    queue.records.count other =
      (queue.recordsFor urgent).count other + (queue.recordsFor (!urgent)).count other := by
  cases urgent
  · exact (List.count_append).trans (Nat.add_comm _ _)
  · exact List.count_append

theorem mem_records : record ∈ queue.records ↔ ∃ urgent, record ∈ queue.recordsFor urgent := by
  simp [records, recordsFor, or_comm]

theorem depth_append : (queue.append record).depth = queue.depth + 1 := by
  have own : (queue.append record).recordsFor record.urgent =
      queue.recordsFor record.urgent ++ [record] := recordsFor_append
  have other : (queue.append record).recordsFor (!record.urgent) =
      queue.recordsFor (!record.urgent) := recordsFor_setRecordsFor_not
  rw [depth_eq (queue.append record) record.urgent, depth_eq queue record.urgent, own, other,
    List.length_append, List.length_singleton]
  omega

theorem count_append :
    (queue.append record).records.count other = queue.records.count other + [record].count other := by
  have own : (queue.append record).recordsFor record.urgent =
      queue.recordsFor record.urgent ++ [record] := recordsFor_append
  have others : (queue.append record).recordsFor (!record.urgent) =
      queue.recordsFor (!record.urgent) := recordsFor_setRecordsFor_not
  rw [count_records (queue.append record) record.urgent, count_records queue record.urgent, own,
    others, List.count_append]
  omega

/-- A lane without its first record. -/
theorem depth_rest (first : queue.recordsFor urgent = record :: rest) :
    queue.depth = (queue.setRecordsFor rest urgent).depth + 1 := by
  rw [depth_eq queue urgent, depth_eq (queue.setRecordsFor rest urgent) urgent, first,
    recordsFor_setRecordsFor, recordsFor_setRecordsFor_not, List.length_cons]
  omega

theorem count_rest (other : LogRecord) (first : queue.recordsFor urgent = record :: rest) :
    queue.records.count other =
      (queue.setRecordsFor rest urgent).records.count other + [record].count other := by
  rw [count_records queue urgent, count_records (queue.setRecordsFor rest urgent) urgent, first,
    recordsFor_setRecordsFor, recordsFor_setRecordsFor_not, ← List.singleton_append,
    List.count_append]
  omega

theorem displace_eq_some (displaced : queue.displace record = some (lost, trimmed)) :
    ∃ urgent rest, queue.recordsFor urgent = lost :: rest ∧
      trimmed = queue.setRecordsFor rest urgent ∧
      (urgent = true → record.urgent = true ∧ queue.regularRecords = []) := by
  unfold displace at displaced
  split at displaced
  · next rest _ regular =>
    obtain ⟨rfl, rfl⟩ := Prod.mk.inj (Option.some.inj displaced)
    exact ⟨false, rest, regular, rfl, nofun⟩
  · next own =>
    split at displaced
    · next rest _ first =>
      obtain ⟨rfl, rfl⟩ := Prod.mk.inj (Option.some.inj displaced)
      refine ⟨_, rest, first, rfl, fun urgent => ⟨urgent, ?_⟩⟩
      cases regular : queue.regularRecords with
      | nil => rfl
      | cons oldest others => exact (own oldest others urgent regular).elim
    · contradiction

theorem regularRecords_of_displace_eq_none (kept : queue.displace record = none)
    (urgent : record.urgent = true) : queue.regularRecords = [] := by
  unfold displace at kept
  cases regular : queue.regularRecords with
  | nil => rfl
  | cons oldest others => simp [urgent, regular] at kept

theorem putNowait_kept (put : queue.putNowait record = (after, none)) :
    queue.depth < queue.limit ∧ after = queue.append record := by
  unfold putNowait at put
  split at put
  · split at put <;> simp at put
  · next room => exact ⟨Nat.lt_of_not_le room, (Prod.mk.inj put).1.symm⟩

theorem putNowait_dropped (put : queue.putNowait record = (after, some lost)) :
    (∃ urgent rest, queue.recordsFor urgent = lost :: rest ∧
      after = (queue.setRecordsFor rest urgent).append record ∧
      (urgent = true → record.urgent = true ∧ queue.regularRecords = [])) ∨
    after = queue ∧ lost = record ∧ (record.urgent = true → queue.regularRecords = []) := by
  unfold putNowait at put
  split at put
  · split at put
    · next displaced =>
      obtain ⟨rfl, same⟩ := Prod.mk.inj put
      cases Option.some.inj same
      obtain ⟨urgent, rest, first, rfl, only⟩ := displace_eq_some displaced
      exact .inl ⟨urgent, rest, first, rfl, only⟩
    · next kept =>
      obtain ⟨rfl, same⟩ := Prod.mk.inj put
      exact .inr ⟨rfl, (Option.some.inj same).symm, regularRecords_of_displace_eq_none kept⟩
  · simp at put

theorem get_record (turn : queue.get = .record record after) :
    ∃ urgent rest, queue.recordsFor urgent = record :: rest ∧
      after = queue.setRecordsFor rest urgent ∧
      (urgent = false → queue.priorityRecords = []) := by
  unfold get at turn
  split at turn
  · next rest first =>
    cases turn
    exact ⟨true, rest, first, rfl, nofun⟩
  · next rest empty first =>
    cases turn
    exact ⟨false, rest, first, rfl, fun _ => empty⟩
  · split at turn <;> cases turn

theorem get_sentinel (turn : queue.get = .sentinel after) :
    queue.records = [] ∧ queue.sentinelPending = true ∧
      after = { queue with sentinelPending := false } := by
  unfold get at turn
  split at turn
  · cases turn
  · cases turn
  · next priority regular =>
    split at turn
    · next pending =>
      cases turn
      exact ⟨by rw [records, priority, regular, List.append_nil], pending, rfl⟩
    · cases turn

end BoundedPriorityLogQueue

/-- What a step does to the queue, the history and the counters. -/
inductive Effect (world after : LogQueueWorld) : Prop
  | kept (record : LogRecord) (numbered : record.created = (puts world.history).length)
      (put : world.queue.putNowait record = (after.queue, none))
      (history : after.history = .put record :: world.history)
      (counts : after.droppedLogRecords + after.uncounted + world.elsewhere =
        world.droppedLogRecords + world.uncounted + after.elsewhere)
  | dropped (record lost : LogRecord) (numbered : record.created = (puts world.history).length)
      (put : world.queue.putNowait record = (after.queue, some lost))
      (history : after.history = .dropped lost record :: .put record :: world.history)
      (counts : after.droppedLogRecords + after.uncounted + world.elsewhere =
        world.droppedLogRecords + world.uncounted + after.elsewhere + 1)
  | stopRequested (queue : after.queue = { world.queue with sentinelPending := true })
      (history : after.history = .stopRequested :: world.history)
      (counts : after.droppedLogRecords + after.uncounted + world.elsewhere =
        world.droppedLogRecords + world.uncounted + after.elsewhere)
  | delivered (record : LogRecord) (turn : world.queue.get = .record record after.queue)
      (history : after.history = .delivered record :: world.history)
      (counts : after.droppedLogRecords + after.uncounted + world.elsewhere =
        world.droppedLogRecords + world.uncounted + after.elsewhere)
  | ended (turn : world.queue.get = .sentinel after.queue)
      (history : after.history = .ended :: world.history)
      (counts : after.droppedLogRecords + after.uncounted + world.elsewhere =
        world.droppedLogRecords + world.uncounted + after.elsewhere)
  | nothing (queue : after.queue = world.queue) (history : after.history = world.history)
      (counts : after.droppedLogRecords + after.uncounted + world.elsewhere =
        world.droppedLogRecords + world.uncounted + after.elsewhere)

section Effects

variable {world after : LogQueueWorld} {call : LogQueueCall} {levelno : Int}

theorem putRecord_effect : Effect world (world.putRecord levelno) := by
  unfold LogQueueWorld.putRecord
  extract_lets record
  split
  · next put => exact .kept _ rfl put rfl rfl
  · next put => exact .dropped _ _ rfl put rfl (by simp only; omega)

theorem takeTurn_effect {parked : Nat} (took : world.takeTurn = some after) :
    Effect world { after with parked } := by
  unfold LogQueueWorld.takeTurn at took
  split at took
  · next turn =>
    cases took
    exact .delivered _ turn rfl rfl
  · next turn =>
    cases took
    exact .ended turn rfl rfl
  · contradiction

theorem get_effect {block : Bool} : Effect world (world.get block) := by
  unfold LogQueueWorld.get
  split
  · next took => exact takeTurn_effect took
  · split <;> exact .nothing rfl rfl rfl

theorem wake_effect (woke : world.wake = some after) : Effect world after := by
  unfold LogQueueWorld.wake at woke
  split at woke
  · contradiction
  · split at woke
    · next took =>
      cases woke
      exact takeTurn_effect took
    · cases woke
      exact .nothing rfl rfl rfl

theorem increment_effect (counted : world.incrementDroppedLogRecords = some after) :
    Effect world after := by
  unfold LogQueueWorld.incrementDroppedLogRecords at counted
  split at counted
  · contradiction
  · cases counted
    exact .nothing rfl rfl (by simp only; omega)

theorem step_effect (stepped : world.step call = some after) : Effect world after := by
  cases call with
  | putRecord levelno =>
      cases stepped
      exact putRecord_effect
  | incrementDroppedLogRecords => exact increment_effect stepped
  | putNone =>
      cases stepped
      exact .stopRequested rfl rfl rfl
  | get block =>
      cases stepped
      exact get_effect
  | wake => exact wake_effect stepped
  | incrementElsewhere =>
      cases stepped
      exact .nothing rfl rfl (by simp only; omega)

end Effects

section Invariants

variable {limit : Nat} {overflowPolicy : LoggingOverflowPolicy} {world after : LogQueueWorld}

structure Bounded (limit : Nat) (queue : BoundedPriorityLogQueue) : Prop where
  limited : queue.limit = limit
  depth : queue.depth ≤ limit

/-- A lane holds the records of its class, in the order they were put in. -/
structure InOrder (history : List LogEvent) (queue : BoundedPriorityLogQueue) : Prop where
  sorted : ∀ urgent, ∀ record ∈ queue.recordsFor urgent, record.urgent = urgent
  behind : ∀ urgent, List.Sublist
    ((deliveries history).filter (·.urgent == urgent) ++ queue.recordsFor urgent)
    ((puts history).filter (·.urgent == urgent))

structure Conserved (world : LogQueueWorld) : Prop where
  numbered : (puts world.history).map (·.created) = List.range (puts world.history).length
  shared : (deliveries world.history ++ world.queue.records ++ losses world.history).Perm
    (puts world.history)
  counted : world.droppedLogRecords + world.uncounted =
    (losses world.history).length + world.elsewhere

def stopsPending (queue : BoundedPriorityLogQueue) : Nat :=
  if queue.sentinelPending then 1 else 0

def StopsCovered (world : LogQueueWorld) : Prop :=
  world.history.count .ended + stopsPending world.queue ≤ world.history.count .stopRequested

theorem Bounded.step (bounded : Bounded limit world.queue) (effect : Effect world after) :
    Bounded limit after.queue := by
  have ⟨limited, depth⟩ := bounded
  cases effect with
  | kept record numbered put history counts =>
      obtain ⟨room, same⟩ := BoundedPriorityLogQueue.putNowait_kept put
      rw [same]
      refine ⟨by rw [BoundedPriorityLogQueue.append_limit, limited], ?_⟩
      rw [BoundedPriorityLogQueue.depth_append]
      omega
  | dropped record lost numbered put history counts =>
      rcases BoundedPriorityLogQueue.putNowait_dropped put with
        ⟨urgent, rest, first, same, _⟩ | ⟨same, _⟩
      · have shorter := BoundedPriorityLogQueue.depth_rest first
        rw [same]
        refine ⟨by simp only [BoundedPriorityLogQueue.append_limit,
          BoundedPriorityLogQueue.setRecordsFor_limit, limited], ?_⟩
        rw [BoundedPriorityLogQueue.depth_append]
        omega
      · exact same ▸ bounded
  | stopRequested queue history counts => exact queue ▸ ⟨limited, depth⟩
  | delivered record turn history counts =>
      obtain ⟨urgent, rest, first, same, _⟩ := BoundedPriorityLogQueue.get_record turn
      have shorter := BoundedPriorityLogQueue.depth_rest first
      rw [same]
      refine ⟨by rw [BoundedPriorityLogQueue.setRecordsFor_limit, limited], ?_⟩
      omega
  | ended turn history counts =>
      obtain ⟨_, _, same⟩ := BoundedPriorityLogQueue.get_sentinel turn
      exact same ▸ ⟨limited, depth⟩
  | nothing queue history counts => exact queue ▸ bounded

namespace InOrder

variable {history : List LogEvent} {queue : BoundedPriorityLogQueue} {record : LogRecord}
variable {rest : List LogRecord} {urgent : Bool}

theorem put (ordered : InOrder history queue) : InOrder (.put record :: history) queue where
  sorted := ordered.sorted
  behind another := by
    refine (ordered.behind another).trans ?_
    rw [puts, List.filter_append]
    exact List.sublist_append_left _ _

theorem append (ordered : InOrder history queue) :
    InOrder (.put record :: history) (queue.append record) where
  sorted another other member := by
    by_cases same : another = record.urgent
    · subst same
      rw [BoundedPriorityLogQueue.recordsFor_append, List.mem_append, List.mem_singleton] at member
      exact member.elim (ordered.sorted _ other) fun new => new ▸ rfl
    · rw [BoundedPriorityLogQueue.append,
        BoundedPriorityLogQueue.recordsFor_setRecordsFor_of_ne same] at member
      exact ordered.sorted _ other member
  behind another := by
    by_cases same : another = record.urgent
    · subst same
      have tail : [record].filter (·.urgent == record.urgent) = [record] := by simp
      simp only [BoundedPriorityLogQueue.recordsFor_append, deliveries, puts, List.filter_append,
        tail, ← List.append_assoc]
      exact (ordered.behind _).append (.refl _)
    · rw [BoundedPriorityLogQueue.append,
        BoundedPriorityLogQueue.recordsFor_setRecordsFor_of_ne same]
      exact ordered.put.behind another

theorem rest_sorted (ordered : InOrder history queue)
    (lane : queue.recordsFor urgent = record :: rest) :
    ∀ another, ∀ other ∈ (queue.setRecordsFor rest urgent).recordsFor another,
      other.urgent = another := by
  intro another other member
  by_cases same : another = urgent
  · subst same
    rw [BoundedPriorityLogQueue.recordsFor_setRecordsFor] at member
    exact ordered.sorted _ other (lane ▸ List.mem_cons_of_mem _ member)
  · rw [BoundedPriorityLogQueue.recordsFor_setRecordsFor_of_ne same] at member
    exact ordered.sorted _ other member

theorem drop (ordered : InOrder history queue)
    (lane : queue.recordsFor urgent = record :: rest) :
    InOrder history (queue.setRecordsFor rest urgent) where
  sorted := ordered.rest_sorted lane
  behind another := by
    refine .trans (.append_left ?_ _) (ordered.behind another)
    by_cases same : another = urgent
    · subst same
      rw [BoundedPriorityLogQueue.recordsFor_setRecordsFor, lane]
      exact List.sublist_cons_self _ _
    · rw [BoundedPriorityLogQueue.recordsFor_setRecordsFor_of_ne same]

theorem deliver (ordered : InOrder history queue)
    (lane : queue.recordsFor urgent = record :: rest) :
    InOrder (.delivered record :: history) (queue.setRecordsFor rest urgent) where
  sorted := ordered.rest_sorted lane
  behind another := by
    have own : record.urgent = urgent := ordered.sorted _ record (lane ▸ List.mem_cons_self)
    have behind := ordered.behind another
    simp only [deliveries, puts, List.filter_append, List.append_assoc]
    by_cases same : another = urgent
    · subst same
      rw [BoundedPriorityLogQueue.recordsFor_setRecordsFor]
      rw [lane] at behind
      simpa [own] using behind
    · rw [BoundedPriorityLogQueue.recordsFor_setRecordsFor_of_ne same]
      simpa [own, Ne.symm same] using behind

theorem step (ordered : InOrder world.history world.queue) (effect : Effect world after) :
    InOrder after.history after.queue := by
  cases effect with
  | kept record numbered put history counts =>
      obtain ⟨_, same⟩ := BoundedPriorityLogQueue.putNowait_kept put
      rw [same, history]
      exact ordered.append
  | dropped record lost numbered put history counts =>
      have placed : InOrder (.put record :: world.history) after.queue := by
        rcases BoundedPriorityLogQueue.putNowait_dropped put with
          ⟨urgent, rest, lane, same, _⟩ | ⟨same, _⟩
        · rw [same]
          exact (ordered.drop lane).append
        · rw [same]
          exact ordered.put
      rw [history]
      exact ⟨placed.sorted, placed.behind⟩
  | stopRequested queue history counts =>
      rw [queue, history]
      exact ⟨ordered.sorted, ordered.behind⟩
  | delivered record turn history counts =>
      obtain ⟨urgent, rest, lane, same, _⟩ := BoundedPriorityLogQueue.get_record turn
      rw [same, history]
      exact ordered.deliver lane
  | ended turn history counts =>
      obtain ⟨_, _, same⟩ := BoundedPriorityLogQueue.get_sentinel turn
      rw [same, history]
      exact ⟨ordered.sorted, ordered.behind⟩
  | nothing queue history counts =>
      rw [queue, history]
      exact ordered

end InOrder

namespace Conserved

theorem nodup (conserved : Conserved world) : (puts world.history).Nodup := by
  refine List.Nodup.of_map (·.created) ?_
  rw [conserved.numbered]
  exact List.nodup_range

/-- What the queue holds is what the history says is queued. -/
theorem mem_records (conserved : Conserved world) {record : LogRecord} :
    record ∈ world.queue.records ↔ Queued world.history record := by
  have shared := conserved.shared
  have distinct := shared.nodup_iff.mpr conserved.nodup
  obtain ⟨kept, _, apart⟩ := List.nodup_append.mp distinct
  obtain ⟨_, _, ahead⟩ := List.nodup_append.mp kept
  have everywhere := shared.mem_iff (a := record)
  simp only [List.mem_append] at everywhere apart
  constructor
  · intro member
    exact ⟨everywhere.mp (.inl (.inr member)), fun delivered => ahead _ delivered _ member rfl,
      fun lost => apart _ (.inr member) _ lost rfl⟩
  · rintro ⟨put, undelivered, unlost⟩
    exact ((everywhere.mpr put).resolve_right unlost).resolve_left undelivered

theorem numbered_put {history : List LogEvent} {record : LogRecord}
    (numbered : (puts history).map (·.created) = List.range (puts history).length)
    (number : record.created = (puts history).length) :
    (puts history ++ [record]).map (·.created) =
      List.range (puts history ++ [record]).length := by
  rw [List.map_append, numbered, List.length_append, List.length_singleton, List.range_succ,
    List.map_singleton, number]

theorem step (conserved : Conserved world) (effect : Effect world after) : Conserved after := by
  have ⟨numbered, shared, counted⟩ := conserved
  have known := List.perm_iff_count.mp shared
  simp only [List.count_append] at known
  cases effect with
  | kept record number put history counts =>
      obtain ⟨_, same⟩ := BoundedPriorityLogQueue.putNowait_kept put
      refine ⟨?_, List.perm_iff_count.mpr fun other => ?_, ?_⟩
      · rw [history]
        exact numbered_put numbered number
      · have before := known other
        rw [history, same]
        simp only [puts, deliveries, losses, List.count_append,
          BoundedPriorityLogQueue.count_append]
        omega
      · rw [history]
        simp only [losses]
        omega
  | dropped record lost number put history counts =>
      refine ⟨?_, List.perm_iff_count.mpr fun other => ?_, ?_⟩
      · rw [history]
        exact numbered_put numbered number
      · have before := known other
        have exchanged : after.queue.records.count other + [lost].count other =
            world.queue.records.count other + [record].count other := by
          rcases BoundedPriorityLogQueue.putNowait_dropped put with
            ⟨urgent, rest, lane, same, _⟩ | ⟨same, itself, _⟩
          · have trimmed := BoundedPriorityLogQueue.count_rest other lane
            rw [same, BoundedPriorityLogQueue.count_append]
            omega
          · rw [same, itself]
        rw [history]
        simp only [puts, deliveries, losses, List.count_append]
        omega
      · rw [history]
        simp only [losses, List.length_append, List.length_singleton]
        omega
  | stopRequested queue history counts =>
      refine ⟨?_, ?_, ?_⟩
      · rw [history]
        exact numbered
      · rw [history, queue]
        exact shared
      · rw [history]
        simp only [losses]
        omega
  | delivered record turn history counts =>
      obtain ⟨urgent, rest, lane, same, _⟩ := BoundedPriorityLogQueue.get_record turn
      refine ⟨?_, List.perm_iff_count.mpr fun other => ?_, ?_⟩
      · rw [history]
        exact numbered
      · have before := known other
        have trimmed := BoundedPriorityLogQueue.count_rest other lane
        rw [history, same]
        simp only [puts, deliveries, losses, List.count_append]
        omega
      · rw [history]
        simp only [losses]
        omega
  | ended turn history counts =>
      obtain ⟨_, _, same⟩ := BoundedPriorityLogQueue.get_sentinel turn
      refine ⟨?_, ?_, ?_⟩
      · rw [history]
        exact numbered
      · rw [history, same]
        exact shared
      · rw [history]
        simp only [losses]
        omega
  | nothing queue history counts =>
      refine ⟨history ▸ numbered, ?_, ?_⟩
      · rw [history, queue]
        exact shared
      · rw [history]
        omega

end Conserved

theorem StopsCovered.step (covered : StopsCovered world) (effect : Effect world after) :
    StopsCovered after := by
  unfold StopsCovered stopsPending at *
  cases effect with
  | kept record number put history counts =>
      obtain ⟨_, same⟩ := BoundedPriorityLogQueue.putNowait_kept put
      simpa [history, same] using covered
  | dropped record lost number put history counts =>
      rcases BoundedPriorityLogQueue.putNowait_dropped put with
        ⟨urgent, rest, lane, same, _⟩ | ⟨same, _⟩
      · simpa [history, same] using covered
      · simpa [history, same] using covered
  | stopRequested queue history counts =>
      simp only [history, queue, List.count_cons]
      split at covered <;> simp <;> omega
  | delivered record turn history counts =>
      obtain ⟨urgent, rest, lane, same, _⟩ := BoundedPriorityLogQueue.get_record turn
      simpa [history, same] using covered
  | ended turn history counts =>
      obtain ⟨_, pending, same⟩ := BoundedPriorityLogQueue.get_sentinel turn
      simpa [history, same, pending] using covered
  | nothing queue history counts => simpa [history, queue] using covered

theorem Queued.put {older : List LogEvent} {record incoming : LogRecord}
    (queued : Queued older record) : Queued (.put incoming :: older) record :=
  ⟨List.mem_append_left _ queued.1, queued.2⟩

theorem Queued.before {older : List LogEvent} {record incoming : LogRecord}
    (queued : Queued (.put incoming :: older) record) : record = incoming ∨ Queued older record :=
  (List.mem_append.mp queued.1).elim (fun before => .inr ⟨before, queued.2⟩)
    fun new => .inl (List.mem_singleton.mp new)

theorem Conserved.new_record (conserved : Conserved world) {record : LogRecord}
    (number : record.created = (puts world.history).length) : record ∉ puts world.history := by
  intro member
  have listed := List.mem_map_of_mem (f := LogRecord.created) member
  rw [conserved.numbered, number] at listed
  exact absurd (List.mem_range.mp listed) (Nat.lt_irrefl _)

theorem Conserved.queued_new (conserved : Conserved world) {record : LogRecord}
    (new : record ∉ puts world.history) : Queued (.put record :: world.history) record := by
  have everywhere := conserved.shared.mem_iff (a := record)
  simp only [List.mem_append] at everywhere
  exact ⟨List.mem_append_right _ (List.mem_singleton_self record),
    fun delivered => new (everywhere.mp (.inl (.inl delivered))),
    fun lost => new (everywhere.mp (.inr lost))⟩

/-- An urgent record can only leave a queue of urgent ones. -/
theorem InOrder.all_urgent (ordered : InOrder world.history world.queue)
    (conserved : Conserved world) (regular : world.queue.regularRecords = []) :
    ∀ other, Queued world.history other → other.urgent := by
  intro other queued
  obtain ⟨urgent, member⟩ := BoundedPriorityLogQueue.mem_records.mp
    (conserved.mem_records.mpr queued)
  cases urgent with
  | true => exact ordered.sorted true other member
  | false =>
      have member : other ∈ world.queue.regularRecords := member
      exact absurd (regular ▸ member) List.not_mem_nil

theorem InOrder.none_urgent (ordered : InOrder world.history world.queue)
    (conserved : Conserved world) (priority : world.queue.priorityRecords = []) :
    ∀ other, Queued world.history other → other.urgent = false := by
  intro other queued
  obtain ⟨urgent, member⟩ := BoundedPriorityLogQueue.mem_records.mp
    (conserved.mem_records.mpr queued)
  cases urgent with
  | true =>
      have member : other ∈ world.queue.priorityRecords := member
      exact absurd (priority ▸ member) List.not_mem_nil
  | false => exact ordered.sorted false other member

theorem lawful_dropped {record lost : LogRecord} (conserved : Conserved world)
    (ordered : InOrder world.history world.queue)
    (new : record ∉ puts world.history)
    (put : world.queue.putNowait record = (after.queue, some lost)) :
    Lawful (.put record :: world.history) (.dropped lost record) := by
  have only (incoming : record.urgent = true) (regular : world.queue.regularRecords = []) :
      ∀ other, Queued (.put record :: world.history) other → other.urgent := by
    intro other queued
    rcases queued.before with rfl | earlier
    · exact incoming
    · exact ordered.all_urgent conserved regular other earlier
  rcases BoundedPriorityLogQueue.putNowait_dropped put with
    ⟨urgent, rest, lane, _, least⟩ | ⟨_, rfl, least⟩
  · have member : lost ∈ world.queue.recordsFor urgent := lane ▸ List.mem_cons_self
    have queued := conserved.mem_records.mp
      (BoundedPriorityLogQueue.mem_records.mpr ⟨urgent, member⟩)
    refine ⟨queued.put, fun high => ?_⟩
    obtain ⟨incoming, regular⟩ := least ((ordered.sorted urgent lost member).symm.trans high)
    exact ⟨incoming, only incoming regular⟩
  · exact ⟨conserved.queued_new new, fun high => ⟨high, only high (least high)⟩⟩

theorem lawful_delivered {record : LogRecord} (conserved : Conserved world)
    (ordered : InOrder world.history world.queue)
    (turn : world.queue.get = .record record after.queue) :
    Lawful world.history (.delivered record) := by
  obtain ⟨urgent, rest, lane, _, first⟩ := BoundedPriorityLogQueue.get_record turn
  have member : record ∈ world.queue.recordsFor urgent := lane ▸ List.mem_cons_self
  refine ⟨conserved.mem_records.mp (BoundedPriorityLogQueue.mem_records.mpr ⟨urgent, member⟩),
    fun low => ?_⟩
  exact ordered.none_urgent conserved
    (first ((ordered.sorted urgent record member).symm.trans low))

theorem lawful_ended (conserved : Conserved world) (covered : StopsCovered world)
    (turn : world.queue.get = .sentinel after.queue) : Lawful world.history .ended := by
  obtain ⟨nothing, pending, _⟩ := BoundedPriorityLogQueue.get_sentinel turn
  refine ⟨fun other queued => ?_, ?_⟩
  · have member := conserved.mem_records.mpr queued
    rw [nothing] at member
    exact absurd member List.not_mem_nil
  · simp only [StopsCovered, stopsPending, pending, if_true] at covered
    exact covered

/-- The invariants of a queue and its history. -/
structure Sound (limit : Nat) (world : LogQueueWorld) : Prop where
  bounded : Bounded limit world.queue
  ordered : InOrder world.history world.queue
  conserved : Conserved world
  covered : StopsCovered world
  lawful : Guarded Lawful world.history

theorem Sound.fresh {earlier : Nat} : Sound limit (.fresh limit overflowPolicy earlier) where
  bounded := ⟨rfl, Nat.zero_le _⟩
  ordered := ⟨by rintro (_ | _) record ⟨⟩, by rintro (_ | _) <;> exact .refl _⟩
  conserved := ⟨rfl, .refl _, Nat.add_comm _ _⟩
  covered := Nat.le_refl _
  lawful := trivial

theorem Sound.step (sound : Sound limit world) (effect : Effect world after) :
    Sound limit after := by
  refine ⟨sound.bounded.step effect, sound.ordered.step effect, sound.conserved.step effect,
    sound.covered.step effect, ?_⟩
  cases effect with
  | kept record number put history counts =>
      rw [history]
      exact ⟨sound.conserved.new_record number, sound.lawful⟩
  | dropped record lost number put history counts =>
      have new := sound.conserved.new_record number
      rw [history]
      exact ⟨lawful_dropped sound.conserved sound.ordered new put, new, sound.lawful⟩
  | stopRequested queue history counts =>
      rw [history]
      exact ⟨trivial, sound.lawful⟩
  | delivered record turn history counts =>
      rw [history]
      exact ⟨lawful_delivered sound.conserved sound.ordered turn, sound.lawful⟩
  | ended turn history counts =>
      rw [history]
      exact ⟨lawful_ended sound.conserved sound.covered turn, sound.lawful⟩
  | nothing queue history counts => exact history ▸ sound.lawful

theorem sound_reachable
    (reachable : (logQueueSystem limit overflowPolicy).Reachable world) : Sound limit world := by
  refine reachable.invariant ?_ fun before call after sound stepped =>
    sound.step (step_effect stepped)
  rintro first ⟨earlier, rfl⟩
  exact .fresh

/-- The queue stays within its limit, loses no record without counting it, and keeps the
order within a class and the precedence of the urgent one. -/
theorem log_queue_faithful
    (reachable : (logQueueSystem limit overflowPolicy).Reachable world) :
    world.queue.depth ≤ limit ∧
    (puts world.history).Nodup ∧
    (deliveries world.history ++ world.queue.records ++ losses world.history).Perm
      (puts world.history) ∧
    (∀ record, record ∈ world.queue.records ↔ Queued world.history record) ∧
    world.droppedLogRecords + world.uncounted =
      (losses world.history).length + world.elsewhere ∧
    (∀ urgent, ((deliveries world.history).filter (·.urgent == urgent)).Sublist
      ((puts world.history).filter (·.urgent == urgent))) ∧
    Guarded Lawful world.history := by
  have sound := sound_reachable reachable
  exact ⟨sound.bounded.depth, sound.conserved.nodup, sound.conserved.shared,
    fun _ => sound.conserved.mem_records, sound.conserved.counted,
    fun urgent => .trans (List.sublist_append_left _ _) (sound.ordered.behind urgent),
    sound.lawful⟩

/-- An `ERROR` record takes the place of a regular one, and the next one that of the oldest. -/
theorem log_queue_faithful_run :
    ∃ world, (logQueueSystem 1 .dropOldest).Reachable world ∧
      deliveries world.history = [⟨2, 50⟩] ∧ losses world.history = [⟨0, 20⟩, ⟨1, 40⟩] ∧
      world.droppedLogRecords = 1 ∧ world.uncounted = 1 ∧ world.queue.depth ≤ 1 ∧
      Guarded Lawful world.history := by
  let calls : List LogQueueCall := [.get true, .putRecord 20, .putRecord 40, .putRecord 50,
    .putNone, .wake, .incrementDroppedLogRecords, .get false]
  have reachable : (logQueueSystem 1 .dropOldest).Reachable
      (((logQueueSystem 1 .dropOldest).exec (.fresh 1 .dropOldest 0) calls).get (by decide)) :=
    Automaton.System.Reachable.exec (.initial ⟨0, rfl⟩) (Option.some_get _).symm
  have faithful := log_queue_faithful reachable
  exact ⟨_, reachable, by decide, by decide, by decide, by decide, faithful.1,
    faithful.2.2.2.2.2.2⟩

end Invariants

end StreamDockSdk.Logging
