import StreamDockSdk.Messaging.Outbound.Accounting

namespace StreamDockSdk.Messaging

open Automaton

/-! # Coalescing and the order of the commands

A submission is called by its position among the accepted ones.
-/

theorem filter_new_append {items removed : List Nat} (distinct : (items ++ removed).Nodup) :
    (items ++ removed).filter (fun item => !removed.contains item) = items := by
  rw [List.filter_append]
  have kept : items.filter (fun item => !removed.contains item) = items := by
    apply List.filter_eq_self.mpr
    intro item member
    have apart := (List.nodup_append.mp distinct).2.2 item member
    simpa using fun within => apart item within rfl
  have dropped : removed.filter (fun item => !removed.contains item) = [] := by
    apply List.filter_eq_nil_iff.mpr
    intro item member
    simpa using member
  rw [kept, dropped, List.append_nil]

theorem filter_ne_map {Item : Type} [DecidableEq Item] {items : List Item} {name : Item → Nat}
    {item : Item} (distinct : (items.map name).Nodup) (member : item ∈ items) :
    (items.map name).filter (fun other => other != name item) = (items.erase item).map name := by
  induction items with
  | nil => contradiction
  | cons first rest ih =>
      obtain ⟨fresh, tail⟩ := List.nodup_cons.mp distinct
      by_cases same : first = item
      · subst same
        have others : (rest.map name).filter (fun other => other != name first) = rest.map name := by
          apply List.filter_eq_self.mpr
          intro other within
          simpa using fun equal : other = name first => fresh (equal ▸ within)
        simp [others]
      · have within : item ∈ rest := (List.mem_cons.mp member).resolve_left (Ne.symm same)
        have different : name first ≠ name item := by
          intro equal
          exact fresh (equal ▸ List.mem_map_of_mem within)
        have rest_kept := ih tail within
        rw [List.erase_cons_tail (by simpa using same)]
        simp only [List.map_cons, List.filter_cons, bne_iff_ne, ne_eq, different, not_false_eq_true,
          if_true, rest_kept]

variable {Command Key : Type} [Inhabited Command]

section Specification

variable [BEq Key] (config : OutboundConfig Command Key)

/-- The commands have a coalescing key, and the same one. -/
def sameKey (command other : Command) : Bool :=
  match config.coalescingKey command with
  | none => false
  | some key => some key == config.coalescingKey other

/-- The submission that an accepted one takes the place of: the last one queued,
if both are without a deadline and have the same key, it is not terminal, and
the new command fits. -/
def Acceptance.supersedes (acceptance : Acceptance Command) : Option Nat :=
  match acceptance.last with
  | none => none
  | some queued =>
      if config.coalesceCommands && acceptance.deadline.isNone && queued.deadline.isNone &&
          !acceptance.lastTerminal && sameKey config acceptance.command queued.command &&
          decide (acceptance.bytes - queued.size + acceptance.size ≤ config.byteLimit)
      then some queued.number
      else none

variable {config}

omit [Inhabited Command] in
theorem sameKey_eq_true {command other : Command} : sameKey config command other = true ↔
    ∃ key, config.coalescingKey command = some key ∧
      (some key == config.coalescingKey other) = true := by
  cases found : config.coalescingKey command <;> simp [sameKey, found]

theorem Acceptance.supersedes_eq_some {acceptance : Acceptance Command} {number : Nat} :
    acceptance.supersedes config = some number ↔
      ∃ queued, acceptance.last = some queued ∧ queued.number = number ∧
        config.coalesceCommands = true ∧ acceptance.deadline = none ∧ queued.deadline = none ∧
        acceptance.lastTerminal = false ∧
        sameKey config acceptance.command queued.command = true ∧
        acceptance.bytes - queued.size + acceptance.size ≤ config.byteLimit := by
  cases last : acceptance.last with
  | none => simp [supersedes, last]
  | some queued =>
      simp only [supersedes, last, Bool.and_eq_true, Option.isNone_iff_eq_none, Bool.not_eq_true',
        decide_eq_true_eq, Option.ite_none_right_eq_some, Option.some.injEq]
      constructor
      · rintro ⟨⟨⟨⟨⟨⟨enabled, unlimited⟩, last_unlimited⟩, live⟩, key⟩, fits⟩, rfl⟩
        exact ⟨queued, rfl, rfl, enabled, unlimited, last_unlimited, live, key, fits⟩
      · rintro ⟨_, rfl, rfl, enabled, unlimited, last_unlimited, live, key, fits⟩
        exact ⟨⟨⟨⟨⟨⟨enabled, unlimited⟩, last_unlimited⟩, live⟩, key⟩, fits⟩, rfl⟩

end Specification

namespace CommandState

/-- The entries that `receive` handed out, in order. -/
def handedOut (state : CommandState Command) : List (QueuedCommand Command) :=
  (state.departures.filter fun departure => departure.kind == .received).map (·.queued)

/-- The entries that are still queued, in order. -/
def waiting (state : CommandState Command) : List (QueuedCommand Command) :=
  state.queue.queue.map state.queue.entry

/-- The submissions that left the queue without being handed out. -/
def removed (state : CommandState Command) : List Nat :=
  (state.departures.filter fun departure => departure.kind != .received).map (·.queued.number)

variable [BEq Key] (config : OutboundConfig Command Key)

def superseded (state : CommandState Command) : List Nat :=
  state.accepted.filterMap (·.supersedes config)

/-- The accepted submissions that were neither superseded nor removed, in order. -/
def kept (state : CommandState Command) : List Nat :=
  (List.range state.accepted.length).filter fun number =>
    !(state.superseded config).contains number && !state.removed.contains number

/-- The entry carries its submission, the last one with its completion. -/
structure Carries (state : CommandState Command) (queued : QueuedCommand Command) : Prop where
  accepted : ∃ acceptance, state.accepted[queued.number]? = some acceptance ∧
    acceptance.command = queued.command ∧ acceptance.completion = queued.completion ∧
    acceptance.deadline = queued.deadline ∧ acceptance.size = queued.size
  latest : ∀ number acceptance, state.accepted[number]? = some acceptance →
    acceptance.completion = queued.completion → number ≤ queued.number

/-- What an accepted submission has in common with those before it. -/
inductive Merged (state : CommandState Command) (number : Nat) (acceptance : Acceptance Command) :
    Prop
  | alone : acceptance.supersedes config = none →
      (∀ earlier other, earlier < number → state.accepted[earlier]? = some other →
        other.completion ≠ acceptance.completion) →
      Merged state number acceptance
  | joined (earlier : Nat) (other : Acceptance Command) : earlier < number →
      acceptance.supersedes config = some earlier → state.accepted[earlier]? = some other →
      other.completion = acceptance.completion → other.deadline = none →
      acceptance.deadline = none → sameKey config acceptance.command other.command = true →
      Merged state number acceptance

structure Sequenced (state : CommandState Command) : Prop where
  order : state.kept config = (state.handedOut ++ state.waiting).map (·.number)
  queued : ∀ identity ∈ state.queue.queue, state.Carries (state.queue.entry identity)
  departed : ∀ departure ∈ state.departures, state.Carries departure.queued
  merged : ∀ number acceptance, state.accepted[number]? = some acceptance →
    state.Merged config number acceptance
  apart : ∀ number acceptance earlier, state.accepted[number]? = some acceptance →
    acceptance.supersedes config = some earlier →
    ∀ between, earlier < between → between < number → between ∉ state.kept config

variable {config} {state after : CommandState Command}

omit [Inhabited Command] in
theorem Carries.lt {queued : QueuedCommand Command} (carries : state.Carries queued) :
    queued.number < state.accepted.length := by
  obtain ⟨acceptance, found, _⟩ := carries.accepted
  exact (List.getElem?_eq_some_iff.mp found).1

omit [Inhabited Command] in
theorem Carries.grow {queued : QueuedCommand Command} {acceptance : Acceptance Command}
    (carries : state.Carries queued) (grown : after.accepted = state.accepted ++ [acceptance])
    (other : acceptance.completion ≠ queued.completion) : after.Carries queued := by
  obtain ⟨own, found, fields⟩ := carries.accepted
  refine ⟨⟨own, ?_, fields⟩, ?_⟩
  · rw [grown, List.getElem?_append_left carries.lt]
    exact found
  · intro number later at_number same
    rw [grown, List.getElem?_append] at at_number
    split at at_number
    · exact carries.latest number later at_number same
    · obtain ⟨_, _, rfl⟩ : ∃ index, index = number - state.accepted.length ∧ acceptance = later := by
        have bound := (List.getElem?_eq_some_iff.mp at_number).1
        have zero : number - state.accepted.length = 0 := by simpa using bound
        rw [zero] at at_number
        exact ⟨_, rfl, by simpa using at_number⟩
      exact absurd same other

omit [Inhabited Command] in
theorem Merged.grow {number : Nat} {acceptance added : Acceptance Command}
    (merged : state.Merged config number acceptance)
    (grown : after.accepted = state.accepted ++ [added]) (old : number < state.accepted.length) :
    after.Merged config number acceptance := by
  have same (earlier : Nat) (before : earlier < number) :
      after.accepted[earlier]? = state.accepted[earlier]? := by
    rw [grown, List.getElem?_append_left (by omega)]
  cases merged with
  | alone first apart =>
      refine .alone first fun earlier other before found => ?_
      rw [same earlier before] at found
      exact apart earlier other before found
  | joined earlier other before supersedes found =>
      rw [← same earlier before] at found
      exact .joined earlier other before supersedes found ‹_› ‹_› ‹_› ‹_›

namespace Sequenced

/-- Steps that change neither the submissions nor the queue. -/
theorem carry (sequenced : state.Sequenced config) (accepted : after.accepted = state.accepted)
    (departures : after.departures = state.departures)
    (entries : ∀ identity ∈ state.queue.queue,
      after.queue.entry identity = state.queue.entry identity)
    (line : after.queue.queue = state.queue.queue) : after.Sequenced config := by
  have same : after.waiting = state.waiting := by
    rw [waiting, line]
    exact List.map_congr_left entries
  have carries {queued : QueuedCommand Command} (before : state.Carries queued) :
      after.Carries queued := by
    obtain ⟨own, latest⟩ := before
    constructor <;> rw [accepted]
    · exact own
    · exact latest
  have kept_eq : after.kept config = state.kept config := by
    simp only [kept, superseded, removed, accepted, departures]
  constructor
  · rw [kept_eq, handedOut, departures, same]
    exact sequenced.order
  · intro identity member
    rw [line] at member
    rw [entries identity member]
    exact carries (sequenced.queued identity member)
  · intro departure member
    rw [departures] at member
    exact carries (sequenced.departed departure member)
  · intro number acceptance found
    rw [accepted] at found
    cases sequenced.merged number acceptance found with
    | alone first apart => exact .alone first (by rwa [accepted])
    | joined earlier other before supersedes found =>
        rw [← accepted] at found
        exact .joined earlier other before supersedes found ‹_› ‹_› ‹_› ‹_›
  · rw [accepted, kept_eq]
    exact sequenced.apart

theorem increasing (sequenced : state.Sequenced config) :
    ((state.handedOut ++ state.waiting).map (·.number)).Pairwise (· < ·) := by
  rw [← sequenced.order]
  exact List.Pairwise.filter _ List.pairwise_lt_range

theorem nodup (sequenced : state.Sequenced config) :
    ((state.handedOut ++ state.waiting).map (·.number)).Nodup := by
  rw [← sequenced.order]
  exact List.Pairwise.filter _ List.nodup_range

theorem superseded_lt (sequenced : state.Sequenced config) {number : Nat}
    (member : number ∈ state.superseded config) : number < state.accepted.length := by
  obtain ⟨acceptance, within, supersedes⟩ := List.mem_filterMap.mp member
  obtain ⟨position, found⟩ := List.getElem?_of_mem within
  have bound := (List.getElem?_eq_some_iff.mp found).1
  cases sequenced.merged position acceptance found with
  | alone first => rw [first] at supersedes; contradiction
  | joined earlier other before own =>
      rw [own] at supersedes
      cases supersedes
      omega

theorem removed_lt (sequenced : state.Sequenced config) {number : Nat}
    (member : number ∈ state.removed) : number < state.accepted.length := by
  obtain ⟨departure, within, rfl⟩ := List.mem_map.mp member
  exact (sequenced.departed departure (List.mem_of_mem_filter within)).lt

/-- An accepted submission supersedes another exactly where `_coalesce` finds an
entry to replace. -/
theorem supersedes_of_coalesces {command : Command} {size identity completion : Nat}
    (conditions : state.queue.Coalesces config state.futures command size identity) :
    (state.acceptance command none size completion).supersedes config =
      some (state.queue.entry identity).number := by
  obtain ⟨future, found, live⟩ := conditions.live
  have last : state.queue.last? = some (state.queue.entry identity) := by
    rw [OutboundCommandQueue.last?, conditions.last]
    rfl
  refine Acceptance.supersedes_eq_some.mpr ⟨state.queue.entry identity, last, rfl,
    conditions.enabled, rfl, conditions.unlimited, ?_, sameKey_eq_true.mpr conditions.key,
    conditions.fits⟩
  simp [CommandState.acceptance, last, future_of_found found, live]

theorem coalesces_of_supersedes (represents : state.Represents config) {command : Command}
    {deadline : Option Nat} {size completion number : Nat}
    (supersedes : (state.acceptance command deadline size completion).supersedes config =
      some number) :
    deadline = none ∧
      ∃ identity, state.queue.Coalesces config state.futures command size identity := by
  obtain ⟨queued, last, _, enabled, unlimited, last_unlimited, live, key, fits⟩ :=
    Acceptance.supersedes_eq_some.mp supersedes
  simp only [CommandState.acceptance, OutboundCommandQueue.last?] at last live
  cases found : state.queue.queue.getLast? with
  | none => simp [found] at last
  | some identity =>
      have known := represents.known identity (List.mem_of_getLast? found)
      have present := List.getElem?_eq_getElem known
      simp only [found, Option.map_some, Option.some.injEq] at last
      subst last
      simp only [found, Option.map_some, Option.any_some, future_of_found present,
        Option.isSome_eq_false_iff, Option.isNone_iff_eq_none] at live
      exact ⟨unlimited, identity, enabled, found, last_unlimited, sameKey_eq_true.mp key, fits,
        _, present, live⟩

theorem kept_append (sequenced : state.Sequenced config) {acceptance : Acceptance Command}
    (grown : after.accepted = state.accepted ++ [acceptance])
    (departures : after.departures = state.departures)
    (earlier : ∀ number, acceptance.supersedes config = some number →
      number < state.accepted.length) :
    after.kept config = (state.kept config).filter
        (fun number => !(acceptance.supersedes config).toList.contains number) ++
      [state.accepted.length] := by
  have superseded : after.superseded config =
      state.superseded config ++ (acceptance.supersedes config).toList := by
    simp only [CommandState.superseded, grown, List.filterMap_append]
    cases found : acceptance.supersedes config <;> simp [found]
  have removed : after.removed = state.removed := by
    simp only [CommandState.removed, departures]
  have last : (!(after.superseded config).contains state.accepted.length &&
      !state.removed.contains state.accepted.length) = true := by
    simp only [superseded, Bool.and_eq_true, Bool.not_eq_true', List.contains_eq_mem,
      decide_eq_false_iff_not, List.mem_append, Option.mem_toList, not_or]
    refine ⟨⟨fun old => ?_, fun new => ?_⟩, fun gone => ?_⟩
    · exact Nat.lt_irrefl _ (sequenced.superseded_lt old)
    · exact Nat.lt_irrefl _ (earlier _ new)
    · exact Nat.lt_irrefl _ (sequenced.removed_lt gone)
  simp only [kept, grown, List.length_append, List.length_singleton, List.range_succ,
    List.filter_append, removed, List.filter_filter]
  congr 1
  · apply List.filter_congr
    intro number _
    rw [superseded]
    simp only [List.contains_eq_mem, List.mem_append]
    by_cases old : number ∈ state.superseded config <;>
      by_cases new : number ∈ (acceptance.supersedes config).toList <;> simp [old, new]
  · simp only [List.filter_cons, last, if_true, List.filter_nil]

/-- A new submission may supersede one that nothing queued comes after. -/
theorem apart_append (sequenced : state.Sequenced config) {added : Acceptance Command}
    (grown : after.accepted = state.accepted ++ [added])
    (departures : after.departures = state.departures)
    (earlier_lt : ∀ number, added.supersedes config = some number → number < state.accepted.length)
    (last : ∀ earlier, added.supersedes config = some earlier →
      ∀ between, earlier < between → between ∉ state.kept config) :
    ∀ number acceptance earlier, after.accepted[number]? = some acceptance →
      acceptance.supersedes config = some earlier →
      ∀ between, earlier < between → between < number → between ∉ after.kept config := by
  intro number acceptance earlier found supersedes between later before within
  have bound := (List.getElem?_eq_some_iff.mp found).1
  rw [grown, List.length_append, List.length_singleton] at bound
  rw [sequenced.kept_append grown departures earlier_lt] at within
  have old : between ∈ state.kept config := by
    rcases List.mem_append.mp within with kept | new
    · exact List.mem_of_mem_filter kept
    · rw [List.mem_singleton.mp new] at before
      omega
  by_cases own : number = state.accepted.length
  · subst own
    rw [grown, List.getElem?_concat_length, Option.some.injEq] at found
    exact last earlier (found ▸ supersedes) between later old
  · rw [grown, List.getElem?_append_left (by omega)] at found
    exact sequenced.apart number acceptance earlier found supersedes between later before old

theorem enqueue (sequenced : state.Sequenced config) (represents : state.Represents config)
    (departs : state.Departs) (command : Command) (deadline : Option Nat) (size : Nat)
    (thread : Option Nat)
    (alone : (state.acceptance command deadline size state.futures.length).supersedes config = none) :
    (state.enqueue command deadline size thread).Sequenced config := by
  have fresh {queued : QueuedCommand Command} (carries : state.Carries queued) :
      queued.completion < state.futures.length := by
    obtain ⟨acceptance, found, _, same, _⟩ := carries.accepted
    exact same ▸ departs.known acceptance (List.mem_of_getElem? found)
  have carries {queued : QueuedCommand Command} (before : state.Carries queued) :
      (state.enqueue command deadline size thread).Carries queued :=
    before.grow rfl (Nat.ne_of_gt (fresh before))
  have kept_entry (identity : Nat) (member : identity ∈ state.queue.queue) :
      (state.enqueue command deadline size thread).queue.entry identity =
        state.queue.entry identity :=
    OutboundCommandQueue.entry_append rfl (represents.made identity member)
  have last : (state.enqueue command deadline size thread).queue.entry state.queue.entries.length =
      ⟨command, state.futures.length, size, deadline, state.accepted.length⟩ :=
    OutboundCommandQueue.entry_appended rfl
  have line : (state.enqueue command deadline size thread).waiting = state.waiting ++
      [⟨command, state.futures.length, size, deadline, state.accepted.length⟩] := by
    have queue : (state.enqueue command deadline size thread).queue.queue =
      state.queue.queue ++ [state.queue.entries.length] := rfl
    rw [waiting, queue, List.map_append, List.map_singleton, last]
    exact congrArg (· ++ _) (List.map_congr_left kept_entry)
  have log : (state.enqueue command deadline size thread).accepted = state.accepted ++
    [state.acceptance command deadline size state.futures.length] := rfl
  constructor
  · rw [sequenced.kept_append log rfl (by simp [alone]), alone, line]
    simp only [Option.toList_none, List.contains_nil, Bool.not_false, List.filter_true,
      sequenced.order, List.map_append, List.map_cons, List.map_nil, List.append_assoc]
    rfl
  · intro identity member
    rcases List.mem_append.mp member with old | new
    · rw [kept_entry identity old]
      exact carries (sequenced.queued identity old)
    · rw [List.mem_singleton.mp new, last]
      refine ⟨⟨_, by rw [log, List.getElem?_concat_length], rfl, rfl, rfl, rfl⟩, ?_⟩
      intro number acceptance found _
      have bound := (List.getElem?_eq_some_iff.mp found).1
      rw [log, List.length_append] at bound
      exact Nat.lt_succ_iff.mp bound
  · intro departure member
    exact carries (sequenced.departed departure member)
  · intro number acceptance found
    by_cases old : number < state.accepted.length
    · rw [log, List.getElem?_append_left old] at found
      exact (sequenced.merged number acceptance found).grow log old
    · have bound := (List.getElem?_eq_some_iff.mp found).1
      rw [log, List.length_append, List.length_singleton] at bound
      obtain rfl : number = state.accepted.length := by omega
      rw [log, List.getElem?_concat_length, Option.some.injEq] at found
      subst found
      refine .alone alone fun earlier other before at_earlier => ?_
      rw [log, List.getElem?_append_left before] at at_earlier
      exact Nat.ne_of_lt (departs.known other (List.mem_of_getElem? at_earlier))
  · refine sequenced.apart_append log rfl (by simp [alone]) fun earlier supersedes => ?_
    rw [alone] at supersedes
    contradiction

theorem coalesce (sequenced : state.Sequenced config) (represents : state.Represents config)
    (departs : state.Departs) {command : Command} {size identity : Nat}
    (conditions : state.queue.Coalesces config state.futures command size identity) :
    (state.coalesce identity command size).Sequenced config := by
  have supersedes : (state.acceptance command none size
      (state.queue.entry identity).completion).supersedes config = some _ :=
    supersedes_of_coalesces conditions
  have member : identity ∈ state.queue.queue := List.mem_of_getLast? conditions.last
  have own := sequenced.queued identity member
  have entry (other : Nat) : (state.coalesce identity command size).queue.entry other =
      if other = identity then
        { state.queue.entry identity with command, size, number := state.accepted.length }
      else state.queue.entry other :=
    OutboundCommandQueue.entry_set (represents.made identity member) rfl
  have others (other : Nat) (within : other ∈ state.queue.queue) (different : other ≠ identity) :
      (state.queue.entry identity).completion ≠ (state.queue.entry other).completion := by
    intro same
    exact different (represents.completion_injective within member same.symm)
  have log : (state.coalesce identity command size).accepted = state.accepted ++
    [state.acceptance command none size (state.queue.entry identity).completion] := rfl
  obtain ⟨front, line⟩ := List.getLast?_eq_some_iff.mp conditions.last
  have waiting_eq : state.waiting = front.map state.queue.entry ++ [state.queue.entry identity] := by
    rw [waiting, line, List.map_append, List.map_singleton]
  have replaced : (state.coalesce identity command size).waiting =
      front.map state.queue.entry ++
        [{ state.queue.entry identity with command, size, number := state.accepted.length }] := by
    have queue : (state.coalesce identity command size).queue.queue = state.queue.queue := rfl
    rw [waiting, queue, line, List.map_append, List.map_singleton, entry, if_pos rfl]
    refine congrArg (· ++ _) (List.map_congr_left fun other within => ?_)
    have distinct := represents.distinct
    rw [line] at distinct
    rw [entry, if_neg]
    rintro rfl
    exact (List.nodup_append.mp distinct).2.2 other within other (by simp) rfl
  constructor
  · have distinct := sequenced.nodup
    rw [waiting_eq, ← List.append_assoc, List.map_append, List.map_singleton] at distinct
    rw [sequenced.kept_append log rfl, supersedes, sequenced.order, waiting_eq, replaced,
      ← List.append_assoc, List.map_append, List.map_singleton, Option.toList_some,
      filter_new_append distinct, ← List.append_assoc]
    · simp only [List.map_append, List.map_cons, List.map_nil]
      rfl
    · intro number same
      rw [supersedes, Option.some.injEq] at same
      exact same ▸ own.lt
  · intro other within
    rw [entry]
    split
    · refine ⟨⟨_, by rw [log, List.getElem?_concat_length], rfl, rfl, conditions.unlimited.symm, rfl⟩,
        ?_⟩
      intro number acceptance found _
      have bound := (List.getElem?_eq_some_iff.mp found).1
      rw [log, List.length_append] at bound
      exact Nat.lt_succ_iff.mp bound
    · next different =>
      exact (sequenced.queued other within).grow log (others other within different)
  · intro departure gone
    refine (sequenced.departed departure gone).grow log fun same => ?_
    have once := departs.once (state.queue.entry identity).completion
    rw [represents.queued member] at once
    have left : 0 < state.departed (state.queue.entry identity).completion :=
      List.countP_pos_iff.mpr ⟨departure, gone, beq_iff_eq.mpr same.symm⟩
    have bound := Bool.toNat_le (state.admitted (state.queue.entry identity).completion)
    simp only [Option.isSome_some, Bool.toNat_true] at once
    omega
  · intro number acceptance found
    by_cases old : number < state.accepted.length
    · rw [log, List.getElem?_append_left old] at found
      exact (sequenced.merged number acceptance found).grow log old
    · have bound := (List.getElem?_eq_some_iff.mp found).1
      rw [log, List.length_append, List.length_singleton] at bound
      obtain rfl : number = state.accepted.length := by omega
      rw [log, List.getElem?_concat_length, Option.some.injEq] at found
      subst found
      obtain ⟨other, at_other, same_command, same_completion, same_deadline, _⟩ := own.accepted
      refine .joined _ other own.lt supersedes ?_ same_completion
        (same_deadline.trans conditions.unlimited) rfl ?_
      · rw [log, List.getElem?_append_left own.lt]
        exact at_other
      · rw [same_command]
        exact sameKey_eq_true.mpr conditions.key
  · have earlier_lt (number : Nat) (same : (state.acceptance command none size
        (state.queue.entry identity).completion).supersedes config = some number) :
        number < state.accepted.length := by
      rw [supersedes, Option.some.injEq] at same
      exact same ▸ own.lt
    refine sequenced.apart_append log rfl earlier_lt fun earlier same between later within => ?_
    rw [supersedes, Option.some.injEq] at same
    subst same
    have order := sequenced.increasing
    rw [sequenced.order, waiting_eq, ← List.append_assoc, List.map_append, List.map_singleton] at within
    rw [waiting_eq, ← List.append_assoc, List.map_append, List.map_singleton] at order
    rcases List.mem_append.mp within with before | last
    · have less := (List.pairwise_append.mp order).2.2 between before _ (List.mem_singleton_self _)
      omega
    · rw [List.mem_singleton.mp last] at later
      exact Nat.lt_irrefl _ later

theorem sendAsync (sequenced : state.Sequenced config) (represents : state.Represents config)
    (departs : state.Departs) {command : Command} {deadline : Option Nat} {thread : Nat}
    {sent : Sent Command} (sends : state.Sends config command deadline thread sent) :
    sent.state.Sequenced config := by
  cases sends with
  | refused => exact sequenced.carry rfl rfl (fun _ _ => rfl) rfl
  | unwatched size limit _ unrecorded =>
      rw [represents.abandon_eq unrecorded]
      refine sequenced.carry rfl rfl (fun identity member => ?_) rfl
      exact OutboundCommandQueue.entry_append rfl (represents.made identity member)
  | coalesced identity size _ conditions => exact sequenced.coalesce represents departs conditions
  | enqueued size _ _ kept =>
      refine sequenced.enqueue represents departs command deadline size _ ?_
      rw [Option.eq_none_iff_forall_ne_some]
      intro number supersedes
      obtain ⟨unlimited, identity, conditions⟩ := coalesces_of_supersedes represents supersedes
      exact kept unlimited identity conditions
  | watched size limit _ _ limited =>
      refine sequenced.enqueue represents departs command deadline size _ ?_
      rw [Option.eq_none_iff_forall_ne_some]
      intro number supersedes
      rw [limited] at supersedes
      have unlimited := (coalesces_of_supersedes represents supersedes).1
      contradiction

/-- Entries leave the queue. -/
theorem depart (sequenced : state.Sequenced config) {left : List (Departure Command)}
    (accepted : after.accepted = state.accepted)
    (departures : after.departures = state.departures ++ left)
    (entries : ∀ identity, after.queue.entry identity = state.queue.entry identity)
    (fewer : ∀ identity ∈ after.queue.queue, identity ∈ state.queue.queue)
    (carries : ∀ departure ∈ left, state.Carries departure.queued)
    (order : after.kept config = (after.handedOut ++ after.waiting).map (·.number)) :
    after.Sequenced config := by
  have keeps {queued : QueuedCommand Command} (before : state.Carries queued) :
      after.Carries queued := by
    obtain ⟨own, latest⟩ := before
    constructor <;> rw [accepted]
    · exact own
    · exact latest
  refine ⟨order, fun identity member => ?_, fun departure member => ?_, ?_, ?_⟩
  · rw [entries]
    exact keeps (sequenced.queued identity (fewer identity member))
  · rw [departures] at member
    rcases List.mem_append.mp member with old | new
    · exact keeps (sequenced.departed departure old)
    · exact keeps (carries departure new)
  · intro number acceptance found
    rw [accepted] at found
    cases sequenced.merged number acceptance found with
    | alone first apart => exact .alone first (by rwa [accepted])
    | joined earlier other before supersedes found =>
        rw [← accepted] at found
        exact .joined earlier other before supersedes found ‹_› ‹_› ‹_› ‹_›
  · intro number acceptance earlier found supersedes between later before within
    rw [accepted] at found
    refine sequenced.apart number acceptance earlier found supersedes between later before ?_
    simp only [kept, superseded, removed, accepted, departures, List.filter_append, List.map_append,
      List.mem_filter, List.contains_eq_mem, List.mem_append, Bool.and_eq_true, Bool.not_eq_true',
      decide_eq_false_iff_not, not_or] at within ⊢
    exact ⟨within.1, within.2.1, within.2.2.1⟩

theorem kept_remove (sequenced : state.Sequenced config) {left : List (Departure Command)}
    (accepted : after.accepted = state.accepted)
    (departures : after.departures = state.departures ++ left)
    (lost : ∀ departure ∈ left, departure.kind ≠ .received) :
    after.kept config = ((state.handedOut ++ state.waiting).map (·.number)).filter
      fun number => !(left.map (·.queued.number)).contains number := by
  have superseded : after.superseded config = state.superseded config := by
    simp only [CommandState.superseded, accepted]
  have all : left.filter (fun departure => departure.kind != .received) = left :=
    List.filter_eq_self.mpr fun departure member => by simpa using lost departure member
  have removed : after.removed = state.removed ++ left.map (·.queued.number) := by
    simp only [CommandState.removed, departures, List.filter_append, all, List.map_append]
  rw [← sequenced.order, kept, kept, accepted, superseded, removed, List.filter_filter]
  apply List.filter_congr
  intro number _
  simp only [List.contains_eq_mem, List.mem_append]
  by_cases old : number ∈ state.removed <;>
    by_cases new : number ∈ left.map (·.queued.number) <;> simp [old, new]

theorem receive (sequenced : state.Sequenced config) {submission : CommandSubmission Command}
    (received : state.receive = some (after, submission)) : after.Sequenced config := by
  obtain ⟨identity, rest, line, rfl, rfl⟩ := receive_eq_some received
  refine sequenced.depart rfl rfl (fun _ => rfl) (fun other member => ?_) ?_ ?_
  · rw [line]
    exact List.mem_cons_of_mem identity member
  · intro departure member
    rw [List.mem_singleton.mp member]
    exact sequenced.queued identity (by simp [line])
  · have handed : (state.departures ++ [(⟨.received, state.queue.entry identity⟩ : Departure Command)]).filter
        (fun departure => departure.kind == .received) =
        state.departures.filter (fun departure => departure.kind == .received) ++
          [⟨.received, state.queue.entry identity⟩] := by
      rw [List.filter_append]
      rfl
    have others : (state.departures ++ [(⟨.received, state.queue.entry identity⟩ : Departure Command)]).filter
        (fun departure => departure.kind != .received) =
        state.departures.filter (fun departure => departure.kind != .received) := by
      rw [List.filter_append]
      exact List.append_nil _
    have order := sequenced.order
    simp only [kept, superseded, removed, handedOut, waiting, line, handed, others, List.map_append,
      List.map_cons, List.map_nil, List.append_assoc] at order ⊢
    exact order

omit [Inhabited Command] in
theorem handedOut_append {left : List (Departure Command)}
    (departures : after.departures = state.departures ++ left)
    (lost : ∀ departure ∈ left, departure.kind ≠ .received) : after.handedOut = state.handedOut := by
  have none_new : left.filter (fun departure => departure.kind == .received) = [] :=
    List.filter_eq_nil_iff.mpr fun departure member => by simpa using lost departure member
  simp only [handedOut, departures, List.filter_append, none_new, List.append_nil]

/-- An entry leaves the queue without being handed out. -/
theorem withdraw (sequenced : state.Sequenced config) {identity : Nat}
    (member : identity ∈ state.queue.queue) {kind : DepartureKind} (lost : kind ≠ .received)
    (accepted : after.accepted = state.accepted)
    (departures : after.departures = state.departures ++ [⟨kind, state.queue.entry identity⟩])
    (entries : ∀ identity, after.queue.entry identity = state.queue.entry identity)
    (line : after.queue.queue = state.queue.queue.erase identity) : after.Sequenced config := by
  have unreceived : ∀ departure ∈ [(⟨kind, state.queue.entry identity⟩ : Departure Command)],
      departure.kind ≠ .received := by simpa using lost
  have remaining : after.waiting = (state.queue.queue.erase identity).map state.queue.entry := by
    rw [waiting, line]
    exact List.map_congr_left fun other _ => entries other
  have distinct := sequenced.nodup
  rw [List.map_append] at distinct
  obtain ⟨_, distinct_waiting, apart⟩ := List.nodup_append.mp distinct
  have erased := filter_ne_map (by rwa [waiting, List.map_map] at distinct_waiting) member
  have untouched : (state.handedOut.map (·.number)).filter
      (fun number => number != (state.queue.entry identity).number) =
      state.handedOut.map (·.number) := by
    apply List.filter_eq_self.mpr
    intro number within
    have different := apart number within (state.queue.entry identity).number
      (List.mem_map_of_mem (List.mem_map_of_mem member))
    simpa using different
  have single (number : Nat) : (!([(⟨kind, state.queue.entry identity⟩ : Departure Command)].map
      (·.queued.number)).contains number) = (number != (state.queue.entry identity).number) := by
    simp [bne, Bool.beq_eq_decide_eq]
  refine sequenced.depart accepted departures entries (fun other within => ?_)
    (fun departure within => ?_) ?_
  · rw [line] at within
    exact List.mem_of_mem_erase within
  · rw [List.mem_singleton.mp within]
    exact sequenced.queued identity member
  · rw [sequenced.kept_remove accepted departures unreceived, handedOut_append departures unreceived,
      remaining, funext single, List.map_append, List.filter_append, untouched, List.map_append]
    congr 1
    rw [waiting, List.map_map, List.map_map]
    exact erased

theorem commandFinished (sequenced : state.Sequenced config) (represents : state.Represents config)
    (completion : Nat) : (state.commandFinished completion).Sequenced config := by
  cases found : state.queue.queued completion with
  | none =>
      rw [commandFinished_absent found]
      exact sequenced.carry rfl rfl (fun _ _ => rfl) rfl
  | some identity =>
      rw [commandFinished_queued found]
      have member := ((represents.index completion identity).mp found).1
      have lost : DepartureKind.finished ≠ .received := by decide
      exact sequenced.withdraw member lost rfl rfl (fun _ => rfl) rfl

theorem discardQueue (sequenced : state.Sequenced config) :
    state.discardQueue.Sequenced config := by
  have unreceived : ∀ departure ∈ state.queue.queue.map
      (fun identity => (⟨.discarded, state.queue.entry identity⟩ : Departure Command)),
      departure.kind ≠ .received := by
    intro departure member
    obtain ⟨identity, _, rfl⟩ := List.mem_map.mp member
    simp
  have numbers : (state.queue.queue.map
      (fun identity => (⟨.discarded, state.queue.entry identity⟩ : Departure Command))).map
        (·.queued.number) = state.waiting.map (·.number) := by
    simp only [waiting, List.map_map]
    rfl
  refine sequenced.depart rfl rfl (fun _ => rfl) (fun _ member => absurd member List.not_mem_nil)
    (fun departure member => ?_) ?_
  · obtain ⟨identity, within, rfl⟩ := List.mem_map.mp member
    exact sequenced.queued identity within
  · have distinct := sequenced.nodup
    rw [List.map_append] at distinct
    have gone : state.discardQueue.kept config = _ := sequenced.kept_remove rfl rfl unreceived
    have handed : state.discardQueue.handedOut = state.handedOut := handedOut_append rfl unreceived
    rw [gone, handed, numbers, List.map_append, filter_new_append distinct, List.map_append]
    exact (List.append_nil _).symm

theorem moves (sequenced : state.Sequenced config) (represents : state.Represents config)
    {op : CommandOp} {calls : List CommandOp} (moves : state.Moves op after calls) :
    after.Sequenced config := by
  cases moves with
  | cancelLost | cancelDelegated | sendLost | sendExpired | finishLost | jammed | observed
  | drained | drainTimedOut => exact sequenced
  | cancelWon | sendStarted | finishWon | published | watcherEnds | watcherExpires
  | stopAccepting => exact sequenced.carry rfl rfl (fun _ _ => rfl) rfl
  | commandFinished completion => exact sequenced.commandFinished represents completion
  | discardQueue => exact sequenced.discardQueue

end Sequenced

end CommandState

end StreamDockSdk.Messaging
