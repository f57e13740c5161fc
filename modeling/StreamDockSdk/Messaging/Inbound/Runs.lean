import Mathlib.Algebra.Ring.Int.Defs
import StreamDockSdk.Automaton.History
import StreamDockSdk.Messaging.Inbound.Accounting

namespace StreamDockSdk.Messaging

open Automaton

namespace InboundEvent

def submitted? : InboundEvent → Option Submission
  | .submitted submission => some submission
  | _ => none

/-- The submission that the event accepts. -/
def accepted? : InboundEvent → Option Submission
  | .enqueued submission _ | .coalesced submission _ => some submission
  | _ => none

def decided? : InboundEvent → Option Submission
  | .enqueued submission _ | .coalesced submission _ | .refused submission => some submission
  | _ => none

/-- The submission that the event adds to the entry. -/
def joined? (ref : Nat) : InboundEvent → Option Submission
  | .enqueued submission entry | .coalesced submission entry =>
      if entry = ref then some submission else none
  | _ => none

/-- The entry that the event takes from the queue. -/
def removed? : InboundEvent → Option Nat
  | .evicted ref _ | .received ref _ | .discarded ref => some ref
  | _ => none

end InboundEvent

variable (history : List InboundEvent)

def submissions : List Submission := history.filterMap InboundEvent.submitted?
def accepted : List Submission := history.filterMap InboundEvent.accepted?
def decided : List Submission := history.filterMap InboundEvent.decided?
def removed : List Nat := history.filterMap InboundEvent.removed?

/-- The run of an entry, newest first. -/
def run (ref : Nat) : List Submission := history.filterMap (InboundEvent.joined? ref)

/-- The submission belongs to the context, or to none. -/
def relevant (context : Option Str) (submission : Submission) : Bool :=
  coalescingContext? submission.event = none ∨ coalescingContext? submission.event = context

/-- All submissions of a context and all those without one, newest first. -/
def lane (context : Option Str) : List Submission :=
  (submissions history).filter (relevant context)

/-- An entry without a coalescing context was queued after the entry. -/
def BarrierBehind (ref : Nat) : Prop :=
  ∃ mine barrier other, coalescingContext? barrier.event = none ∧
    Precedes history (.enqueued mine ref) (.enqueued barrier other)

variable {history}

def SameDial (first second : DialRotateEvent) : Prop :=
  first.action = second.action ∧ first.device = second.device ∧
    first.coordinates = second.coordinates ∧ first.pressed = second.pressed ∧
    first.controller = second.controller

/-- The event stands for the run: for its only submission, or for rotations of
one dial, with the fields of the last one and the ticks of them all. -/
def Represents (run : List Submission) (event : StreamDockEvent) : Prop :=
  (∃ submission, run = [submission] ∧ event = submission.event) ∨
  ∃ last earlier, run.map (·.event) = (last :: earlier).map .dialRotate ∧
    (∀ rotation ∈ earlier, SameDial rotation last) ∧
    event = .dialRotate { last with ticks := ((last :: earlier).map (·.ticks)).sum }

theorem sameRotation_sound {first second : DialRotateEvent}
    (same : sameRotation first second = true) : SameDial first second := by
  simp only [sameRotation, Bool.and_eq_true, beq_iff_eq] at same
  obtain ⟨⟨⟨⟨action, device⟩, coordinates⟩, pressed⟩, controller⟩ := same
  exact ⟨action, device, coordinates, pressed, controller⟩

theorem SameDial.trans {first second third : DialRotateEvent} (left : SameDial first second)
    (right : SameDial second third) : SameDial first third :=
  ⟨left.1.trans right.1, left.2.1.trans right.2.1, left.2.2.1.trans right.2.2.1,
    left.2.2.2.1.trans right.2.2.2.1, left.2.2.2.2.trans right.2.2.2.2⟩

theorem Represents.merge {run : List Submission} {submission : Submission}
    {previous rotation : DialRotateEvent} (stands : Represents run (.dialRotate previous))
    (event : submission.event = .dialRotate rotation) (same : SameDial previous rotation) :
    Represents (submission :: run)
      (.dialRotate { rotation with ticks := previous.ticks + rotation.ticks }) := by
  rcases stands with ⟨only, rfl, held⟩ | ⟨last, earlier, events, agree, held⟩
  · refine .inr ⟨rotation, [previous], ?_, ?_, ?_⟩
    · simp [event, ← held]
    · intro other member
      rw [List.mem_singleton.mp member]
      exact same
    · simp [Int.add_comm]
  · simp only [StreamDockEvent.dialRotate.injEq] at held
    subst held
    refine .inr ⟨rotation, last :: earlier, ?_, ?_, ?_⟩
    · simpa [event] using events
    · have newest : SameDial last rotation := same
      intro other member
      rcases List.mem_cons.mp member with rfl | member
      · exact newest
      · exact (agree other member).trans newest
    · simp only [List.map_cons, List.sum_cons]
      rw [Int.add_comm]

theorem Represents.isDialRotate {run : List Submission} {event : StreamDockEvent}
    {submission : Submission} (stands : Represents run event) (member : submission ∈ run) :
    event.isDialRotate = submission.event.isDialRotate := by
  rcases stands with ⟨only, rfl, held⟩ | ⟨last, earlier, events, _, held⟩
  · rw [List.mem_singleton.mp member, held]
  · have listed : submission.event ∈ (last :: earlier).map StreamDockEvent.dialRotate := by
      rw [← events]
      exact List.mem_map_of_mem member
    obtain ⟨rotation, _, same⟩ := List.mem_map.mp listed
    rw [held, ← same]
    rfl

/-- Every counted call is decided once or is still undecided. -/
structure Ledger (history : List InboundEvent) (undecided : List Submission) : Prop where
  descending : (submissions history).Pairwise fun newer older => older.number < newer.number
  decisions : (decided history ++ undecided).Perm (submissions history)

theorem Ledger.undecided_mem {undecided : List Submission} {submission : Submission}
    (ledger : Ledger history undecided) (member : submission ∈ undecided) :
    submission ∈ submissions history :=
  ledger.decisions.subset (List.mem_append_right _ member)

theorem Ledger.perm {undecided reordered : List Submission} (ledger : Ledger history undecided)
    (same : reordered.Perm undecided) : Ledger history reordered :=
  ⟨ledger.descending, (same.append_left _).trans ledger.decisions⟩

theorem Ledger.decide {undecided : List Submission} {submission : Submission}
    {event : InboundEvent} (ledger : Ledger history (submission :: undecided))
    (decides : event.decided? = some submission) (quiet : event.submitted? = none) :
    Ledger (event :: history) undecided := by
  have same : submissions (event :: history) = submissions history := by
    simp [submissions, quiet]
  constructor
  · rw [same]
    exact ledger.descending
  · rw [same]
    refine List.Perm.trans ?_ ledger.decisions
    simpa [decided, decides] using List.perm_middle.symm

theorem Ledger.quiet {undecided : List Submission} (events : List InboundEvent)
    (ledger : Ledger history undecided)
    (quiet : ∀ event ∈ events, event.submitted? = none ∧ event.decided? = none) :
    Ledger (events ++ history) undecided := by
  have no_submission : events.filterMap InboundEvent.submitted? = [] :=
    List.filterMap_eq_nil_iff.mpr fun event member => (quiet event member).1
  have no_decision : events.filterMap InboundEvent.decided? = [] :=
    List.filterMap_eq_nil_iff.mpr fun event member => (quiet event member).2
  obtain ⟨descending, decisions⟩ := ledger
  constructor
  · simpa [submissions, no_submission] using descending
  · simpa [submissions, decided, no_submission, no_decision] using decisions

theorem Ledger.submit {undecided : List Submission} {submission : Submission}
    (ledger : Ledger history undecided)
    (newest : ∀ other ∈ submissions history, other.number < submission.number) :
    Ledger (.submitted submission :: history) (submission :: undecided) := by
  constructor
  · exact List.pairwise_cons.mpr ⟨newest, ledger.descending⟩
  · refine List.perm_middle.trans ?_
    exact ledger.decisions.cons submission

theorem Ledger.submissions_nodup {undecided : List Submission}
    (ledger : Ledger history undecided) : (submissions history).Nodup := by
  refine ledger.descending.imp ?_
  rintro newer older less rfl
  exact Nat.lt_irrefl _ less

theorem filterMap_injective {Event Value : Type} {look : Event → Option Value}
    {events : List Event} {first second : Event} {value : Value}
    (distinct : (events.filterMap look).Nodup) (first_mem : first ∈ events)
    (second_mem : second ∈ events) (first_look : look first = some value)
    (second_look : look second = some value) : first = second := by
  induction events with
  | nil => contradiction
  | cons head rest ih =>
      have seen : ∀ event ∈ rest, look event = some value → value ∈ rest.filterMap look :=
        fun event member here => List.mem_filterMap.mpr ⟨event, member, here⟩
      rcases List.mem_cons.mp first_mem with rfl | first_later <;>
        rcases List.mem_cons.mp second_mem with rfl | second_later
      · rfl
      · rw [List.filterMap_cons_some first_look] at distinct
        exact absurd (seen second second_later second_look) (List.nodup_cons.mp distinct).1
      · rw [List.filterMap_cons_some second_look] at distinct
        exact absurd (seen first first_later first_look) (List.nodup_cons.mp distinct).1
      · refine ih (distinct.sublist ?_) first_later second_later
        cases here : look head with
        | none => rw [List.filterMap_cons_none here]
        | some other =>
            rw [List.filterMap_cons_some here]
            exact List.sublist_cons_self _ _

end StreamDockSdk.Messaging
