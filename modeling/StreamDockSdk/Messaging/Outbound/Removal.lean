import StreamDockSdk.Messaging.Outbound.Representation

namespace StreamDockSdk.Messaging

open Automaton

variable {Command Key : Type} [Inhabited Command]
variable {state after : CommandState Command} {running later : CommandOp → Prop}
variable {config : OutboundConfig Command Key} {completion other : Nat}

namespace CommandState

omit [Inhabited Command] in
theorem future_of_set {future : CommandFuture}
    (changed : after.futures = state.futures.set completion future) :
    after.future other = if other = completion ∧ completion < state.futures.length then future
      else state.future other := by
  simp only [CommandState.future, changed, List.getElem?_set]
  by_cases same : completion = other
  · subst same
    by_cases made : completion < state.futures.length
    · simp [made]
    · simp [made]
  · simp [same, Ne.symm same]

omit [Inhabited Command] in
theorem future_of_append {deadline : Option Nat}
    (grown : after.futures = state.futures ++ [{ deadline := deadline }]) :
    after.future other =
      if other = state.futures.length then { deadline := deadline } else state.future other := by
  simp only [CommandState.future, grown, List.getElem?_append]
  by_cases old : other < state.futures.length
  · simp [old, Nat.ne_of_lt old]
  · by_cases same : other = state.futures.length
    · simp [same]
    · have beyond : 1 ≤ other - state.futures.length := by omega
      rw [if_neg old, if_neg same, List.getElem?_eq_none (by simpa using beyond),
        List.getElem?_eq_none (Nat.not_lt.mp old)]

theorem sends_length [BEq Key] {command : Command} {deadline : Option Nat} {thread : Nat}
    {sent : Sent Command} (sends : state.Sends config command deadline thread sent) :
    state.futures.length ≤ sent.state.futures.length := by
  cases sends with
  | refused | coalesced => exact Nat.le_refl _
  | unwatched | enqueued | watched =>
      show state.futures.length ≤ (state.futures ++ [_]).length
      simp

theorem moves_length {op : CommandOp} {calls : List CommandOp} (moves : state.Moves op after calls) :
    after.futures.length = state.futures.length := by
  cases moves with
  | cancelWon | finishWon | sendStarted | published => exact List.length_set
  | commandFinished target =>
      cases found : state.queue.queued target with
      | none => rw [commandFinished_absent found]
      | some identity => rw [commandFinished_queued found]
  | _ => rfl

/-- A completion that became terminal is on its way out of the queue. -/
structure Cleared (state : CommandState Command) (running : CommandOp → Prop) : Prop where
  recorded : ∀ completion outcome, (state.future completion).future = some outcome →
    (state.future completion).terminal = some outcome
  publishing : ∀ completion, (state.future completion).terminal.isSome = true →
    (state.future completion).future.isSome = true ∨ running (.publish completion)
  removing : ∀ completion, (state.future completion).future.isSome = true →
    (state.queue.queued completion).isSome = true → running (.commandFinished completion)
  finished : ∀ completion, running (.commandFinished completion) →
    (state.future completion).future.isSome = true
  left : ∀ departure ∈ state.departures, departure.kind = .finished →
    (state.future departure.queued.completion).future.isSome = true

namespace Cleared

omit [Inhabited Command] in
/-- Steps that neither decide a completion nor put one into the queue. -/
theorem carry (cleared : state.Cleared running)
    (futures : ∀ completion, (after.future completion).terminal = (state.future completion).terminal ∧
      (after.future completion).future = (state.future completion).future)
    (queued : ∀ completion, (after.queue.queued completion).isSome = true →
      (state.future completion).future.isSome = true →
      (state.queue.queued completion).isSome = true)
    (departures : ∀ departure ∈ after.departures, departure ∈ state.departures ∨
      departure.kind ≠ .finished)
    (publish : ∀ completion, running (.publish completion) → later (.publish completion))
    (finish : ∀ completion, running (.commandFinished completion) ↔
      later (.commandFinished completion)) :
    after.Cleared later := by
  constructor
  · intro completion outcome recorded
    rw [(futures completion).2] at recorded
    rw [(futures completion).1]
    exact cleared.recorded completion outcome recorded
  · intro completion terminal
    rw [(futures completion).1] at terminal
    rw [(futures completion).2]
    exact (cleared.publishing completion terminal).imp_right (publish completion)
  · intro completion done waiting
    rw [(futures completion).2] at done
    exact (finish completion).mp (cleared.removing completion done (queued completion waiting done))
  · intro completion called
    rw [(futures completion).2]
    exact cleared.finished completion ((finish completion).mpr called)
  · intro departure member kind
    rw [(futures _).2]
    rcases departures departure member with old | new
    · exact cleared.left departure old kind
    · exact absurd kind new

omit [Inhabited Command] in
/-- A call decides the completion and goes on to publish the outcome. -/
theorem decide (cleared : state.Cleared running) {future : CommandFuture}
    (changed : after.futures = state.futures.set completion future)
    (unpublished : future.future = (state.future completion).future)
    (undecided : (state.future completion).terminal = none)
    (queued : after.queue.queued = state.queue.queued)
    (departures : after.departures = state.departures)
    (publish : ∀ other, running (.publish other) ∨ other = completion → later (.publish other))
    (finish : ∀ completion, running (.commandFinished completion) ↔
      later (.commandFinished completion)) :
    after.Cleared later := by
  have same (other : Nat) : (after.future other).future = (state.future other).future := by
    rw [future_of_set changed]
    split
    · next own =>
      rw [own.1]
      exact unpublished
    · rfl
  have open_future : (state.future completion).future = none := by
    cases found : (state.future completion).future with
    | none => rfl
    | some outcome =>
        rw [cleared.recorded completion outcome found] at undecided
        contradiction
  constructor
  · intro other outcome recorded
    have before := recorded
    rw [same] at before
    rw [future_of_set changed, if_neg]
    · exact cleared.recorded other outcome before
    · rintro ⟨rfl, _⟩
      rw [open_future] at before
      contradiction
  · intro other terminal
    by_cases own : other = completion
    · exact .inr (publish other (.inr own))
    · rw [future_of_set changed, if_neg fun both => own both.1] at terminal
      rw [same]
      exact (cleared.publishing other terminal).imp_right fun called => publish other (.inl called)
  · intro other done waiting
    rw [same] at done
    rw [queued] at waiting
    exact (finish other).mp (cleared.removing other done waiting)
  · intro other called
    rw [same]
    exact cleared.finished other ((finish other).mpr called)
  · intro departure member kind
    rw [departures] at member
    rw [same]
    exact cleared.left departure member kind

theorem sendAsync [BEq Key] (cleared : state.Cleared running) (represents : state.Represents config)
    {command : Command} {deadline : Option Nat} {thread : Nat} {sent : Sent Command}
    (sends : state.Sends config command deadline thread sent) : sent.state.Cleared running := by
  have grow {after : CommandState Command} {limit : Option Nat}
      (grown : after.futures = state.futures ++ [{ deadline := limit }]) (other : Nat) :
      (after.future other).terminal = (state.future other).terminal ∧
        (after.future other).future = (state.future other).future := by
    rw [future_of_append grown]
    split
    · next fresh =>
      have blank : state.future other = {} := by
        simp [CommandState.future, fresh]
      rw [blank]
      exact ⟨rfl, rfl⟩
    · exact ⟨rfl, rfl⟩
  have enqueued (size : Nat) (watcher : Option Nat) :
      (state.enqueue command deadline size watcher).Cleared running := by
    refine cleared.carry (grow rfl) ?_ (fun departure member => .inl member)
      (fun _ called => called) (fun _ => Iff.rfl)
    intro other waiting done
    have index : (state.enqueue command deadline size watcher).queue.queued = Function.update
      state.queue.queued state.futures.length (some state.queue.entries.length) := rfl
    rw [index, Function.update_of_ne] at waiting
    · exact waiting
    · rintro rfl
      simp [CommandState.future] at done
  cases sends with
  | refused error closed oversized full =>
      exact cleared.carry (fun _ => ⟨rfl, rfl⟩) (fun _ waiting _ => waiting)
        (fun departure member => .inl member) (fun _ called => called) (fun _ => Iff.rfl)
  | unwatched size limit _ unrecorded =>
      rw [represents.abandon_eq unrecorded]
      exact cleared.carry (grow rfl) (fun _ waiting _ => waiting)
        (fun departure member => .inl member) (fun _ called => called) (fun _ => Iff.rfl)
  | coalesced identity size =>
      exact cleared.carry (fun _ => ⟨rfl, rfl⟩) (fun _ waiting _ => waiting)
        (fun departure member => .inl member) (fun _ called => called) (fun _ => Iff.rfl)
  | enqueued size => exact enqueued size _
  | watched size => exact enqueued size _

theorem receive (cleared : state.Cleared running) {submission : CommandSubmission Command}
    (received : state.receive = some (after, submission)) : after.Cleared running := by
  obtain ⟨identity, rest, line, rfl, rfl⟩ := receive_eq_some received
  refine cleared.carry (fun _ => ⟨rfl, rfl⟩) ?_ ?_ (fun _ called => called) (fun _ => Iff.rfl)
  · intro completion waiting _
    by_cases own : completion = (state.queue.entry identity).completion
    · simp [own] at waiting
    · simpa [Function.update_of_ne own] using waiting
  · intro departure member
    rcases List.mem_append.mp member with old | new
    · exact .inl old
    · rw [List.mem_singleton.mp new]
      exact .inr (by simp)

omit [Inhabited Command] in
theorem publish (cleared : state.Cleared running) {outcome : Outcome}
    (decided : (state.future completion).terminal = some outcome)
    (changed : after.futures =
      state.futures.set completion { state.future completion with future := some outcome })
    (queued : after.queue.queued = state.queue.queued)
    (departures : after.departures = state.departures)
    (follows : Follows (.publish completion) [.commandFinished completion] running later) :
    after.Cleared later := by
  have same (other : Nat) : (after.future other).terminal = (state.future other).terminal := by
    rw [future_of_set changed]
    split
    · next own => rw [own.1]
    · rfl
  have made : completion < state.futures.length := by
    by_contra unmade
    simp [CommandState.future, List.getElem?_eq_none (Nat.not_lt.mp unmade)] at decided
  constructor
  · intro other result recorded
    rw [same]
    rw [future_of_set changed] at recorded
    split at recorded
    · next own =>
      rw [own.1, decided]
      exact recorded
    · exact cleared.recorded other result recorded
  · intro other terminal
    rw [same] at terminal
    rw [future_of_set changed]
    split
    · exact .inl rfl
    · next different =>
      refine (cleared.publishing other terminal).imp_right fun called => ?_
      refine follows.stays _ called ?_
      simp only [ne_eq, CommandOp.publish.injEq]
      exact fun own => different ⟨own, made⟩
  · intro other done waiting
    by_cases own : other = completion
    · exact follows.made _ (by simp [own])
    · rw [future_of_set changed, if_neg fun both => own both.1] at done
      rw [queued] at waiting
      exact follows.stays _ (cleared.removing other done waiting) (by simp)
  · intro other called
    rw [future_of_set changed]
    split
    · rfl
    · next different =>
      rcases follows.came _ called with before | new
      · exact cleared.finished other before
      · simp only [List.mem_singleton, CommandOp.commandFinished.injEq] at new
        exact absurd ⟨new, made⟩ different
  · intro departure member kind
    rw [departures] at member
    rw [future_of_set changed]
    split
    · rfl
    · exact cleared.left departure member kind

theorem commandFinished (cleared : state.Cleared running) (represents : state.Represents config)
    (called : running (.commandFinished completion))
    (follows : Follows (.commandFinished completion) [.observe completion] running later) :
    (state.commandFinished completion).Cleared later := by
  have done := cleared.finished completion called
  have futures : (state.commandFinished completion).futures = state.futures := by
    cases found : state.queue.queued completion with
    | none => rw [commandFinished_absent found]
    | some identity => rw [commandFinished_queued found]
  have same (other : Nat) : (state.commandFinished completion).future other = state.future other := by
    simp only [CommandState.future, futures]
  have index : (state.commandFinished completion).queue.queued =
      Function.update state.queue.queued completion none := by
    cases found : state.queue.queued completion with
    | none =>
        rw [commandFinished_absent found, ← found]
        exact (Function.update_eq_self completion state.queue.queued).symm
    | some identity => rw [commandFinished_queued found]
  constructor
  · intro other
    rw [same]
    exact cleared.recorded other
  · intro other terminal
    rw [same] at terminal ⊢
    exact (cleared.publishing other terminal).imp_right fun called =>
      follows.stays _ called (by simp)
  · intro other done waiting
    rw [same] at done
    rw [index] at waiting
    by_cases own : other = completion
    · simp [own] at waiting
    · rw [Function.update_of_ne own] at waiting
      exact follows.stays _ (cleared.removing other done waiting) (by simpa using own)
  · intro other called
    rw [same]
    rcases follows.came _ called with before | new
    · exact cleared.finished other before
    · simp at new
  · intro departure member kind
    rw [same]
    cases found : state.queue.queued completion with
    | none =>
        rw [commandFinished_absent found] at member
        exact cleared.left departure member kind
    | some identity =>
        rw [commandFinished_queued found] at member
        rcases List.mem_append.mp member with old | new
        · exact cleared.left departure old kind
        · rw [List.mem_singleton.mp new, ((represents.index completion identity).mp found).2]
          exact done

theorem moves (cleared : state.Cleared running) (represents : state.Represents config)
    {op : CommandOp} {calls : List CommandOp} (called : running op)
    (moves : state.Moves op after calls) (follows : Follows op calls running later) :
    after.Cleared later := by
  have kept (publish : ∀ completion, op ≠ .publish completion) (completion : Nat)
      (waits : running (.publish completion)) : later (.publish completion) :=
    follows.stays _ waits (publish completion).symm
  have finish (other : ∀ completion, op ≠ .commandFinished completion)
      (unmade : ∀ completion, .commandFinished completion ∉ calls) (completion : Nat) :
      running (.commandFinished completion) ↔ later (.commandFinished completion) :=
    ⟨fun waits => follows.stays _ waits (other completion).symm,
      fun waits => (follows.came _ waits).resolve_right (unmade completion)⟩
  cases moves with
  | cancelLost | cancelDelegated | sendLost | sendExpired | finishLost | observed
  | watcherEnds | watcherExpires | stopAccepting | drained | drainTimedOut =>
      exact cleared.carry (fun _ => ⟨rfl, rfl⟩) (fun _ waiting _ => waiting)
        (fun departure member => .inl member) (kept (by simp)) (finish (by simp) (by simp))
  | sendStarted completion free =>
      refine cleared.carry (fun other => ?_) (fun _ waiting _ => waiting)
        (fun departure member => .inl member) (kept (by simp)) (finish (by simp) (by simp))
      rw [future_of_set rfl]
      split
      · next own =>
        rw [own.1]
        exact ⟨rfl, rfl⟩
      · exact ⟨rfl, rfl⟩
  | cancelWon completion free =>
      refine cleared.decide rfl rfl free rfl rfl ?_ (finish (by simp) (by simp))
      rintro other (waits | rfl)
      · exact kept (by simp) other waits
      · exact follows.made _ (by simp)
  | finishWon completion error free =>
      refine cleared.decide rfl rfl free rfl rfl ?_ (finish (by simp) (by simp))
      rintro other (waits | rfl)
      · exact kept (by simp) other waits
      · exact follows.made _ (by simp)
  | published completion outcome decided => exact cleared.publish decided rfl rfl rfl follows
  | jammed completion refused =>
      refine ⟨cleared.recorded, fun other terminal => ?_, fun other done waiting => ?_,
        fun other waits => ?_, cleared.left⟩
      · rcases cleared.publishing other terminal with done | waits
        · exact .inl done
        · by_cases own : other = completion
          · subst own
            refine refused.elim (fun undecided => ?_) .inl
            rw [undecided] at terminal
            contradiction
          · exact .inr (follows.stays _ waits (by simpa using own))
      · exact (finish (by simp) (by simp) other).mp (cleared.removing other done waiting)
      · exact cleared.finished other ((finish (by simp) (by simp) other).mpr waits)
  | commandFinished completion => exact cleared.commandFinished represents called follows
  | discardQueue =>
      refine cleared.carry (fun _ => ⟨rfl, rfl⟩) (fun other waiting _ => ?_)
        (fun departure member => ?_) (kept (by simp)) (finish (by simp) (by simp))
      · simp only [CommandState.discardQueue] at waiting
        split at waiting
        · contradiction
        · exact waiting
      · rcases List.mem_append.mp member with old | new
        · exact .inl old
        · obtain ⟨identity, _, rfl⟩ := List.mem_map.mp new
          exact .inr (by simp)

end Cleared

/-- How often an entry of the completion left the queue. -/
def departed (state : CommandState Command) (completion : Nat) : Nat :=
  state.departures.countP fun departure => departure.queued.completion == completion

/-- A submission was accepted with the completion. -/
def admitted (state : CommandState Command) (completion : Nat) : Bool :=
  state.accepted.any fun acceptance => acceptance.completion == completion

/-- The entry of every accepted command is queued or left the queue, once. -/
structure Departs (state : CommandState Command) : Prop where
  once : ∀ completion, state.departed completion + (state.queue.queued completion).isSome.toNat =
    (state.admitted completion).toNat
  known : ∀ acceptance ∈ state.accepted, acceptance.completion < state.futures.length

namespace Departs

omit [Inhabited Command] in
theorem admitted_of_queued (departs : state.Departs) {identity : Nat}
    (queued : state.queue.queued completion = some identity) : state.admitted completion = true := by
  have once := departs.once completion
  cases found : state.admitted completion with
  | true => rfl
  | false =>
      rw [queued, found] at once
      simp at once

omit [Inhabited Command] in
theorem carry (departs : state.Departs) (queued : after.queue.queued = state.queue.queued)
    (accepted : after.accepted = state.accepted) (departures : after.departures = state.departures)
    (grown : state.futures.length ≤ after.futures.length) : after.Departs := by
  constructor
  · intro completion
    simp only [departed, admitted, queued, accepted, departures]
    exact departs.once completion
  · intro acceptance member
    rw [accepted] at member
    exact Nat.lt_of_lt_of_le (departs.known acceptance member) grown

/-- An entry leaves the queue. -/
theorem depart (departs : state.Departs) (represents : state.Represents config)
    {kind : DepartureKind} {identity : Nat} (member : identity ∈ state.queue.queue)
    (queued : after.queue.queued =
      Function.update state.queue.queued (state.queue.entry identity).completion none)
    (accepted : after.accepted = state.accepted)
    (departures : after.departures = state.departures ++ [⟨kind, state.queue.entry identity⟩])
    (futures : after.futures = state.futures) : after.Departs := by
  constructor
  · intro completion
    have once := departs.once completion
    simp only [departed, admitted, accepted, departures, queued, List.countP_append,
      List.countP_singleton] at once ⊢
    by_cases own : completion = (state.queue.entry identity).completion
    · subst own
      rw [represents.queued member] at once
      simpa using once
    · rw [Function.update_of_ne own]
      simpa [Ne.symm own] using once
  · intro acceptance within
    rw [accepted] at within
    rw [futures]
    exact departs.known acceptance within

theorem enqueue (departs : state.Departs) (represents : state.Represents config)
    (command : Command) (deadline : Option Nat) (size : Nat) (thread : Option Nat) :
    (state.enqueue command deadline size thread).Departs := by
  have grown : (state.enqueue command deadline size thread).futures.length =
    state.futures.length + 1 := List.length_append
  constructor
  · intro completion
    have once := departs.once completion
    have index : (state.enqueue command deadline size thread).queue.queued = Function.update
      state.queue.queued state.futures.length (some state.queue.entries.length) := rfl
    have log : (state.enqueue command deadline size thread).admitted completion =
        (state.admitted completion || state.futures.length == completion) := by
      simp [admitted, CommandState.enqueue, CommandState.acceptance]
    rw [log, index]
    show state.departed completion + _ = _
    by_cases own : completion = state.futures.length
    · subst own
      have absent : state.admitted state.futures.length = false := by
        simp only [admitted, List.any_eq_false, beq_iff_eq]
        intro acceptance member
        exact Nat.ne_of_lt (departs.known acceptance member)
      rw [represents.unindexed (Nat.le_refl _), absent] at once
      simp only [Option.isSome_none, Bool.toNat_false, Nat.add_zero] at once
      simp [once]
    · rw [Function.update_of_ne own, once, beq_false_of_ne (Ne.symm own), Bool.or_false]
  · intro acceptance member
    rw [grown]
    rcases List.mem_append.mp member with old | new
    · exact Nat.lt_succ_of_lt (departs.known acceptance old)
    · rw [List.mem_singleton.mp new]
      exact Nat.lt_succ_self _

theorem coalesce [BEq Key] (departs : state.Departs) (represents : state.Represents config)
    {futures : List CommandFuture} {command : Command} {size identity : Nat}
    (conditions : state.queue.Coalesces config futures command size identity) :
    (state.coalesce identity command size).Departs := by
  have member : identity ∈ state.queue.queue := List.mem_of_getLast? conditions.last
  constructor
  · intro completion
    have once := departs.once completion
    have log : (state.coalesce identity command size).admitted completion =
        (state.admitted completion || (state.queue.entry identity).completion == completion) := by
      simp [admitted, CommandState.coalesce, CommandState.acceptance]
    rw [log]
    refine Eq.trans once ?_
    by_cases own : (state.queue.entry identity).completion = completion
    · subst own
      simp [departs.admitted_of_queued (represents.queued member)]
    · rw [beq_false_of_ne own, Bool.or_false]
  · intro acceptance within
    rcases List.mem_append.mp within with old | new
    · exact departs.known acceptance old
    · rw [List.mem_singleton.mp new]
      exact represents.known identity member

theorem sendAsync [BEq Key] (departs : state.Departs) (represents : state.Represents config)
    {command : Command} {deadline : Option Nat} {thread : Nat} {sent : Sent Command}
    (sends : state.Sends config command deadline thread sent) : sent.state.Departs := by
  cases sends with
  | refused => exact departs.carry rfl rfl rfl (Nat.le_refl _)
  | unwatched size limit _ unrecorded =>
      rw [represents.abandon_eq unrecorded]
      exact departs.carry rfl rfl rfl (by simp)
  | coalesced identity size _ conditions => exact departs.coalesce represents conditions
  | enqueued size => exact departs.enqueue represents command deadline size _
  | watched size => exact departs.enqueue represents command deadline size _

theorem receive (departs : state.Departs) (represents : state.Represents config)
    {submission : CommandSubmission Command} (received : state.receive = some (after, submission)) :
    after.Departs := by
  obtain ⟨identity, rest, line, rfl, rfl⟩ := receive_eq_some received
  have member : identity ∈ state.queue.queue := by simp [line]
  exact departs.depart represents member rfl rfl rfl rfl

theorem commandFinished (departs : state.Departs) (represents : state.Represents config)
    (completion : Nat) : (state.commandFinished completion).Departs := by
  cases found : state.queue.queued completion with
  | none =>
      rw [commandFinished_absent found]
      exact departs.carry rfl rfl rfl (Nat.le_refl _)
  | some identity =>
      rw [commandFinished_queued found]
      obtain ⟨member, same⟩ := (represents.index completion identity).mp found
      subst same
      exact departs.depart represents member rfl rfl rfl rfl

theorem discardQueue (departs : state.Departs) (represents : state.Represents config) :
    state.discardQueue.Departs := by
  constructor
  · intro completion
    have once := departs.once completion
    have log : state.discardQueue.departed completion = state.departed completion +
        state.queue.queue.countP
          fun identity => (state.queue.entry identity).completion == completion := by
      simp only [departed, CommandState.discardQueue, List.countP_append, List.countP_map]
      rfl
    have index : state.discardQueue.queue.queued completion =
        if completion ∈ state.completions then none else state.queue.queued completion := rfl
    show _ = (state.admitted completion).toNat
    rw [log, index, ← once]
    cases found : state.queue.queued completion with
    | none =>
        have nowhere : state.queue.queue.countP
            (fun identity => (state.queue.entry identity).completion == completion) = 0 := by
          rw [List.countP_eq_zero]
          intro identity member same
          rw [beq_iff_eq] at same
          rw [← same, represents.queued member] at found
          contradiction
        simp [nowhere]
    | some identity =>
        obtain ⟨member, same⟩ := (represents.index completion identity).mp found
        have here : completion ∈ state.completions := List.mem_map.mpr ⟨identity, member, same⟩
        have unique : state.queue.queue.countP
            (fun other => (state.queue.entry other).completion == completion) =
            state.queue.queue.count identity := by
          apply List.countP_congr
          intro other within
          simp only [beq_iff_eq]
          constructor
          · intro equal
            exact represents.completion_injective within member (equal.trans same.symm)
          · rintro rfl
            exact same
        rw [if_pos here, unique, represents.distinct.count, if_pos member]
        rfl
  · exact departs.known

theorem moves (departs : state.Departs) (represents : state.Represents config) {op : CommandOp}
    {calls : List CommandOp} (moves : state.Moves op after calls) : after.Departs := by
  cases moves with
  | cancelLost | cancelDelegated | sendLost | sendExpired | finishLost | jammed | observed
  | drained | drainTimedOut => exact departs
  | cancelWon | sendStarted | finishWon | published =>
      exact departs.carry rfl rfl rfl (Nat.le_of_eq List.length_set.symm)
  | commandFinished completion => exact departs.commandFinished represents completion
  | watcherEnds | watcherExpires | stopAccepting => exact departs.carry rfl rfl rfl (Nat.le_refl _)
  | discardQueue => exact departs.discardQueue represents

end Departs

end CommandState

end StreamDockSdk.Messaging
