import StreamDockSdk.Messaging.Outbound.Coalescing
import StreamDockSdk.Messaging.Outbound.Removal

namespace StreamDockSdk.Messaging

open Automaton

namespace CommandState

variable {Command Key : Type} [Inhabited Command]

/-- What one step of a larger system does to the queue and its completions, when it
may take the first step of the calls that satisfy `called`. -/
inductive Turns [BEq Key] (config : OutboundConfig Command Key) (called : CommandOp → Prop)
    (state : CommandState Command) : CommandState Command → Prop
  | keeps : Turns config called state state
  | ticks : Turns config called state { state with clock := state.clock + 1 }
  | sends (command : Command) (deadline : Option Nat) (thread : Nat) (sent : Sent Command) :
      state.Sends config command deadline thread sent → Turns config called state sent.state
  | receives (after : CommandState Command) (submission : CommandSubmission Command) :
      state.receive = some (after, submission) → Turns config called state after
  | moves (op : CommandOp) (after : CommandState Command) (calls : List CommandOp) : called op →
      state.Moves op after calls → Turns config called state after

/-- What holds of the queue and the logs of its submissions in every run. -/
structure Sound [BEq Key] (config : OutboundConfig Command Key) (state : CommandState Command) :
    Prop where
  represents : state.Represents config
  departs : state.Departs
  sequenced : state.Sequenced config

variable [BEq Key] {config : OutboundConfig Command Key} {state after : CommandState Command}
variable {called : CommandOp → Prop}

theorem Sound.turns (sound : state.Sound config) (turns : state.Turns config called after) :
    after.Sound config := by
  obtain ⟨represents, departs, sequenced⟩ := sound
  cases turns with
  | keeps => exact ⟨represents, departs, sequenced⟩
  | ticks =>
      exact ⟨{ represents with }, { departs with }, sequenced.carry rfl rfl (fun _ _ => rfl) rfl⟩
  | sends command deadline thread sent sends =>
      exact ⟨represents.sendAsync sends, departs.sendAsync represents sends,
        sequenced.sendAsync represents departs sends⟩
  | receives after submission received =>
      exact ⟨represents.receive received, departs.receive represents received,
        sequenced.receive received⟩
  | moves op after calls _ moves =>
      exact ⟨represents.moves moves, departs.moves represents moves,
        sequenced.moves represents moves⟩

omit [BEq Key] in
theorem handedOut_moves {op : CommandOp} {calls : List CommandOp}
    (moves : state.Moves op after calls) : after.handedOut = state.handedOut := by
  cases moves with
  | commandFinished completion =>
      cases found : state.queue.queued completion with
      | none => rw [commandFinished_absent found]; rfl
      | some identity =>
          rw [commandFinished_queued found]
          exact Sequenced.handedOut_append rfl (by simp)
  | discardQueue =>
      refine Sequenced.handedOut_append rfl fun departure member => ?_
      obtain ⟨identity, _, rfl⟩ := List.mem_map.mp member
      simp
  | _ => rfl

omit [BEq Key] in
theorem handedOut_receive {submission : CommandSubmission Command}
    (received : state.receive = some (after, submission)) : ∃ queued : QueuedCommand Command,
      after.handedOut = state.handedOut ++ [queued] ∧
        submission = ⟨queued.command, queued.completion⟩ := by
  obtain ⟨identity, rest, _, rfl, rfl⟩ := receive_eq_some received
  refine ⟨state.queue.entry identity, ?_, rfl⟩
  simp [handedOut, List.filter_append]

theorem handedOut_sends (sound : state.Sound config) {command : Command} {deadline : Option Nat}
    {thread : Nat} {sent : Sent Command} (sends : state.Sends config command deadline thread sent) :
    sent.state.handedOut = state.handedOut := by
  cases sends with
  | refused | coalesced | enqueued | watched => rfl
  | unwatched size limit _ unrecorded =>
      rw [sound.represents.abandon_eq unrecorded]
      rfl

/-- What was handed out stays so. -/
theorem Sound.handedOut_turns (sound : state.Sound config)
    (turns : state.Turns config called after) : state.handedOut <+: after.handedOut := by
  cases turns with
  | keeps | ticks => exact List.prefix_refl _
  | sends command deadline thread sent sends =>
      exact ⟨[], (List.append_nil _).trans (handedOut_sends sound sends).symm⟩
  | receives after submission received =>
      obtain ⟨queued, grown, _⟩ := handedOut_receive received
      rw [grown]
      exact List.prefix_append _ _
  | moves op after calls _ moves =>
      exact ⟨[], (List.append_nil _).trans (handedOut_moves moves).symm⟩

/-- The entries that were handed out have completions of their own. -/
theorem Sound.handedOut_nodup (sound : state.Sound config) :
    (state.handedOut.map (·.completion)).Nodup := by
  rw [List.nodup_iff_count]
  intro completion
  have once := sound.departs.once completion
  have bound : (state.handedOut.map (·.completion)).count completion ≤ state.departed completion := by
    rw [departed, List.count, List.countP_map, handedOut, List.countP_map]
    exact List.Sublist.countP_le List.filter_sublist
  have limit : (state.admitted completion).toNat ≤ 1 := Bool.toNat_le _
  omega

theorem Sound.handedOut_carries (sound : state.Sound config) {queued : QueuedCommand Command}
    (member : queued ∈ state.handedOut) : state.Carries queued := by
  obtain ⟨departure, within, rfl⟩ := List.mem_map.mp member
  exact sound.sequenced.departed departure (List.mem_of_mem_filter within)

theorem Sound.handedOut_known (sound : state.Sound config) {queued : QueuedCommand Command}
    (member : queued ∈ state.handedOut) : queued.completion < state.futures.length := by
  obtain ⟨acceptance, found, _, same, _⟩ := (sound.handedOut_carries member).accepted
  rw [← same]
  exact sound.departs.known acceptance (List.mem_of_getElem? found)

theorem Sound.handedOut_increasing (sound : state.Sound config) :
    (state.handedOut.map (·.number)).Pairwise (· < ·) := by
  have increasing := sound.sequenced.increasing
  rw [List.map_append] at increasing
  exact (List.pairwise_append.mp increasing).1

/-- The states of a completion before and after a step. -/
structure Advances (before after : CommandFuture) : Prop where
  terminal : ∀ outcome, before.terminal = some outcome → after.terminal = some outcome
  future : ∀ outcome, before.future = some outcome → after.future = some outcome
  sending : before.sending = true → after.sending = true
  unsent : before.terminal.isSome = true → before.sending = false → after.sending = false
  delegate : before.delegate = none → after.delegate = none

omit [Inhabited Command] [BEq Key] in
theorem Advances.refl (future : CommandFuture) : Advances future future :=
  ⟨fun _ => id, fun _ => id, id, fun _ => id, id⟩

/-- Completions that a submission does not make stay as they are. -/
theorem sends_future (sound : state.Sound config) {command : Command} {deadline : Option Nat}
    {thread : Nat} {sent : Sent Command} (sends : state.Sends config command deadline thread sent)
    (completion : Nat) : sent.state.future completion = state.future completion ∨
      ∃ limit, sent.state.future completion = { deadline := limit } ∧
        state.future completion = {} ∧ state.futures.length ≤ completion := by
  have grown {next : CommandState Command} {limit : Option Nat}
      (appended : next.futures = state.futures ++ [{ deadline := limit }]) :
      next.future completion = state.future completion ∨
        ∃ limit, next.future completion = { deadline := limit } ∧ state.future completion = {} ∧
          state.futures.length ≤ completion := by
    by_cases fresh : completion = state.futures.length
    · refine .inr ⟨limit, by rw [future_of_append appended, if_pos fresh], ?_, by omega⟩
      simp [CommandState.future, fresh]
    · exact .inl (by rw [future_of_append appended, if_neg fresh])
  cases sends with
  | refused | coalesced => exact .inl rfl
  | unwatched size limit _ unrecorded =>
      rw [sound.represents.abandon_eq unrecorded]
      exact grown rfl
  | enqueued | watched => exact grown rfl

omit [BEq Key] in
theorem moves_advances {op : CommandOp} {calls : List CommandOp}
    (moves : state.Moves op after calls) (completion : Nat) :
    Advances (state.future completion) (after.future completion) := by
  have changed {next : CommandState Command} {target : Nat} {future : CommandFuture}
      (set : next.futures = state.futures.set target future)
      (kept : Advances (state.future target) future) :
      Advances (state.future completion) (next.future completion) := by
    rw [future_of_set set]
    split
    · next own => exact own.1 ▸ kept
    · exact .refl _
  cases moves with
  | cancelWon target undecided =>
      exact changed rfl ⟨by simp [undecided], fun _ => id, id, fun _ => id, id⟩
  | finishWon target _ undecided =>
      exact changed rfl ⟨by simp [undecided], fun _ => id, id, fun _ => id, fun _ => rfl⟩
  | sendStarted target undecided =>
      exact changed rfl ⟨fun _ => id, fun _ => id, fun _ => rfl, by simp [undecided], id⟩
  | published target outcome _ unpublished =>
      exact changed rfl ⟨fun _ => id, by simp [unpublished], id, fun _ => id, id⟩
  | commandFinished target =>
      have futures : (state.commandFinished target).futures = state.futures := by
        cases found : state.queue.queued target with
        | none => rw [commandFinished_absent found]
        | some identity => rw [commandFinished_queued found]
      simp only [CommandState.future, futures]
      exact .refl _
  | _ => exact .refl _

theorem Sound.advances (sound : state.Sound config) (turns : state.Turns config called after)
    (completion : Nat) : Advances (state.future completion) (after.future completion) := by
  cases turns with
  | keeps | ticks => exact .refl _
  | receives after submission received =>
      obtain ⟨_, _, _, _, rfl⟩ := receive_eq_some received
      exact .refl _
  | sends command deadline thread sent sends =>
      rcases sends_future sound sends completion with same | ⟨limit, made, blank, _⟩
      · exact same ▸ .refl _
      · rw [made, blank]
        exact ⟨by simp, by simp, by simp, by simp, fun _ => rfl⟩
  | moves op after calls _ moves => exact moves_advances moves completion

theorem Turns.length (turns : state.Turns config called after) :
    state.futures.length ≤ after.futures.length := by
  cases turns with
  | keeps | ticks => exact Nat.le_refl _
  | receives after submission received =>
      obtain ⟨_, _, _, _, rfl⟩ := receive_eq_some received
      exact Nat.le_refl _
  | sends command deadline thread sent sends => exact sends_length sends
  | moves op after calls _ moves => exact Nat.le_of_eq (moves_length moves).symm

omit [Inhabited Command] in
omit [BEq Key] in
theorem known_of_decided {completion : Nat} {outcome : Outcome}
    (decided : (state.future completion).terminal = some outcome) :
    completion < state.futures.length := by
  by_contra unmade
  simp [CommandState.future, List.getElem?_eq_none (Nat.not_lt.mp unmade)] at decided

/-- The calls that decide a completion. -/
inductive Decides (state : CommandState Command) (completion : Nat) (op : CommandOp)
    (outcome : Outcome) : Prop
  | cancel : op = .cancel completion → outcome = some .cancelled → Decides state completion op outcome
  | finish (error : Outcome) : op = .finish completion error →
      outcome = (state.future completion).recorded state.clock error →
      Decides state completion op outcome

omit [BEq Key] in
theorem moves_decides {op : CommandOp} {calls : List CommandOp} {completion : Nat}
    {outcome : Outcome} (moves : state.Moves op after calls)
    (decided : (after.future completion).terminal = some outcome) :
    (state.future completion).terminal = some outcome ∨ state.Decides completion op outcome := by
  have changed {next : CommandState Command} {target : Nat} {future : CommandFuture}
      (set : next.futures = state.futures.set target future)
      (decided : (next.future completion).terminal = some outcome) :
      (state.future completion).terminal = some outcome ∨
        (completion = target ∧ future.terminal = some outcome) := by
    rw [future_of_set set] at decided
    split at decided
    · next own => exact .inr ⟨own.1, decided⟩
    · exact .inl decided
  cases moves with
  | cancelWon target =>
      rcases changed rfl decided with before | ⟨rfl, same⟩
      · exact .inl before
      · exact .inr (.cancel rfl (by simpa using same.symm))
  | finishWon target error =>
      rcases changed rfl decided with before | ⟨rfl, same⟩
      · exact .inl before
      · exact .inr (.finish error rfl (by simpa using same.symm))
  | sendStarted target =>
      rcases changed rfl decided with before | ⟨rfl, same⟩
      · exact .inl before
      · exact .inl same
  | published target =>
      rcases changed rfl decided with before | ⟨rfl, same⟩
      · exact .inl before
      · exact .inl same
  | commandFinished target =>
      have futures : (state.commandFinished target).futures = state.futures := by
        cases found : state.queue.queued target with
        | none => rw [commandFinished_absent found]
        | some identity => rw [commandFinished_queued found]
      simp only [CommandState.future, futures] at decided
      exact .inl decided
  | _ => exact .inl decided

/-- What a step decides was decided before, or a call decides it now. -/
theorem Sound.decides (sound : state.Sound config) (turns : state.Turns config called after)
    {completion : Nat} {outcome : Outcome}
    (decided : (after.future completion).terminal = some outcome) :
    (state.future completion).terminal = some outcome ∨
      ∃ op calls, called op ∧ state.Moves op after calls ∧ state.Decides completion op outcome := by
  cases turns with
  | keeps | ticks => exact .inl decided
  | receives after submission received =>
      obtain ⟨_, _, _, _, rfl⟩ := receive_eq_some received
      exact .inl decided
  | sends command deadline thread sent sends =>
      rcases sends_future sound sends completion with same | ⟨limit, made, _⟩
      · exact .inl (same ▸ decided)
      · rw [made] at decided
        contradiction
  | moves op after calls calling moves =>
      exact (moves_decides moves decided).imp_right fun decides => ⟨op, calls, calling, moves, decides⟩

omit [BEq Key] in
theorem moves_publishes {op : CommandOp} {calls : List CommandOp} {completion : Nat}
    {outcome : Outcome} (moves : state.Moves op after calls)
    (published : (after.future completion).future = some outcome) :
    (state.future completion).future = some outcome ∨
      (state.future completion).terminal = some outcome := by
  have changed {next : CommandState Command} {target : Nat} {future : CommandFuture}
      (set : next.futures = state.futures.set target future)
      (published : (next.future completion).future = some outcome) :
      (state.future completion).future = some outcome ∨
        (completion = target ∧ future.future = some outcome) := by
    rw [future_of_set set] at published
    split at published
    · next own => exact .inr ⟨own.1, published⟩
    · exact .inl published
  cases moves with
  | cancelWon target | finishWon target | sendStarted target =>
      rcases changed rfl published with before | ⟨rfl, same⟩
      · exact .inl before
      · exact .inl same
  | published target recorded decided =>
      rcases changed rfl published with before | ⟨rfl, same⟩
      · exact .inl before
      · exact .inr (decided.trans same)
  | commandFinished target =>
      have futures : (state.commandFinished target).futures = state.futures := by
        cases found : state.queue.queued target with
        | none => rw [commandFinished_absent found]
        | some identity => rw [commandFinished_queued found]
      simp only [CommandState.future, futures] at published
      exact .inl published
  | _ => exact .inl published

theorem Sound.publishes (sound : state.Sound config) (turns : state.Turns config called after)
    {completion : Nat} {outcome : Outcome}
    (published : (after.future completion).future = some outcome) :
    (state.future completion).future = some outcome ∨
      (state.future completion).terminal = some outcome := by
  cases turns with
  | keeps | ticks => exact .inl published
  | receives after submission received =>
      obtain ⟨_, _, _, _, rfl⟩ := receive_eq_some received
      exact .inl published
  | sends command deadline thread sent sends =>
      rcases sends_future sound sends completion with same | ⟨limit, made, _⟩
      · exact .inl (same ▸ published)
      · rw [made] at published
        contradiction
  | moves op after calls _ moves => exact moves_publishes moves published

omit [BEq Key] in
/-- Only `cancel` adds to the log of the cancelled commands. -/
theorem moves_cancels {op : CommandOp} {calls : List CommandOp} {completion : Nat}
    (moves : state.Moves op after calls) (cancelled : completion ∈ after.cancelled) :
    completion ∈ state.cancelled ∨ (op = .cancel completion ∧
      (completion < state.futures.length →
        (after.future completion).terminal = some (some .cancelled) ∧
          (after.future completion).sending = false)) := by
  cases moves with
  | cancelWon target _ unsent =>
      rcases List.mem_cons.mp cancelled with rfl | before
      · refine .inr ⟨rfl, fun made => ?_⟩
        rw [future_of_set rfl, if_pos ⟨rfl, made⟩]
        exact ⟨rfl, unsent⟩
      · exact .inl before
  | commandFinished target =>
      cases found : state.queue.queued target with
      | none =>
          rw [commandFinished_absent found] at cancelled
          exact .inl cancelled
      | some identity =>
          rw [commandFinished_queued found] at cancelled
          exact .inl cancelled
  | _ => exact .inl cancelled

theorem Sound.cancels (sound : state.Sound config) (turns : state.Turns config called after)
    {completion : Nat} (cancelled : completion ∈ after.cancelled) :
    completion ∈ state.cancelled ∨ called (.cancel completion) ∧
      (completion < state.futures.length →
        (after.future completion).terminal = some (some .cancelled) ∧
          (after.future completion).sending = false) := by
  cases turns with
  | keeps | ticks => exact .inl cancelled
  | receives after submission received =>
      obtain ⟨_, _, _, _, rfl⟩ := receive_eq_some received
      exact .inl cancelled
  | sends command deadline thread sent sends =>
      cases sends with
      | refused | coalesced | enqueued | watched => exact .inl cancelled
      | unwatched size limit _ unrecorded =>
          rw [sound.represents.abandon_eq unrecorded] at cancelled
          exact .inl cancelled
  | moves op after calls calling moves =>
      rcases moves_cancels moves cancelled with before | ⟨rfl, decided⟩
      · exact .inl before
      · exact .inr ⟨calling, decided⟩

omit [BEq Key] in
/-- The call that decides a completion goes on to publish the outcome. -/
theorem moves_publish {op : CommandOp} {calls : List CommandOp} {completion : Nat}
    (moves : state.Moves op after calls) (undecided : (state.future completion).terminal = none)
    (decided : (after.future completion).terminal.isSome = true) : .publish completion ∈ calls := by
  obtain ⟨outcome, recorded⟩ := Option.isSome_iff_exists.mp decided
  have decides := (moves_decides moves recorded).resolve_left (by simp [undecided])
  cases decides with
  | cancel same =>
      subst same
      cases moves with
      | cancelWon => exact List.mem_singleton.mpr rfl
      | cancelLost | cancelDelegated =>
          rw [undecided] at recorded
          contradiction
  | finish error same =>
      subst same
      cases moves with
      | finishWon => exact List.mem_singleton.mpr rfl
      | finishLost =>
          rw [undecided] at recorded
          contradiction

theorem Sound.departed_known (sound : state.Sound config) {departure : Departure Command}
    (member : departure ∈ state.departures) :
    departure.queued.completion < state.futures.length := by
  obtain ⟨acceptance, found, _, same, _⟩ := (sound.sequenced.departed departure member).accepted
  rw [← same]
  exact sound.departs.known acceptance (List.mem_of_getElem? found)

/-- An accepted command is queued, or its entry left the queue. -/
theorem Sound.queued_or_departed (sound : state.Sound config) {acceptance : Acceptance Command}
    (member : acceptance ∈ state.accepted) :
    (state.queue.queued acceptance.completion).isSome = true ∨
      ∃ departure ∈ state.departures, departure.queued.completion = acceptance.completion := by
  have once := sound.departs.once acceptance.completion
  have admitted : state.admitted acceptance.completion = true :=
    List.any_eq_true.mpr ⟨acceptance, member, beq_self_eq_true _⟩
  rw [admitted] at once
  cases queued : (state.queue.queued acceptance.completion).isSome with
  | true => exact .inl rfl
  | false =>
      rw [queued] at once
      have left : 0 < state.departed acceptance.completion := by
        simp only [Bool.toNat_false, Bool.toNat_true] at once
        omega
      obtain ⟨departure, within, same⟩ := List.countP_pos_iff.mp left
      exact .inr ⟨departure, within, by simpa using same⟩

end CommandState

end StreamDockSdk.Messaging
