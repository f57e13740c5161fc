import StreamDockSdk.Boundary.Pipeline.Sends

namespace StreamDockSdk.Boundary

open Automaton Messaging Transport

variable {Command Key Payload : Type} [Inhabited Command]

/-- No observer raises a `BaseException`. -/
def PipelineLabel.spares : PipelineLabel Command → Bool
  | .run _ .raises => false
  | _ => true

/-- The completion of the command that the worker still has to register or to fail. -/
def holds : WriterPoint Command Payload → Option Nat
  | .received submission | .beginning submission => some submission.completion
  | .failing completion | .crashed completion => some completion
  | .encoded frame | .registering frame => some frame.completion
  | _ => none

namespace PipelineOp

/-- The call is one on the completions or the command queue. -/
def command? : PipelineOp → Option CommandOp
  | .command op => some op
  | _ => none

end PipelineOp

namespace PipelineState

variable {config : PipelineConfig Command Key Payload}
variable {state after : PipelineState Command Payload} {gone pushed : List PipelineOp}
variable {op : PipelineOp} {completion : Nat}

omit [Inhabited Command] in
theorem receiptCallbacks_command {error : Outcome}
    (made : op ∈ state.receiptCallbacks completion error) : op.command? = none := by
  unfold receiptCallbacks at made
  grind [PipelineOp.command?]

theorem disconnectOps_command (made : op ∈ disconnectOps) : op.command? = none := by
  revert op
  decide

/-- What the completions record was decided before. -/
structure Records (state : PipelineState Command Payload) (running : PipelineOp → Prop) : Prop where
  recorded : ∀ completion outcome, (state.commands.future completion).future = some outcome →
    (state.commands.future completion).terminal = some outcome
  finished : ∀ completion, running (.command (.commandFinished completion)) →
    (state.commands.future completion).terminal.isSome = true

/-- The outcomes that were decided are published by the thread that decided. -/
def Settles (state : PipelineState Command Payload) (running : PipelineOp → Prop) : Prop :=
  ∀ completion, (state.commands.future completion).terminal.isSome = true →
    (state.commands.future completion).future.isSome = true ∨
      running (.command (.publish completion))

theorem WriterMoves.unannounced (moves : state.WriterMoves config after pushed) :
    .command (.commandFinished completion) ∉ pushed := by
  intro made
  cases moves with
  | rejects =>
      have impossible := receiptCallbacks_command made
      contradiction
  | _ => grind

omit [Inhabited Command] in
theorem SenderMoves.unannounced (moves : state.SenderMoves after pushed) :
    .command (.commandFinished completion) ∉ pushed := by
  intro made
  cases moves with
  | aborts =>
      have impossible := disconnectOps_command made
      contradiction
  | _ => grind

theorem OpMoves.announced {choice : Choice} (moves : state.OpMoves choice op after pushed)
    (made : .command (.commandFinished completion) ∈ pushed) :
    (state.commands.future completion).terminal.isSome = true := by
  cases moves with
  | command call commands calls _ moves =>
      obtain ⟨issued, member, same⟩ := List.mem_map.mp made
      cases same
      cases moves with
      | published target outcome decided =>
          cases List.mem_singleton.mp member
          rw [decided]
          rfl
      | discardQueue =>
          obtain ⟨_, _, impossible⟩ := List.mem_map.mp member
          contradiction
      | _ => simp at member
  | finishes =>
      have impossible := receiptCallbacks_command made
      contradiction
  | rejects =>
      rcases List.mem_append.mp made with callback | last
      · have impossible := receiptCallbacks_command callback
        contradiction
      · simp at last
  | _ => grind

variable [BEq Key] {label : PipelineLabel Command} {running later : PipelineOp → Prop}

theorem Changes.announced (changes : state.Changes config label gone after pushed)
    (made : .command (.commandFinished completion) ∈ pushed) :
    (state.commands.future completion).terminal.isSome = true := by
  cases changes with
  | called label stack entry => cases entry <;> simp [disconnectOps] at made
  | closes => simp [closeOps] at made
  | writer turn after pushed moves => exact absurd made moves.unannounced
  | sender turn after pushed moves => exact absurd made moves.unannounced
  | run index choice op after pushed _ moves => exact moves.announced made
  | _ => grind

/-- A completion that a step decides is published next by the thread that decided it. -/
theorem Changes.publish (changes : state.Changes config label gone after pushed)
    (sound : state.commands.Sound config.outbound)
    (undecided : (state.commands.future completion).terminal = none)
    (decided : (after.commands.future completion).terminal.isSome = true) :
    .command (.publish completion) ∈ pushed := by
  obtain ⟨outcome, recorded⟩ := Option.isSome_iff_exists.mp decided
  cases changes with
  | run index choice op after pushed _ moves =>
      cases moves with
      | command call commands calls _ moves =>
          exact List.mem_map.mpr ⟨_, CommandState.moves_publish moves undecided decided, rfl⟩
      | expires target error commands moves =>
          have issued := CommandState.moves_publish moves undecided decided
          simp only [List.mem_singleton, CommandOp.publish.injEq] at issued
          subst issued
          simp
      | announces target =>
          have issued := CommandState.moves_publish (.commandFinished target) undecided decided
          simp at issued
      | _ => exact nomatch undecided.symm.trans recorded
  | sends command deadline starts thread sent sends =>
      rcases CommandState.sends_future sound sends completion with same | ⟨limit, made, _⟩
      · rw [same, undecided] at recorded
        contradiction
      · rw [made] at recorded
        contradiction
  | writer turn after pushed moves =>
      rcases moves.commands with same | ⟨submission, received⟩
      · rw [same, undecided] at recorded
        contradiction
      · have kept : (after.commands.future completion).terminal = none := by
          obtain ⟨_, _, _, _, same⟩ := CommandState.receive_eq_some received
          rw [same]
          exact undecided
        rw [kept] at recorded
        contradiction
  | sender turn after pushed moves =>
      rcases moves.commands with same | ⟨target, moved⟩
      · rw [same, undecided] at recorded
        contradiction
      · have issued := CommandState.moves_publish moved undecided decided
        simp at issued
  | raises index gone after same =>
      have kept : after.commands = state.commands := by rcases same with rfl | rfl | rfl <;> rfl
      rw [kept, undecided] at recorded
      contradiction
  | _ => exact nomatch undecided.symm.trans recorded

/-- A thread that goes on to publish a decided outcome does so. -/
theorem Changes.published (changes : state.Changes config label gone after pushed)
    (spared : label.spares = true) (called : .command (.publish completion) ∈ gone)
    {outcome : Outcome} (decided : (state.commands.future completion).terminal = some outcome) :
    (after.commands.future completion).future.isSome = true := by
  cases changes with
  | run index choice op after pushed _ moves =>
      rw [← List.mem_singleton.mp called] at moves
      cases moves with
      | command call commands calls _ moved =>
          cases moved with
          | published =>
              show ((CommandState.future _ completion).future).isSome = true
              rw [CommandState.future_of_set rfl, if_pos ⟨rfl, CommandState.known_of_decided decided⟩]
              rfl
          | jammed _ stuck => exact stuck.resolve_left (by simp [decided])
  | raises => contradiction
  | _ => contradiction

theorem Records.changes (records : state.Records running)
    (sound : state.commands.Sound config.outbound)
    (changes : state.Changes config label gone after pushed)
    (shifts : Shifts gone pushed running later) : after.Records later := by
  have advances := sound.advances changes.turns
  constructor
  · intro completion outcome published
    rcases sound.publishes changes.turns published with before | decided
    · exact (advances completion).terminal _ (records.recorded completion outcome before)
    · exact (advances completion).terminal _ decided
  · intro completion called
    rcases shifts.came _ called with before | made
    · obtain ⟨outcome, found⟩ := Option.isSome_iff_exists.mp (records.finished completion before)
      rw [(advances completion).terminal outcome found]
      rfl
    · obtain ⟨outcome, found⟩ := Option.isSome_iff_exists.mp (changes.announced made)
      rw [(advances completion).terminal outcome found]
      rfl

theorem Settles.changes (settles : state.Settles running)
    (sound : state.commands.Sound config.outbound)
    (changes : state.Changes config label gone after pushed) (spared : label.spares = true)
    (shifts : Shifts gone pushed running later) : after.Settles later := by
  have advances := sound.advances changes.turns
  intro completion decided
  cases before : (state.commands.future completion).terminal with
  | none => exact .inr (shifts.made _ (changes.publish sound before decided))
  | some outcome =>
      rcases settles completion (by rw [before]; rfl) with published | called
      · obtain ⟨result, found⟩ := Option.isSome_iff_exists.mp published
        exact .inl (by rw [(advances completion).future result found]; rfl)
      · by_cases last : .command (.publish completion) ∈ gone
        · exact .inl (changes.published spared last before)
        · exact .inr (shifts.stays _ called last)

/-- The command is decided, or somebody will decide it. -/
def Owned (state : PipelineState Command Payload) (running : PipelineOp → Prop)
    (completion : Nat) : Prop :=
  (state.commands.future completion).terminal.isSome = true ∨
    holds state.writer.point = some completion ∨ completion ∈ state.writer.pending ∨
    ∃ error, running (.command (.finish completion error))

def Covers (state : PipelineState Command Payload) (running : PipelineOp → Prop) : Prop :=
  ∀ departure ∈ state.commands.departures, state.Owned running departure.queued.completion

omit [BEq Key] in
theorem WriterPasses.holds {point next : WriterPoint Command Payload}
    (passes : state.WriterPasses config point next) (held : holds point = some completion) :
    holds next = some completion ∨ state.isDone completion = true := by
  cases passes with
  | skips submission done =>
      cases held
      exact .inr done
  | abandons frame done =>
      cases held
      exact .inr done
  | encodes | fails | crashes | registers => exact .inl held
  | _ => contradiction

omit [BEq Key] in
theorem WriterMoves.holds (moves : state.WriterMoves config after pushed)
    (held : holds state.writer.point = some completion) :
    Boundary.holds after.writer.point = some completion ∨ state.isDone completion = true ∨
      completion ∈ after.writer.pending ∨ ∃ error, .command (.finish completion error) ∈ pushed := by
  cases moves with
  | passes next passes => exact (passes.holds held).imp_right .inl
  | begins submission point =>
      rw [point] at held
      exact .inl held
  | fails target point | crashes target point =>
      rw [point] at held
      cases held
      exact .inr (.inr (.inr ⟨_, List.mem_singleton.mpr rfl⟩))
  | registers frame point =>
      rw [point] at held
      cases held
      exact .inr (.inr (.inl (List.mem_append_right _ (List.mem_singleton.mpr rfl))))
  | receives commands submission point | polls point | ends point | attachesLate frame point
  | attaches frame point | expires frame deadline point | terminates frame outcome point
  | claims frame timeout receipt point | discards frame error point | keeps frame point
  | watches frame point | refuses frame point | reports frame error point | leaves target point
  | drops point | requests point | stops point =>
      rw [point] at held
      contradiction
  | rejects frame limit raw error receipt submits | rejectsLate frame limit raw error submits
  | cancels frame limit raw submits | waits frame limit raw submits | offers frame limit raw submits =>
      generalize state.writer.point = current at submits held
      cases submits <;> contradiction
  | exits point =>
      rcases point with ⟨point, _⟩ | point
      · rw [point] at held
        contradiction
      · rw [point] at held
        contradiction

omit [BEq Key] in
theorem WriterMoves.pending (moves : state.WriterMoves config after pushed)
    (member : completion ∈ state.writer.pending) : completion ∈ after.writer.pending := by
  cases moves with
  | registers => exact List.mem_append_left _ member
  | _ => exact member

omit [Inhabited Command] in
omit [BEq Key] in
theorem mem_popPending {writer : CommandWriter Command Payload} {target : Nat}
    (member : completion ∈ writer.pending) (other : completion ≠ target) :
    completion ∈ (writer.popPending target).pending :=
  List.mem_filter.mpr ⟨member, by simpa using other⟩

omit [BEq Key] in
/-- A call that takes a command out of the pending ones fails or completes it next. -/
theorem OpMoves.pending {choice : Choice} (moves : state.OpMoves choice op after pushed)
    (member : completion ∈ state.writer.pending) : completion ∈ after.writer.pending ∨
      ∃ error, .command (.finish completion error) ∈ pushed := by
  cases moves with
  | completes target error =>
      by_cases own : completion = target
      · subst own
        exact .inr ⟨error, List.mem_singleton.mpr rfl⟩
      · exact .inl (mem_popPending member own)
  | failsPending target rest =>
      by_cases own : completion = target
      · subst own
        exact .inr ⟨_, List.mem_cons_self⟩
      · exact .inl (mem_popPending member own)
  | _ => exact .inl member

omit [BEq Key] in
theorem OpMoves.point {choice : Choice} (moves : state.OpMoves choice op after pushed) :
    after.writer.point = state.writer.point := by
  cases moves <;> rfl

theorem Changes.finished (changes : state.Changes config label gone after pushed)
    (spared : label.spares = true) {error : Outcome}
    (called : .command (.finish completion error) ∈ gone)
    (made : completion < state.commands.futures.length) :
    (after.commands.future completion).terminal.isSome = true := by
  have won {commands : CommandState Command} {calls : List CommandOp}
      (moved : state.commands.Moves (.finish completion error) commands calls) :
      (commands.future completion).terminal.isSome = true := by
    cases moved with
    | finishLost _ _ decided => exact decided
    | finishWon =>
        rw [CommandState.future_of_set rfl, if_pos ⟨rfl, made⟩]
        rfl
  cases changes with
  | run index choice op after pushed _ moves =>
      rw [← List.mem_singleton.mp called] at moves
      cases moves with
      | command _ commands calls _ moved => exact won moved
      | expires _ _ commands moved => exact won moved
  | raises => contradiction
  | _ => contradiction

theorem Owned.changes (owned : state.Owned running completion) (records : state.Records running)
    (sound : state.commands.Sound config.outbound)
    (changes : state.Changes config label gone after pushed) (spared : label.spares = true)
    (shifts : Shifts gone pushed running later)
    (made : completion < state.commands.futures.length) : after.Owned later completion := by
  have decided (before : (state.commands.future completion).terminal.isSome = true) :
      after.Owned later completion := by
    obtain ⟨outcome, found⟩ := Option.isSome_iff_exists.mp before
    exact .inl (by rw [(sound.advances changes.turns completion).terminal outcome found]; rfl)
  have done (before : state.isDone completion = true) : after.Owned later completion := by
    obtain ⟨outcome, found⟩ := Option.isSome_iff_exists.mp before
    exact decided (by rw [records.recorded completion outcome found]; rfl)
  have issued (pushes : ∃ error, .command (.finish completion error) ∈ pushed) :
      after.Owned later completion := by
    obtain ⟨error, member⟩ := pushes
    exact .inr (.inr (.inr ⟨error, shifts.made _ member⟩))
  rcases owned with before | held | member | ⟨error, called⟩
  · exact decided before
  · cases changes with
    | writer turn after pushed moves =>
        rcases moves.holds held with held | finished | member | pushes
        · exact .inr (.inl held)
        · exact done finished
        · exact .inr (.inr (.inl member))
        · exact issued pushes
    | run index choice op after pushed _ moves => exact .inr (.inl (moves.point ▸ held))
    | sender turn after pushed moves =>
        have same : after.writer = state.writer := by cases moves <;> rfl
        exact .inr (.inl (same ▸ held))
    | startsWriter unstarted =>
        rw [CommandWriter.created_of_unstarted unstarted] at held
        contradiction
    | raises => contradiction
    | _ => exact .inr (.inl held)
  · cases changes with
    | writer turn after pushed moves => exact .inr (.inr (.inl (moves.pending member)))
    | run index choice op after pushed _ moves =>
        rcases moves.pending member with kept | pushes
        · exact .inr (.inr (.inl kept))
        · exact issued pushes
    | sender turn after pushed moves =>
        have same : after.writer = state.writer := by cases moves <;> rfl
        exact .inr (.inr (.inl (same ▸ member)))
    | raises => contradiction
    | _ => exact .inr (.inr (.inl member))
  · by_cases last : .command (.finish completion error) ∈ gone
    · exact .inl (changes.finished spared last made)
    · exact .inr (.inr (.inr ⟨error, shifts.stays _ called last⟩))

omit [BEq Key] in
/-- What leaves the queue by a call is decided, or the call goes on to fail it. -/
theorem OpMoves.departed {choice : Choice} (moves : state.OpMoves choice op after pushed)
    (represents : state.commands.Represents config.outbound)
    (finished : ∀ completion, op = .command (.commandFinished completion) →
      (state.commands.future completion).terminal.isSome = true)
    {departure : Departure Command} (member : departure ∈ after.commands.departures) :
    departure ∈ state.commands.departures ∨
      (after.commands.future departure.queued.completion).terminal.isSome = true ∨
      ∃ error, .command (.finish departure.queued.completion error) ∈ pushed := by
  cases moves with
  | command call commands calls other moved =>
      cases moved with
      | discardQueue =>
          rcases List.mem_append.mp member with before | new
          · exact .inl before
          · obtain ⟨identity, within, rfl⟩ := List.mem_map.mp new
            refine .inr (.inr ⟨some .queueClosed, List.mem_map.mpr ⟨_, ?_, rfl⟩⟩)
            exact List.mem_map.mpr ⟨_, List.mem_map.mpr ⟨identity, within, rfl⟩, rfl⟩
      | commandFinished target => exact absurd rfl (other target)
      | _ => exact .inl member
  | expires completion error commands moved =>
      cases moved
      exact .inl member
  | announces target =>
      cases found : state.commands.queue.queued target with
      | none =>
          rw [CommandState.commandFinished_absent found] at member
          exact .inl member
      | some identity =>
          obtain ⟨_, same⟩ := (represents.index target identity).mp found
          have logged : (state.commands.commandFinished target).departures =
              state.commands.departures ++ [⟨.finished, state.commands.queue.entry identity⟩] := by
            rw [CommandState.commandFinished_queued found]
          have futures : (state.commands.commandFinished target).futures = state.commands.futures := by
            rw [CommandState.commandFinished_queued found]
          rcases List.mem_append.mp (logged ▸ member) with before | new
          · exact .inl before
          · rw [List.mem_singleton.mp new]
            refine .inr (.inl ?_)
            show (CommandState.future (state.commands.commandFinished target)
              (state.commands.queue.entry identity).completion).terminal.isSome = true
            rw [same, CommandState.future, futures]
            exact finished target rfl
  | _ => exact .inl member

/-- What a step takes out of the queue has an owner. -/
theorem Changes.departed (changes : state.Changes config label gone after pushed)
    (records : state.Records running) (sound : state.commands.Sound config.outbound)
    (called : ∀ op ∈ gone, running op) (shifts : Shifts gone pushed running later)
    {departure : Departure Command} (member : departure ∈ after.commands.departures) :
    departure ∈ state.commands.departures ∨ after.Owned later departure.queued.completion := by
  cases changes with
  | ticks | called | closes | startsWriter | startsSender | opens | opensLate => exact .inl member
  | sends command deadline starts thread sent sends =>
      cases sends with
      | refused | coalesced | enqueued | watched => exact .inl member
      | unwatched size limit _ unrecorded =>
          exact .inl (by rwa [sound.represents.abandon_eq unrecorded] at member)
  | writer turn after pushed moves =>
      cases moves with
      | receives commands submission point received =>
          obtain ⟨identity, rest, line, rfl, rfl⟩ := CommandState.receive_eq_some received
          rcases List.mem_append.mp member with before | new
          · exact .inl before
          · rw [List.mem_singleton.mp new]
            exact .inr (.inr (.inl rfl))
      | _ => exact .inl member
  | sender turn after pushed moves =>
      cases moves with
      | starts frame future _ started => exact .inl member
      | _ => exact .inl member
  | run index choice op after pushed _ moves =>
      have finished (completion : Nat) (same : op = .command (.commandFinished completion)) :
          (state.commands.future completion).terminal.isSome = true :=
        records.finished completion (same ▸ called op (List.mem_singleton.mpr rfl))
      rcases moves.departed sound.represents finished member with before | decided | ⟨error, made⟩
      · exact .inl before
      · exact .inr (.inl decided)
      · exact .inr (.inr (.inr (.inr ⟨error, shifts.made _ made⟩)))
  | raises index gone after same =>
      rcases same with rfl | rfl | rfl <;> exact .inl member

theorem Covers.changes (covers : state.Covers running) (records : state.Records running)
    (sound : state.commands.Sound config.outbound)
    (changes : state.Changes config label gone after pushed) (spared : label.spares = true)
    (called : ∀ op ∈ gone, running op) (shifts : Shifts gone pushed running later) :
    after.Covers later := by
  intro departure member
  rcases changes.departed records sound called shifts member with before | owned
  · exact (covers departure before).changes records sound changes spared shifts
      (sound.departed_known before)
  · exact owned

/-- A shutdown of the queue took the command out. -/
def Discarded (state : PipelineState Command Payload) (completion : Nat) : Prop :=
  ∃ departure ∈ state.commands.departures, departure.kind = .discarded ∧
    departure.queued.completion = completion

omit [BEq Key] in
theorem departures_moves {commands : CommandState Command} {call : CommandOp}
    {calls : List CommandOp} (moves : state.commands.Moves call commands calls)
    {departure : Departure Command} (member : departure ∈ state.commands.departures) :
    departure ∈ commands.departures := by
  cases moves with
  | commandFinished target =>
      cases found : state.commands.queue.queued target with
      | none =>
          rw [CommandState.commandFinished_absent found]
          exact member
      | some identity =>
          rw [CommandState.commandFinished_queued found]
          exact List.mem_append_left _ member
  | discardQueue => exact List.mem_append_left _ member
  | _ => exact member

/-- The log of what left the queue only grows. -/
theorem Changes.departures (changes : state.Changes config label gone after pushed)
    (sound : state.commands.Sound config.outbound) {departure : Departure Command}
    (member : departure ∈ state.commands.departures) : departure ∈ after.commands.departures := by
  cases changes with
  | sends command deadline starts thread sent sends =>
      cases sends with
      | refused | coalesced | enqueued | watched => exact member
      | unwatched size limit _ unrecorded =>
          rw [sound.represents.abandon_eq unrecorded]
          exact member
  | writer turn after pushed moves =>
      rcases moves.commands with same | ⟨submission, received⟩
      · rwa [same]
      · obtain ⟨_, _, _, _, same⟩ := CommandState.receive_eq_some received
        rw [same]
        exact List.mem_append_left _ member
  | sender turn after pushed moves =>
      rcases moves.commands with same | ⟨_, moved⟩
      · rwa [same]
      · exact departures_moves moved member
  | run index choice op after pushed _ moves =>
      rcases moves.commands with same | ⟨call, calls, _, moved⟩
      · rwa [same]
      · exact departures_moves moved member
  | raises index gone after same =>
      rcases same with rfl | rfl | rfl <;> exact member
  | _ => exact member

theorem Discarded.changes (discarded : state.Discarded completion)
    (sound : state.commands.Sound config.outbound)
    (changes : state.Changes config label gone after pushed) : after.Discarded completion := by
  obtain ⟨departure, member, kind, same⟩ := discarded
  exact ⟨departure, changes.departures sound member, kind, same⟩

/-- The calls that a step leaves behind its first one end no command, but those of a
shutdown of the queue. -/
theorem Changes.behind (changes : state.Changes config label gone after pushed) {error : Outcome}
    (behind : .command (.finish completion error) ∈ pushed.tail) : after.Discarded completion := by
  have callbacks {target : Nat} {outcome : Outcome}
      (made : .command (.finish completion error) ∈ state.receiptCallbacks target outcome) :
      False := by
    have impossible := receiptCallbacks_command made
    contradiction
  cases changes with
  | called label stack entry => cases entry <;> simp [disconnectOps] at behind
  | closes => simp [closeOps] at behind
  | writer turn after pushed moves =>
      cases moves with
      | rejects => exact (callbacks (List.mem_of_mem_tail behind)).elim
      | _ => simp at behind
  | sender turn after pushed moves =>
      cases moves with
      | aborts => simp [disconnectOps] at behind
      | _ => simp at behind
  | run index choice op after pushed _ moves =>
      cases moves with
      | command call commands calls _ moved =>
          cases moved with
          | discardQueue =>
              obtain ⟨issued, member, same⟩ := List.mem_map.mp (List.mem_of_mem_tail behind)
              obtain ⟨target, within, rfl⟩ := List.mem_map.mp member
              cases same
              obtain ⟨identity, queued, own⟩ := List.mem_map.mp within
              refine ⟨⟨.discarded, state.commands.queue.entry identity⟩, ?_, rfl, own⟩
              exact List.mem_append_right _ (List.mem_map.mpr ⟨identity, queued, rfl⟩)
          | _ => simp at behind
      | finishes => exact (callbacks (List.mem_of_mem_tail behind)).elim
      | rejects =>
          rcases List.mem_append.mp (List.mem_of_mem_tail behind) with callback | last
          · exact (callbacks callback).elim
          · simp at last
      | announces => grind
      | stopsLate | stops | stopsUnstarted => grind
      | requests fromSender calls which => rcases which with rfl | rfl <;> simp at behind
      | _ => simp at behind
  | sends => grind
  | _ => simp at behind

end PipelineState

namespace PipelineWorld

variable [BEq Key] {config : PipelineConfig Command Key Payload}
variable {world after : PipelineWorld Command Payload} {label : PipelineLabel Command}
variable {allowed : PipelineWorld Command Payload → PipelineLabel Command → Prop}

/-- Runs in which no observer raises a `BaseException`. -/
abbrev Spared (_ : PipelineWorld Command Payload) (label : PipelineLabel Command) : Prop :=
  label.spares = true

theorem reachable_records (reachable : (pipelineSystem config).ReachableBy allowed world) :
    world.state.Records (Running world.threads) := by
  refine reachableBy_invariant reachable
    (fun world => world.state.commands.Sound config.outbound) (fun _ => reachable_sound) ?_ ?_
  · intro running idle
    exact ⟨by simp [CommandState.future], fun completion run => absurd run (idle _)⟩
  · intro before label gone state pushed later sound _ changes _ shifts records
    exact records.changes sound changes shifts

/-- A command that left the queue has an owner, unless a shutdown took it out; only
the calls of such a shutdown end a command behind another call. -/
structure CoversReceived (world : PipelineWorld Command Payload) : Prop where
  owned : ∀ departure ∈ world.state.commands.departures,
    world.state.Discarded departure.queued.completion ∨
      world.state.Owned (Running world.threads) departure.queued.completion
  behind : Behind world.threads fun op => ∀ completion error,
    op = .command (.finish completion error) → world.state.Discarded completion

omit [Inhabited Command] in
/-- A raised exception ends the calls of its thread, and leaves the state of the
commands as it is. -/
theorem CoversReceived.raises (covers : world.CoversReceived) {index completion : Nat}
    {rest : List PipelineOp}
    (found : world.threads[index]? = some (.command (.observe completion) :: rest)) :
    CoversReceived ⟨world.unwound index, resume world.threads index []⟩ := by
  have commands : (world.unwound index).commands = world.state.commands := by
    rcases world.unwound_cases index with same | same | same <;> rw [same] <;> rfl
  have pending : (world.unwound index).writer.pending = world.state.writer.pending := by
    rcases world.unwound_cases index with same | same | same <;> rw [same] <;> rfl
  have held (target : Nat) (holding : holds world.state.writer.point = some target) :
      holds (world.unwound index).writer.point = some target := by
    rcases world.unwound_cases index with same | same | same
    · rwa [same]
    · rw [same]
      show holds world.state.writer.point.unwound = some target
      cases point : world.state.writer.point <;> rw [point] at holding <;> first
        | exact holding
        | contradiction
    · rw [same]
      exact holding
  have discarded {target : Nat} (before : world.state.Discarded target) :
      (world.unwound index).Discarded target := by
    unfold PipelineState.Discarded
    rw [commands]
    exact before
  constructor
  · intro departure member
    rw [show (PipelineWorld.state _).commands = world.state.commands from commands] at member
    rcases covers.owned departure member with before | decided | holding | waiting | ⟨error, called⟩
    · exact .inl (discarded before)
    · refine .inr (.inl ?_)
      rwa [commands]
    · exact .inr (.inr (.inl (held _ holding)))
    · exact .inr (.inr (.inr (.inl (pending ▸ waiting))))
    · by_cases own : .command (.finish departure.queued.completion error) ∈
          .command (.observe completion) :: rest
      · have late : .command (.finish departure.queued.completion error) ∈ rest :=
          (List.mem_cons.mp own).resolve_left (by simp)
        exact .inl (discarded (covers.behind _ (List.mem_of_getElem? found) _ late _ error rfl))
      · exact .inr (.inr (.inr (.inr ⟨error, called.unwinds found own⟩)))
  · have cut := covers.behind.mono fun op before target error same =>
      discarded (before target error same)
    exact cut.set fun op member => nomatch member

theorem CoversReceived.step (covers : world.CoversReceived)
    (records : world.state.Records (Running world.threads))
    (sound : world.state.commands.Sound config.outbound)
    (stepped : world.step config label = some after) : after.CoversReceived := by
  have steps := step_steps stepped
  by_cases raising : ∃ index, label = .run index .raises
  · obtain ⟨index, rfl⟩ := raising
    obtain ⟨completion, rest, found, rfl⟩ := run_raises stepped
    exact covers.raises found
  have spared : label.spares = true := by
    cases label with
    | run index choice =>
        cases choice with
        | raises => exact absurd ⟨index, rfl⟩ raising
        | _ => rfl
    | _ => rfl
  obtain ⟨gone, pushed, changes, called, shifts⟩ := steps.changes
  constructor
  · intro departure member
    rcases changes.departed records sound called shifts member with before | owned
    · rcases covers.owned departure before with discarded | owned
      · exact .inl (discarded.changes sound changes)
      · exact .inr (owned.changes records sound changes spared shifts (sound.departed_known before))
    · exact .inr owned
  · have kept := covers.behind.mono fun op before target error same =>
      (before target error same).changes sound changes
    refine steps.behind kept fun gone pushed moved op behind target error same => ?_
    exact moved.behind (same ▸ behind)

theorem reachable_coversReceived (reachable : (pipelineSystem config).ReachableBy allowed world) :
    world.CoversReceived := by
  refine System.ReachableBy.invariant_along reachable
    (fun world => world.state.commands.Sound config.outbound ∧
      world.state.Records (Running world.threads))
    (fun _ reached => ⟨reachable_sound reached, reachable_records reached⟩) ?_ ?_
  · rintro first rfl
    exact ⟨by simp, by simp [Behind]⟩
  · intro before label after _ known covers stepped
    exact covers.step known.2 known.1 stepped

end PipelineWorld

end StreamDockSdk.Boundary
