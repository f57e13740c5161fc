import StreamDockSdk.Boundary.Pipeline.Coverage
import StreamDockSdk.Boundary.Pipeline.Deadline
import StreamDockSdk.Messaging.Reader

namespace StreamDockSdk.Boundary

open Automaton Messaging Transport

variable {Command Key Payload : Type} [Inhabited Command]

/-- The points of the writer at which its thread has calls to make. -/
def callsOut : WriterPoint Command Payload → Bool
  | .leaving _ | .checking _ | .expired _ | .refused _ | .dropping | .stopping => true
  | _ => false

/-- The points between the region that marks a command in flight and the one that
clears the mark. -/
def marks : WriterPoint Command Payload → Bool
  | .created | .receiving | .idling | .closed | .received _ | .ending | .exiting | .stopping
  | .exited | .dead => false
  | _ => true

/-- The writer has found the command queue empty. -/
def looksEmpty : WriterPoint Command Payload → WriterPoint Command Payload → Bool
  | .receiving, .idling | .receiving, .closed => true
  | _, _ => false

namespace PipelineState

variable {config : PipelineConfig Command Key Payload}
variable {state after : PipelineState Command Payload} {gone pushed : List PipelineOp}
variable {op : PipelineOp} {completion : Nat}

theorem WriterMoves.calls_out (moves : state.WriterMoves config after pushed)
    (quiet : callsOut after.writer.point = false) : pushed = [] := by
  cases moves with
  | fails | attachesLate | expires | terminates | rejects | discards | refuses | reports
  | crashes | stops => contradiction
  | _ => rfl

theorem WriterMoves.marks (moves : state.WriterMoves config after pushed)
    (marked : Boundary.marks state.writer.point = true → state.writer.inFlight.isSome = true)
    (marks : Boundary.marks after.writer.point = true) : after.writer.inFlight.isSome = true := by
  cases moves with
  | passes next passes =>
      refine marked ?_
      have reached : Boundary.marks next = true := marks
      generalize state.writer.point = current at passes
      cases passes <;> first | rfl | exact reached
  | begins => rfl
  | polls =>
      dsimp only at marks
      split at marks <;> contradiction
  | receives | ends | leaves | drops | requests | stops | exits => contradiction
  | rejects frame limit raw error receipt submits | rejectsLate frame limit raw error submits
  | cancels frame limit raw submits | waits frame limit raw submits | offers frame limit raw submits =>
      refine marked ?_
      generalize state.writer.point = current at submits
      cases submits <;> rfl
  | fails target point | registers frame point | attachesLate frame point | attaches frame point
  | expires frame deadline point | terminates frame outcome point | claims frame timeout receipt point
  | discards frame error point | keeps frame point | watches frame point | refuses frame point
  | reports frame error point | crashes target point =>
      refine marked ?_
      rw [point]
      rfl

end PipelineState

namespace PipelineWorld

variable [BEq Key] {config : PipelineConfig Command Key Payload}
variable {world after : PipelineWorld Command Payload} {label : PipelineLabel Command}
variable {allowed : PipelineWorld Command Payload → PipelineLabel Command → Prop}

/-- The writer's thread makes calls only at the points for it, and a command is marked
in flight at the others. -/
structure WriterIdle (world : PipelineWorld Command Payload) : Prop where
  quiet : callsOut world.state.writer.point = false → world.threads[0]? = some []
  marked : marks world.state.writer.point = true → world.state.writer.inFlight.isSome = true

theorem step_writer {turn : Turn} (stepped : world.step config (.writer turn) = some after) :
    ∃ pushed, world.threads[0]? = some [] ∧ world.state.WriterMoves config after.state pushed ∧
      after.threads = resume world.threads 0 pushed := by
  obtain ⟨state, pushed, idle, moved, rfl⟩ := work_steps stepped
  exact ⟨pushed, idle, PipelineState.writerStep_moves moved, rfl⟩

/-- Where a step of another thread takes the writer. -/
inductive WriterStays (before : WriterPoint Command Payload) : WriterPoint Command Payload → Prop
  | same : WriterStays before before
  | starts : before = .created → WriterStays before .receiving
  | unwinds : callsOut before = true → WriterStays before before.unwound

omit [Inhabited Command] in
theorem WriterStays.received {before next : WriterPoint Command Payload}
    {submission : CommandSubmission Command} (stays : WriterStays before next)
    (received : next = .received submission) : before = .received submission := by
  cases stays with
  | same => exact received
  | starts => contradiction
  | unwinds calling => cases before <;> contradiction

/-- What a step of another thread leaves of the writer's work. -/
structure BesideWriter (world after : PipelineWorld Command Payload) : Prop where
  inFlight : after.state.writer.inFlight = world.state.writer.inFlight
  stays : WriterStays world.state.writer.point after.state.writer.point
  quiet : callsOut after.state.writer.point = false → after.threads[0]? = some []

theorem changes_besideWriter {state : PipelineState Command Payload} {gone pushed : List PipelineOp}
    (changes : world.state.Changes config label gone state pushed)
    (other : ∀ turn, label ≠ .writer turn) (spared : ∀ index, label ≠ .run index .raises) :
    state.writer.inFlight = world.state.writer.inFlight ∧
      (state.writer.point = world.state.writer.point ∨
        world.state.writer.point = .created ∧ state.writer.point = .receiving) := by
  cases changes with
  | startsWriter unstarted =>
      exact ⟨rfl, .inr ⟨CommandWriter.created_of_unstarted unstarted, rfl⟩⟩
  | writer turn => exact absurd rfl (other turn)
  | sender turn after pushed moves =>
      have same : state.writer = world.state.writer := by cases moves <;> rfl
      exact ⟨by rw [same], .inl (by rw [same])⟩
  | run index choice op after pushed _ moves => exact ⟨by cases moves <;> rfl, .inl moves.point⟩
  | raises index => exact absurd rfl (spared index)
  | _ => exact ⟨rfl, .inl rfl⟩

omit [Inhabited Command] in
theorem unwound_besideWriter {index : Nat} {op : PipelineOp} {rest : List PipelineOp}
    (idle : world.WriterIdle) (found : world.threads[index]? = some (op :: rest)) :
    world.BesideWriter ⟨world.unwound index, resume world.threads index []⟩ := by
  by_cases own : index = 0
  · subst own
    have calling : callsOut world.state.writer.point = true := by
      by_contra quiet
      rw [Bool.not_eq_true] at quiet
      have none_left := idle.quiet quiet
      rw [found] at none_left
      simp at none_left
    exact ⟨rfl, .unwinds calling, fun _ => (getElem?_set_found found 0).trans (if_pos rfl)⟩
  · have same : (world.unwound index).writer = world.state.writer := by
      unfold unwound
      rw [if_neg own]
      split <;> rfl
    refine ⟨by rw [same], same ▸ .same, fun quiet => ?_⟩
    rw [resume, getElem?_set_found found, if_neg (Ne.symm own)]
    exact idle.quiet (same ▸ quiet)

theorem step_besideWriter (idle : world.WriterIdle)
    (stepped : world.step config label = some after) (other : ∀ turn, label ≠ .writer turn) :
    world.BesideWriter after := by
  by_cases raising : ∃ index, label = .run index .raises
  · obtain ⟨index, rfl⟩ := raising
    obtain ⟨completion, rest, found, rfl⟩ := run_raises stepped
    exact unwound_besideWriter idle found
  have spared (index : Nat) (same : label = .run index .raises) : False := raising ⟨index, same⟩
  have quiet {state : PipelineState Command Payload} {threads : List (List PipelineOp)}
      {gone pushed : List PipelineOp} (changes : world.state.Changes config label gone state pushed)
      (kept : world.threads[0]? = some [] → threads[0]? = some []) :
      world.BesideWriter ⟨state, threads⟩ := by
    obtain ⟨inFlight, point⟩ := changes_besideWriter changes other spared
    rcases point with same | ⟨created, receiving⟩
    · exact ⟨inFlight, same ▸ .same, fun calls => kept (idle.quiet (same ▸ calls))⟩
    · refine ⟨inFlight, receiving ▸ .starts created, fun _ => kept (idle.quiet ?_)⟩
      rw [created]
      rfl
  cases step_steps stepped with
  | plain _ state changes => exact quiet changes id
  | spawns _ state stack changes =>
      refine quiet changes fun empty => ?_
      exact (List.getElem?_append_left (List.getElem?_eq_some_iff.mp empty).1).trans empty
  | writer turn => exact absurd rfl (other turn)
  | sender turn state pushed free moves =>
      refine quiet (.sender turn state pushed moves) fun empty => ?_
      rw [resume, getElem?_set_found free, if_neg (by decide)]
      exact empty
  | run index choice op rest state pushed returns found moves =>
      refine quiet (.run index choice op state pushed returns moves) fun empty => ?_
      rw [resume, getElem?_set_found found, if_neg]
      · exact empty
      · rintro rfl
        rw [found] at empty
        simp at empty
  | raises index => exact absurd rfl (spared index)

theorem WriterIdle.step (idle : world.WriterIdle)
    (stepped : world.step config label = some after) : after.WriterIdle := by
  by_cases works : ∃ turn, label = .writer turn
  · obtain ⟨turn, rfl⟩ := works
    obtain ⟨pushed, free, moves, threads⟩ := step_writer stepped
    refine ⟨fun quiet => ?_, moves.marks idle.marked⟩
    rw [threads, moves.calls_out quiet]
    exact (getElem?_set_found free 0).trans (if_pos rfl)
  · have beside := step_besideWriter idle stepped fun turn same => works ⟨turn, same⟩
    refine ⟨beside.quiet, fun marked => ?_⟩
    rw [beside.inFlight]
    refine idle.marked ?_
    have stays := beside.stays
    generalize after.state.writer.point = next at stays marked
    cases stays with
    | same => exact marked
    | starts => contradiction
    | unwinds calling =>
        generalize world.state.writer.point = point at calling marked
        cases point <;> first | contradiction | rfl

theorem reachable_writerIdle (reachable : (pipelineSystem config).ReachableBy allowed world) :
    world.WriterIdle := by
  refine System.ReachableBy.invariant reachable ?_ ?_
  · rintro first rfl
    exact ⟨fun _ => rfl, nofun⟩
  · exact fun before label after _ idle stepped => idle.step stepped

end PipelineWorld

namespace PipelineState

variable {config : PipelineConfig Command Key Payload}
variable {state after : PipelineState Command Payload} {gone pushed : List PipelineOp}

theorem accepted_moves {commands next : CommandState Command} {op : CommandOp}
    {calls : List CommandOp} (moves : commands.Moves op next calls) :
    next.accepted = commands.accepted := by
  cases moves with
  | commandFinished target =>
      cases found : commands.queue.queued target with
      | none => rw [CommandState.commandFinished_absent found]
      | some identity => rw [CommandState.commandFinished_queued found]
  | _ => rfl

/-- The submissions that the command queue has accepted stay the first ones. -/
theorem Changes.accepted [BEq Key] {label : PipelineLabel Command}
    (changes : state.Changes config label gone after pushed)
    (sound : state.commands.Sound config.outbound) :
    ∃ more, after.commands.accepted = state.commands.accepted ++ more := by
  have kept {next : CommandState Command} (same : next.accepted = state.commands.accepted) :
      ∃ more, next.accepted = state.commands.accepted ++ more := ⟨[], by simp [same]⟩
  cases changes with
  | sends command deadline starts thread sent sends =>
      cases sends with
      | refused => exact kept rfl
      | unwatched size limit _ unrecorded =>
          refine kept ?_
          show (CommandState.abandon _ command size limit).accepted = _
          rw [sound.represents.abandon_eq unrecorded]
      | coalesced identity size | enqueued size | watched size limit => exact ⟨[_], rfl⟩
  | writer turn after pushed moves =>
      rcases moves.commands with same | ⟨submission, received⟩
      · exact kept (by rw [same])
      · obtain ⟨_, _, _, _, same⟩ := CommandState.receive_eq_some received
        exact kept (by rw [same])
  | sender turn after pushed moves =>
      rcases moves.commands with same | ⟨_, moved⟩
      · exact kept (by rw [same])
      · exact kept (accepted_moves moved)
  | run index choice op after pushed _ moves =>
      rcases moves.commands with same | ⟨call, calls, _, moved⟩
      · exact kept (by rw [same])
      · exact kept (accepted_moves moved)
  | raises index gone after same => rcases same with rfl | rfl | rfl <;> exact kept rfl
  | _ => exact kept rfl

theorem WriterMoves.hands_over (moves : state.WriterMoves config after pushed)
    {submission : CommandSubmission Command}
    (received : after.writer.point = .received submission) :
    state.commands.receive = some (after.commands, submission) := by
  cases moves with
  | receives commands other point handed =>
      cases received
      exact handed
  | passes next passes =>
      have reached : next = .received submission := received
      subst reached
      generalize state.writer.point = point at passes
      cases passes
  | polls =>
      dsimp only at received
      split at received <;> contradiction
  | _ => cases received

/-- What the queue hands out did not leave it before. -/
theorem receive_fresh [BEq Key] {commands next : CommandState Command}
    {submission : CommandSubmission Command} (received : commands.receive = some (next, submission))
    (sound : next.Sound config.outbound) {departure : Departure Command}
    (member : departure ∈ commands.departures) :
    departure.queued.completion ≠ submission.completion := by
  obtain ⟨identity, rest, line, rfl, rfl⟩ := CommandState.receive_eq_some received
  intro same
  have once := (sound.departs.once (commands.queue.entry identity).completion).trans_le
    (Bool.toNat_le _)
  have before : 0 < commands.departures.countP fun departure =>
      departure.queued.completion == (commands.queue.entry identity).completion :=
    List.countP_pos_iff.mpr ⟨departure, member, by simpa using same⟩
  have last : ([⟨.received, commands.queue.entry identity⟩] : List (Departure Command)).countP
      (fun departure => departure.queued.completion == (commands.queue.entry identity).completion) =
        1 := by simp
  rw [CommandState.departed, List.countP_append, last] at once
  omega

end PipelineState

/-- What the last look of the writer at an empty command queue says. -/
structure PipelineState.Looked (state : PipelineState Command Payload) (seen : Nat) : Prop where
  bound : seen ≤ state.commands.accepted.length
  left : ∀ acceptance ∈ state.commands.accepted.take seen,
    ∃ departure ∈ state.commands.departures, departure.queued.completion = acceptance.completion
  fresh : ∀ submission, state.writer.point = .received submission →
    ∀ acceptance ∈ state.commands.accepted.take seen, acceptance.completion ≠ submission.completion

namespace PipelineWorld

variable [BEq Key] {config : PipelineConfig Command Key Payload}
variable {world after : PipelineWorld Command Payload} {label : PipelineLabel Command}

/-- How many submissions had been accepted when the writer last found the command
queue empty. -/
def noteLook (before after : PipelineWorld Command Payload) (seen : Nat) : Nat :=
  if looksEmpty before.state.writer.point after.state.writer.point then
    after.state.commands.accepted.length
  else seen

omit [Inhabited Command] in
theorem looksEmpty_cases {before next : WriterPoint Command Payload}
    (looks : looksEmpty before next = true) :
    before = .receiving ∧ (next = .idling ∨ next = .closed) := by
  unfold looksEmpty at looks
  split at looks
  · exact ⟨rfl, .inl rfl⟩
  · exact ⟨rfl, .inr rfl⟩
  · contradiction

/-- Only the writer finds the queue empty, and it leaves the commands as they are. -/
theorem step_looks (idle : world.WriterIdle) (stepped : world.step config label = some after)
    (looks : looksEmpty world.state.writer.point after.state.writer.point = true) :
    world.state.commands.receive = none ∧ after.state.commands = world.state.commands := by
  obtain ⟨receiving, found⟩ := looksEmpty_cases looks
  by_cases works : ∃ turn, label = .writer turn
  · obtain ⟨turn, rfl⟩ := works
    obtain ⟨_, _, moves, _⟩ := step_writer stepped
    generalize after.state = next at moves found
    cases moves with
    | passes next passes =>
        rw [receiving] at passes
        cases passes with
        | closed empty | idling empty => exact ⟨empty, rfl⟩
    | polls =>
        dsimp only at found
        split at found <;> rcases found with found | found <;> contradiction
    | _ => rcases found with found | found <;> cases found
  · have stays := (step_besideWriter idle stepped fun turn same => works ⟨turn, same⟩).stays
    rw [receiving] at stays
    rcases found with found | found <;> rw [found] at stays <;> cases stays

theorem step_looked {seen : Nat} (looked : world.state.Looked seen) (idle : world.WriterIdle)
    (sound : world.state.commands.Sound config.outbound)
    (later : after.state.commands.Sound config.outbound)
    (stepped : world.step config label = some after) :
    after.state.Looked (noteLook world after seen) := by
  obtain ⟨gone, pushed, changes, _, _⟩ := (step_steps stepped).changes
  unfold noteLook
  split
  · next looks =>
    obtain ⟨none_left, same⟩ := step_looks idle stepped looks
    have empty : world.state.commands.queue.queue = [] := by
      unfold CommandState.receive at none_left
      split at none_left
      · assumption
      · contradiction
    refine ⟨Nat.le_refl _, fun acceptance member => ?_, fun submission received => ?_⟩
    · rw [List.take_length, same] at member
      rw [same]
      rcases sound.queued_or_departed member with queued | departed
      · obtain ⟨identity, found⟩ := Option.isSome_iff_exists.mp queued
        have waits := ((sound.represents.index _ _).mp found).1
        rw [empty] at waits
        contradiction
      · exact departed
    · rcases (looksEmpty_cases looks).2 with point | point <;> rw [received] at point <;> contradiction
  · obtain ⟨more, grown⟩ := changes.accepted sound
    have same : after.state.commands.accepted.take seen = world.state.commands.accepted.take seen := by
      rw [grown, List.take_append_of_le_length looked.bound]
    refine ⟨?_, fun acceptance member => ?_, fun submission received acceptance member => ?_⟩
    · rw [grown, List.length_append]
      exact Nat.le_add_right_of_le looked.bound
    · obtain ⟨departure, within, own⟩ := looked.left acceptance (same ▸ member)
      exact ⟨departure, changes.departures sound within, own⟩
    · rw [same] at member
      by_cases works : ∃ turn, label = .writer turn
      · obtain ⟨turn, rfl⟩ := works
        obtain ⟨_, _, moves, _⟩ := step_writer stepped
        obtain ⟨departure, within, own⟩ := looked.left acceptance member
        exact own ▸ PipelineState.receive_fresh (moves.hands_over received) later within
      · have stays := (step_besideWriter idle stepped fun turn same => works ⟨turn, same⟩).stays
        exact looked.fresh submission (stays.received received) acceptance member

/-- A boundary whose writer notes its looks at an empty command queue. -/
def observedPipeline (config : PipelineConfig Command Key Payload) :
    System (PipelineWorld Command Payload × Nat) (PipelineLabel Command) :=
  (pipelineSystem config).noting 0 noteLook

theorem reachable_looked {noted : PipelineWorld Command Payload × Nat}
    (reachable : (observedPipeline config).Reachable noted) : noted.1.state.Looked noted.2 := by
  refine System.Reachable.invariant_given
    (motive := fun noted : PipelineWorld Command Payload × Nat => noted.1.state.Looked noted.2)
    reachable (fun noted => (pipelineSystem config).Reachable noted.1)
    (fun _ reached => System.Reachable.noted reached) ?_ ?_
  · rintro ⟨first, seen⟩ ⟨rfl, rfl⟩
    exact ⟨Nat.le_refl _, nofun, nofun⟩
  · intro before label after reached looked stepped
    obtain ⟨moved, note⟩ := System.noting_step stepped
    have later := reachable_sound (reached.next label moved)
    exact note ▸ step_looked looked (reachable_writerIdle reached) (reachable_sound reached) later moved

/-- Every accepted command is decided. -/
def Concluded (world : PipelineWorld Command Payload) : Prop :=
  ∀ acceptance ∈ world.state.commands.accepted,
    (world.state.commands.future acceptance.completion).terminal.isSome = true

/-- The writer's last look at an empty queue covers what is undecided: what was
accepted since has been decided, as have been the commands that a shutdown of the
queue took out, and nobody is about to decide a command that left the pending ones. -/
structure Current (world : PipelineWorld Command Payload) (seen : Nat) : Prop where
  since : ∀ acceptance ∈ world.state.commands.accepted.drop seen,
    (world.state.commands.future acceptance.completion).terminal.isSome = true
  discarded : ∀ acceptance ∈ world.state.commands.accepted,
    world.state.Discarded acceptance.completion →
      (world.state.commands.future acceptance.completion).terminal.isSome = true
  ending : ∀ acceptance ∈ world.state.commands.accepted, ∀ error,
    Running world.threads (.command (.finish acceptance.completion error)) →
      (world.state.commands.future acceptance.completion).terminal.isSome = true

omit [Inhabited Command] in
/-- Where `drain` returns true, the writer holds no command that it has not received
just now. -/
theorem drained_holds (idle : world.WriterIdle) (drained : world.state.writer.isDrained = true)
    {completion : Nat} (held : holds world.state.writer.point = some completion) :
    ∃ submission, world.state.writer.point = .received submission ∧
      submission.completion = completion := by
  have unmarked : marks world.state.writer.point = false := by
    by_contra marked
    rw [Bool.not_eq_false] at marked
    have flying := idle.marked marked
    unfold CommandWriter.isDrained at drained
    cases inFlight : world.state.writer.inFlight with
    | none => simp [inFlight] at flying
    | some completion => simp [inFlight] at drained
  generalize world.state.writer.point = point at held unmarked
  cases point with
  | received submission => exact ⟨submission, rfl, by simpa [holds] using held⟩
  | _ => contradiction

omit [Inhabited Command] in
theorem drained_pending (drained : world.state.writer.isDrained = true) :
    world.state.writer.pending = [] := by
  unfold CommandWriter.isDrained at drained
  split at drained <;> simp_all

/-- Where `drain` returns true, every accepted command is decided exactly when the last
look at the queue is current. -/
theorem writer_drains {noted : PipelineWorld Command Payload × Nat}
    (reachable : (observedPipeline config).Reachable noted)
    (drained : noted.1.state.writer.isDrained = true) :
    noted.1.Concluded ↔ noted.1.Current noted.2 := by
  have reached : (pipelineSystem config).Reachable noted.1 := System.Reachable.noted reachable
  have looked := reachable_looked reachable
  constructor
  · intro concluded
    exact ⟨fun acceptance member => concluded acceptance (List.mem_of_mem_drop member),
      fun acceptance member _ => concluded acceptance member,
      fun acceptance member _ _ => concluded acceptance member⟩
  · intro current acceptance member
    rw [← List.take_append_drop noted.2 noted.1.state.commands.accepted] at member
    rcases List.mem_append.mp member with before | since
    · have accepted := List.mem_of_mem_take before
      obtain ⟨departure, within, own⟩ := looked.left acceptance before
      rcases (reachable_coversReceived reached).owned departure within with
        discarded | decided | held | pending | ⟨error, running⟩
      · exact current.discarded acceptance accepted (own ▸ discarded)
      · exact own ▸ decided
      · obtain ⟨submission, received, same⟩ :=
          drained_holds (reachable_writerIdle reached) drained held
        exact absurd (own.symm.trans same.symm) (looked.fresh submission received acceptance before)
      · rw [drained_pending drained] at pending
        contradiction
      · exact current.ending acceptance accepted error (own ▸ running)
    · exact current.since acceptance since

end PipelineWorld

open PipelineWorld ReaderWorld

/-- Where `drain` of the reader or of the writer returns true, all that its source
accepted before is processed exactly when nothing undone was accepted since the
worker's last look at the empty source. -/
theorem worker_drain_sound {Frame Event Command Key Payload : Type} [Inhabited Command] [BEq Key]
    (reader : ReaderConfig Frame Event) (config : PipelineConfig Command Key Payload) :
    (∀ world, (readerSystem reader).Reachable world → world.reader.isDrained = true →
      (world.Finished ↔ world.upToDate = true)) ∧
    ∀ noted, (observedPipeline config).Reachable noted → noted.1.state.writer.isDrained = true →
      (noted.1.Concluded ↔ noted.1.Current noted.2) :=
  ⟨fun _ reachable drained => reader_drains reachable drained,
    fun _ reachable drained => writer_drains reachable drained⟩

/-- Frames are events, and the source takes two of them. -/
def pairReader : ReaderConfig Nat Nat where
  source := { queueLimit := 2, byteLimit := 0, maxMessageBytes := 8, itemSize := fun _ _ => 0 }
  decode := some

def readWorld : ReaderWorld Nat Nat :=
  ((readerSystem pairReader).exec {} [.start, .submit 7 false false, .work .proceed, .work .proceed,
    .work .proceed, .work .proceed, .work .proceed, .work .timesOut, .work .proceed]).get
    (by decide +kernel)

theorem readWorld_reachable : (readerSystem pairReader).Reachable readWorld :=
  System.Reachable.exec (.initial rfl) (Option.some_get _).symm

/-- A command is sent and ends before the writer finds the queue empty. -/
def writtenWorld : PipelineWorld (Nat × Nat) (Nat × Nat) × Nat :=
  ((observedPipeline pairPipeline).exec ({}, 0)
    (([.startWriter, .startSender, .opened, .sendAsync (1, 3) none true] : List (PipelineLabel (Nat × Nat))) ++ writes 11 ++ sends 8 ++
      runs 1 8 ++ ([.writer .proceed, .writer .timesOut, .writer .proceed] : List (PipelineLabel (Nat × Nat))))).get (by decide +kernel)

theorem writtenWorld_reachable : (observedPipeline pairPipeline).Reachable writtenWorld := by
  have start : (observedPipeline pairPipeline).initial ({}, 0) := ⟨rfl, rfl⟩
  exact System.Reachable.exec (.initial start) (Option.some_get _).symm

theorem writtenWorld_current : writtenWorld.1.Current writtenWorld.2 := by
  have decided : ∀ acceptance ∈ writtenWorld.1.state.commands.accepted,
      (writtenWorld.1.state.commands.future acceptance.completion).terminal.isSome = true := by
    decide +kernel
  refine ⟨by decide +kernel, fun acceptance member _ => decided acceptance member,
    fun acceptance _ error running => ?_⟩
  have idle : ∀ stack ∈ writtenWorld.1.threads, stack = [] := by decide +kernel
  exact absurd running (not_running_idle idle)

theorem worker_drain_sound_run :
    (readWorld.processed = [7] ∧ readWorld.Finished) ∧
      (writtenWorld.1.state.commands.accepted.length = 1 ∧ writtenWorld.1.Concluded) :=
  ⟨⟨by decide +kernel, ((worker_drain_sound pairReader pairPipeline).1 readWorld readWorld_reachable
      (by decide +kernel)).mpr (by decide +kernel)⟩,
    by decide +kernel, ((worker_drain_sound pairReader pairPipeline).2 writtenWorld
      writtenWorld_reachable (by decide +kernel)).mpr writtenWorld_current⟩

/-- The frame comes after the reader found its source empty. -/
def unreadWorld : ReaderWorld Nat Nat :=
  ((readerSystem pairReader).exec {}
    [.start, .work .timesOut, .work .proceed, .submit 7 false false]).get (by decide +kernel)

/-- The command comes after the writer found its source empty. -/
def unwrittenWorld : PipelineWorld (Nat × Nat) (Nat × Nat) :=
  ((pipelineSystem pairPipeline).exec {}
    [.startWriter, .writer .timesOut, .writer .proceed, .sendAsync (1, 3) none true]).get
    (by decide +kernel)

/-- Neither `drain` that returns true says that nothing is left to process. -/
theorem drain_without_condition_fails :
    (¬ ∀ world, (readerSystem pairReader).Reachable world → world.reader.isDrained = true →
      world.Finished) ∧
    ¬ ∀ world, (pipelineSystem pairPipeline).Reachable world →
      world.state.writer.isDrained = true → world.Concluded := by
  refine ⟨fun claimed => ?_, fun claimed => ?_⟩
  · have finished := claimed unreadWorld (System.Reachable.exec (.initial rfl) (Option.some_get _).symm)
      (by decide +kernel)
    have unread : unreadWorld.processed ≠ unreadWorld.accepted := by decide +kernel
    exact unread finished
  · have concluded := claimed unwrittenWorld
      (System.Reachable.exec (.initial rfl) (Option.some_get _).symm) (by decide +kernel)
    have undecided : ¬ ∀ acceptance ∈ unwrittenWorld.state.commands.accepted,
        (unwrittenWorld.state.commands.future acceptance.completion).terminal.isSome = true := by
      decide +kernel
    exact undecided concluded

end StreamDockSdk.Boundary
