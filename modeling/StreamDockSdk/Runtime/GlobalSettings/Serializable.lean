import StreamDockSdk.Automaton.History
import StreamDockSdk.Automaton.Threads
import StreamDockSdk.Runtime.GlobalSettings.Stages

namespace StreamDockSdk.Runtime

open Automaton

variable {Settings : Type}

/-- A sequential execution of the operations, newest first, from unloaded settings. -/
inductive Sequential (initial : Settings) :
    List (SettingsOperation Settings) → Settings → Bool → Prop
  | start : Sequential initial [] initial false
  | perform (operation : SettingsOperation Settings)
      (earlier : List (SettingsOperation Settings)) (current next : Settings) (loaded : Bool) :
      Sequential initial earlier current loaded → operation.apply current = some next →
      Sequential initial (operation :: earlier) next true

theorem Sequential.unique {initial first second : Settings} {loaded other : Bool}
    {operations : List (SettingsOperation Settings)}
    (left : Sequential initial operations first loaded)
    (right : Sequential initial operations second other) : first = second ∧ loaded = other := by
  induction left generalizing second other with
  | start =>
      cases right
      exact ⟨rfl, rfl⟩
  | perform operation earlier current next loaded _ applied ih =>
      cases right with
      | perform _ _ current' next' loaded' before applied' =>
          rw [(ih before).1] at applied
          exact ⟨Option.some.inj (applied.symm.trans applied'), rfl⟩

/-- What the history says about the results of a call. -/
structure CallReported (history : List (SettingsEvent Settings)) (index : Nat)
    (call : SettingsCall Settings) : Prop where
  failed : call.sent = .finishing false ∨ call.sent = .finished false →
    .rolledBack index ∈ history
  returned : ∀ succeeds, .returned index succeeds ∈ history → call.pc = .returned succeeds
  completed : ∀ succeeded, .completed index succeeded ∈ history ↔ call.sent = .finished succeeded
  following : ∀ succeeded, call.tracker = .finishing succeeded ∨ call.tracker = .finished succeeded →
    call.sent = .finished succeeded
  tracked : ∀ succeeded, .tracked index succeeded ∈ history →
    call.tracker = .finished succeeded

def SettingsEvent.isReport : SettingsEvent Settings → Bool
  | .returned _ _ | .completed _ _ | .tracked _ _ => true
  | _ => false

variable {index : Nat} {call : SettingsCall Settings} {history : List (SettingsEvent Settings)}

/-- A call that moves on inside its method reports nothing. -/
theorem CallReported.running (reported : CallReported history index call)
    (events : List (SettingsEvent Settings)) (quiet : ∀ event ∈ events, event.isReport = false)
    (unreturned : ∀ succeeds, call.pc ≠ .returned succeeds) (pc : SettingsPc Settings) :
    CallReported (events ++ history) index { call with pc } := by
  have older : ∀ event : SettingsEvent Settings, event.isReport = true →
      event ∈ events ++ history → event ∈ history := by
    intro event report member
    rcases List.mem_append.mp member with member | member
    · rw [quiet event member] at report
      contradiction
    · exact member
  constructor
  · exact fun ended => List.mem_append_right _ (reported.failed ended)
  · exact fun succeeds member =>
      absurd (reported.returned succeeds (older _ rfl member)) (unreturned succeeds)
  · exact fun succeeded => ⟨fun member => (reported.completed succeeded).mp (older _ rfl member),
      fun finished => List.mem_append_right _ ((reported.completed succeeded).mpr finished)⟩
  · exact reported.following
  · exact fun succeeded member => reported.tracked succeeded (older _ rfl member)

namespace DefaultGlobalSettingsState

variable {state : DefaultGlobalSettingsState Settings} {next : SettingsAdvance Settings}

theorem Moves.reported (moves : state.Moves index call next) (placed : call.Placed)
    (reported : CallReported history index call) :
    CallReported (next.events ++ history) index next.call := by
  cases moves with
  | acquired here | retreated here | entered here | deepened here | persisted source here
  | unsubmitted source here | resumed succeeded here | left succeeds here =>
      exact reported.running [] (by simp) (by simp [here]) _
  | drafted here | committed source here | marked source here | cleared here =>
      exact reported.running [_] (by simp [SettingsEvent.isReport]) (by simp [here]) _
  | built source pc builds goes =>
      refine reported.running [] (by simp) (fun succeeds => ?_) _
      rcases builds with ⟨here, _⟩ | ⟨draft, here, _⟩ <;> simp [here]
  | abandoned here =>
      refine reported.running [_] (by simp [SettingsEvent.isReport]) (fun succeeds => ?_) _
      rcases here with here | ⟨draft, here⟩ | ⟨source, here⟩ <;> simp [here]
  | refused here | released succeeds here =>
      obtain ⟨failed, returned, completed, following, tracked⟩ := reported
      refine ⟨?_, ?_, ?_, following, ?_⟩
      · simpa using failed
      · intro result member
        simp only [List.cons_append, List.nil_append, List.mem_cons,
          SettingsEvent.returned.injEq, true_and] at member
        rcases member with rfl | member
        · rfl
        · rw [here] at returned
          cases returned result member
      · simpa using completed
      · simpa using tracked
  | submitted source here =>
      have absent : call.sent = .absent := by
        simpa only [SettingsCall.Placed, here] using placed
      obtain ⟨failed, returned, completed, following, tracked⟩ := reported
      constructor <;> simp_all
  | watched source here sent | observed source succeeded here sent =>
      obtain ⟨failed, returned, completed, following, tracked⟩ := reported
      constructor <;> simp_all
  | heard source succeeded sent | notified source succeeded sent | settled source sent
  | failed source sent =>
      obtain ⟨failed, returned, completed, following, tracked⟩ := reported
      constructor <;> simp_all
  | completed succeeded tracker sent goes =>
      obtain ⟨failed, returned, completed, following, tracked⟩ := reported
      have unfinished : ∀ result, call.tracker ≠ .finishing result ∧
          call.tracker ≠ .finished result := by
        intro result
        constructor
        all_goals
          intro here
          have done := following result (by simp [here])
          rw [sent] at done
          contradiction
      refine ⟨?_, by simpa using returned, ?_, ?_, ?_⟩
      · intro ended
        simp only [reduceCtorEq, SentPhase.finished.injEq, false_or] at ended
        exact List.mem_cons_of_mem _ (failed (.inl (ended ▸ sent)))
      · intro result
        have fresh : .completed index result ∉ history := by
          intro member
          rw [(completed result).mp member] at sent
          contradiction
        simp [fresh, eq_comm]
      · intro result ended
        rcases goes with rfl | rfl
        · rcases ended with ended | ended
          · exact absurd ended (unfinished result).1
          · exact absurd ended (unfinished result).2
        · simp only [TrackerPhase.finishing.injEq, reduceCtorEq, or_false] at ended
          rw [ended]
      · intro result member
        have earlier : .tracked index result ∈ history := by simpa using member
        exact absurd (tracked result earlier) (unfinished result).2
  | follows tracker here absent goes =>
      obtain ⟨failed, returned, completed, following, tracked⟩ := reported
      refine ⟨failed, returned, completed, ?_, ?_⟩
      · intro result watching
        rcases goes with rfl | ⟨succeeded, sent, rfl⟩
        · simp at watching
        · simp only [TrackerPhase.finishing.injEq, reduceCtorEq, or_false] at watching
          exact watching ▸ sent
      · intro result member
        have done := tracked result member
        rw [absent] at done
        contradiction
  | tracked succeeded here =>
      obtain ⟨failed, returned, completed, following, tracked⟩ := reported
      constructor <;> simp_all

end DefaultGlobalSettingsState

/-- The events of other calls are not about this one. -/
theorem mem_foreign {events history : List (SettingsEvent Settings)} {index : Nat}
    {event : SettingsEvent Settings} (foreign : ∀ event ∈ events, event.call = index)
    (different : event.call ≠ index) : event ∈ events ++ history ↔ event ∈ history := by
  rw [List.mem_append]
  exact or_iff_right fun member => different (foreign event member)

theorem StageLogged.foreign {events : List (SettingsEvent Settings)} {other : Nat}
    {operation : SettingsOperation Settings} {stage : TransactionStage}
    (logged : StageLogged history other operation stage)
    (foreign : ∀ event ∈ events, event.call = index) (different : other ≠ index) :
    StageLogged (events ++ history) other operation stage := by
  have same : ∀ {event : SettingsEvent Settings}, event.call = other →
      event ∈ events ++ history → event ∈ history :=
    fun own => (mem_foreign foreign (own ▸ different)).mp
  have grown : ∀ {event : SettingsEvent Settings}, event ∈ history → event ∈ events ++ history :=
    List.mem_append_right _
  constructor
  · exact fun performed member => logged.committed performed (same rfl member)
  · exact fun member => logged.rolledBack (same rfl member)
  · exact fun isOver => grown (logged.succeeded isOver)
  · intro member
    rcases logged.drafted (same rfl member) with exclusive | outstanding | concluded
    · exact .inl exclusive
    · exact .inr (.inl outstanding)
    · exact .inr (.inr (concluded.mono (List.subset_append_right _ _)))
  · intro member
    exact (logged.submitted (same rfl member)).imp_right
      fun concluded => concluded.mono (List.subset_append_right _ _)
  · exact fun outstanding => grown (logged.outstanding outstanding)

theorem CallReported.foreign {events : List (SettingsEvent Settings)} {other : Nat}
    (reported : CallReported history other call)
    (foreign : ∀ event ∈ events, event.call = index) (different : other ≠ index) :
    CallReported (events ++ history) other call := by
  have same : ∀ {event : SettingsEvent Settings}, event.call = other →
      (event ∈ events ++ history ↔ event ∈ history) :=
    fun own => mem_foreign foreign (own ▸ different)
  constructor
  · exact fun ended => (same rfl).mpr (reported.failed ended)
  · exact fun succeeds member => reported.returned succeeds ((same rfl).mp member)
  · exact fun succeeded => (same rfl).trans (reported.completed succeeded)
  · exact reported.following
  · exact fun succeeded member => reported.tracked succeeded ((same rfl).mp member)

/-- No transaction is cut in two by a commit of another one, and results are
reported after their commit or rollback. -/
def settingsLaw (older : List (SettingsEvent Settings)) : SettingsEvent Settings → Prop
  | .committed call _ => ¬ Concluded older call ∧
      ∀ other, other ≠ call → .drafted other ∈ older → Concluded older other
  | .completed call _ => Concluded older call
  | .tracked call succeeded => .completed call succeeded ∈ older
  | _ => True

namespace GlobalSettingsWorld

variable {world before after : GlobalSettingsWorld Settings} {initial : Settings}

structure Sound (initial : Settings) (world : GlobalSettingsWorld Settings) : Prop where
  stands : ∀ index call, world.calls[index]? = some call → CallStands world.state index call
  logged : ∀ index call, world.calls[index]? = some call →
    StageLogged world.history index call.operation call.stage
  reported : ∀ index call, world.calls[index]? = some call →
    CallReported world.history index call
  allocated : ∀ event ∈ world.history, event.call < world.calls.length
  marker : ∀ index, world.state.pending = some index →
    ∃ call, world.calls[index]? = some call ∧ call.stage = .outstanding
  law : Guarded settingsLaw world.history
  sequential : Sequential initial (operations world.history) world.state.settings
    world.state.loaded

/-- The call that performs its operation is alone: nobody else has a draft. -/
theorem Sound.alone (sound : world.Sound initial) {index other : Nat}
    {call : SettingsCall Settings} (found : world.calls[index]? = some call)
    (running : call.stage = .exclusive ∨ call.stage = .outstanding) (different : other ≠ index)
    (drafted : .drafted other ∈ world.history) : Concluded world.history other := by
  have within := sound.allocated _ drafted
  have there : world.calls[other]? = some world.calls[other] := List.getElem?_eq_getElem within
  have mine := sound.stands index call found
  have theirs := sound.stands other _ there
  rcases (sound.logged other _ there).drafted drafted with exclusive | outstanding | concluded
  · have idle := theirs.exclusive exclusive
    have owner := theirs.locked (SettingsCall.exclusive_holdsLock exclusive)
    rcases running with running | running
    · rw [mine.locked (SettingsCall.exclusive_holdsLock running), Option.some.injEq] at owner
      exact absurd owner.symm different
    · rw [mine.outstanding running] at idle
      contradiction
  · have marker := theirs.outstanding outstanding
    rcases running with running | running
    · rw [mine.exclusive running] at marker
      contradiction
    · rw [mine.outstanding running, Option.some.injEq] at marker
      exact absurd marker.symm different
  · exact concluded

theorem Sound.lawful (sound : world.Sound initial) {index : Nat} {call : SettingsCall Settings}
    {next : SettingsAdvance Settings} (found : world.calls[index]? = some call)
    (moves : world.state.Moves index call next) :
    Guarded settingsLaw (next.events ++ world.history) := by
  have law := sound.law
  have stands := sound.stands index call found
  have logged := sound.logged index call found
  have reported := sound.reported index call found
  have performs : (call.stage = .exclusive ∨ call.stage = .outstanding) →
      Guarded settingsLaw (.committed index call.operation :: world.history) :=
    fun running => ⟨⟨logged.unconcluded running,
      fun other different drafted => sound.alone found running different drafted⟩, law⟩
  have placed := stands.placed
  unfold SettingsCall.Placed at placed
  cases moves with
  | committed source here =>
      simp only [here] at placed
      exact performs (.inl (by rw [SettingsCall.stage_absent placed, here]; rfl))
  | settled source sent => exact performs (.inr (by simp only [SettingsCall.stage, sent]; rfl))
  | completed succeeded tracker sent =>
      refine ⟨?_, law⟩
      cases succeeded with
      | true => exact .inl ⟨_, logged.succeeded (by simp only [SettingsCall.stage, sent]; rfl)⟩
      | false => exact .inr (reported.failed (.inl sent))
  | tracked succeeded finishing =>
      have done := reported.following succeeded (.inl finishing)
      exact ⟨(reported.completed succeeded).mpr done, law⟩
  | refused | drafted | abandoned | marked | cleared | released | failed => exact ⟨trivial, law⟩
  | _ => exact law

theorem Sound.move (sound : before.Sound initial) {index : Nat} {call : SettingsCall Settings}
    {next : SettingsAdvance Settings} (found : before.calls[index]? = some call)
    (moves : before.state.Moves index call next) :
    Sound initial {
      state := next.state
      calls := before.calls.set index next.call
      history := next.events ++ before.history } := by
  have stands := sound.stands index call found
  have foreign := moves.events
  have slots : ∀ {Holds : Nat → SettingsCall Settings → Prop}, Holds index next.call →
      (∀ other call, other ≠ index → before.calls[other]? = some call → Holds other call) →
      ∀ other call, (before.calls.set index next.call)[other]? = some call → Holds other call := by
    intro Holds own others other slot there
    rw [getElem?_set_found found] at there
    split at there
    · next same =>
      cases there
      exact same ▸ own
    · next different => exact others other slot different there
  constructor
  · exact slots (moves.stands stands) fun other call different there =>
      (sound.stands other call there).others (moves.respects stands) different
  · refine slots ?_ fun other call different there =>
      (sound.logged other call there).foreign foreign different
    rw [moves.operation]
    exact (moves.stageMoves stands.placed).logged (sound.logged index call found)
  · exact slots (moves.reported stands.placed (sound.reported index call found))
      fun other call different there => (sound.reported other call there).foreign foreign different
  · intro event member
    rw [List.length_set]
    rcases List.mem_append.mp member with member | member
    · rw [foreign event member]
      exact (List.getElem?_eq_some_iff.mp found).1
    · exact sound.allocated event member
  · intro marked pending
    dsimp only at pending ⊢
    rw [getElem?_set_found found]
    have earlier : next.state.pending = before.state.pending →
        (call.stage = .outstanding → next.call.stage = .outstanding) →
        ∃ slot, (if marked = index then some next.call else before.calls[marked]?) = some slot ∧
          slot.stage = .outstanding := by
      intro same kept
      obtain ⟨slot, there, outstanding⟩ := sound.marker marked (same.symm.trans pending)
      by_cases own : marked = index
      · subst own
        rw [found, Option.some.injEq] at there
        exact ⟨next.call, if_pos rfl, kept (there ▸ outstanding)⟩
      · exact ⟨slot, by rw [if_neg own, there], outstanding⟩
    rcases moves.marker stands.placed with
      ⟨_, idle⟩ | ⟨outstanding, mine⟩ | ⟨_, idle | ⟨same, other⟩⟩ | ⟨stage, same⟩
    · rw [idle] at pending
      contradiction
    · rw [mine, Option.some.injEq] at pending
      exact ⟨next.call, if_pos pending.symm, outstanding⟩
    · rw [idle] at pending
      contradiction
    · exact earlier same fun outstanding => absurd outstanding other
    · exact earlier same fun outstanding => stage.trans outstanding
  · exact sound.lawful found moves
  · have added : operations (next.events ++ before.history) =
        operations next.events ++ operations before.history := List.filterMap_append
    dsimp only
    rw [added]
    rcases moves.effect stands with ⟨quiet, settings, loaded⟩ | ⟨performed, applied, loaded⟩
    · rw [quiet, settings, loaded]
      exact sound.sequential
    · rw [performed, loaded]
      exact .perform _ _ _ _ _ sound.sequential applied

/-- A new call has logged nothing and relies on nothing. -/
theorem Sound.begin (sound : before.Sound initial) (operation : SettingsOperation Settings) :
    Sound initial { before with
      calls := before.calls ++ [({ operation } : SettingsCall Settings)] } := by
  have silent : ∀ event ∈ before.history, event.call ≠ before.calls.length := by
    intro event member same
    exact absurd (sound.allocated event member) (same ▸ Nat.lt_irrefl _)
  have slots : ∀ {Holds : Nat → SettingsCall Settings → Prop},
      Holds before.calls.length { operation } →
      (∀ other call, before.calls[other]? = some call → Holds other call) →
      ∀ other call, (before.calls ++ [({ operation } : SettingsCall Settings)])[other]? =
        some call → Holds other call := by
    intro Holds own others other slot there
    rw [List.getElem?_append] at there
    split at there
    · exact others other slot there
    · have last : other = before.calls.length := by
        have within := (List.getElem?_eq_some_iff.mp there).1
        simp only [List.length_singleton] at within
        omega
      subst last
      simp only [Nat.sub_self, List.getElem?_cons_zero, Option.some.injEq] at there
      exact there ▸ own
  constructor
  · refine slots ?_ sound.stands
    constructor <;> simp [SettingsPc.holdsLock, SettingsCall.stage, SettingsPc.stage,
      SentPhase.stage?, SettingsPc.source?, SentPhase.source?, SettingsCall.Placed,
      SettingsPc.isAsync]
  · refine slots ?_ sound.logged
    refine ⟨fun performed member => ?_, fun member => ?_,
      by simp [SettingsCall.stage, SettingsPc.stage, SentPhase.stage?], fun member => ?_,
      fun member => ?_, by simp [SettingsCall.stage, SettingsPc.stage, SentPhase.stage?]⟩
    all_goals exact absurd rfl (silent _ member)
  · refine slots ?_ sound.reported
    refine ⟨by simp, fun _ member => ?_, fun succeeded => ⟨fun member => ?_, by simp⟩, by simp,
      fun _ member => ?_⟩
    all_goals exact absurd rfl (silent _ member)
  · intro event member
    rw [List.length_append]
    exact Nat.lt_add_right _ (sound.allocated event member)
  · intro index pending
    obtain ⟨call, there, outstanding⟩ := sound.marker index pending
    have within := (List.getElem?_eq_some_iff.mp there).1
    exact ⟨call, by rw [List.getElem?_append_left within, there], outstanding⟩
  · exact sound.law
  · exact sound.sequential

theorem Sound.step {label : SettingsLabel Settings} (sound : before.Sound initial)
    (stepped : before.step label = some after) : after.Sound initial := by
  cases label with
  | begin operation =>
      cases stepped
      exact sound.begin operation
  | move index move =>
      simp only [GlobalSettingsWorld.step] at stepped
      split at stepped
      · contradiction
      · next call found =>
        simp only [Option.map_eq_some_iff] at stepped
        obtain ⟨next, moved, rfl⟩ := stepped
        exact sound.move found (moved_cases moved)

theorem sound (reachable : (globalSettingsSystem initial).Reachable world) :
    world.Sound initial := by
  refine reachable.invariant ?_ fun _ _ _ sound stepped => sound.step stepped
  intro first start
  subst start
  constructor
  · exact fun index call found => by simp at found
  · exact fun index call found => by simp at found
  · exact fun index call found => by simp at found
  · exact fun event member => by simp at member
  · exact fun index pending => by simp at pending
  · trivial
  · exact .start

/-- The run of the calls so far is serializable, and every result is a true one. -/
structure Serializable (initial : Settings) (world : GlobalSettingsWorld Settings) : Prop where
  /-- The settings and the loaded flag are those of the operations that took effect. -/
  sequential : Sequential initial (operations world.history) world.state.settings
    world.state.loaded
  performed : ∀ call operation, .committed call operation ∈ world.history →
    ∃ entry, world.calls[call]? = some entry ∧ entry.operation = operation
  once : ∀ newer older call operation,
    world.history = newer ++ .committed call operation :: older → ¬ Concluded older call
  succeeded : ∀ call entry, world.calls[call]? = some entry →
    .completed call true ∈ world.history ∨
      (.returned call true ∈ world.history ∧ entry.operation.isAsync = false) →
    .committed call entry.operation ∈ world.history
  /-- Nothing is committed between a draft and its own commit or rollback. -/
  undisturbed : ∀ newer older call operation other,
    world.history = newer ++ .committed call operation :: older → other ≠ call →
    .drafted other ∈ older → Concluded older other
  failed : ∀ call, .rolledBack call ∈ world.history ∨ .returned call false ∈ world.history ∨
      .completed call false ∈ world.history ∨ .tracked call false ∈ world.history →
    ∀ operation, .committed call operation ∉ world.history
  unaffected : ∀ label after, world.step label = some after →
    operations after.history = operations world.history →
    after.state.settings = world.state.settings ∧ after.state.loaded = world.state.loaded
  completed : ∀ newer older call succeeded,
    world.history = newer ++ .completed call succeeded :: older ∨
      world.history = newer ++ .tracked call succeeded :: older →
    Concluded older call
  /-- The marker is set exactly while an asynchronous write is outstanding. -/
  outstanding : ∀ call, world.state.pending = some call ↔
    .submitted call ∈ world.history ∧ ¬ Concluded world.history call
  cleared : ∀ call, .returned call false ∈ world.history ∨
      (∃ succeeded, .completed call succeeded ∈ world.history) →
    world.state.pending ≠ some call

/-- An event is about a call that was begun. -/
theorem Sound.entry (sound : world.Sound initial) {event : SettingsEvent Settings}
    (member : event ∈ world.history) : ∃ entry, world.calls[event.call]? = some entry :=
  ⟨_, List.getElem?_eq_getElem (sound.allocated event member)⟩

theorem Sound.failed (sound : world.Sound initial) {call : Nat}
    (fails : .rolledBack call ∈ world.history ∨ .returned call false ∈ world.history ∨
      .completed call false ∈ world.history ∨ .tracked call false ∈ world.history)
    (operation : SettingsOperation Settings) : .committed call operation ∉ world.history := by
  intro committed
  obtain ⟨entry, found⟩ := sound.entry committed
  have isOver := ((sound.logged call entry found).committed operation committed).2
  have reported := sound.reported call entry found
  have placed := (sound.stands call entry found).placed
  have finished : entry.sent ≠ .finished false := by
    intro sent
    simp [SettingsCall.stage, sent, SentPhase.stage?] at isOver
  rcases fails with rolledBack | returned | completed | tracked
  · rw [(sound.logged call entry found).rolledBack rolledBack] at isOver
    simp at isOver
  · have here := reported.returned false returned
    simp only [SettingsCall.Placed, here, Bool.false_eq_true, or_false] at placed
    rw [SettingsCall.stage_absent placed, here] at isOver
    simp [SettingsPc.stage] at isOver
  · exact finished ((reported.completed false).mp completed)
  · exact finished (reported.following false (.inr (reported.tracked false tracked)))

theorem Sound.outstanding (sound : world.Sound initial) (call : Nat) :
    world.state.pending = some call ↔
      .submitted call ∈ world.history ∧ ¬ Concluded world.history call := by
  constructor
  · intro pending
    obtain ⟨entry, found, outstanding⟩ := sound.marker call pending
    have logged := sound.logged call entry found
    exact ⟨logged.outstanding outstanding, logged.unconcluded (.inr outstanding)⟩
  · rintro ⟨submitted, running⟩
    obtain ⟨entry, found⟩ := sound.entry submitted
    rcases (sound.logged call entry found).submitted submitted with outstanding | concluded
    · exact (sound.stands call entry found).outstanding outstanding
    · exact absurd concluded running

theorem Sound.cleared (sound : world.Sound initial) {call : Nat}
    (ended : .returned call false ∈ world.history ∨
      (∃ succeeded, .completed call succeeded ∈ world.history)) :
    world.state.pending ≠ some call := by
  intro pending
  obtain ⟨entry, found, outstanding⟩ := sound.marker call pending
  have reported := sound.reported call entry found
  have placed := (sound.stands call entry found).placed
  rcases ended with returned | ⟨succeeded, completed⟩
  · have here := reported.returned false returned
    simp only [SettingsCall.Placed, here, Bool.false_eq_true, or_false] at placed
    rw [SettingsCall.stage_absent placed, here] at outstanding
    contradiction
  · have sent := (reported.completed succeeded).mp completed
    simp [SettingsCall.stage, sent, SentPhase.stage?] at outstanding

theorem Sound.succeeded (sound : world.Sound initial) {call : Nat} {entry : SettingsCall Settings}
    (found : world.calls[call]? = some entry)
    (succeeds : .completed call true ∈ world.history ∨
      (.returned call true ∈ world.history ∧ entry.operation.isAsync = false)) :
    .committed call entry.operation ∈ world.history := by
  have logged := sound.logged call entry found
  have reported := sound.reported call entry found
  rcases succeeds with completed | ⟨returned, synchronous⟩
  · have sent := (reported.completed true).mp completed
    exact logged.succeeded (by simp only [SettingsCall.stage, sent]; rfl)
  · have absent := ((sound.stands call entry found).direct synchronous).2
    refine logged.succeeded ?_
    rw [SettingsCall.stage_absent absent, reported.returned true returned]
    rfl

theorem serializable (reachable : (globalSettingsSystem initial).Reachable world) :
    world.Serializable initial := by
  have holds := sound reachable
  constructor
  · exact holds.sequential
  · intro call operation committed
    obtain ⟨entry, found⟩ := holds.entry committed
    have same := ((holds.logged call entry found).committed operation committed).1
    exact ⟨entry, found, same.symm⟩
  · intro newer older call operation split
    have law := holds.law
    rw [split] at law
    exact law.at_event.1
  · exact fun call entry found => holds.succeeded found
  · intro newer older call operation other split different drafted
    have law := holds.law
    rw [split] at law
    exact law.at_event.2 other different drafted
  · exact fun call => holds.failed
  · intro label after stepped same
    have next := (holds.step stepped).sequential
    rw [same] at next
    exact next.unique holds.sequential
  · intro newer older call succeeded split
    have law := holds.law
    rcases split with split | split
    · rw [split] at law
      exact law.at_event
    · rw [split] at law
      have completed := law.at_event
      obtain ⟨later, earlier, completed_split⟩ := List.append_of_mem completed
      rw [completed_split, ← List.cons_append, ← List.append_assoc] at law
      refine Concluded.mono law.at_event ?_
      rw [completed_split]
      exact List.subset_append_of_subset_right _ (List.subset_cons_self _ _)
  · exact holds.outstanding
  · exact fun call => holds.cleared

end GlobalSettingsWorld

def sampleUpdate : SettingsOperation Nat := .write (.update fun draft => some (draft + 2)) true

def proceeds (index : Nat) (count : Nat) : List (SettingsLabel Nat) :=
  List.replicate count (.move index (.proceed false))

/-- The update has its draft and its marker when the receive takes the lock. -/
def overlappingLabels : List (SettingsLabel Nat) :=
  ([.begin sampleUpdate] : List (SettingsLabel Nat)) ++ proceeds 0 10 ++ ([.begin (.receive 5)] : List (SettingsLabel Nat)) ++ proceeds 1 1 ++
    ([.move 0 (.finishSent true), .move 0 .completeAsync, .move 0 .completeAsync] : List (SettingsLabel Nat)) ++ proceeds 1 6

def overlappingRun : Option (GlobalSettingsWorld Nat) :=
  (globalSettingsSystem 1).exec { state := { settings := 1 } } overlappingLabels

def overlappingWorld : GlobalSettingsWorld Nat := overlappingRun.get (by decide +kernel)

theorem overlappingWorld_reachable : (globalSettingsSystem 1).Reachable overlappingWorld :=
  System.Reachable.exec (.initial rfl) (Option.some_get _).symm

theorem serializable_run :
    Sequential 1 (operations overlappingWorld.history) 5 true ∧
      operations overlappingWorld.history = [.receive 5, sampleUpdate] := by
  have settings : overlappingWorld.state.settings = 5 := by decide +kernel
  have loaded : overlappingWorld.state.loaded = true := by decide +kernel
  have serializable := GlobalSettingsWorld.serializable overlappingWorld_reachable
  refine ⟨?_, rfl⟩
  have run := serializable.sequential
  rw [settings, loaded] at run
  exact run

end StreamDockSdk.Runtime
