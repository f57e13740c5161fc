import StreamDockSdk.Runtime.Application.Graceful

namespace StreamDockSdk.Runtime

open Automaton ComposedStreamDockRuntime

/-- The calls by which `run` gets on: its own steps and those of the call of `run_forever`. -/
def ofRun : ApplicationLabel → Bool
  | .runStep _ | .runtime (.runner _ _) => true
  | _ => false

/-- The calls of `stop`, and those of `close` that they make. -/
def ofStop : ApplicationLabel → Bool
  | .stopper _ _ | .runtime (.closer _ _) => true
  | _ => false

/-- How many steps the call of `run_forever` has still to make at most. -/
def RunPc.left : RunPc → Nat
  | .entering => 21
  | .startingScheduler => 20
  | .checking .scheduler => 19
  | .starting .scheduler => 18
  | .checking .eventPump => 17
  | .starting .eventPump => 16
  | .checking .sessionPump => 15
  | .starting .sessionPump => 14
  | .announcing => 13
  | .checkingBoundary => 12
  | .startingBoundary => 11
  | .waiting => 10
  | .awaitingBoundary => 9
  | .judging => 8
  | .judgingFailure => 7
  | .recording => 6
  | .finalizing _ => 5
  | .launchingCleanup _ => 4
  | .awaitingCleanup _ => 3
  | .concluding _ => 2
  | .settling _ => 1
  | .rejected | .ended _ => 0

/-- How many steps `run` has still to make at most, those of `run_forever` included where it
has not called it yet. -/
def ApplicationRunPc.left (services : Nat) : ApplicationRunPc → Nat
  | .idle => 3 * services + 27
  | .checking service => 3 * (services - service) + 27
  | .starting service => 3 * (services - (service + 1)) + 29
  | .recording service => 3 * (services - (service + 1)) + 28
  | .handingOver => 26
  | .calling => 25
  | .running _ => 3
  | .finishing _ => 2
  | .awaiting _ => 1
  | .returned | .raised _ => 0

namespace ApplicationWorld

/-- How many steps the threads of `run` have still to make at most. -/
def left (world : ApplicationWorld) : Nat :=
  world.application.run.left world.application.services +
    weight RunPc.left world.runtime.runners

/-- `stop` has reached the runtime, and the hand-over is still to come. -/
def Late (world : ApplicationWorld) : Prop :=
  world.runtime.runtime.shutdownRequested = true ∧
    (world.application.run = .calling ∨ .entering ∈ world.runtime.runners)

/-- `run_forever` waits for the end of the boundary's run, or for a request to shut down. -/
def Waits (world : ApplicationWorld) : Prop :=
  world.runtime.runners = [.waiting] ∧ world.runtime.runtime.boundaryRunComplete = false ∧
    world.runtime.runtime.shutdownRequested = false

end ApplicationWorld

/-- `run` has not raised and the runtime has not failed; unless a stop came in the wrong
moment, `run` gets on until it returns, and a stop makes it return. -/
structure EndsNormally (services : Nat) (hasOnStop : Bool) (world : ApplicationWorld) : Prop where
  run : ∀ error, world.application.run ≠ .raised error
  runtime : world.runtime.runtime.state ≠ .failed
  /-- `run` makes so many steps in any run from here, and no more. -/
  bounded : ∀ labels later, (applicationSystem services hasOnStop).exec world labels = some later →
    labels.countP ofRun ≤ world.left
  /-- Only the boundary, or a stop, is waited for. -/
  progress : world.application.run ≠ .idle → world.application.run ≠ .returned → ¬world.Late →
    world.Waits ∨ ∃ label after, ofRun label = true ∧ graceful world label = true ∧
      handsOverInTime world label = true ∧ world.step label = some after
  /-- Once `stop` is called, the steps of its call and those of `run` make `run` return. -/
  returns : world.application.run ≠ .idle → world.stoppers ≠ [] → ¬world.Late →
    (applicationSystem services hasOnStop).Leads (fun world label =>
      (graceful world label = true ∧ handsOverInTime world label = true) ∧
        (ofRun label || ofStop label) = true)
      (fun later => later.application.run = .returned) world

/-- Every step of `run_forever` leaves less to be done. -/
theorem ComposedStreamDockRuntime.Runs.left {runtime : ComposedStreamDockRuntime} {pc : RunPc}
    {result : ComposedStreamDockRuntime × RunPc} (runs : Runs runtime pc result) :
    result.2.left < pc.left := by
  cases runs with
  | moves moves =>
      cases moves with
      | skip worker | go worker | startFailed worker | startInterrupted worker =>
          cases worker <;> simp [RunPc.left, afterSkip]
      | _ => simp [RunPc.left, afterStart]
  | start worker => cases worker <;> simp [RunPc.left, afterStart]
  | failBoundary next => rcases next with rfl | rfl <;> simp [RunPc.left]
  | _ => simp [RunPc.left]

theorem conclusion_left (services : Nat) (error : Option ApplicationError) :
    (conclusion error).left services = 0 := by
  cases error <;> rfl

namespace ApplicationWorld

variable {world after : ApplicationWorld} {move : RuntimeMove} {label : ApplicationLabel}

theorem advanceRun_left (advanced : world.advanceRun world.application.run move = some after) :
    after.left < world.left := by
  unfold ApplicationWorld.advanceRun at advanced
  unfold ApplicationWorld.left
  split at advanced
  · next at_ =>
    split at advanced
    · split at advanced <;> cases advanced <;>
      · simp only [at_, ApplicationWorld.after, ApplicationRunPc.left]
        omega
    · cases advanced
      simp only [at_, ApplicationWorld.after, ApplicationRunPc.left]
      omega
  · next at_ =>
    cases advanced
    simp only [at_, ApplicationWorld.after, ApplicationRunPc.left]
    omega
  · next at_ =>
    cases advanced
    simp only [at_, ApplicationWorld.after, ApplicationRunPc.left]
    omega
  · next at_ =>
    cases advanced
    simp only [at_, ApplicationWorld.after, ApplicationRunPc.left]
    omega
  · next at_ =>
    split at advanced <;> cases advanced <;>
    · simp only [at_, ApplicationWorld.after, ApplicationRunPc.left]
      omega
  · next at_ =>
    cases advanced
    simp only [at_, ApplicationRunPc.left, weight_append]
    simp only [weight, List.map_cons, List.map_nil, List.sum_cons, List.sum_nil, RunPc.left]
    omega
  · next at_ =>
    split at advanced
    · contradiction
    · cases advanced
      simp only [at_, ApplicationWorld.after, ApplicationRunPc.left]
      omega
  · next error at_ =>
    cases advanced
    have same : (if error.isSome = true then ({ world.runtime with
        runtime := { world.runtime.runtime with
          sharedFailure := world.runtime.runtime.sharedFailure.or (some .application) } } :
            RuntimeWorld) else world.runtime).runners = world.runtime.runners := by
      split <;> rfl
    simp only [at_, ApplicationWorld.after, ApplicationRunPc.left, same]
    omega
  · next error at_ =>
    cases advanced
    cases error <;>
    · simp only [at_, ApplicationWorld.after, ApplicationRunPc.left]
      omega
  · next error at_ =>
    split at advanced
    · cases advanced
      have ended : (if (world.application.serviceErrors && error.isNone) = true then
          ApplicationRunPc.raised .serviceStop else conclusion error).left
            world.application.services = 0 := by
        split
        · rfl
        · exact conclusion_left _ error
      simp only [at_, ApplicationWorld.after]
      rw [ended]
      simp only [ApplicationRunPc.left]
      omega
    · contradiction
  · next error at_ =>
    cases advanced
    simp only [at_, ApplicationWorld.after]
    rw [conclusion_left]
    simp only [ApplicationRunPc.left]
    omega
  · contradiction

/-- No step leaves more to be done, and those of `run` leave less. -/
theorem step_left (sound : ServiceSound world) (stepped : world.step label = some after) :
    after.left + (if ofRun label then 1 else 0) ≤ world.left := by
  cases label with
  | run =>
      simp only [ApplicationWorld.step] at stepped
      split at stepped
      · cases stepped
        exact Nat.le_refl _
      · next fresh =>
        cases stepped
        have idle : world.application.run = .idle := by
          by_contra begun
          simp [sound.ran begun] at fresh
        simp [ApplicationWorld.left, idle, ApplicationWorld.after, ApplicationRunPc.left, ofRun]
  | runStep move => exact advanceRun_left stepped
  | stop =>
      cases stepped
      exact Nat.le_refl _
  | stopper index fromWorker =>
      simp only [ApplicationWorld.step] at stepped
      split at stepped
      · cases stepped
        exact Nat.le_refl _
      · cases stepped
        exact Nat.le_refl _
      · contradiction
  | serviceCleanup move =>
      obtain ⟨application, advanced, rfl⟩ := Option.map_eq_some_iff.mp stepped
      have cleaned := StreamDockApplication.advanceCleanup_cleaned advanced
      simp [ApplicationWorld.left, ApplicationWorld.after, cleaned.run, cleaned.services, ofRun]
  | runtime label =>
      cases label with
      | run => contradiction
      | runner index move =>
          simp only [ApplicationWorld.step, Option.map_eq_some_iff] at stepped
          obtain ⟨runtime, moved, rfl⟩ := stepped
          obtain ⟨pc, result, found, advanced, rfl⟩ := RuntimeWorld.step_runner moved
          have less := (advanceRun_cases advanced).left
          have moved := weight_set RunPc.left result.2 found
          simp only [ApplicationWorld.left, ofRun, if_true]
          omega
      | _ =>
          simp only [ApplicationWorld.step, Option.map_eq_some_iff] at stepped
          obtain ⟨runtime, moved, rfl⟩ := stepped
          rcases RuntimeWorld.step_runners moved with same | ⟨called, _⟩ | ⟨_, _, _, _, called, _⟩
          · simp [ApplicationWorld.left, same, ofRun]
          · cases called
          · cases called

/-- What a step of `run` itself leaves alone. -/
structure RunBeside (world after : ApplicationWorld) : Prop where
  stoppers : after.stoppers = world.stoppers
  asked : after.application.stopRequested = world.application.stopRequested
  closers : after.runtime.closers = world.runtime.closers
  requested : after.runtime.runtime.shutdownRequested = world.runtime.runtime.shutdownRequested
  state : after.runtime.runtime.state = world.runtime.runtime.state
  runners : after.runtime.runners = world.runtime.runners ∨
    world.application.run = .calling ∧
      after.runtime.runners = world.runtime.runners ++ [.entering]
  calls : after.application.run = .calling →
    world.application.run = .handingOver ∧ world.application.stopRequested = false
  begun : after.application.run ≠ .idle

theorem advanceRun_beside (advanced : world.advanceRun world.application.run move = some after) :
    RunBeside world after := by
  unfold ApplicationWorld.advanceRun at advanced
  split at advanced
  · split at advanced
    · split at advanced <;> cases advanced <;>
        exact ⟨rfl, rfl, rfl, rfl, rfl, .inl rfl, nofun, nofun⟩
    · cases advanced
      exact ⟨rfl, rfl, rfl, rfl, rfl, .inl rfl, nofun, nofun⟩
  · cases advanced
    exact ⟨rfl, rfl, rfl, rfl, rfl, .inl rfl, nofun, nofun⟩
  · cases advanced
    exact ⟨rfl, rfl, rfl, rfl, rfl, .inl rfl, nofun, nofun⟩
  · cases advanced
    exact ⟨rfl, rfl, rfl, rfl, rfl, .inl rfl, nofun, nofun⟩
  · next at_ =>
    split at advanced
    · cases advanced
      exact ⟨rfl, rfl, rfl, rfl, rfl, .inl rfl, nofun, nofun⟩
    · next unasked =>
      cases advanced
      exact ⟨rfl, rfl, rfl, rfl, rfl, .inl rfl, fun _ => ⟨at_, by simpa using unasked⟩, nofun⟩
  · next at_ =>
    cases advanced
    exact ⟨rfl, rfl, rfl, rfl, rfl, .inr ⟨at_, rfl⟩, nofun, nofun⟩
  · split at advanced
    · contradiction
    · cases advanced
      exact ⟨rfl, rfl, rfl, rfl, rfl, .inl rfl, nofun, nofun⟩
  · next error at_ =>
    cases advanced
    refine ⟨rfl, rfl, ?_, ?_, ?_, .inl ?_, nofun, nofun⟩ <;> dsimp only <;> split <;> rfl
  · next error at_ =>
    cases advanced
    cases error <;> exact ⟨rfl, rfl, rfl, rfl, rfl, .inl rfl, nofun, nofun⟩
  · next error at_ =>
    split at advanced
    · cases advanced
      refine ⟨rfl, rfl, rfl, rfl, rfl, .inl rfl, ?_, ?_⟩
      · dsimp only [ApplicationWorld.after]
        split
        · exact nofun
        · cases error <;> exact nofun
      · dsimp only [ApplicationWorld.after]
        split
        · exact nofun
        · cases error <;> exact nofun
    · contradiction
  · next error at_ =>
    cases advanced
    cases error <;> exact ⟨rfl, rfl, rfl, rfl, rfl, .inl rfl, nofun, nofun⟩
  · contradiction

end ApplicationWorld

/-- What the calls of `stop` have asked for so far. -/
structure Asked (world : ApplicationWorld) : Prop where
  requested : ∀ pc ∈ world.stoppers, pc ≠ .requesting → world.application.stopRequested = true
  closers : world.application.stopRequested = false → world.runtime.closers = []
  unasked : world.runtime.runners = [] → world.runtime.runtime.shutdownRequested = true →
    world.application.stopRequested = true
  /-- A call that has reached the runtime has been heard there, or will be. -/
  heard : .called ∈ world.stoppers → world.runtime.runtime.shutdownRequested = true ∨
    world.runtime.runtime.state.terminal = true ∨
    ∃ fromWorker, .entering fromWorker ∈ world.runtime.closers

namespace Asked

variable {world after : ApplicationWorld}

/-- A step of the runtime's threads and of its callers, none of which calls `close` anew. -/
theorem runtimeStep (asked : Asked world) (sound : RuntimeSound world.runtime)
    {label : RuntimeLabel} {runtime : RuntimeWorld}
    (smooth : graceful world (.runtime label) = true)
    (stepped : world.runtime.step label = some runtime) : Asked { world with runtime } := by
  have persists := RuntimeWorld.step_persists stepped
  have closers := RuntimeWorld.step_closers stepped
  refine ⟨asked.requested, fun unasked => ?_, fun empty requested => ?_, fun called => ?_⟩
  · rcases closers with same | ⟨_, _, ⟨_, rfl⟩ | ⟨_, rfl⟩⟩ | ⟨index, pc, result, found, _, rfl⟩
    · exact same.trans (asked.closers unasked)
    · contradiction
    · contradiction
    · rw [asked.closers unasked] at found
      contradiction
  · by_contra unasked
    have still : world.application.stopRequested = false := by simpa using unasked
    have unrun : world.runtime.runners = [] := by
      rcases RuntimeWorld.step_runners stepped with
        same | ⟨_, grown⟩ | ⟨index, move, pc, result, _, found, _, rfl⟩
      · exact same.symm.trans empty
      · rw [empty] at grown
        simp at grown
      · simpa using empty
    have idle := (sound.untouched (by simp [Unrun, unrun])).2.1
    have before := RuntimeWorld.step_asks stepped unrun (asked.closers still) idle requested
    exact unasked (asked.unasked unrun before)
  · rcases asked.heard called with requested | ended | ⟨fromWorker, entering⟩
    · exact .inl (persists.requested requested)
    · exact .inr (.inl (persists.terminal ended))
    · rcases closers with same | ⟨_, grown, _⟩ | ⟨index, pc, result, found, closes, rfl⟩
      · exact .inr (.inr ⟨fromWorker, same ▸ entering⟩)
      · exact .inr (.inr ⟨fromWorker, grown ▸ List.mem_append_left _ entering⟩)
      · obtain ⟨position, located⟩ := List.mem_iff_getElem?.mp entering
        by_cases here : position = index
        · subst here
          rw [found] at located
          cases located
          exact closes.entered.imp_right .inl
        · refine .inr (.inr ⟨fromWorker, List.mem_of_getElem? (i := position) ?_⟩)
          rw [getElem?_set_found found, if_neg here]
          exact located

theorem step (asked : Asked world) (sound : RuntimeSound world.runtime) {label : ApplicationLabel}
    (smooth : graceful world label = true) (stepped : world.step label = some after) :
    Asked after := by
  cases label with
  | run =>
      simp only [ApplicationWorld.step] at stepped
      split at stepped <;> cases stepped <;>
        exact ⟨asked.requested, asked.closers, asked.unasked, asked.heard⟩
  | runStep move =>
      have beside := ApplicationWorld.advanceRun_beside stepped
      refine ⟨?_, ?_, fun empty => ?_, ?_⟩
      · rw [beside.stoppers, beside.asked]
        exact asked.requested
      · rw [beside.asked, beside.closers]
        exact asked.closers
      · rw [beside.asked, beside.requested]
        rcases beside.runners with same | ⟨_, grown⟩
        · exact asked.unasked (same.symm.trans empty)
        · rw [empty] at grown
          simp at grown
      · rw [beside.stoppers, beside.requested, beside.state, beside.closers]
        exact asked.heard
  | stop =>
      cases stepped
      refine ⟨fun pc member other => ?_, asked.closers, asked.unasked, fun called => ?_⟩
      · rcases List.mem_append.mp member with old | added
        · exact asked.requested pc old other
        · exact absurd (List.mem_singleton.mp added) other
      · refine asked.heard ((List.mem_append.mp called).resolve_right ?_)
        simp
  | stopper index fromWorker =>
      simp only [ApplicationWorld.step] at stepped
      split at stepped
      · cases stepped
        refine ⟨fun _ _ _ => rfl, by simp, fun _ _ => rfl, fun called => ?_⟩
        exact asked.heard ((List.mem_or_eq_of_mem_set called).resolve_right (by simp))
      · next found =>
        cases stepped
        have requested := asked.requested _ (List.mem_of_getElem? found) (by simp)
        refine ⟨fun _ _ _ => requested, fun unasked => ?_, fun _ _ => requested, fun _ => ?_⟩
        · rw [requested] at unasked
          contradiction
        · exact .inr (.inr ⟨fromWorker, List.mem_append_right _ (List.mem_singleton.mpr rfl)⟩)
      · contradiction
  | serviceCleanup move =>
      obtain ⟨application, advanced, rfl⟩ := Option.map_eq_some_iff.mp stepped
      have same := (StreamDockApplication.advanceCleanup_cleaned advanced).asked
      refine ⟨?_, ?_, ?_, asked.heard⟩
      · simpa only [ApplicationWorld.after, same] using asked.requested
      · simpa only [ApplicationWorld.after, same] using asked.closers
      · simpa only [ApplicationWorld.after, same] using asked.unasked
  | runtime label =>
      simp only [ApplicationWorld.step] at stepped
      split at stepped
      · contradiction
      · obtain ⟨runtime, moved, rfl⟩ := Option.map_eq_some_iff.mp stepped
        exact asked.runtimeStep sound smooth moved

end Asked

theorem asked {services : Nat} {hasOnStop : Bool} {world : ApplicationWorld}
    (reachable : (applicationSystem services hasOnStop).ReachableBy
      (fun world label => graceful world label = true ∧ handsOverInTime world label = true) world) :
    Asked world := by
  refine reachable.invariant_given (fun world => RuntimeSound world.runtime)
    (fun _ known => runtimeSound (runtime_reachable known)) ?_
    fun _ _ _ allowed sound holds stepped => holds.step sound allowed.1 stepped
  rintro _ rfl
  exact ⟨nofun, fun _ => rfl, nofun, nofun⟩

/-- A call of `run_forever` that follows the runtime waits for the end of the boundary's
run or for a request to shut down, and for nothing else. -/
theorem RunPc.Follows.progress {runtime : ComposedStreamDockRuntime} {pc : RunPc}
    (follows : pc.Follows runtime) (unfinished : pc.error? = none) :
    (pc = .waiting ∧ runtime.boundaryRunComplete = false ∧ runtime.shutdownRequested = false) ∨
      ∃ move result, move ≠ .raises ∧ move ≠ .interrupts ∧
        runtime.advanceRun pc move = some result := by
  cases pc with
  | rejected => exact follows.elim
  | judging | judgingFailure | recording => exact follows.elim
  | ended outcome => cases outcome <;> contradiction
  | checkingBoundary =>
      by_cases requested : runtime.shutdownRequested = true
      · exact .inr ⟨.proceed, _, nofun, nofun, if_pos requested⟩
      · exact .inr ⟨.proceed, _, nofun, nofun, if_neg requested⟩
  | waiting =>
      by_cases woken : (runtime.boundaryRunComplete || runtime.shutdownRequested) = true
      · exact .inr ⟨.proceed, _, nofun, nofun, if_pos woken⟩
      · exact .inl ⟨rfl, by simpa using woken⟩
  | awaitingBoundary => exact .inr ⟨.timesOut, _, nofun, nofun, rfl⟩
  | awaitingCleanup interrupted => exact .inr ⟨.timesOut, _, nofun, nofun, rfl⟩
  | _ => exact .inr ⟨.proceed, _, nofun, nofun, rfl⟩

theorem ApplicationWorld.advanceRun_progress (world : ApplicationWorld) {pc : ApplicationRunPc}
    (begun : pc ≠ .idle) (unreturned : pc ≠ .returned) (unraised : ∀ error, pc ≠ .raised error)
    (elsewhere : ∀ runner, pc ≠ .running runner) :
    ∃ move after, move ≠ .raises ∧ move ≠ .interrupts ∧ world.advanceRun pc move = some after := by
  cases pc with
  | idle => exact absurd rfl begun
  | returned => exact absurd rfl unreturned
  | raised error => exact absurd rfl (unraised error)
  | running runner => exact absurd rfl (elsewhere runner)
  | checking service =>
      refine ⟨.proceed, ?_⟩
      unfold ApplicationWorld.advanceRun
      dsimp only
      split
      · split <;> exact ⟨_, nofun, nofun, rfl⟩
      · exact ⟨_, nofun, nofun, rfl⟩
  | starting service => exact ⟨.returns true, _, nofun, nofun, rfl⟩
  | handingOver =>
      refine ⟨.proceed, ?_⟩
      unfold ApplicationWorld.advanceRun
      dsimp only
      split <;> exact ⟨_, nofun, nofun, rfl⟩
  | awaiting error => exact ⟨.timesOut, _, nofun, nofun, rfl⟩
  | recording | calling | finishing => exact ⟨.proceed, _, nofun, nofun, rfl⟩

namespace ApplicationCalm

variable {world after : ApplicationWorld} {label : ApplicationLabel}

theorem unraised (calm : ApplicationCalm world) (error : ApplicationError) :
    world.application.run ≠ .raised error := by
  intro at_
  have run := calm.run
  rw [at_] at run
  exact run

theorem progress (calm : ApplicationCalm world) (lodged : Lodged world)
    (begun : world.application.run ≠ .idle) (unreturned : world.application.run ≠ .returned)
    (early : ¬world.Late) :
    world.Waits ∨ ∃ label after, ofRun label = true ∧ graceful world label = true ∧
      handsOverInTime world label = true ∧ world.step label = some after := by
  by_cases running : ∃ runner, world.application.run = .running runner
  · obtain ⟨runner, at_⟩ := running
    obtain ⟨rfl, pc, alone⟩ := lodged.running runner at_
    have follows := calm.runtime.runners pc (by simp [alone])
    cases ended : pc.error? with
    | some error =>
        refine .inr ⟨.runStep .proceed, world.after { world.application with
          run := .finishing error }, rfl, rfl, rfl, ?_⟩
        simp only [ApplicationWorld.step, at_, ApplicationWorld.advanceRun, alone,
          List.getElem?_cons_zero, Option.bind_some, ended]
    | none =>
        rcases follows.progress ended with
          ⟨rfl, incomplete, unasked⟩ | ⟨move, result, raises, interrupts, advanced⟩
        · exact .inl ⟨alone, incomplete, unasked⟩
        · refine .inr ⟨.runtime (.runner 0 move), { world with runtime := { world.runtime with
            runtime := result.1, runners := world.runtime.runners.set 0 result.2 } }, rfl, ?_, ?_, ?_⟩
          · simp [graceful, raises, interrupts]
          · unfold handsOverInTime
            split
            · next label index same =>
              cases same
              -- A hand-over finds no request, as it is not too late for it.
              by_cases entering : pc = .entering
              · have unasked : world.runtime.runtime.shutdownRequested = false := by
                  by_contra requested
                  exact early ⟨by simpa using requested, .inr (by simp [alone, entering])⟩
                simp [unasked]
              · simp [alone, entering]
            · rfl
          · simp only [ApplicationWorld.step, RuntimeWorld.step, alone, List.getElem?_cons_zero,
              advanced, Option.map_some]
  · obtain ⟨move, after, raises, interrupts, advanced⟩ := world.advanceRun_progress begun unreturned
      calm.unraised fun runner at_ => running ⟨runner, at_⟩
    exact .inr ⟨.runStep move, after, rfl, by simp [graceful, raises, interrupts], rfl, advanced⟩

end ApplicationCalm

/-- How many steps the calls of `stop` make at most before the runtime has heard them. -/
def ApplicationStopPc.left : ApplicationStopPc → Nat
  | .requesting => 3
  | .closing => 2
  | .called => 0

def ClosePc.unheard : ClosePc → Nat
  | .entering _ => 1
  | _ => 0

namespace ApplicationWorld

variable {world after : ApplicationWorld} {label : ApplicationLabel}

def stopLeft (world : ApplicationWorld) : Nat :=
  weight ApplicationStopPc.left world.stoppers + weight ClosePc.unheard world.runtime.closers

/-- A step of `run` leaves the calls of `stop` alone, and does not come too late. -/
theorem ofRun_keeps (own : ofRun label = true) (lodged : Lodged world) (asked : Asked world)
    (stepped : world.step label = some after) :
    after.stoppers = world.stoppers ∧ after.stopLeft = world.stopLeft ∧
      after.application.run ≠ .idle ∧ (¬world.Late → ¬after.Late) := by
  cases label with
  | runStep move =>
      have beside := advanceRun_beside stepped
      refine ⟨beside.stoppers, by simp only [stopLeft, beside.stoppers, beside.closers],
        beside.begun, fun early late => ?_⟩
      obtain ⟨requested, calling | entering⟩ := late
      · obtain ⟨at_, unasked⟩ := beside.calls calling
        have empty := lodged.before (by rw [at_]; rfl)
        rw [asked.unasked empty (beside.requested ▸ requested)] at unasked
        contradiction
      · rcases beside.runners with same | ⟨calling, _⟩
        · exact early ⟨beside.requested ▸ requested, .inr (same ▸ entering)⟩
        · exact early ⟨beside.requested ▸ requested, .inl calling⟩
  | runtime label =>
      cases label with
      | runner index move =>
          simp only [ApplicationWorld.step, Option.map_eq_some_iff] at stepped
          obtain ⟨runtime, moved, rfl⟩ := stepped
          obtain ⟨pc, result, found, advanced, rfl⟩ := RuntimeWorld.step_runner moved
          obtain ⟨rfl, running, alone⟩ := lodged.alone found (advanceRun_unfinished advanced)
          refine ⟨rfl, rfl, by simp [running], fun _ late => ?_⟩
          obtain ⟨_, calling | entering⟩ := late
          · rw [running] at calling
            contradiction
          · rw [alone] at entering
            exact (advanceRun_cases advanced).not_entering (List.mem_singleton.mp entering).symm
      | _ => contradiction
  | _ => contradiction

/-- A step of a call of `stop`, before the runtime has heard it. -/
structure Hears (world after : ApplicationWorld) : Prop where
  left : after.stopLeft < world.stopLeft
  stoppers : after.stoppers ≠ []
  run : after.application.run = world.application.run
  runners : after.runtime.runners = world.runtime.runners

theorem hears (asked : Asked world) (called : world.stoppers ≠ [])
    (unasked : world.runtime.runtime.shutdownRequested = false)
    (unended : world.runtime.runtime.state.terminal = false) :
    ∃ label after, ofStop label = true ∧ graceful world label = true ∧
      handsOverInTime world label = true ∧ world.step label = some after ∧
      world.Hears after := by
  obtain ⟨pc, rest, stoppers⟩ := List.exists_cons_of_ne_nil called
  have first : world.stoppers[0]? = some pc := by rw [stoppers]; rfl
  have some_ (next : ApplicationStopPc) : world.stoppers.set 0 next ≠ [] := by
    rw [stoppers]
    exact nofun
  have moved (next : ApplicationStopPc) := weight_set ApplicationStopPc.left next first
  cases pc with
  | requesting =>
      have stepped : world.step (.stopper 0 false) = some { world with
          application := { world.application with stopRequested := true }
          stoppers := world.stoppers.set 0 .closing } := by
        simp only [ApplicationWorld.step, first]
      refine ⟨.stopper 0 false, _, rfl, rfl, rfl, stepped, ?_, some_ _, rfl, rfl⟩
      have moved := moved .closing
      simp only [ApplicationStopPc.left] at moved
      simp only [stopLeft]
      omega
  | closing =>
      have stepped : world.step (.stopper 0 false) = some { world with
          runtime := { world.runtime with
            closers := world.runtime.closers ++ [.entering false] }
          stoppers := world.stoppers.set 0 .called } := by
        simp only [ApplicationWorld.step, first, RuntimeWorld.step, Option.map_some]
      refine ⟨.stopper 0 false, _, rfl, rfl, rfl, stepped, ?_, some_ _, rfl, rfl⟩
      have moved := moved .called
      have new : weight ClosePc.unheard [.entering false] = 1 := rfl
      simp only [ApplicationStopPc.left] at moved
      simp only [stopLeft, weight_append, new]
      omega
  | called =>
      rcases asked.heard (List.mem_of_getElem? first) with
        requested | ended | ⟨fromWorker, entering⟩
      · rw [unasked] at requested
        contradiction
      · rw [unended] at ended
        contradiction
      · obtain ⟨index, found⟩ := List.mem_iff_getElem?.mp entering
        have stepped : world.step (.runtime (.closer index .proceed)) = some { world with
            runtime := { world.runtime with
              runtime := (world.runtime.runtime.enterClose fromWorker).1
              closers := world.runtime.closers.set index
                (world.runtime.runtime.enterClose fromWorker).2 } } := by
          simp only [ApplicationWorld.step, RuntimeWorld.step, found, advanceClose,
            Option.map_some]
        refine ⟨.runtime (.closer index .proceed), _, rfl, rfl, rfl, stepped, ?_, called, rfl, rfl⟩
        have moved := weight_set ClosePc.unheard
          (world.runtime.runtime.enterClose fromWorker).2 found
        have heard : (world.runtime.runtime.enterClose fromWorker).2.unheard = 0 := by
          unfold enterClose
          split <;> rfl
        have one : (ClosePc.entering fromWorker).unheard = 1 := rfl
        rw [heard, one] at moved
        simp only [stopLeft]
        omega

end ApplicationWorld

/-- Once `stop` is called, `run` can return, unless the stop came in the wrong moment. -/
theorem returns_of_stop {services : Nat} {hasOnStop : Bool} {world : ApplicationWorld}
    (reachable : (applicationSystem services hasOnStop).ReachableBy
      (fun world label => graceful world label = true ∧ handsOverInTime world label = true) world)
    (begun : world.application.run ≠ .idle) (called : world.stoppers ≠ []) (early : ¬world.Late) :
    (applicationSystem services hasOnStop).Leads (fun world label =>
      (graceful world label = true ∧ handsOverInTime world label = true) ∧
        (ofRun label || ofStop label) = true)
      (fun later => later.application.run = .returned) world := by
  refine System.Leads.of_measure (motive := fun reached =>
      (applicationSystem services hasOnStop).ReachableBy (fun world label =>
        graceful world label = true ∧ handsOverInTime world label = true) reached ∧
      reached.application.run ≠ .idle ∧ reached.stoppers ≠ [] ∧ ¬reached.Late)
    (fun reached => reached.left + reached.stopLeft) ?_ ⟨reachable, begun, called, early⟩
  rintro before ⟨reachable, begun, called, early⟩
  have calm := applicationCalm reachable
  have sound := serviceSound reachable.reachable
  have lodging := lodged reachable.reachable
  by_cases returned : before.application.run = .returned
  · exact .inl returned
  refine .inr ?_
  rcases calm.progress lodging begun returned early with
    ⟨alone, _, unasked⟩ | ⟨label, after, own, smooth, timely, stepped⟩
  · have follows := calm.runtime.runners .waiting (by simp [alone])
    have unended : before.runtime.runtime.state.terminal = false := by
      rcases follows.1 with state | state <;> rw [state] <;> rfl
    obtain ⟨label, after, own, smooth, timely, stepped, hears⟩ :=
      ApplicationWorld.hears (asked reachable) called unasked unended
    have left := ApplicationWorld.step_left sound stepped
    have less := hears.left
    refine ⟨label, after, ⟨⟨smooth, timely⟩, by simp [own]⟩, stepped,
      ⟨.step reachable ⟨smooth, timely⟩ stepped, hears.run ▸ begun, hears.stoppers, ?_⟩, by omega⟩
    rintro ⟨_, calling | entering⟩
    · have empty := lodging.before (by rw [← hears.run, calling]; rfl)
      rw [alone] at empty
      contradiction
    · rw [hears.runners, alone] at entering
      simp at entering
  · obtain ⟨stoppers, same, still, timelier⟩ :=
      ApplicationWorld.ofRun_keeps own lodging (asked reachable) stepped
    have left := ApplicationWorld.step_left sound stepped
    rw [if_pos own] at left
    refine ⟨label, after, ⟨⟨smooth, timely⟩, by simp [own]⟩, stepped,
      ⟨.step reachable ⟨smooth, timely⟩ stepped, still, stoppers ▸ called, timelier early⟩,
      by omega⟩

/-- `run_forever` has refused the call of `run`, or is bound to. -/
def Doomed (world : ApplicationWorld) : Prop :=
  match world.application.run with
  | .calling => world.runtime.runtime.shutdownRequested = true
  | .running runner => world.runtime.runners[runner]? = some .rejected ∨
      world.runtime.runners[runner]? = some .entering ∧
        world.runtime.runtime.shutdownRequested = true
  | .finishing error | .awaiting error => error = some .runtimeRejected
  | .raised error => error = .runtimeRejected
  | _ => False

/-- A call that is refused, or bound to be, stays so. -/
theorem RuntimeWorld.step_refused {world after : RuntimeWorld} {label : RuntimeLabel}
    (stepped : world.step label = some after) {index : Nat}
    (refused : world.runners[index]? = some .rejected ∨
      world.runners[index]? = some .entering ∧ world.runtime.shutdownRequested = true) :
    after.runners[index]? = some .rejected ∨
      after.runners[index]? = some .entering ∧ after.runtime.shutdownRequested = true := by
  have asks := (RuntimeWorld.step_persists stepped).requested
  -- The call itself has not moved.
  have still (same : after.runners[index]? = world.runners[index]?) :
      after.runners[index]? = some .rejected ∨
        after.runners[index]? = some .entering ∧ after.runtime.shutdownRequested = true := by
    rw [same]
    exact refused.imp_right (And.imp_right asks)
  have present : index < world.runners.length := by
    rcases refused with found | ⟨found, _⟩ <;> exact (List.getElem?_eq_some_iff.mp found).1
  rcases RuntimeWorld.step_runners stepped with
    same | ⟨_, called⟩ | ⟨position, move, pc, result, _, found, advanced, rfl⟩
  · exact still (by rw [same])
  · exact still (by rw [called, List.getElem?_append_left present])
  · by_cases here : index = position
    · subst here
      rcases refused with rejected | ⟨entering, requested⟩
      · rw [found] at rejected
        cases rejected
        exact nomatch advanceRun_unfinished advanced
      · rw [found] at entering
        cases entering
        refine .inl ((getElem?_set_found found index).trans ?_)
        rw [if_pos rfl]
        cases advanceRun_cases advanced with
        | reject => rfl
        | enter _ unasked =>
            rw [requested] at unasked
            contradiction
        | moves moves => cases moves
    · exact still ((getElem?_set_found found index).trans (if_neg here))

namespace Doomed

variable {world after : ApplicationWorld}

/-- A step that leaves `run` where it is. -/
theorem frame (doomed : Doomed world) (run : after.application.run = world.application.run)
    (requested : world.runtime.runtime.shutdownRequested = true →
      after.runtime.runtime.shutdownRequested = true)
    (refused : ∀ index : Nat, (world.runtime.runners[index]? = some .rejected ∨
        world.runtime.runners[index]? = some .entering ∧
          world.runtime.runtime.shutdownRequested = true) →
      (after.runtime.runners[index]? = some .rejected ∨
        after.runtime.runners[index]? = some .entering ∧
          after.runtime.runtime.shutdownRequested = true)) : Doomed after := by
  unfold Doomed at doomed ⊢
  rw [run]
  split at doomed
  · exact requested doomed
  · exact refused _ doomed
  · exact doomed
  · exact doomed
  · exact doomed
  · exact doomed.elim

theorem runStep (doomed : Doomed world) {move : RuntimeMove}
    (stepped : world.advanceRun world.application.run move = some after) : Doomed after := by
  unfold Doomed at doomed
  split at doomed
  · next at_ =>
    rw [at_] at stepped
    cases move with
    | proceed =>
        cases stepped
        refine .inr ⟨?_, doomed⟩
        rw [List.getElem?_append_right (Nat.le_refl _), Nat.sub_self]
        rfl
    | _ => contradiction
  · next runner at_ =>
    rw [at_] at stepped
    cases move with
    | proceed =>
        rcases doomed with rejected | ⟨entering, _⟩
        · simp only [ApplicationWorld.advanceRun, rejected, Option.bind_some, RunPc.error?,
            Option.some.injEq] at stepped
          subst stepped
          rfl
        · simp only [ApplicationWorld.advanceRun, entering, Option.bind_some, RunPc.error?] at stepped
          contradiction
    | _ => contradiction
  · next error at_ =>
    subst doomed
    rw [at_] at stepped
    cases move <;> first | contradiction | (cases stepped; rfl)
  · next error at_ =>
    subst doomed
    rw [at_] at stepped
    cases move with
    | proceed =>
        simp only [ApplicationWorld.advanceRun] at stepped
        split at stepped
        · cases stepped
          simp [Doomed, ApplicationWorld.after, conclusion]
        · contradiction
    | timesOut =>
        cases stepped
        rfl
    | _ => contradiction
  · next error at_ =>
    rw [at_] at stepped
    cases move <;> contradiction
  · exact doomed.elim

theorem step (doomed : Doomed world) (sound : ServiceSound world) {label : ApplicationLabel}
    (stepped : world.step label = some after) : Doomed after := by
  cases label with
  | run =>
      simp only [ApplicationWorld.step] at stepped
      split at stepped
      · cases stepped
        exact doomed
      · next fresh =>
        have begun : world.application.run ≠ .idle := by
          intro idle
          simp only [Doomed, idle] at doomed
        simp [sound.ran begun] at fresh
  | runStep move => exact doomed.runStep stepped
  | stop =>
      cases stepped
      exact doomed
  | stopper index fromWorker =>
      simp only [ApplicationWorld.step] at stepped
      split at stepped
      · cases stepped
        exact doomed
      · cases stepped
        exact doomed.frame rfl id fun _ => id
      · contradiction
  | serviceCleanup move =>
      obtain ⟨application, advanced, rfl⟩ := Option.map_eq_some_iff.mp stepped
      exact doomed.frame (StreamDockApplication.advanceCleanup_cleaned advanced).run id fun _ => id
  | runtime label =>
      simp only [ApplicationWorld.step] at stepped
      split at stepped
      · contradiction
      · obtain ⟨runtime, moved, rfl⟩ := Option.map_eq_some_iff.mp stepped
        exact doomed.frame rfl (RuntimeWorld.step_persists moved).requested
          fun _ => RuntimeWorld.step_refused moved

theorem of_late (lodged : Lodged world) (late : world.Late) : Doomed world := by
  obtain ⟨requested, calling | entering⟩ := late
  · simpa only [Doomed, calling] using requested
  · obtain ⟨index, found⟩ := List.mem_iff_getElem?.mp entering
    obtain ⟨rfl, running, _⟩ := lodged.alone found rfl
    simpa only [Doomed, running] using .inr ⟨found, requested⟩

end Doomed

/-- A hand-over after a stop has reached the runtime comes too late. -/
theorem late_of_untimely {world : ApplicationWorld} {label : ApplicationLabel}
    (untimely : handsOverInTime world label = false) : world.Late := by
  unfold handsOverInTime at untimely
  split at untimely
  · next index =>
    obtain ⟨found, requested⟩ : world.runtime.runners[index]? = some .entering ∧
        world.runtime.runtime.shutdownRequested = true := by simpa using untimely
    exact ⟨requested, .inr (List.mem_of_getElem? found)⟩
  · contradiction

/-- A graceful stop ends `run` normally and leaves the runtime unfailed in every run
whose hand-over finds no stop; a stop that comes before the hand-over, but after the last
check of `run`, makes `run` raise. -/
theorem graceful_stop_ends_normally {services : Nat} {hasOnStop : Bool} :
    (∀ world, (applicationSystem services hasOnStop).ReachableBy
      (fun world label => graceful world label = true ∧ handsOverInTime world label = true) world →
        EndsNormally services hasOnStop world) ∧
    (∀ world label, handsOverInTime world label = false → world.Late) ∧
    (∀ world labels later, (applicationSystem services hasOnStop).Reachable world →
      world.Late → (applicationSystem services hasOnStop).exec world labels = some later →
        later.application.run ≠ .returned) := by
  refine ⟨fun world reachable => ?_, fun _ _ => late_of_untimely, ?_⟩
  · have calm := applicationCalm reachable
    refine ⟨calm.unraised, calm.runtime.state, fun labels later ran => ?_,
      calm.progress (lodged reachable.reachable), returns_of_stop reachable⟩
    have spent := System.exec_countP_le (motive := ServiceSound) ApplicationWorld.left ofRun
      (fun _ _ _ sound stepped => ⟨sound.step stepped, ApplicationWorld.step_left sound stepped⟩)
      (serviceSound reachable.reachable) ran
    exact Nat.le_of_add_right_le spent
  · intro world labels later reachable late ran returned
    have doomed : ServiceSound later ∧ Doomed later :=
      System.exec_invariant (motive := fun world => ServiceSound world ∧ Doomed world)
        ⟨serviceSound reachable, .of_late (lodged reachable) late⟩ ran
        fun _ _ _ both stepped => ⟨both.1.step stepped, both.2.step both.1 stepped⟩
    unfold Doomed at doomed
    simp only [returned] at doomed
    exact doomed.2

/-- No services: `run` gets past its last check, and a `stop` reaches the runtime. -/
def lateStop : List ApplicationLabel :=
  [.run, .runStep .proceed, .runStep .proceed, .stop, .stopper 0 false, .stopper 0 false,
    .runtime (.closer 0 .proceed), .runStep .proceed]

/-- The refused call ends `run`. -/
def refusal : List ApplicationLabel :=
  [.runStep .proceed, .runStep .proceed, .runStep .timesOut]

def unserved : ApplicationWorld :=
  { application := { services := 0 }, runtime := { runtime := { hasOnStop := false } } }

def lateWorld : ApplicationWorld :=
  ((applicationSystem 0 false).exec unserved lateStop).get (by decide +kernel)

def spuriousWorld : ApplicationWorld :=
  ((applicationSystem 0 false).exec lateWorld
    (.runtime (.runner 0 .proceed) :: refusal)).get (by decide +kernel)

/-- The same stop, a moment earlier. -/
def earlierWorld : ApplicationWorld :=
  (((applicationSystem 0 false).restrict
      fun world label => graceful world label && handsOverInTime world label).exec unserved
    [.run, .runStep .proceed, .stop, .stopper 0 false, .stopper 0 false,
      .runtime (.closer 0 .proceed), .runStep .proceed, .runStep .proceed,
      .runStep .timesOut]).get (by decide +kernel)

theorem earlierWorld_reachable : (applicationSystem 0 false).ReachableBy
    (fun world label => graceful world label = true ∧ handsOverInTime world label = true)
    earlierWorld := by
  have reachable : (applicationSystem 0 false).ReachableBy
      (fun world label => (graceful world label && handsOverInTime world label) = true)
      earlierWorld :=
    System.Reachable.restricted (System.Reachable.exec (.initial rfl) (Option.some_get _).symm)
  exact reachable.weaken fun _ _ both => by simpa using both

theorem lateWorld_reachable : (applicationSystem 0 false).Reachable lateWorld :=
  System.Reachable.exec (.initial rfl) (Option.some_get _).symm

theorem graceful_stop_ends_normally_run :
    earlierWorld.application.run = .returned ∧ EndsNormally 0 false earlierWorld ∧
      spuriousWorld.application.run ≠ .returned := by
  obtain ⟨timely, _, late⟩ := @graceful_stop_ends_normally 0 false
  refine ⟨by decide +kernel, timely earlierWorld earlierWorld_reachable, ?_⟩
  refine late lateWorld (.runtime (.runner 0 .proceed) :: refusal) spuriousWorld
    lateWorld_reachable ⟨by decide +kernel, .inr ?_⟩ (Option.some_get _).symm
  have runners : lateWorld.runtime.runners = [.entering] := by decide +kernel
  rw [runners]
  exact List.mem_singleton.mpr rfl

/-- Every step of the run is graceful, and `run` raises. -/
def spuriousRun : ApplicationWorld :=
  (((applicationSystem 0 false).restrict graceful).exec unserved
    (lateStop ++ .runtime (.runner 0 .proceed) :: refusal)).get (by decide +kernel)

theorem unconditional_graceful_stop_fails :
    ¬ ∀ (services : Nat) (hasOnStop : Bool) (world : ApplicationWorld),
      (applicationSystem services hasOnStop).ReachableBy
        (fun world label => graceful world label = true) world →
          EndsNormally services hasOnStop world := by
  intro claimed
  have reachable : (applicationSystem 0 false).ReachableBy
      (fun world label => graceful world label = true) spuriousRun :=
    System.Reachable.restricted (System.Reachable.exec (.initial rfl) (Option.some_get _).symm)
  exact (claimed 0 false spuriousRun reachable).run .runtimeRejected (by decide +kernel)

end StreamDockSdk.Runtime
