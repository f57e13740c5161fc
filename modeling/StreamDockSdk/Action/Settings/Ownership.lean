import StreamDockSdk.Action.Settings.Claims
import StreamDockSdk.Automaton.History

namespace StreamDockSdk.Action

open StreamDockSdk.Runtime Automaton

variable {Settings : Type}

/-- The call has claimed the write and is still encoding or submitting it. -/
def Frame.submits : Frame Settings → Bool
  | .encoding _ _ | .submitting _ _ _ => true
  | _ => false

/-- The call has waited for the write that is claimed. -/
def Frame.sleeps : Frame Settings → Bool
  | .updating _ waited | .waiting waited => waited
  | _ => false

def ActionEvent.settings? : ActionEvent Settings → Option Settings
  | .wireUpdated next | .committed _ next => some next
  | _ => none

/-- The settings after the last event that assigned them. -/
def assigned (initial : Settings) (history : List (ActionEvent Settings)) : Settings :=
  (history.filterMap ActionEvent.settings?).head?.getD initial

/-- A write is committed after its command completed without an error. -/
def commitLaw (older : List (ActionEvent Settings)) : ActionEvent Settings → Prop
  | .committed write _ => .completed write true ∈ older
  | _ => True

namespace ActionWorld

variable {world before after next : ActionWorld Settings} {thread : Nat}
variable {frame : Frame Settings} {frames rest : List (Frame Settings)} {initial : Settings}

/-- No thread is encoding or submitting a claimed write. -/
def nobodySubmits (world : ActionWorld Settings) : Bool :=
  world.threads.all fun stack => !stack.any Frame.submits

/-- The reset after a failed submission runs while nobody submits. -/
def careful (world : ActionWorld Settings) : ActionLabel Settings → Bool
  | .run thread .proceed =>
      match world.threads[thread]? with
      | some (.resetting _ false :: _) => world.nobodySubmits
      | _ => true
  | _ => true

structure Owned (initial : Settings) (world : ActionWorld Settings) : Prop where
  marker : ∀ (thread : Nat) (stack : List (Frame Settings)) (frame : Frame Settings),
    world.threads[thread]? = some stack → frame ∈ stack → frame.submits = true →
    world.submittingThread = some thread
  /-- Inside its own submission the owner's calls raise `ActionSettingsBusyError`. -/
  busy : ∀ (thread : Nat) (inner : Frame Settings) (rest : List (Frame Settings)),
    world.threads[thread]? = some (inner :: rest) → (∃ frame ∈ rest, frame.submits = true) →
    inner.decides = true → (∃ move after, world.step (.run thread move) = some after) ∧
    ∀ move after, world.step (.run thread move) = some after →
      after = { world.log (.busy thread) with threads := world.threads.set thread rest }
  awake : ∀ (thread : Nat) (stack : List (Frame Settings)),
    world.threads[thread]? = some stack →
    stack.Pairwise fun inner outer => outer.submits = true → inner.sleeps = false
  assigned : world.settings = assigned initial world.history
  committed : ∀ newer older write next, world.history = newer ++ .committed write next :: older →
    .completed write true ∈ older

structure CommitSound (initial : Settings) (world : ActionWorld Settings) : Prop where
  assigned : world.settings = assigned initial world.history
  law : Guarded commitLaw world.history
  delivered : ∀ (thread : Nat) (stack : List (Frame Settings)) (write : WriteId) (next : Settings),
    world.threads[thread]? = some stack → .committing write next ∈ stack →
    .completed write true ∈ world.history
  succeeded : ∀ write next, world.sent write = .unwatched next (some true) ∨
    world.sent write = .completing next true → .completed write true ∈ world.history

theorem assigned_log (event : ActionEvent Settings) (history : List (ActionEvent Settings)) :
    Action.assigned initial (event :: history) =
      event.settings?.getD (Action.assigned initial history) := by
  unfold Action.assigned
  cases event <;> rfl

/-- A future that has completed without an error is one of a delivered command. -/
theorem CommitSound.phase (sound : before.CommitSound initial) (write : WriteId)
    (phase : SentPhase Settings) {history : List (ActionEvent Settings)}
    (grown : before.history ⊆ history)
    (completed : ∀ next, phase = .unwatched next (some true) ∨ phase = .completing next true →
      .completed write true ∈ history) (other : WriteId) (next : Settings)
    (now : Function.update before.sent write phase other = .unwatched next (some true) ∨
      Function.update before.sent write phase other = .completing next true) :
    .completed other true ∈ history := by
  by_cases same : other = write
  · subst same
    rw [Function.update_self] at now
    exact completed next now
  · rw [Function.update_of_ne same] at now
    exact grown (sound.succeeded other next now)

theorem CommitSound.ran (sound : before.CommitSound initial)
    (found : before.threads[thread]? = some (frame :: rest))
    (moves : Moves before thread frame next frames) :
    CommitSound initial { next with threads := before.threads.set thread (frames ++ rest) } := by
  have delivers : ∀ {history : List (ActionEvent Settings)}, before.history ⊆ history →
      (∀ write value, .committing write value ∈ frames → .completed write true ∈ history) →
      ∀ (other : Nat) (stack : List (Frame Settings)) (write : WriteId) (value : Settings),
        (before.threads.set thread (frames ++ rest))[other]? = some stack →
        .committing write value ∈ stack → .completed write true ∈ history := by
    intro history grown own other stack write value there
    revert write value
    refine threads_set (fun _ stack => ∀ write value, Frame.committing write value ∈ stack →
      .completed write true ∈ history) found ?_ ?_ other stack there
    · intro write value member
      rcases List.mem_append.mp member with member | member
      · exact own write value member
      · exact grown (sound.delivered thread _ write value found (List.mem_cons_of_mem frame member))
    · exact fun other stack _ there write value member =>
        grown (sound.delivered other stack write value there member)
  have logged : ∀ {event : ActionEvent Settings}, before.history ⊆ event :: before.history :=
    List.mem_cons_of_mem _
  have same : ∀ {event : ActionEvent Settings}, event.settings? = none →
      before.settings = Action.assigned initial (event :: before.history) := by
    intro event quiet
    rw [assigned_log, quiet, sound.assigned]
    rfl
  cases moves with
  | passes passes =>
      refine ⟨sound.assigned, sound.law, delivers (List.Subset.refl _) ?_, sound.succeeded⟩
      cases passes with
      | unencoded write isAsync | unsubmitted write isAsync => cases isAsync <;> simp
      | _ => simp
  | busy =>
      exact ⟨same rfl, ⟨trivial, sound.law⟩, delivers logged nofun,
        fun write next now => logged (sound.succeeded write next now)⟩
  | updated value =>
      refine ⟨?_, ⟨trivial, sound.law⟩, delivers logged nofun,
        fun write next now => logged (sound.succeeded write next now)⟩
      exact (assigned_log (.wireUpdated value) before.history).symm
  | claimed isAsync =>
      refine ⟨sound.assigned, sound.law, delivers (List.Subset.refl _) ?_, sound.succeeded⟩
      simp [claim]
  | submitted write value =>
      exact ⟨sound.assigned, sound.law, delivers (List.Subset.refl _) (by simp),
        sound.phase write _ (List.Subset.refl _) (by simp)⟩
  | delivered write value =>
      refine ⟨same rfl, ⟨trivial, sound.law⟩, delivers logged ?_,
        fun write next now => logged (sound.succeeded write next now)⟩
      intro other next member
      simp only [List.mem_singleton, Frame.committing.injEq] at member
      rw [member.1]
      exact List.mem_cons_self
  | committed write value =>
      have completed := sound.delivered thread _ write value found List.mem_cons_self
      refine ⟨?_, ⟨completed, sound.law⟩, delivers logged (by simp),
        fun write next now => logged (sound.succeeded write next now)⟩
      exact (assigned_log (.committed write value) before.history).symm
  | released write | abandoned write =>
      exact ⟨sound.assigned, sound.law, delivers (List.Subset.refl _) (by simp), sound.succeeded⟩
  | reset write submitted =>
      refine ⟨sound.assigned, sound.law, delivers (List.Subset.refl _) ?_, sound.succeeded⟩
      cases submitted <;> simp
  | watched write value sent =>
      exact ⟨sound.assigned, sound.law, delivers (List.Subset.refl _) nofun,
        sound.phase write _ (List.Subset.refl _) (by simp)⟩
  | observed write value succeeded sent =>
      refine ⟨sound.assigned, sound.law, delivers (List.Subset.refl _) (by simp),
        sound.phase write _ (List.Subset.refl _) ?_⟩
      intro next now
      simp only [reduceCtorEq, SentPhase.completing.injEq, false_or] at now
      exact sound.succeeded write value (.inl (by rw [sent, now.2]))

theorem CommitSound.called (sound : before.CommitSound initial) {stack : List (Frame Settings)}
    (found : before.threads[thread]? = some stack) (method : SettingsMethod) :
    CommitSound initial { before with
      threads := before.threads.set thread (method.entry :: stack) } := by
  refine ⟨sound.assigned, sound.law, fun other theirs write value there => ?_, sound.succeeded⟩
  revert write value
  refine threads_set (fun _ stack => ∀ write value, Frame.committing write value ∈ stack →
    .completed write true ∈ before.history) found ?_
    (fun other stack _ there write value => sound.delivered other stack write value there)
    other theirs there
  intro write value member
  rcases List.mem_cons.mp member with entry | member
  · cases method <;> cases entry
  · exact sound.delivered thread stack write value found member

theorem CommitSound.settled (sound : before.CommitSound initial) {write : WriteId}
    (settles : Settles before write next) : next.CommitSound initial := by
  have logged : ∀ {event : ActionEvent Settings}, before.history ⊆ event :: before.history :=
    List.mem_cons_of_mem _
  have delivers : ∀ {history : List (ActionEvent Settings)}, before.history ⊆ history →
      ∀ (other : Nat) (stack : List (Frame Settings)) (write : WriteId) (value : Settings),
        before.threads[other]? = some stack → .committing write value ∈ stack →
        .completed write true ∈ history :=
    fun grown other stack write value there member =>
      grown (sound.delivered other stack write value there member)
  have completes : ∀ succeeded : Bool, before.settings =
      Action.assigned initial (.completed write succeeded :: before.history) := by
    intro succeeded
    rw [assigned_log, sound.assigned]
    rfl
  cases settles with
  | heard value succeeded sent =>
      refine ⟨completes succeeded, ⟨trivial, sound.law⟩, delivers logged,
        sound.phase write _ logged ?_⟩
      intro next now
      simp only [SentPhase.unwatched.injEq, Option.some.injEq, reduceCtorEq, or_false] at now
      rw [now.2]
      exact List.mem_cons_self
  | notified value succeeded sent =>
      refine ⟨completes succeeded, ⟨trivial, sound.law⟩, delivers logged,
        sound.phase write _ logged ?_⟩
      intro next now
      simp only [SentPhase.completing.injEq, reduceCtorEq, false_or] at now
      rw [now.2]
      exact List.mem_cons_self
  | committed value sent =>
      refine ⟨?_, ⟨sound.succeeded write value (.inr sent), sound.law⟩, delivers logged,
        sound.phase write _ logged (by simp)⟩
      exact (assigned_log (.committed write value) before.history).symm
  | rolledBack value sent =>
      exact ⟨sound.assigned, sound.law, delivers (List.Subset.refl _),
        sound.phase write _ (List.Subset.refl _) (by simp)⟩
  | published succeeded sent =>
      exact ⟨sound.assigned, sound.law, delivers (List.Subset.refl _),
        sound.phase write _ (List.Subset.refl _) (by simp)⟩

theorem Transition.commitSound (transition : Transition before after)
    (sound : before.CommitSound initial) : after.CommitSound initial := by
  cases transition with
  | called thread stack method found => exact sound.called found method
  | ran thread frame frames rest next found moves => exact sound.ran found moves
  | settled write next settles => exact sound.settled settles

theorem stack_of_start {count thread : Nat} {stack : List (Frame Settings)}
    (found : (List.replicate count [])[thread]? = some stack) : stack = [] :=
  (List.mem_replicate.mp (List.mem_of_getElem? found)).2

theorem commitSound (reachable : (actionSystem initial).Reachable world) :
    world.CommitSound initial := by
  refine reachable.invariant ?_ fun _ _ _ sound stepped => (step_cases stepped).commitSound sound
  rintro first ⟨count, rfl⟩
  refine ⟨rfl, trivial, fun thread stack write value found member => ?_, by simp⟩
  rw [stack_of_start found] at member
  contradiction

structure MarkSound (world : ActionWorld Settings) : Prop where
  marker : ∀ (thread : Nat) (stack : List (Frame Settings)), world.threads[thread]? = some stack →
    stack.any Frame.submits = true → world.submittingThread = some thread
  awake : ∀ (thread : Nat) (stack : List (Frame Settings)),
    world.threads[thread]? = some stack →
    stack.Pairwise fun inner outer => outer.submits = true → inner.sleeps = false

/-- A call that submits holds the claimed write. -/
theorem held_of_submits {stack : List (Frame Settings)} (submits : stack.any Frame.submits = true) :
    held stack ≠ [] := by
  obtain ⟨frame, member, submits⟩ := List.any_eq_true.mp submits
  have holds : ∃ write, frame.holds? = some write := by
    cases frame <;> first | exact ⟨_, rfl⟩ | contradiction
  obtain ⟨write, holds⟩ := holds
  exact List.ne_nil_of_mem (List.mem_filterMap.mpr ⟨frame, member, holds⟩)

/-- What a step makes of the marker of `_wait_for_settings_write`. -/
inductive Marks (world : ActionWorld Settings) (thread : Nat) :
    Frame Settings → ActionWorld Settings → List (Frame Settings) → Prop
  | keeps (frame : Frame Settings) (next : ActionWorld Settings) (frames : List (Frame Settings)) :
      next.submittingThread = world.submittingThread →
      (frames.any Frame.submits = true → frame.submits = true) → Marks world thread frame next frames
  | claims (frame : Frame Settings) (next : ActionWorld Settings) (frames : List (Frame Settings)) :
      world.pending = none → next.submittingThread = some thread →
      Marks world thread frame next frames
  | releases (frame : Frame Settings) (next : ActionWorld Settings)
      (frames : List (Frame Settings)) (write : WriteId) : held [frame] = [write] →
      frames.any Frame.submits = false → Marks world thread frame next frames
  | resets (write : WriteId) (next : ActionWorld Settings) :
      Marks world thread (.resetting write false) next []

theorem Moves.marks (moves : Moves world thread frame next frames) :
    Marks world thread frame next frames := by
  cases moves with
  | passes passes =>
      refine .keeps _ _ _ rfl ?_
      cases passes with
      | unencoded | encoded | unsubmitted => exact fun _ => rfl
      | _ => exact nofun
  | busy => exact .keeps _ _ _ rfl nofun
  | claimed isAsync _ free => exact .claims _ _ _ free rfl
  | released write => exact .releases _ _ _ write rfl rfl
  | reset write submitted =>
      cases submitted with
      | true => exact .releases _ _ _ write rfl rfl
      | false => exact .resets write _
  | submitted | delivered => exact .keeps _ _ _ rfl fun _ => rfl
  | updated | committed | abandoned | watched | observed => exact .keeps _ _ _ rfl nofun

theorem nobodySubmits_at {stack : List (Frame Settings)} (nobody : world.nobodySubmits = true)
    (found : world.threads[thread]? = some stack) : stack.any Frame.submits = false := by
  have all := List.all_eq_true.mp nobody stack (List.mem_of_getElem? found)
  simpa using all

theorem MarkSound.ran_marker (sound : before.MarkSound) (claims : before.ClaimSound)
    (found : before.threads[thread]? = some (frame :: rest))
    (marks : Marks before thread frame next frames)
    (careful : ∀ write, frame = .resetting write false → before.nobodySubmits = true) :
    ∀ (other : Nat) (stack : List (Frame Settings)),
      (before.threads.set thread (frames ++ rest))[other]? = some stack →
      stack.any Frame.submits = true → next.submittingThread = some other := by
  refine threads_set (fun other stack => stack.any Frame.submits = true →
    next.submittingThread = some other) found ?_ ?_
  · intro submits
    rw [List.any_append, Bool.or_eq_true] at submits
    cases marks with
    | keeps _ _ _ same grows =>
        rw [same]
        refine sound.marker thread _ found ?_
        rw [List.any_cons, Bool.or_eq_true]
        exact submits.imp_left grows
    | claims _ _ _ _ mine => exact mine
    | releases _ _ _ write holds quiet =>
        rw [quiet] at submits
        exact absurd (claims.alone found holds).1 (held_of_submits (submits.resolve_left nofun))
    | resets write =>
        have quiet := nobodySubmits_at (careful write rfl) found
        rw [List.any_cons, Bool.or_eq_false_iff] at quiet
        rw [quiet.2] at submits
        exact absurd submits (by simp)
  · intro other stack different there submits
    cases marks with
    | keeps _ _ _ same => exact same.trans (sound.marker other stack there submits)
    | claims _ _ _ free => exact absurd (claims.free free there) (held_of_submits submits)
    | releases _ _ _ write holds =>
        exact absurd ((claims.alone found holds).2 other stack different there)
          (held_of_submits submits)
    | resets write =>
        rw [nobodySubmits_at (careful write rfl) there] at submits
        contradiction

theorem MarkSound.ran_awake (sound : before.MarkSound)
    (found : before.threads[thread]? = some (frame :: rest))
    (moves : Moves before thread frame next frames) :
    (frames ++ rest).Pairwise fun inner outer => outer.submits = true → inner.sleeps = false := by
  obtain ⟨_, below⟩ := List.pairwise_cons.mp (sound.awake thread _ found)
  have single : ∀ {inner : Frame Settings}, inner.sleeps = false →
      ([inner] ++ rest).Pairwise fun inner outer => outer.submits = true → inner.sleeps = false :=
    fun awake => List.pairwise_cons.mpr ⟨fun _ _ _ => awake, below⟩
  have unowned : before.refuses thread false = false → before.pending ≠ none →
      ∀ outer ∈ rest, outer.submits = false := by
    intro accepts pending outer member
    by_contra submits
    rw [Bool.not_eq_false] at submits
    have marker := sound.marker thread _ found
      (List.any_eq_true.mpr ⟨outer, List.mem_cons_of_mem _ member, submits⟩)
    simp [refuses, marker, pending] at accepts
  have parked : ∀ {inner : Frame Settings}, before.refuses thread false = false →
      before.pending ≠ none →
      ([inner] ++ rest).Pairwise fun inner outer => outer.submits = true → inner.sleeps = false := by
    intro inner accepts pending
    refine List.pairwise_cons.mpr ⟨fun outer member submits => ?_, below⟩
    rw [unowned accepts pending outer member] at submits
    contradiction
  cases moves with
  | passes passes =>
      cases passes with
      | failed | expired | resumed => exact below
      | slept value accepts pending => exact parked accepts pending
      | parked accepts pending => exact parked accepts pending
      | unencoded write isAsync | unsubmitted write isAsync => cases isAsync <;> exact single rfl
      | decoded | encoded => exact single rfl
  | busy | updated | released | watched => exact below
  | reset write submitted =>
      cases submitted with
      | true => exact single rfl
      | false => exact below
  | claimed | submitted | delivered | committed | abandoned | observed => exact single rfl

theorem MarkSound.ran (sound : before.MarkSound) (claims : before.ClaimSound)
    (found : before.threads[thread]? = some (frame :: rest))
    (moves : Moves before thread frame next frames)
    (careful : ∀ write, frame = .resetting write false → before.nobodySubmits = true) :
    MarkSound { next with threads := before.threads.set thread (frames ++ rest) } := by
  have marker := sound.ran_marker claims found moves.marks careful
  refine ⟨marker, ?_⟩
  exact threads_set (fun _ stack => stack.Pairwise fun inner outer =>
    outer.submits = true → inner.sleeps = false) found (sound.ran_awake found moves)
    fun other stack _ => sound.awake other stack

theorem MarkSound.called (sound : before.MarkSound) {stack : List (Frame Settings)}
    (found : before.threads[thread]? = some stack) (method : SettingsMethod) :
    MarkSound { before with threads := before.threads.set thread (method.entry :: stack) } := by
  have quiet : (method.entry : Frame Settings).submits = false ∧
      (method.entry : Frame Settings).sleeps = false := by
    cases method <;> exact ⟨rfl, rfl⟩
  constructor
  · refine threads_set (fun other stack => stack.any Frame.submits = true →
      before.submittingThread = some other) found ?_ fun other stack _ => sound.marker other stack
    rw [List.any_cons, quiet.1, Bool.false_or]
    exact sound.marker thread stack found
  · refine threads_set (fun _ stack => stack.Pairwise fun inner outer =>
      outer.submits = true → inner.sleeps = false) found ?_ fun other stack _ => sound.awake other stack
    exact List.pairwise_cons.mpr ⟨fun _ _ _ => quiet.2, sound.awake thread stack found⟩

theorem MarkSound.settled (sound : before.MarkSound) {write : WriteId}
    (settles : Settles before write next) : next.MarkSound := by
  cases settles <;> exact ⟨sound.marker, sound.awake⟩

theorem MarkSound.step {label : ActionLabel Settings} (sound : before.MarkSound)
    (claims : before.ClaimSound) (careful : before.careful label = true)
    (stepped : before.step label = some after) : after.MarkSound := by
  cases label with
  | call thread method =>
      simp only [ActionWorld.step] at stepped
      split at stepped
      · contradiction
      next found =>
      split at stepped
      · cases stepped
        exact sound.called found method
      · contradiction
  | run thread move =>
      simp only [ActionWorld.step] at stepped
      split at stepped
      · next frame rest found =>
        split at stepped
        · contradiction
        next advanced =>
        cases stepped
        refine sound.ran claims found (advance_cases advanced) ?_
        rintro write rfl
        cases move with
        | proceed => simpa only [ActionWorld.careful, found] using careful
        | yields | raises => contradiction
      · contradiction
  | finishSent write succeeded => exact sound.settled (finishSent_cases stepped)
  | completeAsync write => exact sound.settled (completeAsync_cases stepped)

theorem markSound
    (reachable : (actionSystem initial).ReachableBy (fun world label => world.careful label = true)
      world) : world.MarkSound := by
  refine reachable.invariant_given ClaimSound (fun _ => claimSound) ?_
    fun _ _ _ careful claims sound stepped => sound.step claims careful stepped
  rintro first ⟨count, rfl⟩
  constructor
  · intro thread stack found submits
    rw [stack_of_start found] at submits
    contradiction
  · intro thread stack found
    rw [stack_of_start found]
    exact .nil

/-- Inside its own submission the owner's call has only one step, to the error. -/
theorem MarkSound.busy (sound : world.MarkSound) (claims : world.ClaimSound)
    (found : world.threads[thread]? = some (frame :: rest))
    (submits : ∃ outer ∈ rest, outer.submits = true) (decides : frame.decides = true) :
    (∃ move after, world.step (.run thread move) = some after) ∧
    ∀ move after, world.step (.run thread move) = some after →
      after = { world.log (.busy thread) with threads := world.threads.set thread rest } := by
  obtain ⟨outer, member, submits⟩ := submits
  have inside : (frame :: rest).any Frame.submits = true :=
    List.any_eq_true.mpr ⟨outer, List.mem_cons_of_mem _ member, submits⟩
  have marker := sound.marker thread _ found inside
  obtain ⟨write, held_write⟩ := List.exists_mem_of_ne_nil _ (held_of_submits inside)
  have pending := (claims.holder thread _ write found held_write).1
  have refuses : world.refuses thread false = true := by simp [refuses, marker, pending]
  have proceeds : ∀ move, world.advance thread frame move = none ∨
      world.advance thread frame move = some (world.log (.busy thread), []) := by
    intro move
    cases frame with
    | updating next waited | waiting waited =>
        cases waited with
        | true => contradiction
        | false => cases move <;> simp [advance, refuses]
    | claiming => cases move <;> simp [advance, pending]
    | _ => contradiction
  have first : world.advance thread frame .proceed = some (world.log (.busy thread), []) := by
    cases frame with
    | updating next waited | waiting waited =>
        cases waited with
        | true => contradiction
        | false => simp [advance, refuses]
    | claiming => simp [advance, pending]
    | _ => contradiction
  constructor
  · refine ⟨.proceed, { world.log (.busy thread) with
      threads := world.threads.set thread rest }, ?_⟩
    simp only [ActionWorld.step, found, first]
    rfl
  · intro move after stepped
    simp only [ActionWorld.step, found] at stepped
    rcases proceeds move with stuck | busy
    · rw [stuck] at stepped
      contradiction
    · rw [busy] at stepped
      exact (Option.some.inj stepped).symm

theorem owned
    (reachable : (actionSystem initial).ReachableBy (fun world label => world.careful label = true)
      world) : world.Owned initial := by
  have claims := claimSound reachable.reachable
  have marks := markSound reachable
  have commits := commitSound reachable.reachable
  constructor
  · intro thread stack frame found member submits
    exact marks.marker thread stack found (List.any_eq_true.mpr ⟨frame, member, submits⟩)
  · exact fun thread inner rest found submits decides => marks.busy claims found submits decides
  · exact marks.awake
  · exact commits.assigned
  · intro newer older write next split
    have law := commits.law
    rw [split] at law
    exact law.at_event

/-- The careless reset takes the marker away from the write's owner. -/
theorem careless_unowned {label : ActionLabel Settings} (careless : before.careful label = false)
    (stepped : before.step label = some after) : ¬ after.Owned initial := by
  intro owned
  cases label with
  | call | finishSent | completeAsync => contradiction
  | run thread move =>
      cases move with
      | yields | raises => contradiction
      | proceed =>
          simp only [careful] at careless
          split at careless
          · next write rest found =>
            simp only [ActionWorld.step, found, advance, Bool.false_eq_true, if_false,
              Option.some.injEq] at stepped
            obtain ⟨stack, member, submits⟩ := List.all_eq_false.mp careless
            rw [Bool.not_eq_true, Bool.not_eq_false', List.any_eq_true] at submits
            obtain ⟨frame, inside, submits⟩ := submits
            obtain ⟨other, there⟩ := List.mem_iff_getElem?.mp member
            have survives : ∃ stack, after.threads[other]? = some stack ∧ frame ∈ stack := by
              rw [← stepped]
              dsimp only
              rw [getElem?_set_found found]
              by_cases same : other = thread
              · subst same
                rw [found, Option.some.injEq] at there
                rw [← there] at inside
                rcases List.mem_cons.mp inside with rfl | inside
                · contradiction
                · exact ⟨[] ++ rest, if_pos rfl, inside⟩
              · exact ⟨stack, by rw [if_neg same, there], inside⟩
            obtain ⟨stack, there, inside⟩ := survives
            have marker := owned.marker other stack frame there inside submits
            rw [← stepped] at marker
            contradiction
          · contradiction

/-- A run keeps every write with its owner as long as its resets are careful,
and the first careless reset breaks the ownership. -/
theorem write_ownership (initial : Settings) :
    (∀ world : ActionWorld Settings, (actionSystem initial).ReachableBy
      (fun world label => world.careful label = true) world → world.Owned initial) ∧
    (∀ (before after : ActionWorld Settings) (label : ActionLabel Settings),
      before.careful label = false → before.step label = some after → ¬ after.Owned initial) :=
  ⟨fun _ => owned, fun _ _ _ => careless_unowned⟩

end ActionWorld

def idleWorld (count : Nat) : ActionWorld Nat :=
  { settings := 0, threads := List.replicate count [] }

/-- `set_settings` is called again from its own encoding. -/
def nestedRun : Option (ActionWorld Nat) :=
  ((actionSystem 0).restrict ActionWorld.careful).exec (idleWorld 1)
    [.call 0 .setSettings, .run 0 .proceed, .call 0 .setSettings]

def nestedWorld : ActionWorld Nat := nestedRun.get (by decide +kernel)

theorem nestedWorld_reachable : (actionSystem 0).ReachableBy
    (fun world label => world.careful label = true) nestedWorld :=
  System.Reachable.restricted (System.Reachable.exec (.initial ⟨1, rfl⟩) (Option.some_get _).symm)

theorem write_ownership_run :
    (∃ move after, nestedWorld.step (.run 0 move) = some after) ∧
    ∀ move after, nestedWorld.step (.run 0 move) = some after →
      after.history = .busy 0 :: nestedWorld.history := by
  obtain ⟨enabled, busy⟩ := ((ActionWorld.write_ownership 0).1 nestedWorld nestedWorld_reachable).busy
    0 (.waiting false) [.encoding { thread := 0, number := 0 } false] (by cbv)
    ⟨_, List.mem_cons_self, rfl⟩ rfl
  refine ⟨enabled, fun move after stepped => ?_⟩
  rw [busy move after stepped]
  rfl

/-- The second thread claims between the `except` and the `finally` block of the
first one, loses the marker, and waits inside its own encoding. -/
def lateResetLabels : List (ActionLabel Nat) :=
  [.call 0 .setSettingsAsync, .run 0 .proceed, .call 1 .setSettings, .run 1 .proceed,
    .run 0 .raises, .run 0 .proceed, .run 1 .proceed, .run 0 .proceed,
    .call 1 .setSettings, .run 1 .proceed]

def lateResetRun : Option (ActionWorld Nat) :=
  (actionSystem 0).exec (idleWorld 2) lateResetLabels

def lateResetWorld : ActionWorld Nat := lateResetRun.get (by decide +kernel)

theorem unconditional_ownership_fails :
    ¬ ∀ world : ActionWorld Nat, (actionSystem 0).Reachable world → world.Owned 0 := by
  intro claimed
  have owned := claimed lateResetWorld
    (System.Reachable.exec (.initial ⟨2, rfl⟩) (Option.some_get _).symm)
  have threads : lateResetWorld.threads[1]? =
      some [.waiting true, .encoding { thread := 1, number := 1 } false] := by cbv
  have marker := owned.marker 1 _ _ threads (List.mem_cons_of_mem _ List.mem_cons_self) rfl
  have lost : lateResetWorld.submittingThread = none := by cbv
  rw [lost] at marker
  contradiction

end StreamDockSdk.Action
