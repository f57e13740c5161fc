import StreamDockSdk.Action.Settings.Transition
import StreamDockSdk.Automaton.Threads

namespace StreamDockSdk.Action

open StreamDockSdk.Runtime Automaton

variable {Settings : Type}

/-- The write that the call must release or hand over to its command's future. -/
def Frame.holds? : Frame Settings → Option WriteId
  | .encoding write _ | .submitting write _ _ | .committing write _ | .releasing write
  | .abandoning write | .resetting write true | .registering write => some write
  | _ => none

def held (stack : List (Frame Settings)) : List WriteId :=
  stack.filterMap Frame.holds?

theorem held_append (above below : List (Frame Settings)) :
    held (above ++ below) = held above ++ held below :=
  List.filterMap_append

theorem held_cons (frame : Frame Settings) (rest : List (Frame Settings)) :
    held (frame :: rest) = held [frame] ++ held rest :=
  held_append [frame] rest

/-- The callback of the command's future is not registered yet. -/
def isEarly : SentPhase Settings → Bool
  | .absent | .unwatched _ _ => true
  | _ => false

/-- The callback of the command's future will release the write. -/
def isWatched : SentPhase Settings → Bool
  | .watched _ | .completing _ _ => true
  | _ => false

theorem isEarly_or_isWatched {phase : SentPhase Settings} (early : isEarly phase = true) :
    isWatched phase = false := by
  cases phase <;> first | rfl | contradiction

namespace ActionWorld

/-- What becomes of the writes that a call holds. -/
inductive Claims (world : ActionWorld Settings) (thread : Nat) :
    List WriteId → ActionWorld Settings → List WriteId → Prop
  | keeps (writes : List WriteId) (next : ActionWorld Settings) :
      next.pending = world.pending → next.claims = world.claims →
      (∀ write, next.sent write = world.sent write ∨
        write ∈ writes ∧ isEarly (next.sent write) = true) →
      Claims world thread writes next writes
  | claims (next : ActionWorld Settings) : world.pending = none →
      next.pending = some { thread, number := world.claims } → next.sent = world.sent →
      next.claims = world.claims + 1 →
      Claims world thread [] next [{ thread, number := world.claims }]
  | releases (write : WriteId) (next : ActionWorld Settings) : next.pending = none →
      next.sent = world.sent → next.claims = world.claims → Claims world thread [write] next []
  | hands (write : WriteId) (phase : SentPhase Settings) (next : ActionWorld Settings) :
      next.pending = world.pending → isWatched phase = true →
      next.sent = Function.update world.sent write phase → next.claims = world.claims →
      Claims world thread [write] next []

variable {world before after next : ActionWorld Settings} {thread : Nat}
variable {frame : Frame Settings} {frames rest : List (Frame Settings)}

theorem Claims.same (writes : List WriteId) (pending : next.pending = world.pending)
    (claims : next.claims = world.claims) (sent : next.sent = world.sent) :
    Claims world thread writes next writes :=
  .keeps writes next pending claims fun write => .inl (congrFun sent write)

theorem Moves.claims (moves : Moves world thread frame next frames) :
    Claims world thread (held [frame]) next (held frames) := by
  cases moves with
  | passes passes =>
      cases passes with
      | unencoded write isAsync | unsubmitted write isAsync =>
          cases isAsync <;> exact .same [write] rfl rfl rfl
      | encoded write => exact .same [write] rfl rfl rfl
      | _ => exact .same [] rfl rfl rfl
  | busy decides =>
      have free : held [frame] = [] := by
        cases frame <;> first | rfl | contradiction
      rw [free]
      exact .same [] rfl rfl rfl
  | updated => exact .same [] rfl rfl rfl
  | claimed isAsync waits free =>
      have unheld : held [frame] = [] := by
        rcases waits with ⟨waited, rfl⟩ | rfl <;> rfl
      rw [unheld]
      exact .claims _ free rfl rfl rfl
  | submitted write next =>
      refine .keeps [write] _ rfl rfl fun other => ?_
      by_cases same : other = write
      · subst same
        refine .inr ⟨List.mem_singleton_self _, ?_⟩
        simp [setSent, isEarly]
      · exact .inl (Function.update_of_ne same _ _)
  | delivered write | committed write => exact .same [write] rfl rfl rfl
  | released write | abandoned write => exact .releases write _ rfl rfl rfl
  | reset write submitted =>
      cases submitted with
      | true => exact .same [write] rfl rfl rfl
      | false => exact .same [] rfl rfl rfl
  | watched write next sent => exact .hands write _ _ rfl rfl rfl rfl
  | observed write next succeeded sent => exact .hands write _ _ rfl rfl rfl rfl

structure ClaimSound (world : ActionWorld Settings) : Prop where
  holder : ∀ (thread : Nat) (stack : List (Frame Settings)) (write : WriteId),
    world.threads[thread]? = some stack → write ∈ held stack →
    world.pending = some write ∧ write.thread = thread ∧ isEarly (world.sent write) = true
  single : ∀ (thread : Nat) (stack : List (Frame Settings)),
    world.threads[thread]? = some stack → (held stack).length ≤ 1
  issued : ∀ write, world.pending = some write → write.number < world.claims
  watching : ∀ write, isWatched (world.sent write) = true → world.pending = some write
  fresh : ∀ write, world.claims ≤ write.number → world.sent write = .absent

/-- The other calls hold nothing while this one holds a write. -/
theorem ClaimSound.alone (sound : world.ClaimSound)
    (found : world.threads[thread]? = some (frame :: rest)) {write : WriteId}
    (holds : held [frame] = [write]) :
    held rest = [] ∧ ∀ other stack, other ≠ thread → world.threads[other]? = some stack →
      held stack = [] := by
  have stack := held_cons frame rest
  rw [holds] at stack
  have mine := sound.holder thread _ write found (by rw [stack]; exact List.mem_cons_self)
  constructor
  · have single := sound.single thread _ found
    rw [stack] at single
    simpa using single
  · intro other theirs different there
    rw [List.eq_nil_iff_forall_not_mem]
    intro claimed member
    obtain ⟨pending, owner, _⟩ := sound.holder other theirs claimed there member
    rw [mine.1, Option.some.injEq] at pending
    exact different (by rw [← owner, ← pending, mine.2.1])

theorem ClaimSound.free (sound : world.ClaimSound) (free : world.pending = none)
    {stack : List (Frame Settings)} (found : world.threads[thread]? = some stack) :
    held stack = [] := by
  rw [List.eq_nil_iff_forall_not_mem]
  intro write member
  have pending := (sound.holder thread stack write found member).1
  rw [free] at pending
  contradiction

theorem threads_set (Holds : Nat → List (Frame Settings) → Prop)
    {threads : List (List (Frame Settings))} {stack new : List (Frame Settings)}
    (found : threads[thread]? = some stack) (own : Holds thread new)
    (others : ∀ other stack, other ≠ thread → threads[other]? = some stack → Holds other stack) :
    ∀ other stack, (threads.set thread new)[other]? = some stack → Holds other stack := by
  intro other stack there
  rw [getElem?_set_found found] at there
  split at there
  · next same =>
    cases there
    exact same ▸ own
  · next different => exact others other stack different there

/-- A call that changes nothing of what it holds. -/
theorem ClaimSound.keeps (sound : before.ClaimSound)
    (found : before.threads[thread]? = some (frame :: rest)) (kept : held frames = held [frame])
    (pending : next.pending = before.pending) (count : next.claims = before.claims)
    (sent : ∀ write, next.sent write = before.sent write ∨
      write ∈ held [frame] ∧ isEarly (next.sent write) = true) :
    ClaimSound { next with threads := before.threads.set thread (frames ++ rest) } := by
  have same : held (frames ++ rest) = held (frame :: rest) := by
    rw [held_append, kept, ← held_cons]
  have early : ∀ write, isEarly (before.sent write) = true →
      isEarly (next.sent write) = true := by
    intro write early
    rcases sent write with same | ⟨_, now⟩
    · rw [same]
      exact early
    · exact now
  have holder : ∀ other stack, before.threads[other]? = some stack → ∀ write ∈ held stack,
      next.pending = some write ∧ write.thread = other ∧ isEarly (next.sent write) = true := by
    intro other stack there write member
    obtain ⟨mine, owner, now⟩ := sound.holder other stack write there member
    exact ⟨pending.trans mine, owner, early write now⟩
  refine ⟨fun other stack write there => ?_, ?_, ?_, ?_, ?_⟩
  · revert write
    refine threads_set (fun other stack => ∀ write ∈ held stack, next.pending = some write ∧
      write.thread = other ∧ isEarly (next.sent write) = true) found ?_
      (fun other stack _ => holder other stack) other stack there
    rw [same]
    exact holder thread _ found
  · refine threads_set (fun _ stack => (held stack).length ≤ 1) found ?_
      fun other stack _ => sound.single other stack
    rw [same]
    exact sound.single thread _ found
  · intro write mine
    dsimp only at mine ⊢
    rw [count]
    exact sound.issued write (pending.symm.trans mine)
  · intro write watched
    dsimp only at watched ⊢
    rcases sent write with same | ⟨_, now⟩
    · rw [same] at watched
      exact pending.trans (sound.watching write watched)
    · rw [isEarly_or_isWatched now] at watched
      contradiction
  · intro write unborn
    dsimp only at unborn ⊢
    rcases sent write with same | ⟨member, _⟩
    · rw [same]
      exact sound.fresh write (count ▸ unborn)
    · have mine := (sound.holder thread _ write found
        (by rw [held_cons]; exact List.mem_append_left _ member)).1
      have bound := sound.issued write mine
      omega

/-- A call that makes a write of its own while there is none. -/
theorem ClaimSound.claims (sound : before.ClaimSound)
    (found : before.threads[thread]? = some (frame :: rest))
    (made : held frames = [{ thread, number := before.claims }]) (free : before.pending = none)
    (pending : next.pending = some { thread, number := before.claims })
    (sent : next.sent = before.sent) (count : next.claims = before.claims + 1) :
    ClaimSound { next with threads := before.threads.set thread (frames ++ rest) } := by
  have idle : ∀ other stack, before.threads[other]? = some stack → held stack = [] :=
    fun other stack there => sound.free free there
  have below : held rest = [] := by
    have nothing := idle thread _ found
    rw [held_cons] at nothing
    exact (List.append_eq_nil_iff.mp nothing).2
  have after : held (frames ++ rest) = [{ thread, number := before.claims }] := by
    rw [held_append, made, below]
    rfl
  refine ⟨fun other stack write there => ?_, ?_, ?_, ?_, ?_⟩
  · revert write
    refine threads_set (fun other stack => ∀ write ∈ held stack, next.pending = some write ∧
      write.thread = other ∧ isEarly (next.sent write) = true) found ?_
      (fun other stack _ there write member => ?_) other stack there
    · intro write member
      rw [after, List.mem_singleton] at member
      subst member
      refine ⟨pending, rfl, ?_⟩
      rw [sent, sound.fresh _ (Nat.le_refl _)]
      rfl
    · rw [idle other stack there] at member
      contradiction
  · refine threads_set (fun _ stack => (held stack).length ≤ 1) found ?_
      fun other stack _ => sound.single other stack
    rw [after]
    exact Nat.le_refl _
  · intro write mine
    dsimp only at mine ⊢
    rw [pending, Option.some.injEq] at mine
    rw [count, ← mine]
    exact Nat.lt_succ_self _
  · intro write watched
    dsimp only at watched
    rw [sent] at watched
    rw [sound.watching write watched] at free
    contradiction
  · intro write unborn
    dsimp only at unborn ⊢
    rw [sent]
    exact sound.fresh write (by omega)

/-- No call holds anything once the one that held the write has let go of it. -/
theorem ClaimSound.none_held (sound : before.ClaimSound)
    (found : before.threads[thread]? = some (frame :: rest)) {write : WriteId}
    (holds : held [frame] = [write]) (passed : held frames = []) :
    ∀ (other : Nat) (stack : List (Frame Settings)),
      (before.threads.set thread (frames ++ rest))[other]? = some stack → held stack = [] := by
  obtain ⟨below, idle⟩ := sound.alone found holds
  refine threads_set (fun _ stack => held stack = []) found ?_ idle
  rw [held_append, passed, below]
  rfl

/-- A call that releases the write that it holds. -/
theorem ClaimSound.releases (sound : before.ClaimSound)
    (found : before.threads[thread]? = some (frame :: rest)) {write : WriteId}
    (holds : held [frame] = [write]) (passed : held frames = []) (pending : next.pending = none)
    (sent : next.sent = before.sent) (count : next.claims = before.claims) :
    ClaimSound { next with threads := before.threads.set thread (frames ++ rest) } := by
  have nothing := sound.none_held found holds passed
  refine ⟨fun other stack held_write there member => ?_, fun other stack there => ?_, ?_, ?_, ?_⟩
  · rw [nothing other stack there] at member
    contradiction
  · rw [nothing other stack there]
    exact Nat.zero_le _
  · intro other mine
    dsimp only at mine
    rw [pending] at mine
    contradiction
  · intro other watched
    dsimp only at watched
    rw [sent] at watched
    have mine := sound.holder thread _ write found
      (by rw [held_cons, holds]; exact List.mem_cons_self)
    have same := sound.watching other watched
    rw [mine.1, Option.some.injEq] at same
    rw [← same, isEarly_or_isWatched mine.2.2] at watched
    contradiction
  · intro other unborn
    dsimp only at unborn ⊢
    rw [sent]
    exact sound.fresh other (count ▸ unborn)

/-- A call that leaves its write to the callback of the command's future. -/
theorem ClaimSound.hands (sound : before.ClaimSound)
    (found : before.threads[thread]? = some (frame :: rest)) {write : WriteId}
    {phase : SentPhase Settings} (holds : held [frame] = [write]) (passed : held frames = [])
    (pending : next.pending = before.pending)
    (sent : next.sent = Function.update before.sent write phase)
    (count : next.claims = before.claims) :
    ClaimSound { next with threads := before.threads.set thread (frames ++ rest) } := by
  have nothing := sound.none_held found holds passed
  have mine := sound.holder thread _ write found
    (by rw [held_cons, holds]; exact List.mem_cons_self)
  refine ⟨fun other stack held_write there member => ?_, fun other stack there => ?_, ?_, ?_, ?_⟩
  · rw [nothing other stack there] at member
    contradiction
  · rw [nothing other stack there]
    exact Nat.zero_le _
  · intro other same
    dsimp only at same ⊢
    rw [count]
    exact sound.issued other (pending.symm.trans same)
  · intro other watched
    dsimp only at watched ⊢
    rw [sent] at watched
    by_cases same : other = write
    · rw [same]
      exact pending.trans mine.1
    · rw [Function.update_of_ne same] at watched
      exact pending.trans (sound.watching other watched)
  · intro other unborn
    dsimp only at unborn ⊢
    have bound := sound.issued write mine.1
    have different : other ≠ write := by
      rintro rfl
      omega
    rw [sent, Function.update_of_ne different]
    exact sound.fresh other (count ▸ unborn)

theorem ClaimSound.ran (sound : before.ClaimSound)
    (found : before.threads[thread]? = some (frame :: rest))
    (claims : Claims before thread (held [frame]) next (held frames)) :
    ClaimSound { next with threads := before.threads.set thread (frames ++ rest) } := by
  generalize holds : held [frame] = writes at claims
  generalize passed : held frames = remaining at claims
  cases claims with
  | keeps _ _ pending count sent =>
      exact sound.keeps found (passed.trans holds.symm) pending count (holds ▸ sent)
  | claims _ free pending sent count => exact sound.claims found passed free pending sent count
  | releases write _ pending sent count =>
      exact sound.releases found holds passed pending sent count
  | hands write phase _ pending watched sent count =>
      exact sound.hands found holds passed pending sent count

theorem ClaimSound.called (sound : before.ClaimSound) {stack : List (Frame Settings)}
    (found : before.threads[thread]? = some stack) (method : SettingsMethod) :
    ClaimSound { before with threads := before.threads.set thread (method.entry :: stack) } := by
  have same : held (method.entry :: stack) = held stack := by
    rw [held_cons]
    cases method <;> rfl
  refine ⟨fun other theirs write there => ?_, ?_, sound.issued, sound.watching, sound.fresh⟩
  · revert write
    refine threads_set (fun other stack => ∀ write ∈ held stack, before.pending = some write ∧
        write.thread = other ∧ isEarly (before.sent write) = true) found ?_
      (fun other stack _ there write => sound.holder other stack write there) other theirs there
    rw [same]
    exact fun write => sound.holder thread _ write found
  · refine threads_set (fun _ stack => (held stack).length ≤ 1) found ?_
      fun other stack _ => sound.single other stack
    rw [same]
    exact sound.single thread _ found

/-- The future of a write goes on without changing who must release the write. -/
theorem ClaimSound.phase (sound : before.ClaimSound) {write : WriteId}
    {phase : SentPhase Settings} (same : next.threads = before.threads)
    (pending : next.pending = before.pending) (count : next.claims = before.claims)
    (sent : next.sent = Function.update before.sent write phase)
    (begun : before.sent write ≠ .absent)
    (early : isEarly (before.sent write) = true → isEarly phase = true)
    (watched : isWatched phase = true → isWatched (before.sent write) = true) :
    next.ClaimSound := by
  refine ⟨fun thread stack held_write found member => ?_, ?_, ?_, fun other now => ?_,
    fun other unborn => ?_⟩
  · rw [same] at found
    obtain ⟨mine, owner, waiting⟩ := sound.holder thread stack held_write found member
    refine ⟨pending.trans mine, owner, ?_⟩
    rw [sent]
    by_cases same : held_write = write
    · subst same
      rw [Function.update_self]
      exact early waiting
    · rw [Function.update_of_ne same]
      exact waiting
  · rw [same]
    exact sound.single
  · rw [pending, count]
    exact sound.issued
  · rw [sent] at now
    rw [pending]
    by_cases same : other = write
    · subst same
      rw [Function.update_self] at now
      exact sound.watching other (watched now)
    · rw [Function.update_of_ne same] at now
      exact sound.watching other now
  · rw [count] at unborn
    have absent := sound.fresh other unborn
    have different : other ≠ write := by
      rintro rfl
      exact begun absent
    rw [sent, Function.update_of_ne different, absent]

/-- The callback releases the write, which no call holds any more. -/
theorem ClaimSound.callback (sound : before.ClaimSound) {write : WriteId}
    {phase : SentPhase Settings} (same : next.threads = before.threads)
    (pending : next.pending = none) (count : next.claims = before.claims)
    (sent : next.sent = Function.update before.sent write phase)
    (watched : isWatched (before.sent write) = true) (isOver : isWatched phase = false) :
    next.ClaimSound := by
  have mine := sound.watching write watched
  have idle : ∀ (thread : Nat) (stack : List (Frame Settings)),
      before.threads[thread]? = some stack → held stack = [] := by
    intro thread stack found
    rw [List.eq_nil_iff_forall_not_mem]
    intro other member
    obtain ⟨theirs, _, early⟩ := sound.holder thread stack other found member
    rw [mine, Option.some.injEq] at theirs
    rw [← theirs] at early
    rw [isEarly_or_isWatched early] at watched
    contradiction
  refine ⟨fun thread stack other found member => ?_, fun thread stack found => ?_,
    fun other now => ?_, fun other now => ?_, fun other unborn => ?_⟩
  · rw [same] at found
    rw [idle thread stack found] at member
    contradiction
  · rw [same] at found
    exact sound.single thread stack found
  · rw [pending] at now
    contradiction
  · rw [sent] at now
    by_cases same : other = write
    · subst same
      rw [Function.update_self, isOver] at now
      contradiction
    · rw [Function.update_of_ne same] at now
      have theirs := sound.watching other now
      rw [mine, Option.some.injEq] at theirs
      exact absurd theirs.symm same
  · have bound := sound.issued write mine
    rw [count] at unborn
    have different : other ≠ write := by
      rintro rfl
      omega
    rw [sent, Function.update_of_ne different]
    exact sound.fresh other unborn

theorem ClaimSound.settled (sound : before.ClaimSound) {write : WriteId}
    (settles : Settles before write next) : next.ClaimSound := by
  cases settles with
  | heard value succeeded sent =>
      exact sound.phase rfl rfl rfl rfl (by simp [sent]) (fun _ => rfl) nofun
  | notified value succeeded sent =>
      exact sound.phase rfl rfl rfl rfl (by simp [sent]) (by simp [sent, isEarly])
        (by simp [sent, isWatched])
  | committed value sent | rolledBack value sent =>
      exact sound.callback rfl rfl rfl rfl (by rw [sent]; rfl) rfl
  | published succeeded sent =>
      exact sound.phase rfl rfl rfl rfl (by simp [sent]) (by simp [sent, isEarly]) nofun

theorem Transition.claimSound (transition : Transition before after)
    (sound : before.ClaimSound) : after.ClaimSound := by
  cases transition with
  | called thread stack method found => exact sound.called found method
  | ran thread frame frames rest next found moves => exact sound.ran found moves.claims
  | settled write next settles => exact sound.settled settles

theorem claimSound {initial : Settings} (reachable : (actionSystem initial).Reachable world) :
    world.ClaimSound := by
  refine reachable.invariant ?_ fun _ _ _ sound stepped => (step_cases stepped).claimSound sound
  rintro first ⟨count, rfl⟩
  have empty : ∀ (thread : Nat) (stack : List (Frame Settings)),
      (List.replicate count [])[thread]? = some stack → stack = [] := by
    intro thread stack found
    exact (List.mem_replicate.mp (List.mem_of_getElem? found)).2
  refine ⟨fun thread stack write found member => ?_, fun thread stack found => ?_, nofun, nofun,
    fun _ _ => rfl⟩
  · rw [empty thread stack found] at member
    contradiction
  · rw [empty thread stack found]
    exact Nat.zero_le _

end ActionWorld

end StreamDockSdk.Action
