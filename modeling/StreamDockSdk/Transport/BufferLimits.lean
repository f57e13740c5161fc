import StreamDockSdk.Text.Utf8
import StreamDockSdk.Transport.Queues.Discard

namespace StreamDockSdk

/-- A count that may stop above the limit, and is the total below it. -/
structure CountsUpTo (limit total counted : Nat) : Prop where
  within : total ≤ limit → counted = total
  above : limit < total → limit < counted

theorem CountsUpTo.le_iff {limit total counted : Nat} (counts : CountsUpTo limit total counted) :
    counted ≤ limit ↔ total ≤ limit := by
  have within := counts.within
  have above := counts.above
  omega

theorem CountsUpTo.eq {limit total counted : Nat} (counts : CountsUpTo limit total counted)
    (fits : counted ≤ limit) : counted = total :=
  counts.within (counts.le_iff.mp fits)

/-- The loop counts the rest of the text from the offset on. -/
theorem utf8SizeFrom_counts (points : List CodePoint) (limit : Nat) {count : Nat} :
    ∀ {offset size : Nat}, points.length ≤ offset + 4096 * count →
      size + (Str.bytes ⟨points.drop offset⟩).length ≤ limit →
      utf8SizeFrom points limit (List.range' offset count 4096) size =
        size + (Str.bytes ⟨points.drop offset⟩).length := by
  induction count with
  | zero =>
      intro offset size covered _
      have drained : points.drop offset = [] := List.drop_eq_nil_of_le (by omega)
      simp [utf8SizeFrom, drained, Str.bytes]
  | succ count ih =>
      intro offset size covered fits
      have split : points.drop offset =
          (points.drop offset).take 4096 ++ points.drop (offset + 4096) := by
        rw [← List.drop_drop, List.take_append_drop]
      have parts := congrArg (fun rest => (Str.bytes ⟨rest⟩).length) split
      simp only [Str.bytes_append, List.length_append] at parts
      rw [List.range'_succ, utf8SizeFrom]
      rw [if_neg (by omega), ih (by omega) (by omega)]
      omega

theorem utf8Size_counts (text : Str) (limit : Nat) :
    CountsUpTo limit text.bytes.length (utf8Size text limit) where
  within fits := by
    obtain ⟨points⟩ := text
    have shorter := Str.length_le_bytes points
    unfold utf8Size
    dsimp only
    rw [if_neg (by omega), utf8SizeFrom_counts points limit (by omega)]
    · rw [List.drop_zero, Nat.zero_add]
    · rw [List.drop_zero, Nat.zero_add]
      exact fits
  above isOver := by
    have counted := (utf8Size_le text limit).mp
    omega

namespace Transport

/-- The `item_size` of both queues of frames; `text` is `none` where the payload is not a `str`. -/
def frameSize {Item : Type} (text : Item → Option Str) (retained : Item → Nat → Nat)
    (item : Item) (limit : Nat) : Nat :=
  match text item with
  | some payload => utf8Size payload limit
  | none => retained item limit

namespace QueueWorld

variable {Item : Type} {config : TransportQueueConfig Item} {equals : Item → Item → Bool}
variable {world after : QueueWorld Item}

/-- Every item that was appended has passed the check of its size. -/
def Sized (config : TransportQueueConfig Item) (world : QueueWorld Item) : Prop :=
  ∀ append ∈ world.appended, config.size append.2 ≤ config.messageLimit

theorem Sized.of_eq (sized : world.Sized config) (same : after.appended = world.appended) :
    after.Sized config := by
  unfold Sized
  rw [same]
  exact sized

theorem Sized.looks (sized : world.Sized config) {index : Nat} {item : Item}
    {look : BoundedTransportQueue Item × SubmitDecision}
    (looked : BoundedTransportQueue.Looks config world.queue item look.1 look.2) :
    (world.looks index item look).Sized config := by
  obtain ⟨queue, decision⟩ := look
  cases looked with
  | refused same isOver =>
      cases decision with
      | rejected error => exact sized
      | cancelled => exact sized
      | waits => exact absurd rfl isOver.1
      | accepted => exact absurd rfl isOver.2
  | waits same full fits => exact sized
  | accepted entries bytes room fits =>
      intro append member
      rcases List.mem_append.mp member with before | fresh
      · exact sized append before
      · rw [List.mem_singleton.mp fresh]
        exact fits

theorem drains_appended {index : Nat} {expired : Bool} {late : QueueCall Item}
    (stepped : world.drains index expired late = some after) :
    after.appended = world.appended := by
  unfold QueueWorld.drains at stepped
  split at stepped
  · cases stepped
    rfl
  · split at stepped
    · cases stepped
      rfl
    · contradiction

theorem Sized.proceed [DecidableEq Item] (sized : world.Sized config)
    (tallies : world.Tallies config)
    {index : Nat} {cancelled expired : Bool}
    (stepped : world.proceed config equals index cancelled expired = some after) :
    after.Sized config := by
  unfold QueueWorld.proceed at stepped
  split at stepped
  · next item found =>
    cases stepped
    exact sized.looks (BoundedTransportQueue.submit_looks item cancelled expired)
  · next item notified found =>
    cases stepped
    exact sized.looks
      (BoundedTransportQueue.resubmit_looks cancelled expired (tallies.fits _ _ _ found))
  · unfold QueueWorld.receives at stepped
    split at stepped
    · cases stepped
      exact sized.of_eq rfl
    · split at stepped
      · cases stepped
        exact sized.of_eq rfl
      · contradiction
  · cases stepped
    unfold QueueWorld.discards
    split <;> exact sized.of_eq rfl
  · cases stepped
    exact sized.of_eq rfl
  · cases stepped
    exact sized.of_eq rfl
  · exact sized.of_eq (drains_appended stepped)
  · cases stepped
    exact sized.of_eq rfl
  · exact sized.of_eq (drains_appended stepped)
  · cases stepped
    exact sized.of_eq rfl
  all_goals contradiction

theorem Sized.step [DecidableEq Item] (sized : world.Sized config)
    (tallies : world.Tallies config) {label : QueueLabel Item}
    (stepped : world.step config equals label = some after) : after.Sized config := by
  cases label with
  | begins call =>
      simp only [QueueWorld.step] at stepped
      split at stepped
      · cases stepped
        exact sized
      · contradiction
  | proceeds index cancelled expired => exact sized.proceed tallies stepped

theorem reachable_sized [DecidableEq Item] (positive : 0 < config.queueLimit)
    (reachable : (queueSystem config equals).Reachable world) : world.Sized config := by
  refine reachable.invariant_given (motive := Sized config) (Accounted config)
    (fun _ => reachable_accounted positive) ?_ fun before label after accounted sized stepped =>
      sized.step accounted.tallies stepped
  rintro first rfl
  exact fun _ => nofun

/-- The size beside a frame of text is the size of its text. -/
theorem reachable_entry [DecidableEq Item] (positive : 0 < config.queueLimit)
    {text : Item → Option Str} {retained : Item → Nat → Nat}
    (sizes : config.itemSize = frameSize text retained)
    (reachable : (queueSystem config equals).Reachable world) {entry : Item × Nat}
    (queued : entry ∈ world.queue.queue) {payload : Str} (holds : text entry.1 = some payload) :
    entry.2 = payload.bytes.length := by
  have tallies := (reachable_accounted positive reachable).tallies
  rw [tallies.entries, List.mem_map] at queued
  obtain ⟨append, member, rfl⟩ := queued
  have appended := tallies.inOrder.subset (List.mem_append_right _ member)
  have fits := reachable_sized positive reachable append appended
  simp only [TransportQueueConfig.size, sizes, frameSize] at fits holds ⊢
  rw [holds] at fits ⊢
  exact (utf8Size_counts payload config.messageLimit).eq fits

end QueueWorld

end Transport

end StreamDockSdk
