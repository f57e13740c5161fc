import Mathlib.Data.List.Basic

namespace StreamDockSdk.Automaton

/-! # Histories

A history lists the events of a run, newest first.  A law relates an event to
the history that it was added to.
-/

variable {Event : Type u}

/-- Every event of the history satisfied the law at the moment it was added. -/
def Guarded (law : List Event → Event → Prop) : List Event → Prop
  | [] => True
  | event :: older => law older event ∧ Guarded law older

theorem Guarded.at_event {law : List Event → Event → Prop} {newer older : List Event}
    {event : Event} (guarded : Guarded law (newer ++ event :: older)) : law older event := by
  induction newer with
  | nil => exact guarded.1
  | cons head rest ih => exact ih guarded.2

/-- `first` happened before some occurrence of `second`. -/
def Precedes (history : List Event) (first second : Event) : Prop :=
  ∃ newer older, history = newer ++ second :: older ∧ first ∈ older

theorem Precedes.older_mem {history : List Event} {first second : Event}
    (precedes : Precedes history first second) : first ∈ history := by
  obtain ⟨newer, older, rfl, member⟩ := precedes
  simp [member]

/-- An event that came before `second` came before everything after `second`. -/
theorem Precedes.mem_older {history newer older : List Event} {first second event : Event}
    (precedes : Precedes history first second) (split : history = newer ++ event :: older)
    (late : second ∉ newer) (different : second ≠ event) : first ∈ older := by
  obtain ⟨later, earlier, other_split, member⟩ := precedes
  rw [split] at other_split
  rcases List.append_eq_append_iff.mp other_split with ⟨gap, later_eq, tail⟩ | ⟨gap, newer_eq, tail⟩
  · cases gap with
    | nil =>
        simp only [List.nil_append, List.cons.injEq] at tail
        exact absurd tail.1.symm different
    | cons head rest =>
        simp only [List.cons_append, List.cons.injEq] at tail
        rw [tail.2]
        simp [member]
  · cases gap with
    | nil =>
        simp only [List.nil_append, List.cons.injEq] at tail
        exact absurd tail.1 different
    | cons head rest =>
        simp only [List.cons_append, List.cons.injEq] at tail
        rw [newer_eq, tail.1] at late
        simp at late

theorem precedes_cons {history : List Event} {event first second : Event} :
    Precedes (event :: history) first second ↔
      (event = second ∧ first ∈ history) ∨ Precedes history first second := by
  constructor
  · rintro ⟨newer, older, split, member⟩
    cases newer with
    | nil =>
        simp only [List.nil_append, List.cons.injEq] at split
        exact .inl ⟨split.1, split.2 ▸ member⟩
    | cons head rest =>
        simp only [List.cons_append, List.cons.injEq] at split
        exact .inr ⟨rest, older, split.2, member⟩
  · rintro (⟨rfl, member⟩ | ⟨newer, older, rfl, member⟩)
    · exact ⟨[], history, rfl, member⟩
    · exact ⟨event :: newer, older, rfl, member⟩

end StreamDockSdk.Automaton
