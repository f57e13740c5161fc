import StreamDockSdk.Automaton.System

namespace StreamDockSdk.Automaton.System

variable {State : Type u} {Label : Type v} {system : System State Label}
variable {allowed : State → Label → Prop} {goal motive : State → Prop} (measure : State → Nat)

/-- Allowed steps can get to the goal. -/
inductive Leads (system : System State Label) (allowed : State → Label → Prop)
    (goal : State → Prop) : State → Prop
  | here {state : State} : goal state → Leads system allowed goal state
  | step {before after : State} {label : Label} : allowed before label →
      system.step before label = some after → Leads system allowed goal after →
      Leads system allowed goal before

/-- Where every state short of the goal allows a step that makes the measure smaller,
steps get to the goal. -/
theorem Leads.of_measure
    (progress : ∀ before, motive before → goal before ∨ ∃ label after, allowed before label ∧
      system.step before label = some after ∧ motive after ∧ measure after < measure before)
    {state : State} (holds : motive state) : system.Leads allowed goal state := by
  induction size : measure state using Nat.strongRecOn generalizing state with
  | ind size ih =>
      subst size
      rcases progress state holds with reached | ⟨label, after, permitted, stepped, kept, smaller⟩
      · exact .here reached
      · exact .step permitted stepped (ih _ smaller kept rfl)

/-- A measure that no step makes larger, and a thread's steps make smaller, bounds how
many steps the thread makes in any run. -/
theorem exec_countP_le (own : Label → Bool) {start finish : State} {labels : List Label}
    (spent : ∀ before label after, motive before → system.step before label = some after →
      motive after ∧ measure after + (if own label then 1 else 0) ≤ measure before)
    (holds : motive start) (ran : system.exec start labels = some finish) :
    labels.countP own + measure finish ≤ measure start := by
  induction labels generalizing start with
  | nil =>
      cases ran
      simp
  | cons label rest ih =>
      simp only [exec] at ran
      split at ran
      · contradiction
      · next after stepped =>
        obtain ⟨kept, smaller⟩ := spent _ _ _ holds stepped
        have later := ih kept ran
        rw [List.countP_cons]
        omega

end StreamDockSdk.Automaton.System
