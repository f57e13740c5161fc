import Mathlib.Data.Option.Basic

namespace StreamDockSdk.Automaton

/-! # Labelled transition systems

A step is a partial function of the state and a label, so that a run on given
labels can be evaluated.  Everything a scheduler, a clock or a caller may
choose is part of the label.
-/

structure System (State : Type u) (Label : Type v) where
  initial : State → Prop
  step : State → Label → Option State

namespace System

variable {State : Type u} {Label : Type v} {system : System State Label}
variable {allowed : State → Label → Prop}

/-- States of the runs all of whose steps satisfy `allowed`. -/
inductive ReachableBy (system : System State Label) (allowed : State → Label → Prop) :
    State → Prop
  | initial {state : State} : system.initial state → ReachableBy system allowed state
  | step {before after : State} {label : Label} :
      ReachableBy system allowed before → allowed before label →
      system.step before label = some after → ReachableBy system allowed after

/-- States of unrestricted runs. -/
def Reachable (system : System State Label) : State → Prop :=
  system.ReachableBy fun _ _ => True

/-- What the steps of `allowed` keep, and every initial state has, holds in
every state that such steps reach. -/
theorem ReachableBy.invariant {motive : State → Prop} {state : State}
    (reachable : system.ReachableBy allowed state)
    (start : ∀ first, system.initial first → motive first)
    (preserved : ∀ before label after, allowed before label → motive before →
      system.step before label = some after → motive after) :
    motive state := by
  induction reachable with
  | initial first => exact start _ first
  | step _ permitted stepped holds => exact preserved _ _ _ permitted holds stepped

theorem Reachable.invariant {motive : State → Prop} {state : State}
    (reachable : system.Reachable state)
    (start : ∀ first, system.initial first → motive first)
    (preserved : ∀ before label after, motive before →
      system.step before label = some after → motive after) :
    motive state :=
  ReachableBy.invariant reachable start
    fun before label after _ holds stepped => preserved before label after holds stepped

theorem ReachableBy.weaken {narrower : State → Label → Prop} {state : State}
    (reachable : system.ReachableBy narrower state)
    (included : ∀ before label, narrower before label → allowed before label) :
    system.ReachableBy allowed state := by
  induction reachable with
  | initial first => exact .initial first
  | step _ permitted stepped earlier => exact .step earlier (included _ _ permitted) stepped

theorem ReachableBy.reachable {state : State} (reachable : system.ReachableBy allowed state) :
    system.Reachable state :=
  reachable.weaken fun _ _ _ => trivial

/-- A step may use a property that was already shown of the states on its way. -/
theorem ReachableBy.invariant_along {motive : State → Prop} {state : State}
    (reachable : system.ReachableBy allowed state) (known : State → Prop)
    (established : ∀ reached, system.ReachableBy allowed reached → known reached)
    (start : ∀ first, system.initial first → motive first)
    (preserved : ∀ before label after, allowed before label → known before → motive before →
      system.step before label = some after → motive after) :
    motive state := by
  induction reachable with
  | initial first => exact start _ first
  | step earlier permitted stepped holds =>
      exact preserved _ _ _ permitted (established _ earlier) holds stepped

/-- A step may use a property that was already shown of all reachable states. -/
theorem ReachableBy.invariant_given {motive : State → Prop} {state : State}
    (reachable : system.ReachableBy allowed state) (known : State → Prop)
    (established : ∀ reached, system.Reachable reached → known reached)
    (start : ∀ first, system.initial first → motive first)
    (preserved : ∀ before label after, allowed before label → known before → motive before →
      system.step before label = some after → motive after) :
    motive state :=
  reachable.invariant_along known (fun reached earlier => established reached earlier.reachable)
    start preserved

theorem Reachable.invariant_given {motive : State → Prop} {state : State}
    (reachable : system.Reachable state) (known : State → Prop)
    (established : ∀ reached, system.Reachable reached → known reached)
    (start : ∀ first, system.initial first → motive first)
    (preserved : ∀ before label after, known before → motive before →
      system.step before label = some after → motive after) :
    motive state :=
  ReachableBy.invariant_given reachable known established start
    fun before label after _ holds sound stepped => preserved before label after holds sound stepped

theorem Reachable.next {before after : State} (reachable : system.Reachable before)
    (label : Label) (stepped : system.step before label = some after) : system.Reachable after :=
  .step reachable trivial stepped

/-- The same system without the steps that the check forbids. -/
def restrict (system : System State Label) (check : State → Label → Bool) :
    System State Label where
  initial := system.initial
  step state label := if check state label then system.step state label else none

theorem Reachable.restricted {check : State → Label → Bool} {state : State}
    (reachable : (system.restrict check).Reachable state) :
    system.ReachableBy (fun state label => check state label = true) state := by
  induction reachable with
  | initial first => exact .initial first
  | step _ _ stepped earlier =>
      simp only [restrict] at stepped
      split at stepped
      · next permitted => exact .step earlier permitted stepped
      · contradiction

/-- The run on a fixed list of labels, when every one of its steps is enabled. -/
def exec (system : System State Label) : State → List Label → Option State
  | state, [] => some state
  | state, label :: rest =>
      match system.step state label with
      | none => none
      | some next => system.exec next rest

/-- What every step keeps, a run on a list of labels keeps. -/
theorem exec_invariant {motive : State → Prop} {start finish : State} {labels : List Label}
    (holds : motive start) (run : system.exec start labels = some finish)
    (preserved : ∀ before label after, motive before →
      system.step before label = some after → motive after) : motive finish := by
  induction labels generalizing start with
  | nil =>
      simp only [System.exec, Option.some.injEq] at run
      exact run ▸ holds
  | cons label rest ih =>
      simp only [System.exec] at run
      split at run
      · contradiction
      · next stepped => exact ih (preserved _ _ _ holds stepped) run

theorem Reachable.exec {start finish : State} {labels : List Label}
    (reachable : system.Reachable start) (run : system.exec start labels = some finish) :
    system.Reachable finish :=
  exec_invariant reachable run fun _ label _ reached stepped => reached.next label stepped

variable {Note : Type w} {blank : Note} {rewrite : State → State → Note → Note}

/-- The same system with a note that every step rewrites and no step reads. -/
def noting (system : System State Label) (blank : Note) (rewrite : State → State → Note → Note) :
    System (State × Note) Label where
  initial noted := system.initial noted.1 ∧ noted.2 = blank
  step noted label := (system.step noted.1 label).map fun after =>
    (after, rewrite noted.1 after noted.2)

theorem noting_step {noted after : State × Note} {label : Label}
    (stepped : (system.noting blank rewrite).step noted label = some after) :
    system.step noted.1 label = some after.1 ∧ after.2 = rewrite noted.1 after.1 noted.2 := by
  obtain ⟨next, moved, rfl⟩ := Option.map_eq_some_iff.mp stepped
  exact ⟨moved, rfl⟩

theorem Reachable.noted {noted : State × Note}
    (reachable : (system.noting blank rewrite).Reachable noted) : system.Reachable noted.1 := by
  refine reachable.invariant (motive := fun noted => system.Reachable noted.1) ?_ ?_
  · exact fun first start => .initial start.1
  · exact fun before label after reached stepped => reached.next label (noting_step stepped).1

end System

end StreamDockSdk.Automaton
