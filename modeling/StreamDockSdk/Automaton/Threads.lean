import Mathlib.Algebra.GroupWithZero.Nat
import Mathlib.Data.List.Basic

namespace StreamDockSdk.Automaton

/-! # Pools of threads

A pool is the list of the program counters of the threads.  A thread step
replaces one entry; a new thread is appended.
-/

variable {Pc : Type u} {pool : List Pc} {index : Nat} {old new : Pc}

/-- The total of what the threads of a pool account for. -/
def weight (measure : Pc → Nat) (pool : List Pc) : Nat :=
  (pool.map measure).sum

@[simp] theorem weight_nil (measure : Pc → Nat) : weight measure [] = 0 := rfl

@[simp] theorem weight_append (measure : Pc → Nat) (pool added : List Pc) :
    weight measure (pool ++ added) = weight measure pool + weight measure added := by
  simp [weight]

theorem weight_eq_zero {measure : Pc → Nat} (idle : ∀ pc ∈ pool, measure pc = 0) :
    weight measure pool = 0 := by
  induction pool with
  | nil => rfl
  | cons head rest ih =>
      have tail := ih fun pc member => idle pc (List.mem_cons_of_mem head member)
      simp only [weight, List.map_cons, List.sum_cons] at tail ⊢
      rw [tail, idle head (by simp)]

theorem weight_set (measure : Pc → Nat) (new : Pc) (found : pool[index]? = some old) :
    weight measure (pool.set index new) + measure old = weight measure pool + measure new := by
  induction pool generalizing index with
  | nil => simp at found
  | cons head rest ih =>
      cases index with
      | zero =>
          simp only [List.getElem?_cons_zero, Option.some.injEq] at found
          subst found
          simp [weight, Nat.add_comm, Nat.add_left_comm]
      | succ index =>
          have tail := @ih index (by simpa using found)
          simp only [weight, List.set_cons_succ, List.map_cons, List.sum_cons] at tail ⊢
          omega

theorem measure_le_weight (measure : Pc → Nat) (found : pool[index]? = some old) :
    measure old ≤ weight measure pool := by
  induction pool generalizing index with
  | nil => simp at found
  | cons head rest ih =>
      simp only [weight, List.map_cons, List.sum_cons]
      cases index with
      | zero =>
          simp only [List.getElem?_cons_zero, Option.some.injEq] at found
          exact found ▸ Nat.le_add_right _ _
      | succ index =>
          exact Nat.le_trans (@ih index (by simpa using found)) (Nat.le_add_left _ _)

/-- Each thread that a view sees something of accounts for one at least. -/
theorem length_filterMap_le_weight {Seen : Type v} {look : Pc → Option Seen} {measure : Pc → Nat}
    (seen : ∀ pc, (look pc).isSome → 0 < measure pc) (pool : List Pc) :
    (pool.filterMap look).length ≤ weight measure pool := by
  induction pool with
  | nil => simp
  | cons head rest ih =>
      simp only [weight, List.map_cons, List.sum_cons] at ih ⊢
      cases view : look head with
      | none =>
          rw [List.filterMap_cons_none view]
          omega
      | some found =>
          have counted := seen head (by simp [view])
          rw [List.filterMap_cons_some view, List.length_cons]
          omega

theorem getElem?_set_found (found : pool[index]? = some old) (other : Nat) :
    (pool.set index new)[other]? = if other = index then some new else pool[other]? := by
  have bound : index < pool.length := (List.getElem?_eq_some_iff.mp found).1
  by_cases same : other = index
  · subst same
    simp [bound]
  · rw [List.getElem?_set_ne (Ne.symm same), if_neg same]

/-- Threads outside the part of the program that a proof is about. -/
inductive Reshaped (Idle : Pc → Prop) (before : List Pc) : List Pc → Prop
  | same : Reshaped Idle before before
  | spawned (added : List Pc) : (∀ pc ∈ added, Idle pc) → Reshaped Idle before (before ++ added)
  | moved (index : Nat) (old new : Pc) : before[index]? = some old → Idle old → Idle new →
      Reshaped Idle before (before.set index new)

theorem Reshaped.weight {Idle : Pc → Prop} {before after : List Pc} {measure : Pc → Nat}
    (reshaped : Reshaped Idle before after) (idle : ∀ pc, Idle pc → measure pc = 0) :
    weight measure after = weight measure before := by
  cases reshaped with
  | same => rfl
  | spawned added added_idle =>
      rw [weight_append, weight_eq_zero fun pc member => idle pc (added_idle pc member)]
      rfl
  | moved index old new found old_idle new_idle =>
      have moved := weight_set measure new found
      rw [idle old old_idle, idle new new_idle] at moved
      exact moved

theorem Reshaped.mem {Idle : Pc → Prop} {before after : List Pc} {pc : Pc}
    (reshaped : Reshaped Idle before after) (member : pc ∈ after) : pc ∈ before ∨ Idle pc := by
  cases reshaped with
  | same => exact .inl member
  | spawned added added_idle => exact (List.mem_append.mp member).imp_right (added_idle pc)
  | moved index old new found old_idle new_idle =>
      rcases List.mem_or_eq_of_mem_set member with kept | rfl
      · exact .inl kept
      · exact .inr new_idle

/-- A partial view of the threads that does not see idle ones is unchanged. -/
theorem Reshaped.view {Idle : Pc → Prop} {before after : List Pc} {Seen : Type v}
    {look : Pc → Option Seen} (reshaped : Reshaped Idle before after)
    (idle : ∀ pc, Idle pc → look pc = none) (index : Nat) :
    after[index]?.bind look = before[index]?.bind look := by
  cases reshaped with
  | same => rfl
  | spawned added added_idle =>
      by_cases within : index < before.length
      · rw [List.getElem?_append_left within]
      · rw [List.getElem?_append_right (by omega), List.getElem?_eq_none (by omega : before.length ≤ index)]
        cases found : added[index - before.length]? with
        | none => rfl
        | some pc => exact idle pc (added_idle pc (List.mem_of_getElem? found))
  | moved position old new found old_idle new_idle =>
      rw [getElem?_set_found found]
      by_cases same : index = position
      · subst same
        simp [found, idle old old_idle, idle new new_idle]
      · simp [same]

end StreamDockSdk.Automaton
