import StreamDockSdk.Automaton.Threads

namespace StreamDockSdk.Automaton

variable {Pc : Type u}

/-- Only the owner of a lock is at a position that holds it. -/
def Exclusive (holds : Pc → Bool) (owner : Option Nat) (pool : List Pc) : Prop :=
  ∀ (index : Nat) (pc : Pc), pool[index]? = some pc → holds pc = true → owner = some index

/-- What one step of a thread does to the owner of a lock. -/
inductive Transfer (holds : Pc → Bool) (index : Nat) (pc next : Pc) :
    Option Nat → Option Nat → Prop
  | keep {owner : Option Nat} : (holds next = true → holds pc = true) →
      Transfer holds index pc next owner owner
  | acquire : Transfer holds index pc next none (some index)
  | release {owner : Option Nat} : holds pc = true → holds next = false →
      Transfer holds index pc next owner none

section Exclusive

variable {holds : Pc → Bool} {owner after : Option Nat} {pool : List Pc} {index : Nat}
variable {pc next : Pc}

theorem Exclusive.set (exclusive : Exclusive holds owner pool) (found : pool[index]? = some pc)
    (transfer : Transfer holds index pc next owner after) :
    Exclusive holds after (pool.set index next) := by
  intro position other located holding
  rw [getElem?_set_found found] at located
  cases transfer with
  | keep stays =>
      split at located
      · next here =>
        cases located
        rw [here]
        exact exclusive index pc found (stays holding)
      · exact exclusive position other located holding
  | acquire =>
      split at located
      · next here => rw [here]
      · exact nomatch exclusive position other located holding
  | release held free =>
      split at located
      · cases located
        rw [free] at holding
        contradiction
      · next elsewhere =>
        have mine := exclusive index pc found held
        have theirs := exclusive position other located holding
        exact absurd (Option.some.inj (theirs.symm.trans mine)) elsewhere

theorem Exclusive.append (exclusive : Exclusive holds owner pool) (outside : holds pc = false) :
    Exclusive holds owner (pool ++ [pc]) := by
  intro position other located holding
  by_cases within : position < pool.length
  · rw [List.getElem?_append_left within] at located
    exact exclusive position other located holding
  · rw [List.getElem?_append_right (by omega)] at located
    rw [List.mem_singleton.mp (List.mem_of_getElem? located), outside] at holding
    contradiction

theorem Exclusive.free (exclusive : Exclusive holds none pool) : ∀ pc ∈ pool, holds pc = false := by
  intro pc member
  obtain ⟨position, located⟩ := List.mem_iff_getElem?.mp member
  by_contra holding
  exact nomatch exclusive position pc located (by simpa using holding)

end Exclusive

/-- At most one thread is inside. -/
def Solitary (inside : Pc → Bool) (pool : List Pc) : Prop :=
  ∀ (first second : Nat) (pc other : Pc), pool[first]? = some pc → inside pc = true →
    pool[second]? = some other → inside other = true → first = second

section Solitary

variable {inside : Pc → Bool} {pool : List Pc} {index : Nat} {pc next : Pc}

theorem Solitary.set (sole : Solitary inside pool) (found : pool[index]? = some pc)
    (stays : (inside next = true → inside pc = true) ∨ ∀ other ∈ pool, inside other = false) :
    Solitary inside (pool.set index next) := by
  -- A thread of the new pool that is inside was inside before, unless it is the new one.
  have origin {position : Nat} {other : Pc}
      (located : (pool.set index next)[position]? = some other) (within : inside other = true) :
      position = index ∨ pool[position]? = some other := by
    rw [getElem?_set_found found] at located
    split at located
    · next here => exact .inl here
    · exact .inr located
  intro first second one other first_found one_inside second_found other_inside
  rcases stays with stays | empty
  · have before {position : Nat} {other : Pc}
        (located : (pool.set index next)[position]? = some other) (within : inside other = true) :
        ∃ old, pool[position]? = some old ∧ inside old = true := by
      rw [getElem?_set_found found] at located
      split at located
      · next here =>
        cases located
        exact ⟨pc, here ▸ found, stays within⟩
      · exact ⟨other, located, within⟩
    obtain ⟨old, old_found, old_inside⟩ := before first_found one_inside
    obtain ⟨older, older_found, older_inside⟩ := before second_found other_inside
    exact sole first second old older old_found old_inside older_found older_inside
  · have here {position : Nat} {other : Pc}
        (located : (pool.set index next)[position]? = some other) (within : inside other = true) :
        position = index := by
      rcases origin located within with here | old
      · exact here
      · rw [empty other (List.mem_of_getElem? old)] at within
        contradiction
    exact (here first_found one_inside).trans (here second_found other_inside).symm

theorem Solitary.append (sole : Solitary inside pool) (outside : inside pc = false) :
    Solitary inside (pool ++ [pc]) := by
  have old {position : Nat} {other : Pc} (located : (pool ++ [pc])[position]? = some other)
      (within : inside other = true) : pool[position]? = some other := by
    by_cases bound : position < pool.length
    · rwa [List.getElem?_append_left bound] at located
    · rw [List.getElem?_append_right (by omega)] at located
      rw [List.mem_singleton.mp (List.mem_of_getElem? located), outside] at within
      contradiction
  intro first second one other first_found one_inside second_found other_inside
  exact sole first second one other (old first_found one_inside) one_inside
    (old second_found other_inside) other_inside

end Solitary

end StreamDockSdk.Automaton
