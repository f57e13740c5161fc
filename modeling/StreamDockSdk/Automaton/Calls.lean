import StreamDockSdk.Automaton.Threads

namespace StreamDockSdk.Automaton

/-! # Threads that run nested calls

A thread is the stack of the calls that it has still to make, innermost first.
A step takes the first call off and puts the calls that it makes in its place.
-/

variable {Op : Type u} {threads : List (List Op)} {index : Nat} {call op : Op}
variable {rest stack pushed : List Op}

/-- Some thread has the call still to make. -/
def Running (threads : List (List Op)) (op : Op) : Prop :=
  ∃ stack ∈ threads, op ∈ stack

/-- The thread's first call gives way to the calls that it makes. -/
def resume (threads : List (List Op)) (index : Nat) (stack : List Op) : List (List Op) :=
  threads.set index stack

theorem Running.of_thread (found : threads[index]? = some stack) (member : op ∈ stack) :
    Running threads op :=
  ⟨stack, List.mem_of_getElem? found, member⟩

/-- What threads have still to do after a call gave way to the calls that it makes. -/
structure Follows (call : Op) (pushed : List Op) (before after : Op → Prop) : Prop where
  stays : ∀ op, before op → op ≠ call → after op
  made : ∀ op ∈ pushed, after op
  came : ∀ op, after op → before op ∨ op ∈ pushed

theorem Running.resumed (found : threads[index]? = some (call :: rest))
    (running : Running (resume threads index (pushed ++ rest)) op) :
    Running threads op ∨ op ∈ pushed := by
  obtain ⟨stack, member, within⟩ := running
  rcases List.mem_or_eq_of_mem_set member with kept | rfl
  · exact .inl ⟨stack, kept, within⟩
  · rcases List.mem_append.mp within with new | old
    · exact .inr new
    · exact .inl (.of_thread found (List.mem_cons_of_mem call old))

theorem Running.stays (found : threads[index]? = some (call :: rest))
    (running : Running threads op) (other : op ≠ call) :
    Running (resume threads index (pushed ++ rest)) op := by
  obtain ⟨stack, member, within⟩ := running
  obtain ⟨position, at_position⟩ := List.getElem?_of_mem member
  by_cases same : position = index
  · subst same
    rw [found] at at_position
    cases at_position
    refine ⟨pushed ++ rest, ?_, ?_⟩
    · exact List.mem_of_getElem? ((getElem?_set_found found position).trans (if_pos rfl))
    · exact List.mem_append_right pushed ((List.mem_cons.mp within).resolve_left other)
  · refine ⟨stack, ?_, within⟩
    exact List.mem_of_getElem?
      ((getElem?_set_found found position).trans ((if_neg same).trans at_position))

theorem Running.made (found : threads[index]? = some stack) (member : op ∈ pushed) :
    Running (resume threads index (pushed ++ rest)) op :=
  ⟨pushed ++ rest,
    List.mem_of_getElem? ((getElem?_set_found found index).trans (if_pos rfl)),
    List.mem_append_left rest member⟩

/-- An exception ends what the thread has to do, and nothing else. -/
theorem Running.unwinds (found : threads[index]? = some stack) (running : Running threads op)
    (absent : op ∉ stack) : Running (resume threads index []) op := by
  obtain ⟨other, member, within⟩ := running
  obtain ⟨position, at_position⟩ := List.getElem?_of_mem member
  refine ⟨other, ?_, within⟩
  apply List.mem_of_getElem? (i := position)
  rw [resume, getElem?_set_found found, if_neg]
  · exact at_position
  · rintro rfl
    rw [found] at at_position
    cases at_position
    exact absent within

theorem Running.of_unwound (running : Running (resume threads index []) op) :
    Running threads op := by
  obtain ⟨stack, member, within⟩ := running
  rcases List.mem_or_eq_of_mem_set member with kept | rfl
  · exact ⟨stack, kept, within⟩
  · contradiction

theorem follows_resume (found : threads[index]? = some (call :: rest)) :
    Follows call pushed (Running threads) (Running (resume threads index (pushed ++ rest))) where
  stays _ running other := running.stays found other
  made _ member := .made found member
  came _ running := running.resumed found

theorem running_append (threads : List (List Op)) (stack : List Op) :
    Running (threads ++ [stack]) op ↔ Running threads op ∨ op ∈ stack := by
  simp only [Running, List.mem_append, List.mem_singleton]
  constructor
  · rintro ⟨found, member | rfl, within⟩
    · exact .inl ⟨found, member, within⟩
    · exact .inr within
  · rintro (⟨found, member, within⟩ | within)
    · exact ⟨found, .inl member, within⟩
    · exact ⟨stack, .inr rfl, within⟩

/-- What threads have still to do after a step that takes calls off one thread and
puts others there. -/
structure Shifts (gone pushed : List Op) (before after : Op → Prop) : Prop where
  stays : ∀ op, before op → op ∉ gone → after op
  made : ∀ op ∈ pushed, after op
  came : ∀ op, after op → before op ∨ op ∈ pushed

theorem Shifts.refl (before : Op → Prop) : Shifts [] [] before before :=
  ⟨fun _ running _ => running, nofun, fun _ running => .inl running⟩

theorem shifts_resume (found : threads[index]? = some (call :: rest)) :
    Shifts [call] pushed (Running threads) (Running (resume threads index (pushed ++ rest))) where
  stays _ running other := running.stays found fun same => other (List.mem_singleton.mpr same)
  made _ member := .made found member
  came _ running := running.resumed found

theorem shifts_work (found : threads[index]? = some []) :
    Shifts [] pushed (Running threads) (Running (resume threads index pushed)) where
  stays op running _ := by
    obtain ⟨stack, member, within⟩ := running
    obtain ⟨position, at_position⟩ := List.getElem?_of_mem member
    refine ⟨stack, List.mem_of_getElem? (i := position) ?_, within⟩
    rw [resume, getElem?_set_found found, if_neg]
    · exact at_position
    · rintro rfl
      rw [found] at at_position
      cases at_position
      contradiction
  made op member := by
    have made : Running (resume threads index (pushed ++ [])) op := .made found member
    rwa [List.append_nil] at made
  came op running := by
    obtain ⟨stack, member, within⟩ := running
    rcases List.mem_or_eq_of_mem_set member with kept | rfl
    · exact .inl ⟨stack, kept, within⟩
    · exact .inr within

theorem shifts_append (threads : List (List Op)) (stack : List Op) :
    Shifts [] stack (Running threads) (Running (threads ++ [stack])) where
  stays _ running _ := (running_append threads stack).mpr (.inl running)
  made _ member := (running_append threads stack).mpr (.inr member)
  came _ running := (running_append threads stack).mp running

theorem shifts_unwind (found : threads[index]? = some stack) :
    Shifts stack [] (Running threads) (Running (resume threads index [])) where
  stays _ running absent := running.unwinds found absent
  made _ member := nomatch member
  came _ running := .inl running.of_unwound

theorem not_running_idle (idle : ∀ stack ∈ threads, stack = []) : ¬ Running threads op := by
  rintro ⟨stack, member, within⟩
  rw [idle stack member] at within
  contradiction

/-- How many of the calls that the threads have still to make satisfy the test. -/
def calls (test : Op → Bool) (threads : List (List Op)) : Nat :=
  weight (fun stack => stack.countP test) threads

@[simp] theorem calls_nil (test : Op → Bool) : calls test [] = 0 := rfl

@[simp] theorem calls_append (test : Op → Bool) (threads : List (List Op)) (stack : List Op) :
    calls test (threads ++ [stack]) = calls test threads + stack.countP test := by
  simp [calls, weight]

theorem calls_replace (test : Op → Bool) (pushed : List Op) (found : threads[index]? = some stack) :
    calls test (resume threads index pushed) + stack.countP test =
      calls test threads + pushed.countP test :=
  weight_set (fun stack => stack.countP test) pushed found

theorem calls_resume (test : Op → Bool) (pushed : List Op)
    (found : threads[index]? = some (call :: rest)) :
    calls test (resume threads index (pushed ++ rest)) + (if test call then 1 else 0) =
      calls test threads + pushed.countP test := by
  have moved := calls_replace test (pushed ++ rest) found
  simp only [List.countP_cons, List.countP_append] at moved
  omega

theorem calls_pos (test : Op → Bool) (found : threads[index]? = some (call :: rest))
    (passes : test call = true) : 0 < calls test threads := by
  have bound := measure_le_weight (fun stack => stack.countP test) found
  simp only [List.countP_cons, passes, if_true] at bound
  unfold calls
  omega

theorem calls_pos_of_running (test : Op → Bool) (running : Running threads op)
    (passes : test op = true) : 0 < calls test threads := by
  obtain ⟨stack, member, within⟩ := running
  obtain ⟨position, found⟩ := List.getElem?_of_mem member
  have bound := measure_le_weight (fun stack => stack.countP test) found
  exact Nat.lt_of_lt_of_le (List.countP_pos_iff.mpr ⟨op, within, passes⟩) bound

theorem calls_eq_zero (test : Op → Bool) (idle : ∀ op, Running threads op → test op = false) :
    calls test threads = 0 := by
  apply weight_eq_zero
  intro stack member
  rw [List.countP_eq_zero]
  intro op within passes
  rw [idle op ⟨stack, member, within⟩] at passes
  contradiction

theorem running_of_calls_pos (test : Op → Bool) (positive : 0 < calls test threads) :
    ∃ op, Running threads op ∧ test op = true := by
  by_contra none
  have zero : calls test threads = 0 := calls_eq_zero test fun op running =>
    Bool.eq_false_iff.mpr fun passes => none ⟨op, running, passes⟩
  omega

/-- Only such calls stand behind another call of their thread. -/
def Behind (threads : List (List Op)) (allowed : Op → Prop) : Prop :=
  ∀ stack ∈ threads, ∀ op ∈ stack.tail, allowed op

variable {allowed weaker : Op → Prop}

theorem Behind.mono (behind : Behind threads allowed) (implied : ∀ op, allowed op → weaker op) :
    Behind threads weaker :=
  fun stack member op within => implied op (behind stack member op within)

theorem Behind.append (behind : Behind threads allowed) (tail : ∀ op ∈ stack.tail, allowed op) :
    Behind (threads ++ [stack]) allowed := by
  intro other member
  rcases List.mem_append.mp member with kept | new
  · exact behind other kept
  · rw [List.mem_singleton.mp new]
    exact tail

theorem Behind.set (behind : Behind threads allowed) (tail : ∀ op ∈ stack.tail, allowed op) :
    Behind (resume threads index stack) allowed := by
  intro other member
  rcases List.mem_or_eq_of_mem_set member with kept | rfl
  · exact behind other kept
  · exact tail

theorem Behind.resume (behind : Behind threads allowed) (found : threads[index]? = some (call :: rest))
    (tail : ∀ op ∈ pushed.tail, allowed op) :
    Behind (resume threads index (pushed ++ rest)) allowed := by
  have left : ∀ op ∈ rest, allowed op := behind _ (List.mem_of_getElem? found)
  refine behind.set fun op member => ?_
  cases pushed with
  | nil => exact left op (List.mem_of_mem_tail member)
  | cons first calls =>
      rcases List.mem_append.mp member with new | old
      · exact tail op new
      · exact left op old

end StreamDockSdk.Automaton
