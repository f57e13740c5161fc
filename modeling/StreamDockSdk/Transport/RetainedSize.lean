import Mathlib.Algebra.GroupWithZero.Nat
import Mathlib.Algebra.BigOperators.Group.Finset.Basic
import Mathlib.Algebra.Order.BigOperators.Group.Finset
import Mathlib.Data.Fintype.Card
import Mathlib.Data.Prod.Lex
import StreamDockSdk.Transport.BufferLimits
import StreamDockSdk.Traversal

namespace StreamDockSdk

/-- The `__slots__` of a class. -/
inductive PySlots where
  | missing
  | single (name : String)
  | names (names : List String)
deriving DecidableEq, Repr

/-- A class in the `__mro__` of an object. -/
structure PyClass where
  name : String
  slots : PySlots
deriving DecidableEq, Repr

/-- What an object stores as a built-in container. -/
inductive PyStorage (Ref : Type) where
  | dict (entries : List (Ref × Ref))
  | list (items : List Ref)
  /-- A `tuple`, a `set` or a `frozenset`. -/
  | items (items : List Ref)
  | none
deriving Repr

/-- What `retained_size` asks of an object. -/
structure PyObject (Ref : Type) where
  size : Nat
  /-- A `str`, `bytes`, `int`, `float`, `bool`, `type` or `None`. -/
  scalar : Bool
  storage : PyStorage Ref
  /-- `__dict__` -/
  attributes : Option Ref
  mro : List PyClass
  /-- `object.__getattribute__`, or `none` where it raises `AttributeError`. -/
  getAttribute : String → Option Ref

/-- Objects that refer to one another. -/
abbrev ObjectGraph (Ref : Type) := Ref → PyObject Ref

variable {Ref Other : Type}

def PySlots.toList : PySlots → List String
  | .missing => []
  | .single name => [name]
  | .names all => all

/-- The name of the attribute of a slot. -/
def PyClass.attributeName (cls : PyClass) (name : String) : String :=
  if name.startsWith "__" && !name.endsWith "__" then
    "_" ++ String.ofList (cls.name.toList.dropWhile (· == '_')) ++ name
  else name

def PyStorage.children : PyStorage Ref → List Ref
  | .dict entries => entries.flatMap fun entry => [entry.1, entry.2]
  | .list held | .items held => held
  | .none => []

/-- `_children` -/
def PyObject.children (object : PyObject Ref) : List Ref :=
  object.storage.children ++ object.attributes.toList ++
    object.mro.flatMap fun cls => cls.slots.toList.filterMap fun name =>
      if name = "__dict__" ∨ name = "__weakref__" then none
      else object.getAttribute (cls.attributeName name)

/-- The object holds the other in a container, in `__dict__` or in a slot. -/
inductive PyObject.Holds (object : PyObject Ref) : Ref → Prop
  | key {entries : List (Ref × Ref)} {key value : Ref} (stored : object.storage = .dict entries)
      (member : (key, value) ∈ entries) : object.Holds key
  | value {entries : List (Ref × Ref)} {key value : Ref} (stored : object.storage = .dict entries)
      (member : (key, value) ∈ entries) : object.Holds value
  | item {items : List Ref} {item : Ref}
      (stored : object.storage = .list items ∨ object.storage = .items items)
      (member : item ∈ items) : object.Holds item
  | attributes {held : Ref} (found : object.attributes = some held) : object.Holds held
  | slot {cls : PyClass} {name : String} {held : Ref} (inherits : cls ∈ object.mro)
      (declares : name ∈ cls.slots.toList) (kept : name ≠ "__dict__" ∧ name ≠ "__weakref__")
      (found : object.getAttribute (cls.attributeName name) = some held) : object.Holds held

theorem PyStorage.mem_children {storage : PyStorage Ref} {held : Ref} :
    held ∈ storage.children ↔
      (∃ entries key value, storage = .dict entries ∧ (key, value) ∈ entries ∧
        (held = key ∨ held = value)) ∨
      ∃ items, (storage = .list items ∨ storage = .items items) ∧ held ∈ items := by
  cases storage with
  | dict entries => simp [children]
  | list items | items items => simp [children]
  | none => simp [children]

theorem PyObject.mem_children {object : PyObject Ref} {held : Ref} :
    held ∈ object.children ↔ object.Holds held := by
  unfold children
  rw [List.mem_append, List.mem_append, PyStorage.mem_children, Option.mem_toList]
  constructor
  · rintro (((⟨entries, key, value, stored, member, rfl | rfl⟩ | ⟨items, stored, member⟩) |
      found) | slot)
    · exact .key stored member
    · exact .value stored member
    · exact .item stored member
    · exact .attributes found
    · obtain ⟨cls, inherits, slot⟩ := List.mem_flatMap.mp slot
      obtain ⟨name, declares, found⟩ := List.mem_filterMap.mp slot
      split at found
      · contradiction
      · next kept => exact .slot inherits declares (not_or.mp kept) found
  · intro holds
    cases holds with
    | key stored member => exact .inl (.inl (.inl ⟨_, _, _, stored, member, .inl rfl⟩))
    | value stored member => exact .inl (.inl (.inl ⟨_, _, _, stored, member, .inr rfl⟩))
    | item stored member => exact .inl (.inl (.inr ⟨_, stored, member⟩))
    | attributes found => exact .inl (.inr found)
    | slot inherits declares kept found =>
        refine .inr (List.mem_flatMap.mpr ⟨_, inherits, List.mem_filterMap.mpr ⟨_, declares, ?_⟩⟩)
        rw [if_neg (not_or.mpr kept), found]

namespace ObjectGraph

/-- From an object that is no scalar to what it holds. -/
def Leads (graph : ObjectGraph Ref) (object held : Ref) : Prop :=
  (graph object).scalar = false ∧ (graph object).Holds held

/-- Objects are retained with the value if it leads to them. -/
def Retains (graph : ObjectGraph Ref) (value object : Ref) : Prop :=
  Relation.ReflTransGen graph.Leads value object

open Classical in
/-- The sizes of the retained objects together, each counted once. -/
noncomputable def total [Fintype Ref] (graph : ObjectGraph Ref) (value : Ref) : Nat :=
  ∑ object with graph.Retains value object, (graph object).size

end ObjectGraph

structure Walk (Ref : Type) where
  seen : Finset Ref
  /-- The iterators on the stack, with what each has still to yield. -/
  pending : List (List Ref)
  size : Nat

inductive WalkStep (Ref : Type) where
  | returns (size : Nat)
  | continues (walk : Walk Ref)

namespace Walk

variable [DecidableEq Ref]

/-- A turn of the loop of `retained_size`. -/
def step (graph : ObjectGraph Ref) (limit : Nat) (walk : Walk Ref) : WalkStep Ref :=
  match walk.pending with
  | [] => .returns walk.size
  | [] :: rest => .continues { walk with pending := rest }
  | (item :: later) :: rest =>
      if item ∈ walk.seen then .continues { walk with pending := later :: rest }
      else if limit < walk.size + (graph item).size then
        .returns (walk.size + (graph item).size)
      else .continues {
        seen := insert item walk.seen
        pending := if (graph item).scalar then later :: rest
          else (graph item).children :: later :: rest
        size := walk.size + (graph item).size }

/-- Objects that were not seen, and what the iterators have still to yield. -/
def remaining [Fintype Ref] (walk : Walk Ref) : Nat ×ₗ Nat :=
  toLex (Fintype.card Ref - walk.seen.card, (walk.pending.map (·.length + 1)).sum)

variable {graph : ObjectGraph Ref} {limit : Nat} {walk next : Walk Ref}

theorem step_decreases [Fintype Ref] (stepped : walk.step graph limit = .continues next) :
    next.remaining < walk.remaining := by
  unfold step at stepped
  split at stepped
  · cases stepped
  · next rest empty =>
    cases stepped
    refine Prod.Lex.toLex_lt_toLex.mpr (.inr ⟨rfl, ?_⟩)
    simp [empty]
  · next item later rest found =>
    split at stepped
    · cases stepped
      refine Prod.Lex.toLex_lt_toLex.mpr (.inr ⟨rfl, ?_⟩)
      simp [found]
    · next fresh =>
      split at stepped
      · cases stepped
      · cases stepped
        refine Prod.Lex.toLex_lt_toLex.mpr (.inl ?_)
        have within := Finset.card_lt_univ_of_notMem fresh
        rw [Finset.card_insert_of_notMem fresh]
        omega

/-- The loop of `retained_size`. -/
def run [Fintype Ref] (graph : ObjectGraph Ref) (limit : Nat) (walk : Walk Ref) : Nat :=
  match _stepped : walk.step graph limit with
  | .returns size => size
  | .continues next => run graph limit next
termination_by walk.remaining
decreasing_by exact step_decreases _stepped

end Walk

def retainedSize [Fintype Ref] [DecidableEq Ref] (graph : ObjectGraph Ref) (value : Ref)
    (limit : Nat) : Nat :=
  Walk.run graph limit { seen := ∅, pending := [[value]], size := 0 }

namespace Walk

variable [DecidableEq Ref] [Fintype Ref] {graph : ObjectGraph Ref} {limit : Nat} {value : Ref}
variable {walk next : Walk Ref}

/-- Some iterator has still to yield the object. -/
def Pending (walk : Walk Ref) (object : Ref) : Prop :=
  ∃ iterator ∈ walk.pending, object ∈ iterator

/-- What the objects that were seen come to is counted, and nothing beyond the iterators is
left out. -/
structure Tallied (graph : ObjectGraph Ref) (limit : Nat) (value : Ref) (walk : Walk Ref) :
    Prop where
  frontier : Traversal.Frontier graph.Leads value (· ∈ walk.seen) walk.Pending
  counted : walk.size = ∑ object ∈ walk.seen, (graph object).size
  within : walk.size ≤ limit

omit [DecidableEq Ref] in
omit [Fintype Ref] in
theorem pending_cons {iterator : List Ref} {rest : List (List Ref)} {object : Ref}
    (found : walk.pending = iterator :: rest) :
    walk.Pending object ↔ object ∈ iterator ∨ ∃ other ∈ rest, object ∈ other := by
  simp [Pending, found]

omit [Fintype Ref] [DecidableEq Ref] in
/-- What the iterators yield after the object was counted. -/
theorem pending_counted {item object : Ref} {later : List Ref} {rest : List (List Ref)} :
    (∃ iterator ∈ if (graph item).scalar then later :: rest
        else (graph item).children :: later :: rest, object ∈ iterator) ↔
      graph.Leads item object ∨ object ∈ later ∨ ∃ other ∈ rest, object ∈ other := by
  cases scalar : (graph item).scalar with
  | true => simp [ObjectGraph.Leads, scalar]
  | false => simp [ObjectGraph.Leads, scalar, PyObject.mem_children]

omit [Fintype Ref] in
/-- The next object is counted. -/
theorem Tallied.count (tallied : walk.Tallied graph limit value) {item : Ref} {later : List Ref}
    {rest : List (List Ref)} (found : walk.pending = (item :: later) :: rest) :
    Traversal.Frontier graph.Leads value (· ∈ insert item walk.seen) fun object =>
      ∃ iterator ∈ if (graph item).scalar then later :: rest
        else (graph item).children :: later :: rest, object ∈ iterator := by
  have yields (object : Ref) : walk.Pending object ↔
      object = item ∨ object ∈ later ∨ ∃ other ∈ rest, object ∈ other := by
    rw [pending_cons found, List.mem_cons, or_assoc]
  refine tallied.frontier.visit ((yields item).mpr (.inl rfl)) ?_ ?_ ?_ ?_
  · rintro object (was | waits)
    · exact .inl (Finset.mem_insert_of_mem was)
    · rcases (yields object).mp waits with rfl | later
      · exact .inl (Finset.mem_insert_self object walk.seen)
      · exact .inr (pending_counted.mpr (.inr later))
  · exact fun object leads => .inr (pending_counted.mpr (.inl leads))
  · exact fun object was => (Finset.mem_insert.mp was).symm
  · intro object waits
    rcases pending_counted.mp waits with leads | later
    · exact .inr leads
    · exact .inl ((yields object).mpr (.inr later))

omit [Fintype Ref] in
theorem Tallied.step (tallied : walk.Tallied graph limit value)
    (stepped : walk.step graph limit = .continues next) : next.Tallied graph limit value := by
  have frontier := tallied.frontier
  unfold Walk.step at stepped
  split at stepped
  · cases stepped
  · next rest found =>
    cases stepped
    refine ⟨frontier.skip ?_ ?_, tallied.counted, tallied.within⟩
    · intro object waits
      rw [pending_cons found] at waits
      exact .inr (waits.resolve_left (List.not_mem_nil))
    · intro object waits
      exact (pending_cons found).mpr (.inr waits)
  · next item later rest found =>
    split at stepped
    · next was =>
      cases stepped
      refine ⟨frontier.skip ?_ ?_, tallied.counted, tallied.within⟩
      · intro object waits
        rw [pending_cons found, List.mem_cons] at waits
        rcases waits with (rfl | waits) | waits
        · exact .inl was
        · exact .inr ((pending_cons rfl).mpr (.inl waits))
        · exact .inr ((pending_cons rfl).mpr (.inr waits))
      · intro object waits
        rw [pending_cons rfl] at waits
        rw [pending_cons found]
        exact waits.imp_left (List.mem_cons_of_mem item)
    · next fresh =>
      split at stepped
      · cases stepped
      · next fits =>
        cases stepped
        refine ⟨tallied.count found, ?_, Nat.not_lt.mp fits⟩
        rw [Finset.sum_insert fresh, ← tallied.counted, Nat.add_comm]

/-- The size that ends the walk. -/
theorem Tallied.returned (tallied : walk.Tallied graph limit value) {size : Nat}
    (stepped : walk.step graph limit = .returns size) :
    CountsUpTo limit (graph.total value) size := by
  classical
  have reached (objects : Finset Ref) (retained : ∀ object ∈ objects,
      graph.Retains value object) : ∑ object ∈ objects, (graph object).size ≤ graph.total value :=
    Finset.sum_le_sum_of_subset fun object member =>
      Finset.mem_filter.mpr ⟨Finset.mem_univ object, retained object member⟩
  unfold Walk.step at stepped
  split at stepped
  · next drained =>
    cases stepped
    have whole : graph.total value = walk.size := by
      rw [tallied.counted, ObjectGraph.total]
      refine Finset.sum_congr (Finset.ext fun object => ?_) fun _ _ => rfl
      rw [Finset.mem_filter, and_iff_right (Finset.mem_univ object)]
      exact (tallied.frontier.seen_iff fun object => by simp [Pending, drained]).symm
    have within := tallied.within
    exact ⟨fun _ => whole.symm, fun above => by omega⟩
  · cases stepped
  · next item later rest found =>
    split at stepped
    · cases stepped
    · next fresh =>
      split at stepped
      · next isOver =>
        cases stepped
        have counted := (reached (insert item walk.seen) fun object member =>
          (tallied.count found).reached (.inl member))
        rw [Finset.sum_insert fresh, ← tallied.counted, Nat.add_comm] at counted
        exact ⟨fun fits => by omega, fun _ => isOver⟩
      · cases stepped

theorem Tallied.run {walk : Walk Ref} (tallied : walk.Tallied graph limit value) :
    CountsUpTo limit (graph.total value) (walk.run graph limit) := by
  induction walk using Walk.run.induct graph limit with
  | case1 walk size stepped =>
      rw [Walk.run]
      split
      · next same => 
        cases stepped.symm.trans same
        exact tallied.returned stepped
      · next same => cases stepped.symm.trans same
  | case2 walk next stepped ih =>
      rw [Walk.run]
      split
      · next same => cases stepped.symm.trans same
      · next same =>
        cases stepped.symm.trans same
        exact ih (tallied.step stepped)

end Walk

/-- The graphs have the same objects, in whatever order these are yielded. -/
structure SameGraph (graph : ObjectGraph Ref) (other : ObjectGraph Other) (same : Ref ≃ Other) :
    Prop where
  size : ∀ object, (other (same object)).size = (graph object).size
  leads : ∀ object held, other.Leads (same object) (same held) ↔ graph.Leads object held

theorem SameGraph.retains {graph : ObjectGraph Ref} {other : ObjectGraph Other}
    {same : Ref ≃ Other} (graphs : SameGraph graph other same) (value object : Ref) :
    other.Retains (same value) (same object) ↔ graph.Retains value object := by
  unfold ObjectGraph.Retains
  have forward : graph.Leads ≤ Function.onFun other.Leads same := fun first second =>
    (graphs.leads first second).mpr
  have back : other.Leads ≤ Function.onFun graph.Leads same.symm := by
    intro first second leads
    refine (graphs.leads (same.symm first) (same.symm second)).mp ?_
    rwa [same.apply_symm_apply, same.apply_symm_apply]
  constructor
  · intro retained
    have lifted := Relation.ReflTransGen.lift same.symm back _ _ retained
    simpa [Function.onFun] using lifted
  · exact Relation.ReflTransGen.lift same forward _ _

theorem SameGraph.total [Fintype Ref] [Fintype Other] {graph : ObjectGraph Ref}
    {other : ObjectGraph Other} {same : Ref ≃ Other} (graphs : SameGraph graph other same)
    (value : Ref) : other.total (same value) = graph.total value := by
  classical
  unfold ObjectGraph.total
  refine (Finset.sum_equiv same (fun object => ?_) fun object _ => (graphs.size object).symm).symm
  simp only [Finset.mem_filter, Finset.mem_univ, true_and]
  exact (graphs.retains value object).symm

/-- A list that holds itself and a text twice. -/
def sampleGraph : ObjectGraph (Fin 2) := fun object =>
  { size := if object = 0 then 72 else 50
    scalar := object = 1
    storage := if object = 0 then .list [1, 0, 1] else .none
    attributes := none
    mro := []
    getAttribute := fun _ => none }

example : retainedSize sampleGraph 0 200 = 122 := by
  simp [retainedSize, Walk.run, Walk.step, sampleGraph, PyObject.children, PyStorage.children]

end StreamDockSdk
