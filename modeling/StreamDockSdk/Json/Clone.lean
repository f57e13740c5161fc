import StreamDockSdk.Json.Values

namespace StreamDockSdk

/-! # The containers of a JSON clone

`_clone_json_value` again, with the lists and dictionaries that it builds.  They get
their places behind the heap that the value stands in.
-/

/-- The loop of a container over what it holds, from the left; what was built so far goes
from call to call. -/
def cloneEach {α β : Type} (clone : α → PyHeap → Except JsonError (β × PyHeap)) :
    List α → PyHeap → Except JsonError (List β × PyHeap)
  | [], built => .ok ([], built)
  | item :: rest, built =>
      match clone item built with
      | .error error => .error error
      | .ok (cloned, built) =>
          match cloneEach clone rest built with
          | .error error => .error error
          | .ok (others, built) => .ok (cloned :: others, built)

def cloneEntryInto (clone : PyValue → PyHeap → Except JsonError (PyValue × PyHeap)) :
    PyValue × PyValue → PyHeap → Except JsonError ((PyValue × PyValue) × PyHeap)
  | (.str key, item), built =>
      match clone item built with
      | .error error => .error error
      | .ok (cloned, built) => .ok ((.str key, cloned), built)
  | _, _ => .error .notStringKey

/-- `_clone_json_value` and `_clone_json_dict`; the last argument is what was built so far. -/
def cloneJsonValueInto (heap : PyHeap) :
    Nat → List Nat → PyValue → PyHeap → Except JsonError (PyValue × PyHeap)
  | _, _, .none, built => .ok (.none, built)
  | _, _, .bool value, built => .ok (.bool value, built)
  | _, _, .int value, built => .ok (.int value, built)
  | _, _, .str value, built => .ok (.str value, built)
  | _, _, .float bits, built =>
      if isFinite bits then .ok (.float bits, built) else .error .notFinite
  | _, _, .other, _ => .error .notJson
  | 0, _, .container identity, _ =>
      match heap[identity]? with
      | none => .error .notJson
      | some _ => .error .tooDeep
  | remaining + 1, active, .container identity, built =>
      match heap[identity]? with
      | none => .error .notJson
      | some container =>
          if identity ∈ active then .error .cyclic
          else
            let clone := cloneJsonValueInto heap remaining (identity :: active)
            match container with
            | .list items =>
                match cloneEach clone items (built ++ [.list []]) with
                | .error error => .error error
                | .ok (cloned, after) =>
                    .ok (.container (heap.length + built.length),
                      after.set built.length (.list cloned))
            | .dict entries =>
                match cloneEach (cloneEntryInto clone) entries (built ++ [.dict []]) with
                | .error error => .error error
                | .ok (cloned, after) =>
                    .ok (.container (heap.length + built.length),
                      after.set built.length (.dict cloned))

/-- What a value that is no container denotes. -/
def jsonScalar? : PyValue → Option JsonValue
  | .none => some .null
  | .bool value => some (.bool value)
  | .int value => some (.int value)
  | .float bits => if isFinite bits then some (.float bits) else none
  | .str value => some (.str value)
  | .container _ | .other => none

/-- The value is the JSON value, with at most so many containers nested. -/
def DenotesJson (heap : PyHeap) : Nat → PyValue → JsonValue → Prop
  | 0, value, tree => jsonScalar? value = some tree
  | depth + 1, .container identity, tree =>
      (∃ items trees, heap[identity]? = some (.list items) ∧ tree = .list trees ∧
        List.Forall₂ (DenotesJson heap depth) items trees) ∨
      ∃ entries fields, heap[identity]? = some (.dict entries) ∧ tree = .dict fields ∧
        List.Forall₂ (fun entry field =>
          entry.1 = .str field.1 ∧ DenotesJson heap depth entry.2 field.2) entries fields
  | _ + 1, value, tree => jsonScalar? value = some tree

/-- What a container holds. -/
def PyContainer.children : PyContainer → List PyValue
  | .list items => items
  | .dict entries => entries.map Prod.snd

/-- The containers of a value, each as often as the value comes by it. -/
def containersWithin (heap : PyHeap) : Nat → PyValue → List Nat
  | 0, _ => []
  | depth + 1, .container identity =>
      identity :: ((heap[identity]?.map PyContainer.children).getD []).flatMap
        (containersWithin heap depth)
  | _ + 1, _ => []

/-- So many containers are around the item within the value. -/
def LiesAt (heap : PyHeap) : Nat → PyValue → PyValue → Prop
  | 0, value, item => value = item
  | depth + 1, value, item => ∃ identity within, value = .container identity ∧
      Holds heap identity within ∧ LiesAt heap depth within item

variable {heap other : PyHeap} {depth : Nat} {value : PyValue}

theorem denotesJson_scalar {tree : JsonValue} (flat : ∀ identity, value ≠ .container identity) :
    DenotesJson heap depth value tree ↔ jsonScalar? value = some tree := by
  cases depth with
  | zero => rfl
  | succ depth =>
      cases value with
      | container identity => exact absurd rfl (flat identity)
      | _ => rfl

theorem containersWithin_scalar (flat : ∀ identity, value ≠ .container identity) :
    containersWithin heap depth value = [] := by
  cases depth with
  | zero => rfl
  | succ depth =>
      cases value with
      | container identity => exact absurd rfl (flat identity)
      | _ => rfl

theorem isJsonValueWithin_scalar (flat : ∀ identity, value ≠ .container identity) :
    isJsonValueWithin heap depth value = (jsonScalar? value).isSome := by
  cases value with
  | container identity => exact absurd rfl (flat identity)
  | float bits =>
      simp only [isJsonValueWithin, jsonScalar?]
      cases isFinite bits <;> rfl
  | _ =>
      simp only [isJsonValueWithin, jsonScalar?]
      rfl

theorem isJsonValueWithin_iff_scalar (flat : ∀ identity, value ≠ .container identity) :
    isJsonValueWithin heap depth value = true ↔ ∃ tree, DenotesJson heap depth value tree := by
  simp only [isJsonValueWithin_scalar flat, denotesJson_scalar flat]
  exact Option.isSome_iff_exists

/-- A list of inputs that are all related to something. -/
theorem forall₂_of_forall {α β : Type} {relation : α → β → Prop} {inputs : List α} :
    (∃ outputs, List.Forall₂ relation inputs outputs) ↔
      ∀ input ∈ inputs, ∃ output, relation input output := by
  induction inputs with
  | nil => exact ⟨fun _ => nofun, fun _ => ⟨[], .nil⟩⟩
  | cons input rest ih =>
      rw [List.forall_mem_cons, ← ih]
      constructor
      · rintro ⟨outputs, related⟩
        cases related with
        | cons first others => exact ⟨⟨_, first⟩, ⟨_, others⟩⟩
      · rintro ⟨⟨output, first⟩, ⟨outputs, others⟩⟩
        exact ⟨output :: outputs, .cons first others⟩

/-- `is_json_value` accepts what denotes something. -/
theorem isJsonValueWithin_iff :
    isJsonValueWithin heap depth value = true ↔ ∃ tree, DenotesJson heap depth value tree := by
  induction depth generalizing value with
  | zero =>
      cases value with
      | container identity => simp [isJsonValueWithin, DenotesJson, jsonScalar?]
      | _ => exact isJsonValueWithin_iff_scalar (by simp)
  | succ depth ih =>
      cases value with
      | container identity =>
          cases found : heap[identity]? with
          | none => simp [isJsonValueWithin, DenotesJson, found]
          | some container =>
              cases container with
              | list items =>
                  simp only [isJsonValueWithin, found, DenotesJson, List.all_eq_true, ih,
                    Option.some.injEq, PyContainer.list.injEq, reduceCtorEq, false_and,
                    exists_false, or_false]
                  rw [← forall₂_of_forall]
                  constructor
                  · rintro ⟨trees, related⟩
                    exact ⟨_, items, trees, rfl, rfl, related⟩
                  · rintro ⟨_, _, trees, rfl, _, related⟩
                    exact ⟨trees, related⟩
              | dict entries =>
                  simp only [isJsonValueWithin, found, DenotesJson, List.all_eq_true,
                    isJsonValueWithin_entry, ih, Option.some.injEq, PyContainer.dict.injEq,
                    reduceCtorEq, false_and, exists_false, false_or]
                  have keyed : (∀ entry ∈ entries, (∃ key, entry.1 = .str key) ∧
                      ∃ tree, DenotesJson heap depth entry.2 tree) ↔
                      ∀ entry ∈ entries, ∃ field : Str × JsonValue,
                        entry.1 = .str field.1 ∧ DenotesJson heap depth entry.2 field.2 := by
                    simp only [Prod.exists, exists_and_left, exists_and_right]
                  rw [keyed, ← forall₂_of_forall]
                  constructor
                  · rintro ⟨fields, related⟩
                    exact ⟨_, entries, fields, rfl, rfl, related⟩
                  · rintro ⟨_, _, fields, rfl, _, related⟩
                    exact ⟨fields, related⟩
      | _ => exact isJsonValueWithin_iff_scalar (by simp)

theorem forall₂_unique {α β : Type} {relation : α → β → Prop} {inputs : List α}
    {outputs others : List β} (related : List.Forall₂ relation inputs outputs)
    (again : List.Forall₂ relation inputs others)
    (unique : ∀ input output other, relation input output → relation input other →
      output = other) : outputs = others := by
  induction related generalizing others with
  | nil =>
      cases again
      rfl
  | cons first _ ih =>
      cases again with
      | cons second rest => rw [unique _ _ _ first second, ih rest]

theorem DenotesJson.unique {tree same : JsonValue} (denotes : DenotesJson heap depth value tree)
    (again : DenotesJson heap depth value same) : tree = same := by
  induction depth generalizing value tree same with
  | zero => exact Option.some.inj (denotes.symm.trans again)
  | succ depth ih =>
      by_cases flat : ∀ identity, value ≠ .container identity
      · rw [denotesJson_scalar flat] at denotes again
        exact Option.some.inj (denotes.symm.trans again)
      push Not at flat
      obtain ⟨identity, rfl⟩ := flat
      rcases denotes with ⟨items, trees, found, rfl, related⟩ | ⟨entries, fields, found, rfl, related⟩
      · rcases again with ⟨items, others, located, rfl, more⟩ | ⟨_, _, located, _⟩
        · rw [found] at located
          cases located
          rw [forall₂_unique related more fun _ _ _ first second => ih first second]
        · rw [found] at located
          cases located
      · rcases again with ⟨_, _, located, _⟩ | ⟨entries, others, located, rfl, more⟩
        · rw [found] at located
          cases located
        · rw [found] at located
          cases located
          rw [forall₂_unique related more fun _ _ _ first second => Prod.ext
            (PyValue.str.inj (first.1.symm.trans second.1)) (ih first.2 second.2)]

theorem forall₂_imp_mem {α β : Type} {relation result : α → β → Prop} {inputs : List α}
    {outputs : List β} (related : List.Forall₂ relation inputs outputs)
    (imp : ∀ input ∈ inputs, ∀ output, relation input output → result input output) :
    List.Forall₂ result inputs outputs := by
  induction related with
  | nil => exact .nil
  | cons first _ ih =>
      exact .cons (imp _ List.mem_cons_self _ first)
        (ih fun input member => imp input (List.mem_cons_of_mem _ member))

theorem forall₂_and {α β : Type} {first second : α → β → Prop} {inputs : List α}
    {outputs : List β} (left : List.Forall₂ first inputs outputs)
    (right : List.Forall₂ second inputs outputs) :
    List.Forall₂ (fun input output => first input output ∧ second input output) inputs outputs := by
  induction left with
  | nil => exact .nil
  | cons head _ ih =>
      cases right with
      | cons other rest => exact .cons ⟨head, other⟩ (ih rest)

theorem DenotesJson.frame {tree : JsonValue}
    (same : ∀ identity ∈ containersWithin heap depth value, other[identity]? = heap[identity]?)
    (denotes : DenotesJson heap depth value tree) : DenotesJson other depth value tree := by
  induction depth generalizing value tree with
  | zero => exact denotes
  | succ depth ih =>
      by_cases flat : ∀ identity, value ≠ .container identity
      · rw [denotesJson_scalar flat] at denotes ⊢
        exact denotes
      push Not at flat
      obtain ⟨identity, rfl⟩ := flat
      have root := same identity List.mem_cons_self
      have inner {container : PyContainer} (found : heap[identity]? = some container)
          {item : PyValue} (member : item ∈ container.children) :
          ∀ identity ∈ containersWithin heap depth item, other[identity]? = heap[identity]? := by
        refine fun place within => same place (List.mem_cons_of_mem _ ?_)
        rw [found]
        exact List.mem_flatMap.mpr ⟨item, member, within⟩
      rcases denotes with ⟨items, trees, found, rfl, related⟩ | ⟨entries, fields, found, rfl, related⟩
      · refine .inl ⟨items, trees, root.trans found, rfl, ?_⟩
        exact forall₂_imp_mem related fun item member tree denotes => ih (inner found member) denotes
      · refine .inr ⟨entries, fields, root.trans found, rfl, ?_⟩
        refine forall₂_imp_mem related fun entry member field denotes => ⟨denotes.1, ?_⟩
        exact ih (inner found (List.mem_map_of_mem member)) denotes.2

theorem containersWithin_frame
    (same : ∀ identity ∈ containersWithin heap depth value, other[identity]? = heap[identity]?) :
    containersWithin other depth value = containersWithin heap depth value := by
  induction depth generalizing value with
  | zero => rfl
  | succ depth ih =>
      cases value with
      | container identity =>
          have root := same identity List.mem_cons_self
          simp only [containersWithin, root, List.cons.injEq, true_and]
          refine List.flatMap_congr fun item member => ih fun place within => ?_
          exact same place (List.mem_cons_of_mem _ (List.mem_flatMap.mpr ⟨item, member, within⟩))
      | _ => rfl

/-- The values denote the trees, by containers of their own that all stand behind the first
two parts of the heap. -/
structure Built (heap built more : PyHeap) (depth : Nat) (values : List PyValue)
    (trees : List JsonValue) : Prop where
  denotes : List.Forall₂ (DenotesJson (heap ++ built ++ more) depth) values trees
  nodup : (values.flatMap (containersWithin (heap ++ built ++ more) depth)).Nodup
  fresh : ∀ identity ∈ values.flatMap (containersWithin (heap ++ built ++ more) depth),
    heap.length + built.length ≤ identity ∧
      identity < heap.length + built.length + more.length

namespace Built

variable {built more later : PyHeap} {values others : List PyValue} {trees rest : List JsonValue}

/-- The heap may change where no container of the values stands. -/
theorem move (within : Built heap built more depth values trees) (after : PyHeap)
    (same : ∀ identity, heap.length + built.length ≤ identity →
      identity < heap.length + built.length + more.length →
      after[identity]? = (heap ++ built ++ more)[identity]?) :
    List.Forall₂ (DenotesJson after depth) values trees ∧
      values.flatMap (containersWithin after depth) =
        values.flatMap (containersWithin (heap ++ built ++ more) depth) := by
  have each {value : PyValue} (member : value ∈ values) :
      ∀ identity ∈ containersWithin (heap ++ built ++ more) depth value,
        after[identity]? = (heap ++ built ++ more)[identity]? := by
    intro identity inside
    have range := within.fresh identity (List.mem_flatMap.mpr ⟨value, member, inside⟩)
    exact same identity range.1 range.2
  constructor
  · exact forall₂_imp_mem within.denotes fun value member tree denotes =>
      denotes.frame (each member)
  · exact List.flatMap_congr fun value member => containersWithin_frame (each member)

theorem nil : Built heap built [] depth [] [] :=
  ⟨.nil, List.nodup_nil, fun _ => nofun⟩

theorem scalar {tree : JsonValue} (flat : ∀ identity, value ≠ .container identity)
    (denotes : jsonScalar? value = some tree) : Built heap built [] depth [value] [tree] := by
  have none : [value].flatMap (containersWithin (heap ++ built ++ []) depth) = [] := by
    rw [List.flatMap_singleton, containersWithin_scalar flat]
  refine ⟨.cons ((denotesJson_scalar flat).mpr denotes) .nil, ?_, ?_⟩
  · rw [none]
    exact List.nodup_nil
  · rw [none]
    exact fun _ => nofun

theorem append (first : Built heap built more depth values trees)
    (second : Built heap (built ++ more) later depth others rest) :
    Built heap built (more ++ later) depth (values ++ others) (trees ++ rest) := by
  have whole : heap ++ built ++ (more ++ later) = heap ++ (built ++ more) ++ later := by
    simp only [List.append_assoc]
  have moved := first.move (heap ++ (built ++ more) ++ later) fun identity _ above => by
    rw [← List.append_assoc heap built more]
    exact List.getElem?_append_left (by simp only [List.length_append]; omega)
  have length := @List.length_append _ built more
  have total := @List.length_append _ more later
  refine ⟨?_, ?_, ?_⟩
  · rw [whole]
    exact List.rel_append moved.1 second.denotes
  · rw [whole, List.flatMap_append, moved.2]
    refine List.nodup_append.mpr ⟨first.nodup, second.nodup, ?_⟩
    intro identity early later late same
    subst same
    have above := first.fresh identity early
    have below := second.fresh identity late
    omega
  · rw [whole, List.flatMap_append, moved.2]
    intro identity member
    rcases List.mem_append.mp member with early | late
    · have range := first.fresh identity early
      omega
    · have range := second.fresh identity late
      omega

/-- The container itself is put where its place was held. -/
theorem node {held : PyContainer} (container : PyContainer) {tree : JsonValue}
    (within : Built heap (built ++ [held]) more depth container.children trees)
    (denotes : List.Forall₂ (DenotesJson (heap ++ built ++ container :: more) depth)
      container.children trees →
      DenotesJson (heap ++ built ++ container :: more) (depth + 1)
        (.container (heap.length + built.length)) tree) :
    Built heap built (container :: more) (depth + 1)
      [.container (heap.length + built.length)] [tree] := by
  have length := @List.length_append _ built [held]
  rw [List.length_singleton] at length
  have found : (heap ++ built ++ container :: more)[heap.length + built.length]? =
      some container := by
    rw [List.getElem?_append_right (by simp)]
    simp
  have moved := within.move (heap ++ built ++ container :: more) fun identity above _ => by
    obtain ⟨behind, rfl⟩ := Nat.exists_eq_add_of_le above
    rw [length]
    simp only [List.append_assoc, List.singleton_append]
    rw [← List.append_assoc, ← List.append_assoc,
      List.getElem?_append_right (by simp only [List.length_append]; omega),
      List.getElem?_append_right (by simp only [List.length_append]; omega)]
    have place : heap.length + (built.length + 1) + behind - (heap ++ built).length =
        behind + 1 := by
      simp only [List.length_append]
      omega
    rw [place, List.getElem?_cons_succ, List.getElem?_cons_succ]
  have inside : [PyValue.container (heap.length + built.length)].flatMap
      (containersWithin (heap ++ built ++ container :: more) (depth + 1)) =
      (heap.length + built.length) :: container.children.flatMap
        (containersWithin (heap ++ (built ++ [held]) ++ more) depth) := by
    rw [List.flatMap_singleton, containersWithin, found, ← moved.2]
    rfl
  refine ⟨.cons (denotes moved.1) .nil, ?_, ?_⟩
  · rw [inside]
    refine List.nodup_cons.mpr ⟨fun member => ?_, within.nodup⟩
    have range := within.fresh _ member
    omega
  · rw [inside]
    intro identity member
    have total := @List.length_cons _ container more
    rcases List.mem_cons.mp member with rfl | member
    · omega
    · have range := within.fresh identity member
      omega

end Built

/-- The clone with its containers ends as the clone without them. -/
inductive Follows {β γ : Type} (heap built : PyHeap) (depth : Nat) (items : β → List PyValue)
    (trees : γ → List JsonValue) (keeps : β → γ → Prop) :
    Except JsonError (β × PyHeap) → Except JsonError γ → Prop
  | raised (error : JsonError) : Follows heap built depth items trees keeps (.error error) (.error error)
  | returned {cloned : β} {output : γ} {more : PyHeap} (kept : keeps cloned output)
      (within : Built heap built more depth (items cloned) (trees output)) :
      Follows heap built depth items trees keeps (.ok (cloned, built ++ more)) (.ok output)

theorem cloneEach_follows {α β γ : Type} {clone : α → PyHeap → Except JsonError (β × PyHeap)}
    {plain : α → Except JsonError γ} {items : β → List PyValue} {trees : γ → List JsonValue}
    {keeps : β → γ → Prop} (inputs : List α)
    (each : ∀ input built, Follows heap built depth items trees keeps (clone input built)
      (plain input)) (built : PyHeap) :
    Follows heap built depth (List.flatMap items) (List.flatMap trees) (List.Forall₂ keeps)
      (cloneEach clone inputs built) (inputs.mapM plain) := by
  induction inputs generalizing built with
  | nil =>
      have done : Follows heap built depth (List.flatMap items) (List.flatMap trees)
          (List.Forall₂ keeps) (.ok ([], built ++ [])) (.ok []) := .returned .nil .nil
      rw [List.append_nil] at done
      exact done
  | cons input rest ih =>
      rw [List.mapM_cons]
      have first := each input built
      unfold cloneEach
      revert first
      generalize clone input built = result
      generalize plain input = expected
      rintro (error | @⟨cloned, output, more, kept, within⟩)
      · exact .raised error
      · have others := ih (built ++ more)
        simp only [bind, Except.bind]
        revert others
        generalize cloneEach clone rest (built ++ more) = result
        generalize rest.mapM plain = expected
        rintro (error | @⟨others, outputs, later, keptOthers, withinOthers⟩)
        · exact .raised error
        · rw [List.append_assoc]
          exact .returned (.cons kept keptOthers) (within.append withinOthers)

theorem cloneEntryInto_follows {clone : PyValue → PyHeap → Except JsonError (PyValue × PyHeap)}
    {plain : PyValue → Except JsonError JsonValue} {built : PyHeap}
    (each : ∀ input, Follows heap built depth (fun value => [value]) (fun tree => [tree])
      (fun _ _ => True) (clone input built) (plain input)) (entry : PyValue × PyValue) :
    Follows heap built depth (fun entry => [entry.2]) (fun field => [field.2])
      (fun entry field => entry.1 = .str field.1) (cloneEntryInto clone entry built)
      (cloneEntry plain entry) := by
  obtain ⟨key, item⟩ := entry
  cases key with
  | str key =>
      have inner := each item
      simp only [cloneEntryInto, cloneEntry]
      revert inner
      generalize clone item built = result
      generalize plain item = expected
      rintro (error | @⟨cloned, output, more, _, within⟩)
      · exact .raised error
      · exact .returned rfl within
  | _ => exact .raised .notStringKey

theorem cloneJsonValueInto_scalar (built : PyHeap) (active : List Nat)
    (flat : ∀ identity, value ≠ .container identity) :
    Follows heap built depth (fun value => [value]) (fun tree => [tree]) (fun _ _ => True)
      (cloneJsonValueInto heap depth active value built)
      (cloneJsonValue heap depth active value) := by
  have done {tree : JsonValue} (denotes : jsonScalar? value = some tree) :
      Follows heap built depth (fun value => [value]) (fun tree => [tree]) (fun _ _ => True)
        (.ok (value, built)) (.ok tree) := by
    have done : Follows heap built depth (fun value => [value]) (fun tree => [tree])
        (fun _ _ => True) (.ok (value, built ++ [])) (.ok tree) :=
      .returned trivial (.scalar flat denotes)
    rw [List.append_nil] at done
    exact done
  cases value with
  | container identity => exact absurd rfl (flat identity)
  | float bits =>
      have finite := @done (.float bits)
      simp only [cloneJsonValueInto, cloneJsonValue, jsonScalar?] at finite ⊢
      by_cases isFinite : isFinite bits = true
      · rw [if_pos isFinite, if_pos isFinite]
        exact finite (if_pos isFinite)
      · rw [if_neg isFinite, if_neg isFinite]
        exact .raised .notFinite
  | other =>
      simp only [cloneJsonValueInto, cloneJsonValue]
      exact .raised .notJson
  | _ =>
      simp only [cloneJsonValueInto, cloneJsonValue]
      exact done rfl

theorem set_built {built more : PyHeap} {held container : PyContainer} :
    (built ++ [held] ++ more).set built.length container = built ++ container :: more := by
  rw [List.append_assoc, List.set_append_right _ _ (Nat.le_refl _), Nat.sub_self]
  rfl

theorem cloneJsonValueInto_follows (heap : PyHeap) (depth : Nat) (active : List Nat)
    (value : PyValue) (built : PyHeap) :
    Follows heap built depth (fun value => [value]) (fun tree => [tree]) (fun _ _ => True)
      (cloneJsonValueInto heap depth active value built)
      (cloneJsonValue heap depth active value) := by
  induction depth generalizing active value built with
  | zero =>
      cases value with
      | container identity =>
          simp only [cloneJsonValueInto, cloneJsonValue]
          cases heap[identity]? <;> exact .raised _
      | _ => exact cloneJsonValueInto_scalar built active (by simp)
  | succ depth ih =>
      cases value with
      | container identity =>
          simp only [cloneJsonValueInto, cloneJsonValue]
          cases heap[identity]? with
          | none => exact .raised .notJson
          | some container =>
          dsimp only
          by_cases cyclic : identity ∈ active
          · rw [if_pos cyclic, if_pos cyclic]
            exact .raised .cyclic
          rw [if_neg cyclic, if_neg cyclic]
          cases container with
          | list items =>
              have each := cloneEach_follows items
                (fun input built => ih (identity :: active) input built) (built ++ [.list []])
              dsimp only
              revert each
              generalize cloneEach _ items _ = result
              generalize items.mapM (cloneJsonValue heap depth (identity :: active)) = expected
              rintro (error | @⟨cloned, outputs, more, kept, within⟩)
              · exact .raised error
              · simp only [List.flatMap_singleton'] at within
                dsimp only
                rw [set_built]
                refine .returned trivial (Built.node (.list cloned) within ?_)
                intro denotes
                refine .inl ⟨cloned, outputs, ?_, rfl, denotes⟩
                rw [List.getElem?_append_right (by simp)]
                simp
          | dict entries =>
              have each := cloneEach_follows entries
                (fun entry built => cloneEntryInto_follows
                  (fun input => ih (identity :: active) input built) entry) (built ++ [.dict []])
              dsimp only
              revert each
              generalize cloneEach _ entries _ = result
              generalize entries.mapM
                (cloneEntry (cloneJsonValue heap depth (identity :: active))) = expected
              rintro (error | @⟨cloned, outputs, more, kept, within⟩)
              · exact .raised error
              · simp only [← List.map_eq_flatMap] at within
                dsimp only
                rw [set_built]
                refine .returned trivial (Built.node (.dict cloned) within ?_)
                intro denotes
                refine .inr ⟨cloned, outputs, ?_, rfl, ?_⟩
                · rw [List.getElem?_append_right (by simp)]
                  simp
                · simp only [PyContainer.children, List.forall₂_map_left_iff,
                    List.forall₂_map_right_iff] at denotes
                  exact forall₂_and kept denotes
      | _ => exact cloneJsonValueInto_scalar built active (by simp)

theorem cloneJsonValue_denotes {active : List Nat} {tree : JsonValue}
    (ok : cloneJsonValue heap depth active value = .ok tree) : DenotesJson heap depth value tree := by
  induction depth generalizing active value tree with
  | zero =>
      cases value with
      | container identity =>
          obtain ⟨less, zero, _⟩ := cloneJsonValue_container ok
          contradiction
      | float bits =>
          simp only [cloneJsonValue] at ok
          split at ok
          · next finite =>
            cases ok
            exact if_pos finite
          · cases ok
      | other => cases ok
      | _ =>
          cases ok
          rfl
  | succ depth ih =>
      cases value with
      | container identity =>
          obtain ⟨less, same, ⟨items, outputs, found, rfl, mapped⟩ |
            ⟨entries, outputs, found, rfl, mapped⟩⟩ := cloneJsonValue_container ok
          · cases same
            exact .inl ⟨items, outputs, found, rfl, (mapM_eq_ok.mp mapped).imp fun _ _ => ih⟩
          · cases same
            refine .inr ⟨entries, outputs, found, rfl, (mapM_eq_ok.mp mapped).imp ?_⟩
            intro entry field cloned
            obtain ⟨key, cloned⟩ := cloneEntry_eq_ok.mp cloned
            exact ⟨key, ih cloned⟩
      | float bits =>
          simp only [cloneJsonValue] at ok
          split at ok
          · next finite =>
            cases ok
            exact if_pos finite
          · cases ok
      | other => cases ok
      | _ =>
          cases ok
          rfl

theorem mapM_eq_error {α β ε : Type} {f : α → Except ε β} {inputs : List α} {error : ε}
    (raised : inputs.mapM f = .error error) : ∃ input ∈ inputs, f input = .error error := by
  induction inputs with
  | nil => cases raised
  | cons input rest ih =>
      rw [List.mapM_cons] at raised
      cases first : f input with
      | error other =>
          rw [first] at raised
          cases raised
          exact ⟨input, List.mem_cons_self, first⟩
      | ok output =>
          rw [first] at raised
          cases others : rest.mapM f with
          | error other =>
              rw [others] at raised
              cases raised
              obtain ⟨input, member, same⟩ := ih others
              exact ⟨input, List.mem_cons_of_mem _ member, same⟩
          | ok outputs =>
              rw [others] at raised
              cases raised

/-- The depth error names a container that lies too deep. -/
theorem cloneJsonValue_tooDeep {active : List Nat}
    (raised : cloneJsonValue heap depth active value = .error .tooDeep) :
    ∃ identity, heap[identity]?.isSome = true ∧ LiesAt heap depth value (.container identity) := by
  induction depth generalizing active value with
  | zero =>
      cases value with
      | container identity =>
          simp only [cloneJsonValue] at raised
          split at raised
          · cases raised
          · next found => exact ⟨identity, by rw [found]; rfl, rfl⟩
      | float bits =>
          simp only [cloneJsonValue] at raised
          split at raised <;> cases raised
      | _ => cases raised
  | succ depth ih =>
      cases value with
      | container identity =>
          simp only [cloneJsonValue] at raised
          split at raised
          · cases raised
          next container found =>
          split at raised
          · cases raised
          split at raised
          · next items =>
            cases mapped : items.mapM (cloneJsonValue heap depth (identity :: active)) with
            | ok outputs =>
                rw [mapped] at raised
                cases raised
            | error error =>
                rw [mapped] at raised
                cases raised
                obtain ⟨item, member, deep⟩ := mapM_eq_error mapped
                obtain ⟨deepest, known, lies⟩ := ih deep
                exact ⟨deepest, known, identity, item, rfl, .inl ⟨items, found, member⟩, lies⟩
          · next entries =>
            cases mapped : entries.mapM
                (cloneEntry (cloneJsonValue heap depth (identity :: active))) with
            | ok outputs =>
                rw [mapped] at raised
                cases raised
            | error error =>
                rw [mapped] at raised
                cases raised
                obtain ⟨⟨key, item⟩, member, deep⟩ := mapM_eq_error mapped
                cases key with
                | str key =>
                    simp only [cloneEntry] at deep
                    cases cloned : cloneJsonValue heap depth (identity :: active) item with
                    | ok output =>
                        rw [cloned] at deep
                        cases deep
                    | error error =>
                        rw [cloned] at deep
                        cases deep
                        obtain ⟨deepest, known, lies⟩ := ih cloned
                        exact ⟨deepest, known, identity, item, rfl,
                          .inr ⟨entries, _, found, member⟩, lies⟩
                | _ => cases deep
      | float bits =>
          simp only [cloneJsonValue] at raised
          split at raised <;> cases raised
      | _ => cases raised

theorem DenotesJson.shallow {tree : JsonValue} (denotes : DenotesJson heap depth value tree)
    (identity : Nat) : ¬LiesAt heap depth value (.container identity) := by
  intro lies
  have valid := isJsonValueWithin_iff.mpr ⟨tree, denotes⟩
  clear denotes
  induction depth generalizing value with
  | zero =>
      cases lies
      simp [isJsonValueWithin] at valid
  | succ depth ih =>
      obtain ⟨outer, within, rfl, holds, lies⟩ := lies
      rcases holds with ⟨items, found, member⟩ | ⟨entries, key, found, member⟩
      · simp only [isJsonValueWithin, found, List.all_eq_true] at valid
        exact ih lies (valid within member)
      · simp only [isJsonValueWithin, found, List.all_eq_true, isJsonValueWithin_entry] at valid
        exact ih lies (valid _ member).2

/-- A clone of the value, with what was built for it. -/
structure ClonedJson (heap : PyHeap) (value cloned : PyValue) (built : PyHeap) : Prop where
  equal : ∃ tree, DenotesJson heap maxJsonDepth value tree ∧
    DenotesJson (heap ++ built) maxJsonDepth cloned tree
  unshared : (containersWithin (heap ++ built) maxJsonDepth cloned).Nodup
  fresh : ∀ identity ∈ containersWithin (heap ++ built) maxJsonDepth cloned,
    heap.length ≤ identity
  shallow : ∀ identity, ¬LiesAt (heap ++ built) maxJsonDepth cloned (.container identity)

theorem cloneJsonValueInto_cloned {cloned : PyValue} {built : PyHeap}
    (ok : cloneJsonValueInto heap maxJsonDepth [] value [] = .ok (cloned, built)) :
    ClonedJson heap value cloned built := by
  have follows := cloneJsonValueInto_follows heap maxJsonDepth [] value []
  rw [ok] at follows
  cases plain : cloneJsonValue heap maxJsonDepth [] value with
  | error error =>
      rw [plain] at follows
      cases follows
  | ok tree =>
      rw [plain] at follows
      cases follows with
      | returned kept within =>
          rw [List.nil_append]
          have denotes := List.forall₂_cons.mp within.denotes
          have nodup := within.nodup
          have fresh := within.fresh
          rw [List.append_nil] at denotes nodup fresh
          rw [List.flatMap_singleton] at nodup fresh
          exact ⟨⟨tree, cloneJsonValue_denotes plain, denotes.1⟩, nodup,
            fun identity member => (fresh identity member).1, denotes.1.shallow⟩

theorem cloneJsonValueInto_isOk :
    isJsonValue heap value = true ↔
      ∃ cloned built, cloneJsonValueInto heap maxJsonDepth [] value [] = .ok (cloned, built) := by
  have follows := cloneJsonValueInto_follows heap maxJsonDepth [] value []
  unfold isJsonValue
  rw [← clone_isOk (enclosed_nil value)]
  cases plain : cloneJsonValue heap maxJsonDepth [] value with
  | error error =>
      rw [plain] at follows
      cases result : cloneJsonValueInto heap maxJsonDepth [] value [] with
      | error other => simp
      | ok result =>
          rw [result] at follows
          cases follows
  | ok tree =>
      rw [plain] at follows
      cases result : cloneJsonValueInto heap maxJsonDepth [] value [] with
      | error other =>
          rw [result] at follows
          cases follows
      | ok pair => exact ⟨fun _ => ⟨pair.1, pair.2, rfl⟩, fun _ => ⟨tree, rfl⟩⟩

/-- `is_json_value` accepts what can be cloned; a clone is an equal tree of new containers,
which is accepted and cloned again; and only nesting raises the depth error. -/
theorem json_clone_agrees (heap : PyHeap) (value : PyValue) :
    (isJsonValue heap value = true ↔
      ∃ cloned built, cloneJsonValueInto heap maxJsonDepth [] value [] = .ok (cloned, built)) ∧
    (∀ cloned built, cloneJsonValueInto heap maxJsonDepth [] value [] = .ok (cloned, built) →
      ClonedJson heap value cloned built ∧ isJsonValue (heap ++ built) cloned = true ∧
      ∃ again more, cloneJsonValueInto (heap ++ built) maxJsonDepth [] cloned [] =
          .ok (again, more) ∧ ClonedJson (heap ++ built) cloned again more ∧
        ∀ tree, DenotesJson heap maxJsonDepth value tree →
          DenotesJson (heap ++ built ++ more) maxJsonDepth again tree) ∧
    (cloneJsonValueInto heap maxJsonDepth [] value [] = .error .tooDeep →
      ∃ identity, heap[identity]?.isSome = true ∧
        LiesAt heap maxJsonDepth value (.container identity)) := by
  refine ⟨cloneJsonValueInto_isOk, fun cloned built ok => ?_, fun raised => ?_⟩
  · have clone := cloneJsonValueInto_cloned ok
    obtain ⟨tree, original, denotes⟩ := clone.equal
    have accepted : isJsonValue (heap ++ built) cloned = true :=
      isJsonValueWithin_iff.mpr ⟨tree, denotes⟩
    obtain ⟨again, more, second⟩ := cloneJsonValueInto_isOk.mp accepted
    have clones := cloneJsonValueInto_cloned second
    refine ⟨clone, accepted, again, more, second, clones, fun other same => ?_⟩
    obtain ⟨once, first, twice⟩ := clones.equal
    rw [same.unique original, denotes.unique first]
    exact twice
  · have follows := cloneJsonValueInto_follows heap maxJsonDepth [] value []
    rw [raised] at follows
    generalize plain : cloneJsonValue heap maxJsonDepth [] value = expected at follows
    cases follows
    exact cloneJsonValue_tooDeep plain

/-- A list that holds one dictionary twice, and a list that holds itself. -/
def sampleHeap : PyHeap :=
  [.list [.container 1, .container 1], .dict [(.str ⟨[]⟩, .int 1)], .list [.container 2]]

theorem json_clone_agrees_run :
    cloneJsonValueInto sampleHeap maxJsonDepth [] (.container 0) [] =
      .ok (.container 3, [.list [.container 4, .container 5], .dict [(.str ⟨[]⟩, .int 1)],
        .dict [(.str ⟨[]⟩, .int 1)]]) ∧
    isJsonValue sampleHeap (.container 0) = true ∧
    isJsonValue sampleHeap (.container 2) = false ∧
    cloneJsonValueInto sampleHeap maxJsonDepth [] (.container 2) [] = .error .cyclic ∧
    ∃ cloned built, ClonedJson sampleHeap (.container 0) cloned built := by
  have agrees := json_clone_agrees sampleHeap (.container 0)
  have accepted : isJsonValue sampleHeap (.container 0) = true := by decide +kernel
  obtain ⟨cloned, built, ok⟩ := agrees.1.mp accepted
  exact ⟨rfl, accepted, by decide +kernel, rfl, cloned, built, (agrees.2.1 cloned built ok).1⟩

end StreamDockSdk
