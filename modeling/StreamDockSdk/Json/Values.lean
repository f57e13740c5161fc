import Mathlib.Algebra.Group.Nat.Defs
import Mathlib.Data.List.Forall2
import StreamDockSdk.Text.Utf8

namespace StreamDockSdk

/-! # Validation of JSON values

An object that a caller passes as JSON may share containers and contain itself,
so containers stand in a heap and are named by their identity.
-/

inductive PyValue where
  | none
  | bool (value : Bool)
  | int (value : Int)
  | float (bits : BitVec 64)
  | str (value : Str)
  | container (identity : Nat)
  /-- An object of any other type. -/
  | other
deriving DecidableEq, Repr

inductive PyContainer where
  | list (items : List PyValue)
  | dict (entries : List (PyValue × PyValue))
deriving DecidableEq, Repr

abbrev PyHeap := List PyContainer

/-- `math.isfinite` -/
def isFinite (bits : BitVec 64) : Bool :=
  bits.toNat / 2 ^ 52 % 2 ^ 11 ≠ 2 ^ 11 - 1

def maxJsonDepth : Nat := 64

inductive JsonError where
  | notObject
  | notFinite
  | cyclic
  | notStringKey
  | notJson
  /-- `_JsonDepthError` -/
  | tooDeep
deriving DecidableEq, Repr

/-- The text of the `ValueError`. -/
def JsonError.message : JsonError → String
  | .notObject => "expected a JSON object"
  | .notFinite => "expected a finite JSON value"
  | .cyclic => "expected an acyclic JSON value"
  | .notStringKey => "expected JSON object keys to be strings"
  | .notJson => "expected a JSON value"
  | .tooDeep => "JSON nesting depth exceeds maximum of 64 containers"

/-- An entry of a dictionary whose value is cloned by `clone`. -/
def cloneEntry (clone : PyValue → Except JsonError JsonValue) :
    PyValue × PyValue → Except JsonError (Str × JsonValue)
  | (.str key, item) => (clone item).map fun cloned => (key, cloned)
  | _ => .error .notStringKey

/-- `_clone_json_value` and `_clone_json_dict`; the first number is what is left of the
depth, and `active` are the identities of the containers around the value. -/
def cloneJsonValue (heap : PyHeap) : Nat → List Nat → PyValue → Except JsonError JsonValue
  | _, _, .none => .ok .null
  | _, _, .bool value => .ok (.bool value)
  | _, _, .int value => .ok (.int value)
  | _, _, .str value => .ok (.str value)
  | _, _, .float bits => if isFinite bits then .ok (.float bits) else .error .notFinite
  | _, _, .other => .error .notJson
  | 0, _, .container identity =>
      match heap[identity]? with
      | none => .error .notJson
      | some _ => .error .tooDeep
  | remaining + 1, active, .container identity =>
      match heap[identity]? with
      | none => .error .notJson
      | some container =>
          if identity ∈ active then .error .cyclic
          else
            let clone := cloneJsonValue heap remaining (identity :: active)
            match container with
            | .list items => (items.mapM clone).map .list
            | .dict entries => (entries.mapM (cloneEntry clone)).map .dict

/-- `isinstance(value, dict)` -/
def isDict (heap : PyHeap) : PyValue → Bool
  | .container identity => match heap[identity]? with
      | some (.dict _) => true
      | _ => false
  | _ => false

/-- `clone_json_object` -/
def cloneJsonObject (heap : PyHeap) (value : PyValue) : Except JsonError JsonObject :=
  if !isDict heap value then .error .notObject
  else match cloneJsonValue heap maxJsonDepth [] value with
    | .ok (.dict entries) => .ok entries
    | .ok _ => .error .notObject
    | .error error => .error error

/-- `_is_json_value` -/
def isJsonValueWithin (heap : PyHeap) : Nat → PyValue → Bool
  | _, .none | _, .bool _ | _, .int _ | _, .str _ => true
  | _, .float bits => isFinite bits
  | _, .other => false
  | 0, .container _ => false
  | remaining + 1, .container identity =>
      match heap[identity]? with
      | none => false
      | some (.list items) => items.all (isJsonValueWithin heap remaining)
      | some (.dict entries) => entries.all fun
          | (.str _, item) => isJsonValueWithin heap remaining item
          | _ => false

/-- `is_json_value` -/
def isJsonValue (heap : PyHeap) (value : PyValue) : Bool :=
  isJsonValueWithin heap maxJsonDepth value

mutual

/-- The scalars of a value, the keys of its dictionaries included. -/
def JsonValue.scalars : JsonValue → List PyValue
  | .null => [.none]
  | .bool value => [.bool value]
  | .int value => [.int value]
  | .float bits => [.float bits]
  | .str value => [.str value]
  | .list items => scalarsOfItems items
  | .dict entries => scalarsOfEntries entries

def scalarsOfItems : List JsonValue → List PyValue
  | [] => []
  | item :: rest => item.scalars ++ scalarsOfItems rest

def scalarsOfEntries : List (Str × JsonValue) → List PyValue
  | [] => []
  | (key, item) :: rest => .str key :: item.scalars ++ scalarsOfEntries rest

end

/-- The scalar is the value, or stands somewhere within it. -/
inductive Contains (heap : PyHeap) : PyValue → PyValue → Prop
  | scalar {value : PyValue} : (∀ identity, value ≠ .container identity) → Contains heap value value
  | item {identity : Nat} {items : List PyValue} {item scalar : PyValue} :
      heap[identity]? = some (.list items) → item ∈ items → Contains heap item scalar →
      Contains heap (.container identity) scalar
  | key {identity : Nat} {entries : List (PyValue × PyValue)} {key item : PyValue} :
      heap[identity]? = some (.dict entries) → (key, item) ∈ entries →
      Contains heap (.container identity) key
  | value {identity : Nat} {entries : List (PyValue × PyValue)} {key item scalar : PyValue} :
      heap[identity]? = some (.dict entries) → (key, item) ∈ entries → Contains heap item scalar →
      Contains heap (.container identity) scalar

theorem mapM_eq_ok {α β ε : Type} {f : α → Except ε β} {inputs : List α} {outputs : List β} :
    inputs.mapM f = .ok outputs ↔ List.Forall₂ (fun input output => f input = .ok output) inputs outputs := by
  induction inputs generalizing outputs with
  | nil =>
      rw [List.forall₂_nil_left_iff]
      constructor
      · intro mapped
        cases mapped
        rfl
      · rintro rfl
        rfl
  | cons input rest ih =>
      rw [List.mapM_cons, List.forall₂_cons_left_iff]
      cases first : f input with
      | error => simp [bind, Except.bind]
      | ok output =>
          cases others : rest.mapM f with
          | error error =>
              have none : ¬ ∃ tail, rest.mapM f = .ok tail := by simp [others]
              simp only [bind, Except.bind, ih] at none ⊢
              grind
          | ok tail =>
              simp only [bind, Except.bind, pure, Except.pure, Except.ok.injEq, ← ih, others]
              grind

theorem mapM_isOk {α β ε : Type} {f : α → Except ε β} {inputs : List α} :
    (∃ outputs, inputs.mapM f = .ok outputs) ↔ ∀ input ∈ inputs, ∃ output, f input = .ok output := by
  induction inputs with
  | nil => exact ⟨fun _ => by simp, fun _ => ⟨[], rfl⟩⟩
  | cons input rest ih =>
      rw [List.forall_mem_cons, ← ih]
      simp only [mapM_eq_ok, List.forall₂_cons_left_iff]
      grind

variable {heap : PyHeap}

theorem cloneEntry_eq_ok {clone : PyValue → Except JsonError JsonValue}
    {entry : PyValue × PyValue} {output : Str × JsonValue} :
    cloneEntry clone entry = .ok output ↔
      entry.1 = .str output.1 ∧ clone entry.2 = .ok output.2 := by
  obtain ⟨key, item⟩ := entry
  obtain ⟨name, value⟩ := output
  unfold cloneEntry
  cases key with
  | str key => cases cloned : clone item <;> simp [Except.map, cloned]
  | _ => simp

/-- A value is nested less deep than the containers around it. -/
def Enclosed (heap : PyHeap) (active : List Nat) (value : PyValue) : Prop :=
  ∀ identity ∈ active, ∀ remaining, isJsonValueWithin heap remaining (.container identity) = true →
    ∃ less < remaining, isJsonValueWithin heap less value = true

theorem Enclosed.not_mem {active : List Nat} {identity remaining : Nat}
    (enclosed : Enclosed heap active (.container identity))
    (valid : isJsonValueWithin heap remaining (.container identity) = true) : identity ∉ active := by
  intro member
  induction remaining using Nat.strongRecOn with
  | ind remaining ih =>
      obtain ⟨less, below, smaller⟩ := enclosed identity member remaining valid
      exact ih less below smaller

/-- What a container holds. -/
def Holds (heap : PyHeap) (identity : Nat) (item : PyValue) : Prop :=
  (∃ items, heap[identity]? = some (.list items) ∧ item ∈ items) ∨
    ∃ entries key, heap[identity]? = some (.dict entries) ∧ (key, item) ∈ entries

theorem Holds.valid {identity remaining : Nat} {item : PyValue} (holds : Holds heap identity item)
    (valid : isJsonValueWithin heap remaining (.container identity) = true) :
    ∃ less < remaining, isJsonValueWithin heap less item = true := by
  cases remaining with
  | zero => simp [isJsonValueWithin] at valid
  | succ remaining =>
      refine ⟨remaining, Nat.lt_succ_self _, ?_⟩
      rcases holds with ⟨items, found, member⟩ | ⟨entries, key, found, member⟩
      · simp only [isJsonValueWithin, found, List.all_eq_true] at valid
        exact valid item member
      · simp only [isJsonValueWithin, found, List.all_eq_true] at valid
        have fits := valid (key, item) member
        cases key with
        | str key => exact fits
        | _ => contradiction

theorem Enclosed.holds {active : List Nat} {identity : Nat} {item : PyValue}
    (enclosed : Enclosed heap active (.container identity)) (holds : Holds heap identity item) :
    Enclosed heap (identity :: active) item := by
  intro outer member remaining valid
  rcases List.mem_cons.mp member with rfl | earlier
  · exact holds.valid valid
  · obtain ⟨less, below, smaller⟩ := enclosed outer earlier remaining valid
    obtain ⟨least, lower, smallest⟩ := holds.valid smaller
    exact ⟨least, Nat.lt_trans lower below, smallest⟩

theorem isJsonValueWithin_entry {remaining : Nat} {entry : PyValue × PyValue} :
    (match entry with
      | (.str _, item) => isJsonValueWithin heap remaining item
      | _ => false) = true ↔
      (∃ key, entry.1 = .str key) ∧ isJsonValueWithin heap remaining entry.2 = true := by
  obtain ⟨key, item⟩ := entry
  cases key <;> simp

/-- The validation of the clone accepts what `is_json_value` accepts: the cycles that it
looks for are nested too deep. -/
theorem clone_isOk {remaining : Nat} {active : List Nat} {value : PyValue}
    (enclosed : Enclosed heap active value) :
    (∃ cloned, cloneJsonValue heap remaining active value = .ok cloned) ↔
      isJsonValueWithin heap remaining value = true := by
  induction remaining generalizing active value with
  | zero =>
      cases value with
      | container identity =>
          simp only [cloneJsonValue, isJsonValueWithin]
          split <;> simp
      | float bits =>
          simp only [cloneJsonValue, isJsonValueWithin]
          split <;> simp_all
      | _ => simp [cloneJsonValue, isJsonValueWithin]
  | succ remaining ih =>
      cases value with
      | float bits =>
          simp only [cloneJsonValue, isJsonValueWithin]
          split <;> simp_all
      | container identity =>
          cases found : heap[identity]? with
          | none => simp [cloneJsonValue, isJsonValueWithin, found]
          | some container =>
              have held : ∀ item, Holds heap identity item →
                  ((∃ cloned, cloneJsonValue heap remaining (identity :: active) item = .ok cloned) ↔
                    isJsonValueWithin heap remaining item = true) :=
                fun item holds => ih (enclosed.holds holds)
              have valid_eq : isJsonValueWithin heap (remaining + 1) (.container identity) = true ↔
                  identity ∉ active ∧
                    isJsonValueWithin heap (remaining + 1) (.container identity) = true :=
                ⟨fun valid => ⟨enclosed.not_mem valid, valid⟩, And.right⟩
              rw [valid_eq]
              by_cases cyclic : identity ∈ active
              · simp [cloneJsonValue, found, cyclic]
              cases container with
              | list items =>
                  have kept : ∀ item ∈ items, Holds heap identity item :=
                    fun item member => .inl ⟨items, found, member⟩
                  have cloned : (∃ outputs, items.mapM
                      (cloneJsonValue heap remaining (identity :: active)) = .ok outputs) ↔
                        ∀ item ∈ items, isJsonValueWithin heap remaining item = true := by
                    rw [mapM_isOk]
                    exact forall₂_congr fun item member => held item (kept item member)
                  simp only [cloneJsonValue, found, cyclic, if_false, isJsonValueWithin,
                    not_false_eq_true, true_and, List.all_eq_true, ← cloned]
                  cases items.mapM (cloneJsonValue heap remaining (identity :: active)) <;>
                    simp [Except.map]
              | dict entries =>
                  have kept : ∀ entry ∈ entries, Holds heap identity entry.2 :=
                    fun entry member => .inr ⟨entries, entry.1, found, member⟩
                  have cloned : (∃ outputs, entries.mapM (cloneEntry
                      (cloneJsonValue heap remaining (identity :: active))) = .ok outputs) ↔
                        ∀ entry ∈ entries, (∃ key, entry.1 = .str key) ∧
                          isJsonValueWithin heap remaining entry.2 = true := by
                    rw [mapM_isOk]
                    refine forall₂_congr fun entry member => ?_
                    rw [← held entry.2 (kept entry member)]
                    simp only [cloneEntry_eq_ok, Prod.exists]
                    grind
                  simp only [cloneJsonValue, found, cyclic, if_false, isJsonValueWithin,
                    not_false_eq_true, true_and, List.all_eq_true, isJsonValueWithin_entry, ← cloned]
                  cases entries.mapM (cloneEntry
                    (cloneJsonValue heap remaining (identity :: active))) <;> simp [Except.map]
      | _ => simp [cloneJsonValue, isJsonValueWithin]

theorem scalarsOfItems_eq (items : List JsonValue) :
    scalarsOfItems items = items.flatMap JsonValue.scalars := by
  induction items with
  | nil => rfl
  | cons item rest ih => rw [scalarsOfItems, ih, List.flatMap_cons]

theorem scalarsOfEntries_eq (entries : List (Str × JsonValue)) :
    scalarsOfEntries entries = entries.flatMap fun entry => .str entry.1 :: entry.2.scalars := by
  induction entries with
  | nil => rfl
  | cons entry rest ih => rw [scalarsOfEntries, ih, List.flatMap_cons]

theorem contains_scalar {value scalar : PyValue} (flat : ∀ identity, value ≠ .container identity) :
    Contains heap value scalar ↔ scalar = value := by
  constructor
  · intro contains
    cases contains with
    | scalar => rfl
    | _ => exact absurd rfl (flat _)
  · rintro rfl
    exact .scalar flat

theorem contains_list {identity : Nat} {items : List PyValue} {scalar : PyValue}
    (found : heap[identity]? = some (.list items)) :
    Contains heap (.container identity) scalar ↔ ∃ item ∈ items, Contains heap item scalar := by
  constructor
  · intro contains
    cases contains with
    | scalar flat => exact absurd rfl (flat _)
    | item other member within =>
        rw [found] at other
        cases other
        exact ⟨_, member, within⟩
    | key other | value other =>
        rw [found] at other
        cases other
  · rintro ⟨item, member, within⟩
    exact .item found member within

theorem contains_dict {identity : Nat} {entries : List (PyValue × PyValue)} {scalar : PyValue}
    (found : heap[identity]? = some (.dict entries)) :
    Contains heap (.container identity) scalar ↔
      ∃ entry ∈ entries, scalar = entry.1 ∨ Contains heap entry.2 scalar := by
  constructor
  · intro contains
    cases contains with
    | scalar flat => exact absurd rfl (flat _)
    | item other =>
        rw [found] at other
        cases other
    | key other member =>
        rw [found] at other
        cases other
        exact ⟨_, member, .inl rfl⟩
    | value other member within =>
        rw [found] at other
        cases other
        exact ⟨_, member, .inr within⟩
  · rintro ⟨⟨key, item⟩, member, rfl | within⟩
    · exact .key found member
    · exact .value found member within

/-- A property of the outputs of a successful traversal, read off its inputs. -/
theorem forall₂_exists {α β : Type} {relation : α → β → Prop} {left : α → Prop} {right : β → Prop}
    {inputs : List α} {outputs : List β} (related : List.Forall₂ relation inputs outputs)
    (agree : ∀ input output, relation input output → (left input ↔ right output)) :
    (∃ input ∈ inputs, left input) ↔ ∃ output ∈ outputs, right output := by
  induction related with
  | nil => simp
  | cons first _ ih => simp [agree _ _ first, ih]

theorem cloneJsonValue_container {remaining : Nat} {active : List Nat} {identity : Nat}
    {cloned : JsonValue}
    (ok : cloneJsonValue heap remaining active (.container identity) = .ok cloned) :
    ∃ less, remaining = less + 1 ∧
      ((∃ items outputs, heap[identity]? = some (.list items) ∧ cloned = .list outputs ∧
          items.mapM (cloneJsonValue heap less (identity :: active)) = .ok outputs) ∨
        ∃ entries outputs, heap[identity]? = some (.dict entries) ∧ cloned = .dict outputs ∧
          entries.mapM (cloneEntry (cloneJsonValue heap less (identity :: active))) = .ok outputs) := by
  cases remaining with
  | zero =>
      simp only [cloneJsonValue] at ok
      split at ok <;> cases ok
  | succ remaining =>
      refine ⟨remaining, rfl, ?_⟩
      simp only [cloneJsonValue] at ok
      split at ok
      · cases ok
      next container found =>
      split at ok
      · cases ok
      split at ok
      · next items =>
        cases mapped : items.mapM (cloneJsonValue heap remaining (identity :: active)) with
        | error error =>
            rw [mapped] at ok
            cases ok
        | ok outputs =>
            rw [mapped] at ok
            cases ok
            exact .inl ⟨items, outputs, found, rfl, mapped⟩
      · next entries =>
        cases mapped : entries.mapM
            (cloneEntry (cloneJsonValue heap remaining (identity :: active))) with
        | error error =>
            rw [mapped] at ok
            cases ok
        | ok outputs =>
            rw [mapped] at ok
            cases ok
            exact .inr ⟨entries, outputs, found, rfl, mapped⟩

/-- A clone has the scalars of what it was made of. -/
theorem clone_scalars {remaining : Nat} {active : List Nat} {value : PyValue} {cloned : JsonValue}
    (ok : cloneJsonValue heap remaining active value = .ok cloned) (scalar : PyValue) :
    Contains heap value scalar ↔ scalar ∈ cloned.scalars := by
  induction remaining generalizing active value cloned with
  | zero =>
      cases value with
      | container identity =>
          obtain ⟨less, zero, _⟩ := cloneJsonValue_container ok
          contradiction
      | float bits =>
          simp only [cloneJsonValue] at ok
          split at ok <;> cases ok
          simp [contains_scalar, JsonValue.scalars]
      | other => cases ok
      | _ =>
          cases ok
          simp [contains_scalar, JsonValue.scalars]
  | succ remaining ih =>
      cases value with
      | container identity =>
          obtain ⟨less, same, ⟨items, outputs, found, rfl, mapped⟩ |
            ⟨entries, outputs, found, rfl, mapped⟩⟩ := cloneJsonValue_container ok
          · cases same
            rw [contains_list found, JsonValue.scalars, scalarsOfItems_eq, List.mem_flatMap]
            exact forall₂_exists (mapM_eq_ok.mp mapped) fun input output cloned => ih cloned
          · cases same
            rw [contains_dict found, JsonValue.scalars, scalarsOfEntries_eq, List.mem_flatMap]
            refine forall₂_exists (mapM_eq_ok.mp mapped) fun input output cloned => ?_
            obtain ⟨key, value⟩ := cloneEntry_eq_ok.mp cloned
            rw [List.mem_cons, ih value, key]
      | float bits =>
          simp only [cloneJsonValue] at ok
          split at ok <;> cases ok
          simp [contains_scalar, JsonValue.scalars]
      | other => cases ok
      | _ =>
          cases ok
          simp [contains_scalar, JsonValue.scalars]

theorem Contains.finite {value : PyValue} {bits : BitVec 64}
    (contains : Contains heap value (.float bits)) :
    ∀ remaining, isJsonValueWithin heap remaining value = true → isFinite bits = true := by
  generalize scalar_eq : PyValue.float bits = scalar at contains
  induction contains with
  | scalar flat =>
      subst scalar_eq
      intro remaining valid
      simpa [isJsonValueWithin] using valid
  | item found member within ih =>
      intro remaining valid
      obtain ⟨less, _, smaller⟩ := Holds.valid (.inl ⟨_, found, member⟩) valid
      exact ih scalar_eq less smaller
  | @key identity entries key item found member =>
      subst scalar_eq
      intro remaining valid
      cases remaining with
      | zero => simp [isJsonValueWithin] at valid
      | succ remaining =>
          simp only [isJsonValueWithin, found, List.all_eq_true, isJsonValueWithin_entry] at valid
          obtain ⟨⟨name, same⟩, _⟩ := valid _ member
          cases same
  | value found member within ih =>
      intro remaining valid
      obtain ⟨less, _, smaller⟩ := Holds.valid (.inr ⟨_, _, found, member⟩) valid
      exact ih scalar_eq less smaller

theorem enclosed_nil (value : PyValue) : Enclosed heap [] value := nofun

/-- `clone_json_object` accepts the dictionaries among the JSON values. -/
theorem cloneJsonObject_isOk {value : PyValue} :
    (∃ entries, cloneJsonObject heap value = .ok entries) ↔
      isDict heap value = true ∧ isJsonValue heap value = true := by
  unfold cloneJsonObject isJsonValue
  rw [← clone_isOk (enclosed_nil value)]
  cases dict : isDict heap value with
  | false => simp
  | true =>
      simp only [Bool.not_true, Bool.false_eq_true, if_false, true_and]
      constructor
      · rintro ⟨entries, ok⟩
        split at ok
        · next cloned => exact ⟨_, cloned⟩
        · cases ok
        · cases ok
      · rintro ⟨cloned, ok⟩
        cases value with
        | container identity =>
            obtain ⟨less, _, ⟨items, outputs, found, _⟩ | ⟨entries, outputs, _, rfl, _⟩⟩ :=
              cloneJsonValue_container ok
            · simp [isDict, found] at dict
            · exact ⟨outputs, by simp [ok]⟩
        | _ => cases dict

theorem cloneJsonObject_eq_ok {value : PyValue} {entries : JsonObject}
    (ok : cloneJsonObject heap value = .ok entries) :
    cloneJsonValue heap maxJsonDepth [] value = .ok (.dict entries) := by
  unfold cloneJsonObject at ok
  split at ok
  · cases ok
  split at ok
  · next cloned =>
    cases ok
    exact cloned
  · cases ok
  · cases ok

theorem cloneJsonObject_scalars {value : PyValue} {entries : JsonObject}
    (ok : cloneJsonObject heap value = .ok entries) (scalar : PyValue) :
    scalar ∈ (JsonValue.dict entries).scalars ↔ Contains heap value scalar :=
  (clone_scalars (cloneJsonObject_eq_ok ok) scalar).symm

theorem cloneJsonObject_finite {value : PyValue} {entries : JsonObject}
    (ok : cloneJsonObject heap value = .ok entries) {bits : BitVec 64}
    (member : .float bits ∈ (JsonValue.dict entries).scalars) : isFinite bits = true :=
  ((cloneJsonObject_scalars ok _).mp member).finite maxJsonDepth
    (cloneJsonObject_isOk.mp ⟨entries, ok⟩).2

/-- Later objects are no part of what is valid already. -/
theorem contains_append {more : PyHeap} {remaining : Nat} {value scalar : PyValue}
    (valid : isJsonValueWithin heap remaining value = true) :
    Contains (heap ++ more) value scalar ↔ Contains heap value scalar := by
  induction remaining generalizing value with
  | zero =>
      cases value with
      | container identity => simp [isJsonValueWithin] at valid
      | _ => simp [contains_scalar]
  | succ remaining ih =>
      cases value with
      | container identity =>
          simp only [isJsonValueWithin] at valid
          cases found : heap[identity]? with
          | none => simp [found] at valid
          | some container =>
              have within : identity < heap.length := (List.getElem?_eq_some_iff.mp found).1
              have still : (heap ++ more)[identity]? = some container := by
                rw [List.getElem?_append_left within, found]
              cases container with
              | list items =>
                  simp only [found, List.all_eq_true] at valid
                  rw [contains_list found, contains_list still]
                  exact exists_congr fun item => and_congr_right fun member => ih (valid item member)
              | dict entries =>
                  simp only [found, List.all_eq_true, isJsonValueWithin_entry] at valid
                  rw [contains_dict found, contains_dict still]
                  refine exists_congr fun entry => and_congr_right fun member => ?_
                  rw [ih (valid entry member).2]
      | _ => simp [contains_scalar]

end StreamDockSdk
