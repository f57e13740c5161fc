import StreamDockSdk.Json.Values

namespace StreamDockSdk

/-! # Fields of decoded messages

A parser reads named fields one after the other and stops at the first one that it
refuses.  Its rules say the same as a list: for each field the path, and what the
parser raises for what it finds there.
-/

/-- `str | int` in the path of an error. -/
inductive PathComponent where
  | field (name : String)
  | index (index : Nat)
deriving DecidableEq, Repr

abbrev FieldPath := List PathComponent

/-- The entries of a dictionary, and `none` for any other value. -/
def dictEntries? (heap : PyHeap) : PyValue → Option (List (PyValue × PyValue))
  | .container identity =>
      match heap[identity]? with
      | some (.dict entries) => some entries
      | _ => none
  | _ => none

def listItems? (heap : PyHeap) : PyValue → Option (List PyValue)
  | .container identity =>
      match heap[identity]? with
      | some (.list items) => some items
      | _ => none
  | _ => none

/-- `data[key]`, or `none` where `key not in data`. -/
def lookup (data : List (PyValue × PyValue)) (key : String) : Option PyValue :=
  (data.find? fun entry => decide (entry.1 = .str ⟨Str.ofString key⟩)).map Prod.snd

def componentAt (heap : PyHeap) (value : PyValue) : PathComponent → Option PyValue
  | .field name => (dictEntries? heap value).bind (lookup · name)
  | .index index => (listItems? heap value).bind (·[index]?)

/-- What stands at a path, from the value on. -/
def fieldAt (heap : PyHeap) (value : PyValue) : FieldPath → Option PyValue
  | [] => some value
  | component :: rest => (componentAt heap value component).bind (fieldAt heap · rest)

theorem fieldAt_append {heap : PyHeap} {value : PyValue} (path more : FieldPath) :
    fieldAt heap value (path ++ more) = (fieldAt heap value path).bind (fieldAt heap · more) := by
  induction path generalizing value with
  | nil => rfl
  | cons component rest ih =>
      simp only [List.cons_append, fieldAt, Option.bind_assoc]
      exact Option.bind_congr fun value _ => ih

variable {ε α β : Type}

/-- What is raised for a message because of one of its fields. -/
structure FieldRule (ε : Type) where
  path : FieldPath
  failure : PyHeap → PyValue → Option ε

/-- What a parser that goes by the rules raises, if it does. -/
def firstFailure (heap : PyHeap) (root : PyValue) (rules : List (FieldRule ε)) : Option ε :=
  rules.findSome? fun rule => rule.failure heap root

/-- A parser goes by the rules, and satisfies the condition when it returns. -/
def Checks (heap : PyHeap) (root : PyValue) (rules : List (FieldRule ε))
    (result : Except ε α) (condition : α → Prop) : Prop :=
  match result with
  | .ok parsed => firstFailure heap root rules = none ∧ condition parsed
  | .error error => firstFailure heap root rules = some error

namespace Checks

variable {heap : PyHeap} {root : PyValue} {rules others : List (FieldRule ε)}
variable {result : Except ε α} {condition weaker : α → Prop} {final : β → Prop}

theorem pure {parsed : α} (holds : condition parsed) :
    Checks heap root [] (.ok parsed : Except ε α) condition :=
  ⟨rfl, holds⟩

theorem bind {next : α → Except ε β} (first : Checks heap root rules result condition)
    (rest : ∀ parsed, condition parsed → Checks heap root others (next parsed) final) :
    Checks heap root (rules ++ others) (result >>= next) final := by
  unfold Checks firstFailure at first
  cases result with
  | error error =>
      show firstFailure heap root (rules ++ others) = some error
      rw [firstFailure, List.findSome?_append, first]
      rfl
  | ok parsed =>
      have after := rest parsed first.2
      change Checks heap root (rules ++ others) (next parsed) final
      unfold Checks firstFailure at after ⊢
      rw [List.findSome?_append, first.1]
      exact after

/-- `bind` after a parser with one rule. -/
theorem read {rule : FieldRule ε} {next : α → Except ε β}
    (first : Checks heap root [rule] result condition)
    (rest : ∀ parsed, condition parsed → Checks heap root others (next parsed) final) :
    Checks heap root (rule :: others) (result >>= next) final :=
  bind first rest

theorem imp (checks : Checks heap root rules result condition)
    (weaken : ∀ parsed, condition parsed → weaker parsed) :
    Checks heap root rules result weaker := by
  cases result with
  | error error => exact checks
  | ok parsed => exact ⟨checks.1, weaken parsed checks.2⟩

/-- A rule that refuses nothing. -/
theorem skip {rule : FieldRule ε} (passes : rule.failure heap root = none)
    (checks : Checks heap root rules result condition) :
    Checks heap root (rule :: rules) result condition := by
  unfold Checks firstFailure at checks ⊢
  rw [List.findSome?_cons, passes]
  exact checks

/-- The first rule refuses the message. -/
theorem refuse {rule : FieldRule ε} {error : ε} (refuses : rule.failure heap root = some error) :
    Checks heap root (rule :: rules) (.error error) condition := by
  unfold Checks firstFailure
  rw [List.findSome?_cons, refuses]

theorem ok (checks : Checks heap root rules result condition) {parsed : α}
    (same : result = .ok parsed) : condition parsed := by
  subst same
  exact checks.2

theorem error (checks : Checks heap root rules result condition) {error : ε}
    (same : result = .error error) :
    ∃ rule ∈ rules, rule.failure heap root = some error := by
  subst same
  exact List.exists_of_findSome?_eq_some checks

end Checks

/-- What a required field is refused for; `narrow` is the test of its type. -/
def requiredFailure (fail : String → ε) (narrow : PyValue → Option α) (expected : String) :
    Option PyValue → Option ε
  | none => some (fail "required field is missing")
  | some value => if (narrow value).isSome then none else some (fail expected)

/-- `_require_…`: the field must be there and of its type. -/
def requireField (fail : FieldPath → String → ε) (narrow : PyValue → Option α) (expected : String)
    (data : List (PyValue × PyValue)) (key : String) (path : FieldPath) : Except ε α :=
  match lookup data key with
  | none => .error (fail (path ++ [.field key]) "required field is missing")
  | some value =>
      match narrow value with
      | none => .error (fail (path ++ [.field key]) expected)
      | some narrowed => .ok narrowed

/-- `_optional_…`: the field may be missing. -/
def optionalField (fail : FieldPath → String → ε) (narrow : PyValue → Option α) (expected : String)
    (data : List (PyValue × PyValue)) (key : String) (path : FieldPath) : Except ε (Option α) :=
  match lookup data key with
  | none => .ok none
  | some value =>
      match narrow value with
      | none => .error (fail (path ++ [.field key]) expected)
      | some narrowed => .ok (some narrowed)

def requiredRule (fail : FieldPath → String → ε) (narrow : PyHeap → PyValue → Option α)
    (expected : String) (path : FieldPath) : FieldRule ε where
  path
  failure heap root := requiredFailure (fail path) (narrow heap) expected (fieldAt heap root path)

def optionalRule (fail : FieldPath → String → ε) (narrow : PyHeap → PyValue → Option α)
    (expected : String) (path : FieldPath) : FieldRule ε where
  path
  failure heap root := (fieldAt heap root path).bind fun value =>
    if (narrow heap value).isSome then none else some (fail path expected)

/-- A rule that counts where there is something at another path. -/
def FieldRule.given (guard : FieldPath) (rule : FieldRule ε) : FieldRule ε where
  path := rule.path
  failure heap root := (fieldAt heap root guard).bind fun _ => rule.failure heap root

/-- The entries of the dictionary at a path. -/
def DataAt (heap : PyHeap) (root : PyValue) (path : FieldPath)
    (data : List (PyValue × PyValue)) : Prop :=
  (fieldAt heap root path).bind (dictEntries? heap) = some data

variable {heap : PyHeap} {root : PyValue} {path : FieldPath}
variable {data : List (PyValue × PyValue)}

theorem DataAt.lookup (located : DataAt heap root path data) (key : String) :
    lookup data key = fieldAt heap root (path ++ [.field key]) := by
  unfold DataAt at located
  rw [fieldAt_append]
  cases found : fieldAt heap root path with
  | none => simp [found] at located
  | some value =>
      rw [found, Option.bind_some] at located
      simp only [Option.bind_some, fieldAt, componentAt, located, Option.bind_fun_some]

theorem requireField_checks (located : DataAt heap root path data)
    (fail : FieldPath → String → ε) (narrow : PyHeap → PyValue → Option α) (expected key : String) :
    Checks heap root [requiredRule fail narrow expected (path ++ [.field key])]
      (requireField fail (narrow heap) expected data key path) fun narrowed =>
        (fieldAt heap root (path ++ [.field key])).bind (narrow heap) = some narrowed := by
  unfold requireField
  rw [located.lookup key]
  cases found : fieldAt heap root (path ++ [.field key]) with
  | none => simp [Checks, firstFailure, requiredRule, requiredFailure, found]
  | some value =>
      cases narrowed : narrow heap value <;>
        simp [Checks, firstFailure, requiredRule, requiredFailure, found, narrowed]

theorem optionalField_checks (located : DataAt heap root path data)
    (fail : FieldPath → String → ε) (narrow : PyHeap → PyValue → Option α) (expected key : String) :
    Checks heap root [optionalRule fail narrow expected (path ++ [.field key])]
      (optionalField fail (narrow heap) expected data key path) fun narrowed =>
        (fieldAt heap root (path ++ [.field key])).map (narrow heap) = narrowed.map some := by
  unfold optionalField
  rw [located.lookup key]
  cases found : fieldAt heap root (path ++ [.field key]) with
  | none => simp [Checks, firstFailure, optionalRule, found]
  | some value =>
      cases narrowed : narrow heap value <;>
        simp [Checks, firstFailure, optionalRule, found, narrowed]

/-- `isinstance(value, str)` -/
def strOf : PyValue → Option Str
  | .str value => some value
  | _ => none

/-- `isinstance(value, int) and not isinstance(value, bool)` -/
def intOf : PyValue → Option Int
  | .int value => some value
  | _ => none

def boolOf : PyValue → Option Bool
  | .bool value => some value
  | _ => none

theorem bind_strOf {found : Option PyValue} {text : Str} :
    found.bind strOf = some text ↔ found = some (.str text) := by
  cases found with
  | none => simp
  | some value => cases value <;> simp [strOf]

theorem bind_intOf {found : Option PyValue} {number : Int} :
    found.bind intOf = some number ↔ found = some (.int number) := by
  cases found with
  | none => simp
  | some value => cases value <;> simp [intOf]

theorem bind_boolOf {found : Option PyValue} {truth : Bool} :
    found.bind boolOf = some truth ↔ found = some (.bool truth) := by
  cases found with
  | none => simp
  | some value => cases value <;> simp [boolOf]

theorem map_strOf {found : Option PyValue} {text : Option Str} :
    found.map strOf = text.map some ↔ found = text.map .str := by
  cases found with
  | none => cases text <;> simp
  | some value => cases value <;> cases text <;> simp [strOf]

theorem map_intOf {found : Option PyValue} {number : Option Int} :
    found.map intOf = number.map some ↔ found = number.map .int := by
  cases found with
  | none => cases number <;> simp
  | some value => cases value <;> cases number <;> simp [intOf]

/-- `raise` where the test fails. -/
def reject (refused : Bool) (error : ε) : Except ε Unit :=
  if refused then .error error else .ok ()

theorem reject_checks {rule : FieldRule ε} {refused : Bool} {error : ε}
    (same : rule.failure heap root = if refused then some error else none) :
    Checks heap root [rule] (reject refused error) fun _ => refused = false := by
  cases refused <;> simpa [Checks, reject, firstFailure] using same

end StreamDockSdk
