import Mathlib.Data.Rat.Floor
import Mathlib.Data.Int.Log
import StreamDockSdk.Json.Values

namespace StreamDockSdk

/-! # `json.JSONEncoder(ensure_ascii=False, allow_nan=False)`

Separators are the default ones.  A text is a list of code points, since the
strings within it may have surrogates.
-/

namespace PyFloat

variable (bits : BitVec 64)

def isNegative : Bool :=
  bits.msb

def biasedExponent : Nat :=
  bits.toNat / 2 ^ 52 % 2 ^ 11

def mantissa : Nat :=
  let fraction := bits.toNat % 2 ^ 52
  if biasedExponent bits = 0 then fraction else 2 ^ 52 + fraction

def exponent : Int :=
  max (biasedExponent bits) 1 - 1075

def magnitude : Rat :=
  mantissa bits * 2 ^ exponent bits

/-- Where the numbers that are read as the float begin. -/
def lower : Rat :=
  if mantissa bits = 2 ^ 52 ∧ 1 < biasedExponent bits then
    (4 * mantissa bits - 1) * 2 ^ (exponent bits - 2)
  else (2 * mantissa bits - 1) * 2 ^ (exponent bits - 1)

def upper : Rat :=
  (2 * mantissa bits + 1) * 2 ^ (exponent bits - 1)

/-- Reading the number gives the float back; ties go to the even mantissa. -/
def readsAs (number : Rat) : Bool :=
  if mantissa bits % 2 = 0 then lower bits ≤ number && number ≤ upper bits
  else lower bits < number && number < upper bits

/-- The nearest number `n * 10 ^ scale` of that many digits that is read as the float; of two
that are equally near the one with the even digit. -/
def withDigits (count : Nat) : Option (Nat × Int) :=
  let scale := Int.log 10 (magnitude bits) + 1 - count
  let unit : Rat := 10 ^ scale
  let below := ⌊magnitude bits / unit⌋.toNat
  let low := readsAs bits (below * unit)
  let high := readsAs bits ((below + 1) * unit)
  let down := magnitude bits - below * unit
  let up := (below + 1) * unit - magnitude bits
  if low && (!high || down < up || (down = up && below % 2 = 0)) then some (below, scale)
  else if high then some (below + 1, scale)
  else none

/-- The shortest such number; seventeen digits are always enough. -/
def shortest : Nat × Int :=
  ((List.range' 1 17).findSome? (withDigits bits)).getD (0, 0)

def zeros (count : Nat) : List Char :=
  List.replicate count '0'

/-- The digits with the decimal point after the first `point` of them. -/
def format (digits : List Char) (point : Int) : List Char :=
  if point ≤ -4 ∨ 16 < point then
    let exponent := point - 1
    let exponentDigits := (toString exponent.natAbs).toList
    digits.take 1 ++ (if digits.length ≤ 1 then [] else '.' :: digits.drop 1) ++ ['e'] ++
      [if exponent < 0 then '-' else '+'] ++ zeros (2 - exponentDigits.length) ++ exponentDigits
  else if point ≤ 0 then ['0', '.'] ++ zeros (-point).toNat ++ digits
  else if digits.length ≤ point.toNat then
    digits ++ zeros (point.toNat - digits.length) ++ ['.', '0']
  else digits.take point.toNat ++ ['.'] ++ digits.drop point.toNat

/-- `float.__repr__` of a finite float. -/
def repr : String :=
  let sign := if isNegative bits then ['-'] else []
  if mantissa bits = 0 then String.ofList (sign ++ ['0', '.', '0'])
  else
    let (number, scale) := shortest bits
    let digits := (toString number).toList
    let significant := (digits.reverse.dropWhile (· == '0')).reverse
    String.ofList (sign ++ format significant (digits.length + scale))

/-- Two numbers of seventeen digits are equally near. -/
example : repr 0x4310000000000003#64 = "1125899906842624.8" := by decide +kernel

end PyFloat

/-- `int.__repr__` raises `ValueError` above `sys.get_int_max_str_digits()` digits; 0 is no
limit. -/
def printable (maxStrDigits : Nat) (value : Int) : Bool :=
  maxStrDigits = 0 || (toString value.natAbs).length ≤ maxStrDigits

/-- A digit of `\\u00XX`. -/
def hexDigit (value : Nat) : List CodePoint :=
  Str.ofString (Nat.digitChar (value % 16)).toString

/-- `ESCAPE_DCT` and the six characters of the other control characters. -/
def escapePoint (point : CodePoint) : List CodePoint :=
  if point.val = 0x22 then Str.ofString "\\\""
  else if point.val = 0x5C then Str.ofString "\\\\"
  else if point.val = 0x08 then Str.ofString "\\b"
  else if point.val = 0x0C then Str.ofString "\\f"
  else if point.val = 0x0A then Str.ofString "\\n"
  else if point.val = 0x0D then Str.ofString "\\r"
  else if point.val = 0x09 then Str.ofString "\\t"
  else if point.val < 0x20 then
    Str.ofString "\\u00" ++ hexDigit (point.val / 16) ++ hexDigit point.val
  else [point]

/-- `py_encode_basestring` -/
def encodeString (text : Str) : List CodePoint :=
  Str.ofString "\"" ++ text.codePoints.flatMap escapePoint ++ Str.ofString "\""

mutual

/-- `iterencode`; `none` where it raises `ValueError`. -/
def encodeValue (maxStrDigits : Nat) : JsonValue → Option (List CodePoint)
  | .null => some (Str.ofString "null")
  | .bool value => some (Str.ofString (if value then "true" else "false"))
  | .int value =>
      if printable maxStrDigits value then some (Str.ofString (toString value)) else none
  | .float bits => if isFinite bits then some (Str.ofString (PyFloat.repr bits)) else none
  | .str value => some (encodeString value)
  | .list items => (encodeItems maxStrDigits items).map fun parts =>
      Str.ofString "[" ++ (Str.ofString ", ").intercalate parts ++ Str.ofString "]"
  | .dict entries => (encodeEntries maxStrDigits entries).map fun parts =>
      Str.ofString "\x7b" ++ (Str.ofString ", ").intercalate parts ++ Str.ofString "\x7d"

def encodeItems (maxStrDigits : Nat) : List JsonValue → Option (List (List CodePoint))
  | [] => some []
  | item :: rest => do
      let part ← encodeValue maxStrDigits item
      let parts ← encodeItems maxStrDigits rest
      some (part :: parts)

def encodeEntries (maxStrDigits : Nat) : List (Str × JsonValue) → Option (List (List CodePoint))
  | [] => some []
  | (key, item) :: rest => do
      let part ← encodeValue maxStrDigits item
      let parts ← encodeEntries maxStrDigits rest
      some ((encodeString key ++ Str.ofString ": " ++ part) :: parts)

end

/-- The scalar has a text. -/
def PyValue.hasText (maxStrDigits : Nat) : PyValue → Bool
  | .int value => printable maxStrDigits value
  | .float bits => isFinite bits
  | _ => true

def PyValue.hasSurrogate : PyValue → Bool
  | .str text => text.hasSurrogate
  | _ => false

/-- Some code point of the list is a surrogate. -/
def anySurrogate (points : List CodePoint) : Bool :=
  points.any CodePoint.isSurrogate

@[simp] theorem anySurrogate_append (left right : List CodePoint) :
    anySurrogate (left ++ right) = (anySurrogate left || anySurrogate right) :=
  List.any_append

@[simp] theorem anySurrogate_ofString (text : String) : anySurrogate (Str.ofString text) = false := by
  simp only [anySurrogate, List.any_eq_false]
  intro point member
  simp [Str.ofString_scalar text point member]

theorem anySurrogate_intercalate (separator : List CodePoint) (parts : List (List CodePoint))
    (clean : anySurrogate separator = false) :
    anySurrogate (separator.intercalate parts) = parts.any anySurrogate := by
  induction parts with
  | nil => rfl
  | cons part rest ih =>
      cases rest with
      | nil => simp [List.intercalate]
      | cons next others =>
          rw [List.intercalate_cons_cons, anySurrogate_append, anySurrogate_append, clean,
            Bool.or_false, ih]
          rfl

/-- Escapes are ASCII, and what is not escaped stays as it is. -/
theorem anySurrogate_escapePoint (point : CodePoint) :
    anySurrogate (escapePoint point) = CodePoint.isSurrogate point := by
  unfold escapePoint
  repeat' split
  all_goals
    first
      | rfl
      | simp [hexDigit, CodePoint.isSurrogate]; omega
      | simp [anySurrogate]

theorem anySurrogate_encodeString (text : Str) :
    anySurrogate (encodeString text) = text.hasSurrogate := by
  simp only [encodeString, anySurrogate_append, anySurrogate_ofString, Bool.false_or, Bool.or_false,
    Str.hasSurrogate]
  induction text.codePoints with
  | nil => rfl
  | cons point rest ih =>
      rw [List.flatMap_cons, anySurrogate_append, anySurrogate_escapePoint, ih, List.any_cons]

section

variable {maxStrDigits : Nat}

mutual

theorem encodeValue_isSome : ∀ value : JsonValue,
    (encodeValue maxStrDigits value).isSome = value.scalars.all (PyValue.hasText maxStrDigits)
  | .null | .str _ => rfl
  | .bool _ => rfl
  | .int value => by
      simp only [encodeValue, JsonValue.scalars, List.all_cons, PyValue.hasText]
      split <;> simp_all
  | .float bits => by
      simp only [encodeValue, JsonValue.scalars, List.all_cons, PyValue.hasText]
      split <;> simp_all
  | .list items => by
      rw [encodeValue, Option.isSome_map, encodeItems_isSome items, JsonValue.scalars]
  | .dict entries => by
      rw [encodeValue, Option.isSome_map, encodeEntries_isSome entries, JsonValue.scalars]

theorem encodeItems_isSome : ∀ items : List JsonValue,
    (encodeItems maxStrDigits items).isSome =
      (scalarsOfItems items).all (PyValue.hasText maxStrDigits)
  | [] => rfl
  | item :: rest => by
      rw [scalarsOfItems, List.all_append, ← encodeValue_isSome item, ← encodeItems_isSome rest,
        encodeItems]
      cases encodeValue maxStrDigits item <;> cases encodeItems maxStrDigits rest <;> rfl

theorem encodeEntries_isSome : ∀ entries : List (Str × JsonValue),
    (encodeEntries maxStrDigits entries).isSome =
      (scalarsOfEntries entries).all (PyValue.hasText maxStrDigits)
  | [] => rfl
  | (key, item) :: rest => by
      rw [scalarsOfEntries, List.cons_append, List.all_cons, List.all_append,
        ← encodeValue_isSome item, ← encodeEntries_isSome rest, encodeEntries]
      cases encodeValue maxStrDigits item <;> cases encodeEntries maxStrDigits rest <;> rfl

end

mutual

/-- The surrogates of the text are those of the strings, keys included. -/
theorem encodeValue_surrogate : ∀ (value : JsonValue) (text : List CodePoint),
    encodeValue maxStrDigits value = some text →
      anySurrogate text = value.scalars.any PyValue.hasSurrogate
  | .null, _, rfl | .bool _, _, rfl => anySurrogate_ofString _
  | .str value, _, rfl => by
      rw [anySurrogate_encodeString]
      simp [JsonValue.scalars, PyValue.hasSurrogate]
  | .int value, text, encoded => by
      simp only [encodeValue] at encoded
      split at encoded <;> cases encoded
      exact anySurrogate_ofString _
  | .float bits, text, encoded => by
      simp only [encodeValue] at encoded
      split at encoded <;> cases encoded
      exact anySurrogate_ofString _
  | .list items, text, encoded => by
      rw [encodeValue, Option.map_eq_some_iff] at encoded
      obtain ⟨parts, encoded, rfl⟩ := encoded
      rw [anySurrogate_append, anySurrogate_append, anySurrogate_ofString, anySurrogate_ofString,
        anySurrogate_intercalate _ _ (anySurrogate_ofString _), Bool.false_or, Bool.or_false,
        encodeItems_surrogate items parts encoded, JsonValue.scalars]
  | .dict entries, text, encoded => by
      rw [encodeValue, Option.map_eq_some_iff] at encoded
      obtain ⟨parts, encoded, rfl⟩ := encoded
      rw [anySurrogate_append, anySurrogate_append, anySurrogate_ofString, anySurrogate_ofString,
        anySurrogate_intercalate _ _ (anySurrogate_ofString _), Bool.false_or, Bool.or_false,
        encodeEntries_surrogate entries parts encoded, JsonValue.scalars]

theorem encodeItems_surrogate : ∀ (items : List JsonValue) (parts : List (List CodePoint)),
    encodeItems maxStrDigits items = some parts →
      parts.any anySurrogate = (scalarsOfItems items).any PyValue.hasSurrogate
  | [], _, rfl => rfl
  | item :: rest, parts, encoded => by
      simp only [encodeItems, Option.bind_eq_bind, Option.bind_eq_some_iff, Option.some.injEq]
        at encoded
      obtain ⟨part, first, others, following, rfl⟩ := encoded
      rw [List.any_cons, scalarsOfItems, List.any_append, encodeValue_surrogate item part first,
        encodeItems_surrogate rest others following]

theorem encodeEntries_surrogate : ∀ (entries : List (Str × JsonValue))
    (parts : List (List CodePoint)), encodeEntries maxStrDigits entries = some parts →
      parts.any anySurrogate = (scalarsOfEntries entries).any PyValue.hasSurrogate
  | [], _, rfl => rfl
  | (key, item) :: rest, parts, encoded => by
      simp only [encodeEntries, Option.bind_eq_bind, Option.bind_eq_some_iff, Option.some.injEq]
        at encoded
      obtain ⟨part, first, others, following, rfl⟩ := encoded
      rw [List.any_cons, anySurrogate_append, anySurrogate_append, anySurrogate_ofString,
        anySurrogate_encodeString, Bool.or_false, encodeValue_surrogate item part first,
        encodeEntries_surrogate rest others following, scalarsOfEntries, List.cons_append,
        List.any_cons, List.any_append, Bool.or_assoc]
      rfl

end

end

example : encodeValue 4300 (.dict [(⟨Str.ofString "a"⟩, .list [.int (-12), .null, .bool true])]) =
    some (Str.ofString "\x7b\"a\": [-12, null, true]\x7d") := by decide +kernel

end StreamDockSdk
