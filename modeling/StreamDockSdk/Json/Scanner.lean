import StreamDockSdk.Json.Binary64

namespace StreamDockSdk

/-! # `json.JSONDecoder(parse_constant=_reject_non_finite_json_constant)`

The decoder is strict: a control character in a string is refused.
-/

inductive JsonDecodeFailure where
  /-- `JSONDecodeError`, whose text and position are the library's. -/
  | malformed
  /-- The `ValueError` of `_reject_non_finite_json_constant`. -/
  | nonFinite (constant : String)
  /-- `int` refuses more than `sys.get_int_max_str_digits()` digits. -/
  | tooManyDigits
  | recursion
deriving DecidableEq, Repr

/-- A value and the text behind it. -/
abbrev Scanned (α : Type) := Except JsonDecodeFailure (α × List CodePoint)

namespace Scanned

def map {α β : Type} (f : α → β) (scanned : Scanned α) : Scanned β :=
  Except.map (fun (value, rest) => (f value, rest)) scanned

end Scanned

/-- `WHITESPACE` -/
def isJsonSpace (point : CodePoint) : Bool :=
  point.val = 0x20 || point.val = 0x09 || point.val = 0x0A || point.val = 0x0D

def skipSpace (text : List CodePoint) : List CodePoint :=
  text.dropWhile isJsonSpace

/-- `BACKSLASH` -/
def unescape (escape : CodePoint) : Option CodePoint :=
  match escape.val with
  | 0x22 => some 0x22
  | 0x5C => some 0x5C
  | 0x2F => some 0x2F
  | 0x62 => some 0x08
  | 0x66 => some 0x0C
  | 0x6E => some 0x0A
  | 0x72 => some 0x0D
  | 0x74 => some 0x09
  | _ => none

def hexDigitValue (point : CodePoint) : Option Nat :=
  if 0x30 ≤ point.val ∧ point.val ≤ 0x39 then some (point.val - 0x30)
  else if 0x41 ≤ point.val ∧ point.val ≤ 0x46 then some (point.val - 0x41 + 10)
  else if 0x61 ≤ point.val ∧ point.val ≤ 0x66 then some (point.val - 0x61 + 10)
  else none

/-- `_decode_uXXXX` -/
def decodeHex (first second third fourth : CodePoint) : Option Nat := do
  let a ← hexDigitValue first
  let b ← hexDigitValue second
  let c ← hexDigitValue third
  let d ← hexDigitValue fourth
  some (((a * 16 + b) * 16 + c) * 16 + d)

/-- `scanstring`, behind the opening quote. -/
def scanString : List CodePoint → Scanned (List CodePoint)
  | [] => .error .malformed
  | point :: rest =>
      if point.val = 0x22 then .ok ([], rest)
      else if point.val = 0x5C then
        match rest with
        | [] => .error .malformed
        | escape :: rest =>
            if escape.val = 0x75 then
              match rest with
              | first :: second :: third :: fourth :: rest =>
                  match decodeHex first second third fourth with
                  | none => .error .malformed
                  | some unit =>
                      let single := (scanString rest).map (Fin.ofNat 0x110000 unit :: ·)
                      if 0xD800 ≤ unit ∧ unit ≤ 0xDBFF then
                        match rest with
                        | slash :: letter :: first :: second :: third :: fourth :: rest =>
                            if slash.val = 0x5C ∧ letter.val = 0x75 then
                              match decodeHex first second third fourth with
                              | none => .error .malformed
                              | some low =>
                                  if 0xDC00 ≤ low ∧ low ≤ 0xDFFF then
                                    (scanString rest).map (Fin.ofNat 0x110000
                                      (0x10000 + (unit - 0xD800) * 1024 + (low - 0xDC00)) :: ·)
                                  else single
                            else single
                        | _ => single
                      else single
              | _ => .error .malformed
            else
              match unescape escape with
              | none => .error .malformed
              | some char => (scanString rest).map (char :: ·)
      else if point.val < 0x20 then .error .malformed
      else (scanString rest).map (point :: ·)

def isDecimal (point : CodePoint) : Bool :=
  0x30 ≤ point.val && point.val ≤ 0x39

/-- The number that decimal digits denote. -/
def numeral (digits : List CodePoint) : Nat :=
  digits.foldl (fun value point => 10 * value + (point.val - 0x30)) 0

/-- The digits at the front of the text, and what follows them. -/
def digitsOf (text : List CodePoint) : List CodePoint × List CodePoint :=
  (text.takeWhile isDecimal, text.dropWhile isDecimal)

/-- `-?`; whether there is a sign. -/
def minusOf : List CodePoint → Bool × List CodePoint
  | [] => (false, [])
  | point :: rest => if point.val = 0x2D then (true, rest) else (false, point :: rest)

/-- `0|[1-9]\d*` -/
def integerOf : List CodePoint → Option (List CodePoint × List CodePoint)
  | [] => none
  | point :: rest =>
      if point.val = 0x30 then some ([point], rest)
      else if isDecimal point then some (digitsOf (point :: rest))
      else none

/-- `(\.\d+)?` without the point -/
def fractionOf : List CodePoint → List CodePoint × List CodePoint
  | [] => ([], [])
  | point :: rest =>
      let (digits, after) := digitsOf rest
      if point.val = 0x2E ∧ digits ≠ [] then (digits, after) else ([], point :: rest)

/-- `[-+]?` -/
def signOf : List CodePoint → Bool × List CodePoint
  | [] => (false, [])
  | point :: rest =>
      if point.val = 0x2D then (true, rest)
      else if point.val = 0x2B then (false, rest)
      else (false, point :: rest)

/-- `([eE][-+]?\d+)?` as a number -/
def exponentOf : List CodePoint → Option Int × List CodePoint
  | [] => (none, [])
  | point :: rest =>
      let (negative, unsigned) := signOf rest
      let (digits, after) := digitsOf unsigned
      if (point.val = 0x65 ∨ point.val = 0x45) ∧ digits ≠ [] then
        (some (if negative then -(numeral digits : Int) else numeral digits), after)
      else (none, point :: rest)

/-- `float` of a decimal text with the given digits and scale. -/
def floatOfDecimal (negative : Bool) (digits : Nat) (scale : Int) : BitVec 64 :=
  let magnitude := if digits = 0 then 0 else PyFloat.nearest (digits * 10 ^ scale)
  BitVec.ofNat 64 (if negative then 2 ^ 63 + magnitude else magnitude)

/-- `match_number`, `parse_int` and `parse_float`. -/
def scanNumber (maxStrDigits : Nat) (text : List CodePoint) : Option (Scanned JsonValue) :=
  let (negative, unsigned) := minusOf text
  (integerOf unsigned).map fun (integer, rest) =>
    let (fraction, rest) := fractionOf rest
    match fraction, exponentOf rest with
    | [], (none, rest) =>
        if maxStrDigits = 0 ∨ integer.length ≤ maxStrDigits then
          .ok (.int (if negative then -(numeral integer : Int) else numeral integer), rest)
        else .error .tooManyDigits
    | fraction, (exponent, rest) =>
        .ok (.float (floatOfDecimal negative (numeral (integer ++ fraction))
          (exponent.getD 0 - fraction.length)), rest)

/-- `pairs[key] = value` of a dictionary. -/
def setEntry (key : Str) (value : JsonValue) : JsonObject → JsonObject
  | [] => [(key, value)]
  | (other, old) :: rest =>
      if other = key then (key, value) :: rest else (other, old) :: setEntry key value rest

/-- `dict(pairs)` -/
def dictOf (pairs : List (Str × JsonValue)) : JsonObject :=
  pairs.foldl (fun entries (key, value) => setEntry key value entries) []

/-- The loop of `JSONArray`.  Every turn reads a part of the text, so that there are fewer
turns than code points. -/
def scanItems (scan : List CodePoint → Scanned JsonValue) :
    Nat → List CodePoint → Scanned (List JsonValue)
  | 0, _ => .error .malformed
  | turns + 1, text =>
      match scan text with
      | .error failure => .error failure
      | .ok (item, rest) =>
          match skipSpace rest with
          | [] => .error .malformed
          | point :: rest =>
              if point.val = 0x5D then .ok ([item], rest)
              else if point.val = 0x2C then
                (scanItems scan turns (skipSpace rest)).map (item :: ·)
              else .error .malformed

/-- `JSONArray`, behind the bracket.  By `scanItems_turns` its turns are never used up. -/
def scanArray (scan : List CodePoint → Scanned JsonValue) (text : List CodePoint) :
    Scanned JsonValue :=
  match skipSpace text with
  | [] => .error .malformed
  | point :: rest =>
      if point.val = 0x5D then .ok (.list [], rest)
      else (scanItems scan (text.length + 1) (point :: rest)).map .list

/-- A key, behind its opening quote, and the value after it. -/
def scanMember (scan : List CodePoint → Scanned JsonValue) (text : List CodePoint) :
    Scanned (Str × JsonValue) :=
  match scanString text with
  | .error failure => .error failure
  | .ok (key, rest) =>
      match skipSpace rest with
      | [] => .error .malformed
      | colon :: rest =>
          if colon.val = 0x3A then (scan (skipSpace rest)).map (⟨key⟩, ·) else .error .malformed

/-- The loop of `JSONObject`, behind the opening quote of a key. -/
def scanMembers (scan : List CodePoint → Scanned JsonValue) :
    Nat → List CodePoint → Scanned (List (Str × JsonValue))
  | 0, _ => .error .malformed
  | turns + 1, text =>
      match scanMember scan text with
      | .error failure => .error failure
      | .ok (member, rest) =>
          match skipSpace rest with
          | [] => .error .malformed
          | point :: rest =>
              if point.val = 0x7D then .ok ([member], rest)
              else if point.val = 0x2C then
                match skipSpace rest with
                | [] => .error .malformed
                | quote :: rest =>
                    if quote.val = 0x22 then (scanMembers scan turns rest).map (member :: ·)
                    else .error .malformed
              else .error .malformed

/-- `JSONObject`, behind the brace.  By `scanMembers_turns` its turns are never used up. -/
def scanObject (scan : List CodePoint → Scanned JsonValue) (text : List CodePoint) :
    Scanned JsonValue :=
  match skipSpace text with
  | [] => .error .malformed
  | point :: rest =>
      if point.val = 0x7D then .ok (.dict [], rest)
      else if point.val = 0x22 then
        (scanMembers scan (text.length + 1) rest).map fun pairs => .dict (dictOf pairs)
      else .error .malformed

/-- The text behind a word. -/
def afterWord (word : String) (text : List CodePoint) : Option (List CodePoint) :=
  (Str.ofString word).isPrefixOf? text

/-- The constants, of which `parse_constant` refuses three. -/
def scanConstant (text : List CodePoint) : Scanned JsonValue :=
  match afterWord "null" text with
  | some rest => .ok (.null, rest)
  | none => match afterWord "true" text with
    | some rest => .ok (.bool true, rest)
    | none => match afterWord "false" text with
      | some rest => .ok (.bool false, rest)
      | none =>
          match ["NaN", "Infinity", "-Infinity"].find? fun word => (afterWord word text).isSome with
          | some constant => .error (.nonFinite constant)
          | none => .error .malformed

/-- `scan_once`; the number is how many containers may be entered before the interpreter
raises `RecursionError`. -/
def scanOnce (maxStrDigits : Nat) : Nat → List CodePoint → Scanned JsonValue
  | _, [] => .error .malformed
  | depth, point :: rest =>
      if point.val = 0x22 then (scanString rest).map fun points => .str ⟨points⟩
      else if point.val = 0x7B then
        match depth with
        | 0 => .error .recursion
        | depth + 1 => scanObject (scanOnce maxStrDigits depth) rest
      else if point.val = 0x5B then
        match depth with
        | 0 => .error .recursion
        | depth + 1 => scanArray (scanOnce maxStrDigits depth) rest
      else
        match scanNumber maxStrDigits (point :: rest) with
        | some scanned => scanned
        | none => scanConstant (point :: rest)

/-- `JSONDecoder.decode` -/
def decodeText (maxStrDigits depth : Nat) (text : List CodePoint) :
    Except JsonDecodeFailure JsonValue := do
  let (value, rest) ← scanOnce maxStrDigits depth (skipSpace text)
  if skipSpace rest = [] then .ok value else .error .malformed

end StreamDockSdk
