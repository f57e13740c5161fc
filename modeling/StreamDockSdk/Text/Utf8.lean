import StreamDockSdk.Events

namespace StreamDockSdk

abbrev CodePoint := Fin 0x110000

/-- `errors="strict"` refuses surrogates, `errors="surrogatepass"` encodes them
like other code points of their size. -/
inductive Utf8Errors where
  | strict
  | surrogatepass
deriving DecidableEq, Repr

namespace CodePoint

def isSurrogate (point : CodePoint) : Bool :=
  0xD800 ≤ point.val && point.val ≤ 0xDFFF

/-- A byte with the low six bits of the number. -/
def trailing (bits : Nat) : Nat :=
  0x80 + bits % 64

def utf8 (point : CodePoint) : List Nat :=
  let bits := point.val
  if bits < 0x80 then [bits]
  else if bits < 0x800 then [0xC0 + bits / 64, trailing bits]
  else if bits < 0x10000 then [0xE0 + bits / 4096, trailing (bits / 64), trailing bits]
  else [0xF0 + bits / 262144, trailing (bits / 4096), trailing (bits / 64), trailing bits]

def encode? (errors : Utf8Errors) (point : CodePoint) : Option (List Nat) :=
  if errors = .strict ∧ isSurrogate point then none else some (utf8 point)

theorem utf8_length_pos (point : CodePoint) : 0 < (utf8 point).length := by
  unfold utf8
  dsimp only
  repeat' split
  all_goals simp

end CodePoint

namespace Str

/-- The code points of a Lean string, which has no surrogates. -/
def ofString (text : String) : List CodePoint :=
  text.toList.map fun char => ⟨char.toNat, by
    have valid := char.valid
    simp only [UInt32.isValidChar, Nat.isValidChar] at valid
    change char.val.toNat < _
    omega⟩

theorem ofString_scalar (text : String) : ∀ point ∈ ofString text, CodePoint.isSurrogate point = false := by
  intro point member
  simp only [ofString, List.mem_map] at member
  obtain ⟨char, _, rfl⟩ := member
  have valid := char.valid
  simp only [UInt32.isValidChar, Nat.isValidChar] at valid
  simp only [CodePoint.isSurrogate, Bool.and_eq_false_iff, decide_eq_false_iff_not]
  change ¬ _ ≤ char.val.toNat ∨ ¬ char.val.toNat ≤ _
  omega

variable (text : Str)

def hasSurrogate : Bool :=
  text.codePoints.any CodePoint.isSurrogate

/-- `text.encode("utf-8", errors=...)`: `none` where it raises `UnicodeEncodeError`. -/
def encode (errors : Utf8Errors) : Option (List Nat) :=
  (text.codePoints.mapM (CodePoint.encode? errors)).map List.flatten

theorem encode_strict_isSome : (text.encode .strict).isSome = !text.hasSurrogate := by
  obtain ⟨points⟩ := text
  simp only [encode, hasSurrogate, Option.isSome_map]
  induction points with
  | nil => rfl
  | cons point rest ih =>
      simp only [List.mapM_cons, List.any_cons, Bool.not_or, ← ih]
      cases surrogate : CodePoint.isSurrogate point with
      | true => simp [CodePoint.encode?, surrogate]
      | false =>
          simp only [CodePoint.encode?, surrogate, Bool.false_eq_true, and_false, if_false]
          cases rest.mapM (CodePoint.encode? .strict) <;> rfl

/-- The encoding that cannot fail. -/
def bytes : List Nat :=
  text.codePoints.flatMap CodePoint.utf8

theorem encode_surrogatepass : text.encode .surrogatepass = some text.bytes := by
  obtain ⟨points⟩ := text
  simp only [encode, bytes]
  induction points with
  | nil => rfl
  | cons point rest ih =>
      simp only [Option.map_eq_some_iff] at ih
      obtain ⟨parts, mapped, flattened⟩ := ih
      simp [List.mapM_cons, mapped, CodePoint.encode?, ← flattened]

/-- The two handlers agree where the strict one succeeds. -/
theorem encode_strict {encoded : List Nat} (succeeded : text.encode .strict = some encoded) :
    encoded = text.bytes := by
  have same : ∀ (points : List CodePoint) (parts : List (List Nat)),
      points.mapM (CodePoint.encode? .strict) = some parts →
        points.mapM (CodePoint.encode? .surrogatepass) = some parts := by
    intro points
    induction points with
    | nil => exact fun parts mapped => mapped
    | cons point rest ih =>
        intro parts mapped
        simp only [List.mapM_cons, Option.bind_eq_bind, Option.bind_eq_some_iff, Option.pure_def,
          Option.some.injEq] at mapped ⊢
        obtain ⟨head, encoded_head, tail, encoded_tail, rfl⟩ := mapped
        refine ⟨head, ?_, tail, ih tail encoded_tail, rfl⟩
        simp only [CodePoint.encode?, true_and, reduceCtorEq, false_and, if_false] at encoded_head ⊢
        split at encoded_head
        · contradiction
        · exact encoded_head
  simp only [encode, Option.map_eq_some_iff] at succeeded
  obtain ⟨parts, mapped, rfl⟩ := succeeded
  have passed : text.encode .surrogatepass = some parts.flatten := by
    rw [encode, same _ parts mapped]
    rfl
  rw [encode_surrogatepass] at passed
  exact (Option.some.inj passed).symm

end Str

/-- The loop of `utf8_size` over the offsets of the slices. -/
def utf8SizeFrom (points : List CodePoint) (limit : Nat) : List Nat → Nat → Nat
  | [], size => size
  | offset :: rest, size =>
      let next := size + (Str.bytes ⟨(points.drop offset).take 4096⟩).length
      if limit < next then next else utf8SizeFrom points limit rest next

/-- `utf8_size` -/
def utf8Size (text : Str) (limit : Nat) : Nat :=
  let length := text.codePoints.length
  if limit < length then limit + 1
  else utf8SizeFrom text.codePoints limit (List.range' 0 ((length + 4095) / 4096) 4096) 0

namespace Str

theorem bytes_append (left right : List CodePoint) :
    bytes ⟨left ++ right⟩ = bytes ⟨left⟩ ++ bytes ⟨right⟩ :=
  List.flatMap_append

theorem length_le_bytes (points : List CodePoint) : points.length ≤ (bytes ⟨points⟩).length := by
  induction points with
  | nil => exact Nat.le_refl _
  | cons point rest ih =>
      have positive := CodePoint.utf8_length_pos point
      simp only [bytes, List.flatMap_cons, List.length_append, List.length_cons] at ih ⊢
      omega

end Str

/-- The loop stops above the limit exactly where the whole rest is above it. -/
theorem utf8SizeFrom_le (points : List CodePoint) (limit : Nat) {count : Nat} :
    ∀ {offset size : Nat}, points.length ≤ offset + 4096 * count →
      (utf8SizeFrom points limit (List.range' offset count 4096) size ≤ limit ↔
        size + (Str.bytes ⟨points.drop offset⟩).length ≤ limit) := by
  induction count with
  | zero =>
      intro offset size covered
      have drained : points.drop offset = [] := List.drop_eq_nil_of_le (by omega)
      simp [utf8SizeFrom, drained, Str.bytes]
  | succ count ih =>
      intro offset size covered
      have split : points.drop offset =
          (points.drop offset).take 4096 ++ points.drop (offset + 4096) := by
        rw [← List.drop_drop, List.take_append_drop]
      rw [List.range'_succ, utf8SizeFrom, split, Str.bytes_append, List.length_append]
      rw [← split]
      split
      · omega
      · rw [ih (by omega)]
        omega

/-- The comparison that the transport makes: `utf8_size` counts what an encoding with
`surrogatepass` would have. -/
theorem utf8Size_le (text : Str) (limit : Nat) :
    utf8Size text limit ≤ limit ↔ text.bytes.length ≤ limit := by
  obtain ⟨points⟩ := text
  have shorter := Str.length_le_bytes points
  simp only [utf8Size]
  split
  · omega
  · rw [utf8SizeFrom_le points limit (by omega), List.drop_zero, Nat.zero_add]

end StreamDockSdk
