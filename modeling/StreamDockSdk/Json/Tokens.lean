import StreamDockSdk.Json.Scanner

namespace StreamDockSdk

/-- The code point of a character. -/
def pointOf (char : Char) : CodePoint :=
  Fin.ofNat 0x110000 char.toNat

theorem pointOf_val (char : Char) : (pointOf char).val = char.toNat := by
  have valid := char.valid
  simp only [UInt32.isValidChar, Nat.isValidChar] at valid
  refine Nat.mod_eq_of_lt ?_
  change char.val.toNat < _
  omega

theorem ofString_eq (text : String) : Str.ofString text = text.toList.map pointOf := by
  unfold Str.ofString
  refine List.map_congr_left ?_
  intro char _
  exact Fin.ext (pointOf_val char).symm

theorem hexDigit_eq (value : Nat) : hexDigit value = [pointOf (Nat.digitChar (value % 16))] := by
  simp [hexDigit, ofString_eq]

theorem decodeHex_control : ∀ control : Fin 32,
    decodeHex 0x30 0x30 (pointOf (Nat.digitChar (control.val / 16 % 16)))
      (pointOf (Nat.digitChar (control.val % 16))) = some control.val := by
  decide

theorem scanString_quote (text : List CodePoint) : scanString (0x22 :: text) = .ok ([], text) := by
  rw [scanString.eq_def]
  rfl

theorem scanString_short {escape char : CodePoint} (text : List CodePoint)
    (letter : escape.val ≠ 0x75) (known : unescape escape = some char) :
    scanString (0x5C :: escape :: text) = (scanString text).map (char :: ·) := by
  rw [scanString.eq_def]
  dsimp only
  rw [if_neg (by decide), if_pos (by decide), if_neg letter, known]

theorem scanString_unit {first second third fourth : CodePoint} {unit : Nat} (text : List CodePoint)
    (decoded : decodeHex first second third fourth = some unit)
    (single : ¬ (0xD800 ≤ unit ∧ unit ≤ 0xDBFF)) :
    scanString (0x5C :: 0x75 :: first :: second :: third :: fourth :: text) =
      (scanString text).map (Fin.ofNat 0x110000 unit :: ·) := by
  rw [scanString.eq_def]
  dsimp only
  rw [if_neg (by decide), if_pos (by decide), if_pos (by decide), decoded]
  dsimp only
  rw [if_neg single]

theorem scanString_plain {point : CodePoint} (text : List CodePoint) (unquoted : point.val ≠ 0x22)
    (unslashed : point.val ≠ 0x5C) (printable : ¬ point.val < 0x20) :
    scanString (point :: text) = (scanString text).map (point :: ·) := by
  rw [scanString.eq_def]
  dsimp only
  rw [if_neg unquoted, if_neg unslashed, if_neg printable]

theorem scanString_escaped (point : CodePoint) (text : List CodePoint) :
    scanString (escapePoint point ++ text) = (scanString text).map (point :: ·) := by
  unfold escapePoint
  split
  · next value =>
    rw [Fin.ext (b := 0x22) value]
    exact scanString_short text (by decide) rfl
  split
  · next value =>
    rw [Fin.ext (b := 0x5C) value]
    exact scanString_short text (by decide) rfl
  split
  · next value =>
    rw [Fin.ext (b := 0x08) value]
    exact scanString_short text (by decide) rfl
  split
  · next value =>
    rw [Fin.ext (b := 0x0C) value]
    exact scanString_short text (by decide) rfl
  split
  · next value =>
    rw [Fin.ext (b := 0x0A) value]
    exact scanString_short text (by decide) rfl
  split
  · next value =>
    rw [Fin.ext (b := 0x0D) value]
    exact scanString_short text (by decide) rfl
  split
  · next value =>
    rw [Fin.ext (b := 0x09) value]
    exact scanString_short text (by decide) rfl
  next unquoted unslashed _ _ _ _ _ =>
  split
  · next control =>
    have decoded := decodeHex_control ⟨point.val, control⟩
    rw [hexDigit_eq, hexDigit_eq]
    refine (scanString_unit text decoded (by dsimp only; omega)).trans ?_
    rw [show Fin.ofNat 0x110000 point.val = point from Fin.ext (Nat.mod_eq_of_lt point.isLt)]
  · next printable => exact scanString_plain text unquoted unslashed printable

theorem scanString_encoded (points text : List CodePoint) :
    scanString (points.flatMap escapePoint ++ 0x22 :: text) = .ok (points, text) := by
  induction points with
  | nil => exact scanString_quote text
  | cons point rest ih =>
      rw [List.flatMap_cons, List.append_assoc, scanString_escaped, ih]
      rfl

def pointsOf (chars : List Char) : List CodePoint :=
  chars.map pointOf

@[simp] theorem pointsOf_append (first second : List Char) :
    pointsOf (first ++ second) = pointsOf first ++ pointsOf second :=
  List.map_append

@[simp] theorem pointsOf_length (chars : List Char) : (pointsOf chars).length = chars.length :=
  List.length_map _

theorem isDecimal_pointOf {char : Char} (digit : char.isDigit = true) :
    isDecimal (pointOf char) = true := by
  simp only [Char.isDigit, Bool.and_eq_true, decide_eq_true_eq] at digit
  simp only [isDecimal, pointOf_val, Bool.and_eq_true, decide_eq_true_eq]
  exact digit

theorem pointsOf_zero : (pointsOf ['0']).all isDecimal = true :=
  rfl

theorem numeral_pointsOf (digits : List Char) :
    numeral (pointsOf digits) = Nat.ofDigitChars 10 digits 0 := by
  rw [numeral, pointsOf, List.foldl_map]
  simp only [pointOf_val]
  rfl

/-- Nothing that a number could go on with stands at the front of the text. -/
def Stops (text : List CodePoint) : Prop :=
  ∀ point ∈ text.head?, isDecimal point = false ∧ point.val ≠ 0x2E ∧ point.val ≠ 0x65 ∧
    point.val ≠ 0x45

theorem digitsOf_append {digits text : List CodePoint} (decimal : digits.all isDecimal = true)
    (ends : ∀ point ∈ text.head?, isDecimal point = false) :
    digitsOf (digits ++ text) = (digits, text) := by
  rw [List.all_eq_true] at decimal
  rw [digitsOf, List.takeWhile_append_of_pos decimal, List.dropWhile_append_of_pos decimal]
  cases text with
  | nil => simp
  | cons point rest =>
      have stop := ends point rfl
      rw [List.takeWhile_cons_of_neg (by simp [stop]), List.dropWhile_cons_of_neg (by simp [stop]),
        List.append_nil]

/-- `0|[1-9][0-9]*` -/
def Integral (digits : List CodePoint) : Prop :=
  digits = [0x30] ∨
    (digits.all isDecimal = true ∧ ∀ point ∈ digits.head?, point.val ≠ 0x30) ∧ digits ≠ []

theorem integerOf_append {digits text : List CodePoint} (integral : Integral digits)
    (ends : ∀ point ∈ text.head?, isDecimal point = false) :
    integerOf (digits ++ text) = some (digits, text) := by
  rcases integral with rfl | ⟨⟨decimal, leading⟩, nonempty⟩
  · rfl
  · obtain ⟨first, rest, rfl⟩ := List.exists_cons_of_ne_nil nonempty
    have digit : isDecimal first = true := by
      rw [List.all_cons, Bool.and_eq_true] at decimal
      exact decimal.1
    rw [List.cons_append, integerOf, if_neg (leading first rfl), if_pos digit, ← List.cons_append,
      digitsOf_append decimal ends]

theorem fractionOf_stop {text : List CodePoint} (stops : ∀ point ∈ text.head?, point.val ≠ 0x2E) :
    fractionOf text = ([], text) := by
  cases text with
  | nil => rfl
  | cons point rest =>
      have other := stops point rfl
      simp [fractionOf, other]

theorem fractionOf_digits {digits : List CodePoint} (text : List CodePoint) (decimal : digits.all isDecimal = true)
    (nonempty : digits ≠ []) (ends : ∀ point ∈ text.head?, isDecimal point = false) :
    fractionOf (0x2E :: (digits ++ text)) = (digits, text) := by
  rw [fractionOf, digitsOf_append decimal ends]
  exact if_pos ⟨rfl, nonempty⟩

theorem exponentOf_stop {text : List CodePoint}
    (stops : ∀ point ∈ text.head?, point.val ≠ 0x65 ∧ point.val ≠ 0x45) :
    exponentOf text = (none, text) := by
  cases text with
  | nil => rfl
  | cons point rest =>
      have other := stops point rfl
      simp [exponentOf, other]

/-- An exponent as `float.__repr__` writes it, always with its sign. -/
theorem exponentOf_digits {digits text : List CodePoint} (negative : Bool)
    (decimal : digits.all isDecimal = true) (nonempty : digits ≠ [])
    (ends : ∀ point ∈ text.head?, isDecimal point = false) :
    exponentOf (0x65 :: (if negative then 0x2D else 0x2B) :: (digits ++ text)) =
      (some (if negative then -(numeral digits : Int) else numeral digits), text) := by
  cases negative <;> simp [exponentOf, signOf, digitsOf_append decimal ends, nonempty]

theorem minusOf_append (negative : Bool) {digits text : List CodePoint} (integral : Integral digits) :
    minusOf ((if negative then [0x2D] else []) ++ (digits ++ text)) = (negative, digits ++ text) := by
  cases negative with
  | true => rfl
  | false =>
      rcases integral with rfl | ⟨⟨decimal, _⟩, nonempty⟩
      · rfl
      · obtain ⟨first, rest, rfl⟩ := List.exists_cons_of_ne_nil nonempty
        have other : first.val ≠ 0x2D := by
          rw [List.all_cons, Bool.and_eq_true] at decimal
          have digit := decimal.1
          simp only [isDecimal, Bool.and_eq_true, decide_eq_true_eq] at digit
          omega
        simp [minusOf, other]

section

variable {maxStrDigits : Nat} {digits text : List CodePoint}

theorem scanNumber_integer (negative : Bool) (integral : Integral digits) (stops : Stops text)
    (short : maxStrDigits = 0 ∨ digits.length ≤ maxStrDigits) :
    scanNumber maxStrDigits ((if negative then [0x2D] else []) ++ (digits ++ text)) =
      some (.ok (.int (if negative then -(numeral digits : Int) else numeral digits), text)) := by
  rw [scanNumber, minusOf_append negative integral]
  simp only [integerOf_append integral fun point first => (stops point first).1, Option.map_some,
    fractionOf_stop fun point first => (stops point first).2.1,
    exponentOf_stop fun point first => (stops point first).2.2, if_pos short]

theorem scanNumber_decimal (maxStrDigits : Nat) (negative : Bool) {fraction rest after : List CodePoint}
    {exponent : Option Int} (integral : Integral digits)
    (ends : ∀ point ∈ rest.head?, isDecimal point = false)
    (fractional : fractionOf rest = (fraction, after))
    (exponential : exponentOf after = (exponent, text))
    (real : fraction ≠ [] ∨ exponent ≠ none) :
    scanNumber maxStrDigits ((if negative then [0x2D] else []) ++ (digits ++ rest)) =
      some (.ok (.float (floatOfDecimal negative (numeral (digits ++ fraction))
        (exponent.getD 0 - fraction.length)), text)) := by
  rw [scanNumber, minusOf_append negative integral]
  simp only [integerOf_append integral ends, Option.map_some, fractional, exponential]
  cases fraction with
  | nil =>
      cases exponent with
      | none => simp at real
      | some exponent => rfl
  | cons point fraction => rfl

end

theorem toDigits_isDigit (number : Nat) : ∀ char ∈ Nat.toDigits 10 number, char.isDigit = true :=
  fun _ member => Nat.isDigit_of_mem_toDigits (by decide) (by decide) member

theorem pointsOf_decimal {digits : List Char} (decimal : ∀ char ∈ digits, char.isDigit = true) :
    (pointsOf digits).all isDecimal = true := by
  simp only [pointsOf, List.all_map, List.all_eq_true]
  exact fun char member => isDecimal_pointOf (decimal char member)

theorem digitChar_ne_zero : ∀ digit < 10, 0 < digit → Nat.digitChar digit ≠ '0' := by
  decide

/-- The first digit of a positive number is not 0. -/
theorem toDigits_head {number : Nat} (positive : 0 < number) :
    ∀ char ∈ (Nat.toDigits 10 number).head?, char ≠ '0' := by
  induction number using Nat.strongRecOn with
  | ind number ih =>
      intro char first
      by_cases small : number < 10
      · rw [Nat.toDigits_of_lt_base small, List.head?_cons, Option.mem_def, Option.some.injEq] at first
        exact first ▸ digitChar_ne_zero number small positive
      · have shorter : 0 < number / 10 := by omega
        refine ih (number / 10) (by omega) shorter char ?_
        rw [Nat.toDigits_of_base_le (by decide) (by omega),
          List.head?_append_of_ne_nil _ Nat.toDigits_ne_nil] at first
        exact first

theorem integral_toDigits (number : Nat) : Integral (pointsOf (Nat.toDigits 10 number)) := by
  by_cases positive : 0 < number
  · right
    refine ⟨⟨pointsOf_decimal (toDigits_isDigit number), ?_⟩, by simp [pointsOf]⟩
    intro point first
    simp only [pointsOf, List.head?_map, Option.mem_def, Option.map_eq_some_iff] at first
    obtain ⟨char, leading, rfl⟩ := first
    have other := toDigits_head positive char leading
    intro zero
    rw [pointOf_val] at zero
    exact other (Char.toNat_inj.mp zero)
  · left
    rw [Nat.eq_zero_of_not_pos positive]
    rfl

theorem scanNumber_int {maxStrDigits : Nat} {value : Int} {text : List CodePoint}
    (short : printable maxStrDigits value = true) (stops : Stops text) :
    scanNumber maxStrDigits (Str.ofString (toString value) ++ text) =
      some (.ok (.int value, text)) := by
  have written (number : Nat) : Str.ofString (toString number) = pointsOf (Nat.toDigits 10 number) := by
    rw [ofString_eq, Nat.toString_eq_ofList_toDigits, String.toList_ofList, pointsOf]
  have fits : maxStrDigits = 0 ∨ (pointsOf (Nat.toDigits 10 value.natAbs)).length ≤ maxStrDigits := by
    rw [pointsOf, List.length_map, ← String.length_ofList, ← Nat.toString_eq_ofList_toDigits]
    simpa only [printable, Bool.or_eq_true, decide_eq_true_eq] using short
  cases value with
  | ofNat number =>
      have scanned := scanNumber_integer false (integral_toDigits number) stops fits
      rw [numeral_pointsOf, Nat.ofDigitChars_ten_toDigits] at scanned
      rw [show toString (Int.ofNat number) = toString number from rfl, written]
      exact scanned
  | negSucc number =>
      have scanned := scanNumber_integer true (integral_toDigits (number + 1)) stops fits
      rw [numeral_pointsOf, Nat.ofDigitChars_ten_toDigits] at scanned
      rw [show toString (Int.negSucc number) = "-" ++ toString (number + 1) from rfl,
        ofString_eq, String.toList_append, List.map_append, ← ofString_eq (toString (number + 1)),
        written, List.append_assoc]
      exact scanned

/-- The digits of a positive number without the zeros at its end. -/
structure Significant (digits : List Char) : Prop where
  nonempty : digits ≠ []
  decimal : ∀ char ∈ digits, char.isDigit = true
  leading : ∀ char ∈ digits.head?, char ≠ '0'

theorem Significant.integral {digits : List Char} (significant : Significant digits)
    (more : List Char) (decimal : ∀ char ∈ more, char.isDigit = true) :
    Integral (pointsOf (digits ++ more)) := by
  right
  refine ⟨⟨pointsOf_decimal ?_, ?_⟩, ?_⟩
  · intro char member
    rcases List.mem_append.mp member with member | member
    · exact significant.decimal char member
    · exact decimal char member
  · obtain ⟨first, rest, rfl⟩ := List.exists_cons_of_ne_nil significant.nonempty
    intro point found zero
    simp only [pointsOf, List.cons_append, List.map_cons, List.head?_cons, Option.mem_def,
      Option.some.injEq] at found
    rw [← found, pointOf_val] at zero
    exact significant.leading first rfl (Char.toNat_inj.mp zero)
  · simp [pointsOf, significant.nonempty]

theorem zeros_isDigit (count : Nat) : ∀ char ∈ PyFloat.zeros count, char.isDigit = true := by
  intro char member
  rw [List.eq_of_mem_replicate member]
  rfl

theorem ofDigitChars_zeros (count : Nat) (value : Nat) :
    Nat.ofDigitChars 10 (PyFloat.zeros count) value = 10 ^ count * value :=
  Nat.ofDigitChars_replicate_zero

/-- The numbers that a text of the form of `float.__repr__` is read as. -/
def ReadsDecimal (maxStrDigits : Nat) (negative : Bool) (written : List Char) (number : Rat) : Prop :=
  ∀ text, Stops text → ∃ (digits : Nat) (scale : Int), (digits : Rat) * 10 ^ scale = number ∧
    scanNumber maxStrDigits ((if negative then [0x2D] else []) ++ (pointsOf written ++ text)) =
      some (.ok (.float (floatOfDecimal negative digits scale), text))

section

variable {maxStrDigits : Nat} {digits : List Char} {negative : Bool}

theorem exponent_digits (exponent : Int) :
    ∀ char ∈ PyFloat.zeros (2 - (Nat.toDigits 10 exponent.natAbs).length) ++
      Nat.toDigits 10 exponent.natAbs, char.isDigit = true := by
  intro char member
  rcases List.mem_append.mp member with member | member
  · exact zeros_isDigit _ char member
  · exact toDigits_isDigit _ char member

theorem numeral_exponent (exponent : Int) :
    numeral (pointsOf (PyFloat.zeros (2 - (Nat.toDigits 10 exponent.natAbs).length) ++
      Nat.toDigits 10 exponent.natAbs)) = exponent.natAbs := by
  rw [numeral_pointsOf, Nat.ofDigitChars_append, ofDigitChars_zeros, Nat.mul_zero,
    Nat.ofDigitChars_ten_toDigits]

/-- `e+16` -/
theorem exponentOf_written (exponent : Int) {text : List CodePoint} (stops : Stops text) :
    exponentOf (pointsOf (['e'] ++ [if exponent < 0 then '-' else '+'] ++
      (PyFloat.zeros (2 - (Nat.toDigits 10 exponent.natAbs).length) ++
        Nat.toDigits 10 exponent.natAbs)) ++ text) = (some exponent, text) := by
  have nonempty : pointsOf (PyFloat.zeros (2 - (Nat.toDigits 10 exponent.natAbs).length) ++
      Nat.toDigits 10 exponent.natAbs) ≠ [] := by
    simp [pointsOf, Nat.toDigits_ne_nil]
  have scanned := exponentOf_digits (decide (exponent < 0)) (pointsOf_decimal (exponent_digits exponent))
    nonempty fun point first => (stops point first).1
  rw [numeral_exponent] at scanned
  have value : (if decide (exponent < 0) = true then -(exponent.natAbs : Int) else exponent.natAbs) =
      exponent := by
    by_cases below : exponent < 0
    · simp only [below, decide_true, if_true]
      omega
    · simp only [below, decide_false, Bool.false_eq_true, if_false]
      omega
  rw [value] at scanned
  rw [← scanned, pointsOf_append, pointsOf_append]
  by_cases below : exponent < 0 <;> simp [below, pointsOf, pointOf]

/-- The part of `float.__repr__` behind the mantissa. -/
def exponentChars (exponent : Int) : List Char :=
  ['e'] ++ [if exponent < 0 then '-' else '+'] ++
    (PyFloat.zeros (2 - (Nat.toDigits 10 exponent.natAbs).length) ++ Nat.toDigits 10 exponent.natAbs)

theorem format_scientific {point : Int} (far : point ≤ -4 ∨ 16 < point) :
    PyFloat.format digits point = digits.take 1 ++
      ((if digits.length ≤ 1 then [] else '.' :: digits.drop 1) ++ exponentChars (point - 1)) := by
  unfold PyFloat.format exponentChars
  rw [if_pos far]
  simp only [Nat.toString_eq_ofList_toDigits, String.toList_ofList, List.append_assoc]

/-- `1.5e+16` -/
theorem reads_scientific (significant : Significant digits) {point : Int}
    (far : point ≤ -4 ∨ 16 < point) :
    ReadsDecimal maxStrDigits negative (PyFloat.format digits point)
      (Nat.ofDigitChars 10 digits 0 * 10 ^ (point - digits.length)) := by
  intro text stops
  have exponential : exponentOf (pointsOf (exponentChars (point - 1)) ++ text) =
      (some (point - 1), text) := exponentOf_written (point - 1) stops
  have begins (ending : List CodePoint) : ∃ more,
      pointsOf (exponentChars (point - 1)) ++ ending = 0x65 :: more := ⟨_, rfl⟩
  obtain ⟨more, begins⟩ := begins text
  obtain ⟨first, rest, rfl⟩ := List.exists_cons_of_ne_nil significant.nonempty
  have single : Significant [first] :=
    ⟨by simp, by simpa using significant.decimal first List.mem_cons_self, significant.leading⟩
  have integral := single.integral [] (by simp)
  rw [List.append_nil] at integral
  rw [format_scientific far, List.take_one, List.head?_cons, Option.toList_some, pointsOf_append,
    List.append_assoc]
  cases rest with
  | nil =>
      have scanned := scanNumber_decimal maxStrDigits negative integral
        (by rw [begins]; simp [isDecimal]) (fractionOf_stop (by rw [begins]; simp)) exponential
        (by simp)
      refine ⟨_, _, ?_, scanned⟩
      rw [List.append_nil, numeral_pointsOf]
      simp
  | cons second rest =>
      have decimal : (pointsOf (second :: rest)).all isDecimal = true :=
        pointsOf_decimal fun char member => significant.decimal char (List.mem_cons_of_mem _ member)
      have fractional := fractionOf_digits (pointsOf (exponentChars (point - 1)) ++ text)
        decimal (by simp [pointsOf]) (by rw [begins]; simp [isDecimal])
      have scanned := scanNumber_decimal maxStrDigits negative integral
        (by simp [isDecimal]) fractional exponential (by simp)
      refine ⟨_, _, ?_, (congrArg (scanNumber maxStrDigits) ?_).trans scanned⟩
      · rw [← pointsOf_append, numeral_pointsOf]
        simp only [List.singleton_append, Option.getD_some, pointsOf_length, List.length_cons]
        congr 2
        push_cast
        ring
      · simp [pointsOf, pointOf]

/-- `0.0015` -/
theorem reads_small (significant : Significant digits) {point : Int} (near : -4 < point)
    (small : point ≤ 0) :
    ReadsDecimal maxStrDigits negative (PyFloat.format digits point)
      (Nat.ofDigitChars 10 digits 0 * 10 ^ (point - digits.length)) := by
  intro text stops
  have decimal : (pointsOf (PyFloat.zeros (-point).toNat ++ digits)).all isDecimal = true := by
    refine pointsOf_decimal fun char member => ?_
    rcases List.mem_append.mp member with member | member
    · exact zeros_isDigit _ char member
    · exact significant.decimal char member
  have fractional := fractionOf_digits text decimal (by simp [pointsOf, significant.nonempty])
    fun point first => (stops point first).1
  have scanned := scanNumber_decimal maxStrDigits negative
    (integral_toDigits 0) (by simp [isDecimal]) fractional
    (exponentOf_stop fun point first => (stops point first).2.2) (.inl (by
      simp [pointsOf, significant.nonempty]))
  unfold PyFloat.format
  rw [if_neg (show ¬ (point ≤ -4 ∨ 16 < point) by omega), if_pos small]
  refine ⟨_, _, ?_, (congrArg (scanNumber maxStrDigits) ?_).trans scanned⟩
  · rw [← pointsOf_append, numeral_pointsOf, Nat.ofDigitChars_append, Nat.ofDigitChars_append,
      ofDigitChars_zeros, Nat.ofDigitChars_ten_toDigits, Nat.mul_zero]
    congr 2
    simp only [Option.getD_none, pointsOf_length, List.length_append, PyFloat.zeros,
      List.length_replicate]
    push_cast
    omega
  · simp [pointsOf, pointOf, List.append_assoc]

/-- `1500.0` -/
theorem reads_whole (significant : Significant digits) {point : Int} (near : point ≤ 16)
    (positive : 0 < point) (long : digits.length ≤ point.toNat) :
    ReadsDecimal maxStrDigits negative (PyFloat.format digits point)
      (Nat.ofDigitChars 10 digits 0 * 10 ^ (point - digits.length)) := by
  intro text stops
  have integral := significant.integral _ (zeros_isDigit (point.toNat - digits.length))
  have fractional := fractionOf_digits text pointsOf_zero (by simp [pointsOf])
    fun point first => (stops point first).1
  have scanned := scanNumber_decimal maxStrDigits negative integral
    (by simp [isDecimal]) fractional
    (exponentOf_stop fun point first => (stops point first).2.2) (.inl (by simp [pointsOf]))
  unfold PyFloat.format
  rw [if_neg (show ¬ (point ≤ -4 ∨ 16 < point) by omega), if_neg (show ¬ point ≤ 0 by omega),
    if_pos long]
  refine ⟨_, _, ?_, (congrArg (scanNumber maxStrDigits) ?_).trans scanned⟩
  · rw [← pointsOf_append, numeral_pointsOf, Nat.ofDigitChars_append, Nat.ofDigitChars_append,
      ofDigitChars_zeros]
    have tail : Nat.ofDigitChars 10 ['0'] (10 ^ (point.toNat - digits.length) *
        Nat.ofDigitChars 10 digits 0) =
          10 ^ (point.toNat - digits.length + 1) * Nat.ofDigitChars 10 digits 0 := by
      rw [Nat.pow_succ, Nat.mul_comm _ 10, Nat.mul_assoc]
      rfl
    rw [tail]
    have power : point - digits.length = ((point.toNat - digits.length + 1 : Nat) : Int) + -1 := by
      omega
    rw [power, zpow_add₀ (by norm_num), zpow_natCast]
    push_cast
    simp only [Option.getD_none, pointsOf_length, List.length_singleton]
    ring
  · simp [pointsOf, pointOf, List.append_assoc]

/-- `1.5` -/
theorem reads_mixed (significant : Significant digits) {point : Int} (near : point ≤ 16)
    (positive : 0 < point) (short : ¬ digits.length ≤ point.toNat) :
    ReadsDecimal maxStrDigits negative (PyFloat.format digits point)
      (Nat.ofDigitChars 10 digits 0 * 10 ^ (point - digits.length)) := by
  intro text stops
  have front : Significant (digits.take point.toNat) := by
    obtain ⟨first, rest, rfl⟩ := List.exists_cons_of_ne_nil significant.nonempty
    obtain ⟨count, counted⟩ : ∃ count, point.toNat = count + 1 := ⟨point.toNat - 1, by omega⟩
    rw [counted]
    exact ⟨by simp, fun char member => significant.decimal char (List.mem_of_mem_take member),
      significant.leading⟩
  have integral := front.integral [] (by simp)
  rw [List.append_nil] at integral
  have decimal : (pointsOf (digits.drop point.toNat)).all isDecimal = true :=
    pointsOf_decimal fun char member => significant.decimal char (List.mem_of_mem_drop member)
  have nonempty : pointsOf (digits.drop point.toNat) ≠ [] := by
    rw [ne_eq, ← List.length_eq_zero_iff, pointsOf_length, List.length_drop]
    omega
  have fractional := fractionOf_digits text decimal nonempty fun point first => (stops point first).1
  have scanned := scanNumber_decimal maxStrDigits negative integral
    (by simp [isDecimal]) fractional
    (exponentOf_stop fun point first => (stops point first).2.2) (.inl nonempty)
  unfold PyFloat.format
  rw [if_neg (show ¬ (point ≤ -4 ∨ 16 < point) by omega), if_neg (show ¬ point ≤ 0 by omega),
    if_neg short]
  refine ⟨_, _, ?_, (congrArg (scanNumber maxStrDigits) ?_).trans scanned⟩
  · rw [← pointsOf_append, numeral_pointsOf, List.take_append_drop]
    congr 2
    simp only [Option.getD_none, pointsOf_length, List.length_drop]
    omega
  · simp [pointsOf, pointOf, List.append_assoc]

theorem reads_format (significant : Significant digits) (point : Int) :
    ReadsDecimal maxStrDigits negative (PyFloat.format digits point)
      (Nat.ofDigitChars 10 digits 0 * 10 ^ (point - digits.length)) := by
  by_cases far : point ≤ -4 ∨ 16 < point
  · exact reads_scientific significant far
  by_cases small : point ≤ 0
  · exact reads_small significant (by omega) small
  by_cases long : digits.length ≤ point.toNat
  · exact reads_whole significant (by omega) (by omega) long
  · exact reads_mixed significant (by omega) (by omega) long

end

/-- A float from its sign and the bits of its magnitude. -/
theorem float_of_sign (bits : BitVec 64) :
    BitVec.ofNat 64 (if PyFloat.isNegative bits then 2 ^ 63 + bits.toNat % 2 ^ 63
      else bits.toNat % 2 ^ 63) = bits := by
  refine BitVec.eq_of_toNat_eq ?_
  have bound := bits.isLt
  rw [BitVec.toNat_ofNat, PyFloat.isNegative, BitVec.msb_eq_decide]
  simp only [decide_eq_true_eq]
  split <;> omega

theorem trimmed (digits : List Char) :
    (digits.reverse.dropWhile (· == '0')).reverse ++
      PyFloat.zeros (digits.reverse.takeWhile (· == '0')).length = digits := by
  have zeros : PyFloat.zeros (digits.reverse.takeWhile (· == '0')).length =
      (digits.reverse.takeWhile (· == '0')).reverse := by
    refine (List.eq_replicate_iff.mpr ⟨by simp, ?_⟩).symm
    intro char member
    have zero := List.all_eq_true.mp List.all_takeWhile char (List.mem_reverse.mp member)
    simpa using zero
  rw [zeros, ← List.reverse_append, List.takeWhile_append_dropWhile, List.reverse_reverse]

section

variable {maxStrDigits : Nat} {bits : BitVec 64} {text : List CodePoint}

theorem reads_zero (zero : PyFloat.mantissa bits = 0) (stops : Stops text) :
    scanNumber maxStrDigits ((if PyFloat.isNegative bits then [0x2D] else []) ++
      (pointsOf ['0', '.', '0'] ++ text)) = some (.ok (.float bits, text)) := by
  have fractional := fractionOf_digits text pointsOf_zero (by simp [pointsOf])
    fun point first => (stops point first).1
  have scanned := scanNumber_decimal maxStrDigits (PyFloat.isNegative bits)
    (integral_toDigits 0) (by simp [isDecimal]) fractional
    (exponentOf_stop fun point first => (stops point first).2.2) (.inl (by simp [pointsOf]))
  have nothing : numeral (pointsOf (Nat.toDigits 10 0) ++ pointsOf ['0']) = 0 := by decide
  have magnitude : bits.toNat % 2 ^ 63 = 0 := by
    have whole := PyFloat.significand_eq bits
    have normal := PyFloat.mantissa_normal bits
    rw [zero] at whole normal
    rcases normal with large | smallest
    · omega
    · rw [smallest] at whole
      exact whole.symm
  have same := float_of_sign bits
  rw [magnitude] at same
  rw [nothing, floatOfDecimal, if_pos rfl, same] at scanned
  exact scanned

/-- The digits of a positive number, shortened and with the point where its scale says. -/
theorem reads_number {number : Nat} (positive : 0 < number) (scale : Int) (negative : Bool) :
    ReadsDecimal maxStrDigits negative
      (PyFloat.format ((Nat.toDigits 10 number).reverse.dropWhile (· == '0')).reverse
        ((Nat.toDigits 10 number).length + scale)) (number * 10 ^ scale) := by
  have split := trimmed (Nat.toDigits 10 number)
  have leading := toDigits_head positive
  have decimal := toDigits_isDigit number
  have value : Nat.ofDigitChars 10 (Nat.toDigits 10 number) 0 = number :=
    Nat.ofDigitChars_ten_toDigits
  generalize Nat.toDigits 10 number = digits at *
  generalize (digits.reverse.dropWhile (· == '0')).reverse = kept at *
  generalize (digits.reverse.takeWhile (· == '0')).length = cut at *
  subst split
  rw [Nat.ofDigitChars_append, ofDigitChars_zeros] at value
  have nonempty : kept ≠ [] := by
    rintro rfl
    simp at value
    omega
  have significant : Significant kept := by
    refine ⟨nonempty, fun char member => decimal char (List.mem_append_left _ member), ?_⟩
    rw [List.head?_append_of_ne_nil _ nonempty] at leading
    exact leading
  have equal : (Nat.ofDigitChars 10 kept 0 : Rat) *
      10 ^ (((kept ++ PyFloat.zeros cut).length : Int) + scale - kept.length) = number * 10 ^ scale := by
    have power : ((kept ++ PyFloat.zeros cut).length : Int) + scale - kept.length = cut + scale := by
      simp only [List.length_append, PyFloat.zeros, List.length_replicate]
      push_cast
      omega
    rw [power, zpow_add₀ (by norm_num), zpow_natCast, ← value]
    push_cast
    ring
  rw [← equal]
  exact reads_format significant _

theorem scanNumber_float (finite : isFinite bits = true) (stops : Stops text) :
    scanNumber maxStrDigits (Str.ofString (PyFloat.repr bits) ++ text) =
      some (.ok (.float bits, text)) := by
  have sign : pointsOf (if PyFloat.isNegative bits then ['-'] else []) =
      if PyFloat.isNegative bits then [0x2D] else [] := by
    split <;> rfl
  have written (chars : List Char) :
      Str.ofString (String.ofList ((if PyFloat.isNegative bits then ['-'] else []) ++ chars)) ++ text =
        (if PyFloat.isNegative bits then [0x2D] else []) ++ (pointsOf chars ++ text) := by
    rw [ofString_eq, String.toList_ofList, ← pointsOf, pointsOf_append, sign, List.append_assoc]
  unfold PyFloat.repr
  dsimp only
  split
  · next zero =>
    rw [written]
    exact reads_zero zero stops
  · next nonzero =>
    have reads := PyFloat.shortest_reads nonzero
    generalize PyFloat.shortest bits = decimal at reads ⊢
    obtain ⟨number, scale⟩ := decimal
    have above := PyFloat.readsAs_pos nonzero reads
    have positive : 0 < number := by
      by_contra none
      rw [Nat.eq_zero_of_not_pos none] at above
      simp at above
    have read : ReadsDecimal maxStrDigits (PyFloat.isNegative bits) _ _ :=
      reads_number positive scale (PyFloat.isNegative bits)
    obtain ⟨numerator, exponent, same, scanned⟩ := read text stops
    have some_digits : numerator ≠ 0 := by
      rintro rfl
      rw [← same] at above
      simp at above
    rw [floatOfDecimal, if_neg some_digits, same, PyFloat.nearest_of_readsAs finite nonzero reads,
      float_of_sign] at scanned
    dsimp only
    rw [Nat.toString_eq_ofList_toDigits, String.toList_ofList, written]
    exact scanned

end

end StreamDockSdk
