import Mathlib.Tactic.FieldSimp
import Mathlib.Tactic.Linarith
import Mathlib.Tactic.Positivity
import StreamDockSdk.Json.Text

namespace StreamDockSdk.PyFloat

/-- The nearest integer; from the middle the even one. -/
def roundEven (number : Rat) : Int :=
  let below := ⌊number⌋
  let rest := number - below
  if 1 / 2 < rest ∨ rest = 1 / 2 ∧ below % 2 = 1 then below + 1 else below

/-- The bits of the double that is nearest to a positive number, and those of the infinity
where that is none that is finite. -/
def nearest (number : Rat) : Nat :=
  let exponent := max (Int.log 2 number) (-1022) - 52
  let significand := (roundEven (number / 2 ^ exponent)).toNat
  min ((exponent + 1074).toNat * 2 ^ 52 + significand) (2047 * 2 ^ 52)

theorem roundEven_eq {number : Rat} {integer : Int} (low : (integer : Rat) - 1 / 2 ≤ number)
    (high : number ≤ integer + 1 / 2)
    (tie : number = integer - 1 / 2 ∨ number = integer + 1 / 2 → integer % 2 = 0) :
    roundEven number = integer := by
  unfold roundEven
  by_cases below : number < integer
  · have floor : ⌊number⌋ = integer - 1 := by
      rw [Int.floor_eq_iff]
      push_cast
      constructor <;> linarith
    rw [floor, if_pos]
    · omega
    · push_cast
      rcases eq_or_lt_of_le low with middle | above
      · right
        have even := tie (.inl middle.symm)
        exact ⟨by linarith, by omega⟩
      · left
        linarith
  · rw [not_lt] at below
    have floor : ⌊number⌋ = integer := by
      rw [Int.floor_eq_iff]
      constructor <;> linarith
    rw [floor, if_neg]
    rintro (above | ⟨middle, odd⟩)
    · linarith
    · have even := tie (.inr (by linarith))
      omega

variable {bits : BitVec 64}

theorem biasedExponent_lt (finite : isFinite bits = true) : biasedExponent bits < 2047 := by
  simp only [isFinite, decide_eq_true_eq] at finite
  unfold biasedExponent
  omega

theorem mantissa_lt (bits : BitVec 64) : mantissa bits < 2 ^ 53 := by
  unfold mantissa
  dsimp only
  split <;> omega

theorem exponent_ge (bits : BitVec 64) : -1074 ≤ exponent bits := by
  unfold exponent
  omega

/-- Only the smallest exponent has mantissas without the implicit bit. -/
theorem mantissa_normal (bits : BitVec 64) :
    2 ^ 52 ≤ mantissa bits ∨ exponent bits = -1074 := by
  unfold mantissa exponent
  dsimp only
  split <;> omega

theorem significand_eq (bits : BitVec 64) :
    (exponent bits + 1074).toNat * 2 ^ 52 + mantissa bits = bits.toNat % 2 ^ 63 := by
  unfold mantissa exponent
  dsimp only
  have split : bits.toNat % 2 ^ 63 = biasedExponent bits * 2 ^ 52 + bits.toNat % 2 ^ 52 := by
    unfold biasedExponent
    omega
  rw [split]
  split <;> omega

theorem lower_eq (bits : BitVec 64) :
    lower bits / 2 ^ exponent bits =
      mantissa bits - if mantissa bits = 2 ^ 52 ∧ 1 < biasedExponent bits then 1 / 4 else 1 / 2 := by
  have unit : (2 : Rat) ^ exponent bits ≠ 0 := zpow_ne_zero _ two_ne_zero
  unfold lower
  split
  · rw [zpow_sub₀ two_ne_zero]
    field_simp
    ring
  · rw [zpow_sub₀ two_ne_zero]
    field_simp

theorem upper_eq (bits : BitVec 64) :
    upper bits / 2 ^ exponent bits = mantissa bits + 1 / 2 := by
  have unit : (2 : Rat) ^ exponent bits ≠ 0 := zpow_ne_zero _ two_ne_zero
  unfold upper
  rw [zpow_sub₀ two_ne_zero]
  field_simp

/-- The interval of `readsAs`, in units of the last place. -/
theorem readsAs_bounds {number : Rat} (reads : readsAs bits number = true) :
    (mantissa bits - if mantissa bits = 2 ^ 52 ∧ 1 < biasedExponent bits then 1 / 4 else 1 / 2) ≤
        number / 2 ^ exponent bits ∧
      number / 2 ^ exponent bits ≤ mantissa bits + 1 / 2 ∧
      (number / 2 ^ exponent bits = mantissa bits - 1 / 2 ∨
        number / 2 ^ exponent bits = mantissa bits + 1 / 2 → mantissa bits % 2 = 0) := by
  have unit : (0 : Rat) < 2 ^ exponent bits := zpow_pos two_pos _
  rw [← lower_eq, ← upper_eq]
  unfold readsAs at reads
  split at reads
  · next even =>
    simp only [Bool.and_eq_true, decide_eq_true_eq] at reads
    exact ⟨by gcongr; exact reads.1, by gcongr; exact reads.2, fun _ => even⟩
  · simp only [Bool.and_eq_true, decide_eq_true_eq] at reads
    have above : lower bits / 2 ^ exponent bits < number / 2 ^ exponent bits := by
      gcongr
      exact reads.1
    have below : number / 2 ^ exponent bits < upper bits / 2 ^ exponent bits := by
      gcongr
      exact reads.2
    refine ⟨above.le, below.le, ?_⟩
    rintro (middle | middle)
    · rw [middle, lower_eq] at above
      split at above <;> linarith
    · exact absurd middle below.ne

/-- What is read as a finite float is nearest to it. -/
theorem nearest_of_readsAs {number : Rat} (finite : isFinite bits = true)
    (nonzero : mantissa bits ≠ 0) (reads : readsAs bits number = true) :
    nearest number = bits.toNat % 2 ^ 63 := by
  obtain ⟨low, high, tie⟩ := readsAs_bounds reads
  have small := mantissa_lt bits
  have least := exponent_ge bits
  have whole := significand_eq bits
  have bounded : bits.toNat % 2 ^ 63 < 2047 * 2 ^ 52 := by
    have biased := biasedExponent_lt finite
    unfold biasedExponent at biased
    omega
  have unit : (0 : Rat) < 2 ^ exponent bits := zpow_pos two_pos _
  have half : (mantissa bits : Rat) - 1 / 2 ≤ number / 2 ^ exponent bits := by
    refine le_trans ?_ low
    split <;> linarith
  have positive : 0 < number := by
    have one : (1 : Rat) ≤ mantissa bits := by exact_mod_cast Nat.one_le_iff_ne_zero.mpr nonzero
    have scaled : 0 < number / 2 ^ exponent bits := by linarith
    exact (div_pos_iff_of_pos_right unit).mp scaled
  have same_unit (same : max (Int.log 2 number) (-1022) - 52 = exponent bits) :
      nearest number = bits.toNat % 2 ^ 63 := by
    have rounded : roundEven (number / 2 ^ exponent bits) = mantissa bits := by
      refine roundEven_eq ?_ ?_ ?_
      · exact_mod_cast half
      · exact_mod_cast high
      · intro middle
        have even := tie (by exact_mod_cast middle)
        omega
    unfold nearest
    dsimp only
    rw [same, rounded, Int.toNat_natCast, whole]
    exact Nat.min_eq_left bounded.le
  by_cases binade : (2 : Rat) ^ (exponent bits + 52) ≤ number
  · refine same_unit ?_
    have log_ge : exponent bits + 52 ≤ Int.log 2 number :=
      (Int.zpow_le_iff_le_log one_lt_two positive).mp (by exact_mod_cast binade)
    have log_lt : Int.log 2 number < exponent bits + 53 := by
      rw [← Int.lt_zpow_iff_log_lt one_lt_two positive]
      have top : number < 2 ^ (exponent bits + 53) := by
        have within : number / 2 ^ exponent bits < 2 ^ (53 : ℕ) := by
          have next : (mantissa bits : Rat) + 1 ≤ 2 ^ (53 : ℕ) := by exact_mod_cast small
          linarith
        rw [div_lt_iff₀ unit] at within
        rw [zpow_add₀ two_ne_zero, mul_comm]
        exact_mod_cast within
      exact_mod_cast top
    omega
  · rw [not_le] at binade
    by_cases smallest : exponent bits = -1074
    · refine same_unit ?_
      have log_lt : Int.log 2 number < exponent bits + 52 := by
        rw [← Int.lt_zpow_iff_log_lt one_lt_two positive]
        exact_mod_cast binade
      omega
    · -- Below the smallest mantissa the unit of the last place is half as large.
      have within : number / 2 ^ exponent bits < 2 ^ (52 : ℕ) := by
        rw [div_lt_iff₀ unit, mul_comm]
        rw [zpow_add₀ two_ne_zero] at binade
        exact_mod_cast binade
      have normal := (mantissa_normal bits).resolve_right smallest
      have boundary : mantissa bits = 2 ^ 52 := by
        by_contra larger
        have next : (2 : Rat) ^ (52 : ℕ) + 1 ≤ mantissa bits := by
          exact_mod_cast Nat.lt_of_le_of_ne normal (Ne.symm larger)
        linarith
      have biased : 1 < biasedExponent bits := by
        unfold exponent at smallest
        omega
      rw [if_pos ⟨boundary, biased⟩, boundary] at low
      push_cast at low
      have log_ge : exponent bits + 51 ≤ Int.log 2 number := by
        refine (Int.zpow_le_iff_le_log one_lt_two positive).mp ?_
        have scaled : (2 : Rat) ^ (51 : ℕ) ≤ number / 2 ^ exponent bits := by linarith
        rw [le_div_iff₀ unit, mul_comm] at scaled
        push_cast
        rw [zpow_add₀ two_ne_zero]
        exact_mod_cast scaled
      have log_lt : Int.log 2 number < exponent bits + 52 := by
        rw [← Int.lt_zpow_iff_log_lt one_lt_two positive]
        exact_mod_cast binade
      have below : max (Int.log 2 number) (-1022) - 52 = exponent bits - 1 := by omega
      have doubled : number / 2 ^ (exponent bits - 1) = 2 * (number / 2 ^ exponent bits) := by
        rw [zpow_sub₀ two_ne_zero]
        field_simp
      have rounded : roundEven (number / 2 ^ (exponent bits - 1)) = 2 ^ 53 := by
        rw [doubled]
        refine roundEven_eq ?_ ?_ fun _ => by norm_num
        · push_cast
          linarith
        · push_cast
          linarith
      unfold nearest
      dsimp only
      rw [below, rounded, ← whole, boundary]
      rw [boundary] at whole
      omega

theorem readsAs_of_between {number : Rat} (above : lower bits < number)
    (below : number < upper bits) : readsAs bits number = true := by
  unfold readsAs
  split
  · simp [above.le, below.le]
  · simp [above, below]

/-- One of the two multiples of a small unit around a float is read as the float. -/
theorem neighbour_reads (nonzero : mantissa bits ≠ 0) {unit : Rat} (positive : 0 < unit)
    (fine : unit * 10 ^ (16 : ℕ) ≤ magnitude bits) :
    readsAs bits (⌊magnitude bits / unit⌋.toNat * unit) = true ∨
      readsAs bits ((⌊magnitude bits / unit⌋.toNat + 1) * unit) = true := by
  have place : (0 : Rat) < 2 ^ exponent bits := zpow_pos two_pos _
  have lower_place := (div_eq_iff place.ne').mp (lower_eq bits)
  have upper_place := (div_eq_iff place.ne').mp (upper_eq bits)
  have size : magnitude bits = mantissa bits * 2 ^ exponent bits := rfl
  have least : (0 : Rat) ≤ magnitude bits / unit := by
    rw [size]
    positivity
  have below_le : (⌊magnitude bits / unit⌋.toNat : Rat) * unit ≤ magnitude bits := by
    rw [← le_div_iff₀ positive]
    have floor := Int.floor_le (magnitude bits / unit)
    have cast : ((⌊magnitude bits / unit⌋.toNat : ℤ) : Rat) = ⌊magnitude bits / unit⌋ := by
      rw [Int.toNat_of_nonneg (Int.floor_nonneg.mpr least)]
    rw [← cast] at floor
    exact_mod_cast floor
  have lt_above : magnitude bits < ((⌊magnitude bits / unit⌋.toNat : Rat) + 1) * unit := by
    rw [← div_lt_iff₀ positive]
    have floor := Int.lt_floor_add_one (magnitude bits / unit)
    have cast : ((⌊magnitude bits / unit⌋.toNat : ℤ) : Rat) = ⌊magnitude bits / unit⌋ := by
      rw [Int.toNat_of_nonneg (Int.floor_nonneg.mpr least)]
    rw [← cast] at floor
    exact_mod_cast floor
  generalize (⌊magnitude bits / unit⌋.toNat : Rat) = below at *
  have some_place : (1 : Rat) ≤ mantissa bits := by
    exact_mod_cast Nat.one_le_iff_ne_zero.mpr nonzero
  by_cases boundary : mantissa bits = 2 ^ 52 ∧ 1 < biasedExponent bits
  · right
    rw [if_pos boundary] at lower_place
    have wide : (mantissa bits : Rat) = 2 ^ (52 : ℕ) := by exact_mod_cast boundary.1
    rw [wide] at size upper_place lower_place
    refine readsAs_of_between ?_ ?_
    · rw [lower_place]
      linarith
    · rw [upper_place]
      norm_num at fine size ⊢
      linarith
  · rw [if_neg boundary] at lower_place
    have narrow : (mantissa bits : Rat) + 1 ≤ 2 ^ (53 : ℕ) := by exact_mod_cast mantissa_lt bits
    have small : unit < 2 ^ exponent bits := by
      have bound : (mantissa bits : Rat) * 2 ^ exponent bits ≤ 2 ^ (53 : ℕ) * 2 ^ exponent bits := by
        gcongr
        linarith
      norm_num at fine bound
      linarith
    by_cases near : magnitude bits - below * unit ≤ unit / 2
    · left
      refine readsAs_of_between ?_ ?_
      · rw [lower_place]
        linarith
      · rw [upper_place]
        linarith
    · right
      rw [not_le] at near
      refine readsAs_of_between ?_ ?_
      · rw [lower_place]
        linarith
      · rw [upper_place]
        linarith

theorem readsAs_pos {number : Rat} (nonzero : mantissa bits ≠ 0)
    (reads : readsAs bits number = true) : 0 < number := by
  have place : (0 : Rat) < 2 ^ exponent bits := zpow_pos two_pos _
  have one : (1 : Rat) ≤ mantissa bits := by exact_mod_cast Nat.one_le_iff_ne_zero.mpr nonzero
  have low := (readsAs_bounds reads).1
  have scaled : 0 < number / 2 ^ exponent bits := by
    split at low <;> linarith
  exact (div_pos_iff_of_pos_right place).mp scaled

theorem withDigits_reads {count number : Nat} {scale : Int}
    (found : withDigits bits count = some (number, scale)) :
    readsAs bits (number * 10 ^ scale) = true := by
  unfold withDigits at found
  dsimp only at found
  split at found
  · next low =>
    cases found
    simp only [Bool.and_eq_true] at low
    exact low.1
  split at found
  · next high =>
    cases found
    exact_mod_cast high
  · contradiction

theorem withDigits_seventeen (nonzero : mantissa bits ≠ 0) : (withDigits bits 17).isSome := by
  have place : (0 : Rat) < 2 ^ exponent bits := zpow_pos two_pos _
  have positive : 0 < magnitude bits := by
    have one : (0 : Rat) < mantissa bits := by exact_mod_cast Nat.pos_of_ne_zero nonzero
    exact mul_pos one place
  have fine : (10 : Rat) ^ (Int.log 10 (magnitude bits) + 1 - (17 : ℕ)) * 10 ^ (16 : ℕ) ≤
      magnitude bits := by
    have power : (10 : Rat) ^ (Int.log 10 (magnitude bits) + 1 - (17 : ℕ)) * 10 ^ (16 : ℕ) =
        10 ^ Int.log 10 (magnitude bits) := by
      rw [← zpow_natCast (10 : Rat) 16, ← zpow_add₀ (by norm_num)]
      congr 1
      push_cast
      ring
    rw [power]
    exact_mod_cast Int.zpow_log_le_self (by norm_num : 1 < 10) positive
  have reads := neighbour_reads nonzero (zpow_pos (by norm_num) _) fine
  unfold withDigits
  dsimp only
  split
  · rfl
  next unread =>
  split
  · rfl
  next unread_high =>
    rcases reads with low | high
    · rw [Bool.not_eq_true] at unread_high
      rw [low, unread_high] at unread
      simp at unread
    · exact absurd (by exact_mod_cast high) unread_high

/-- The digits of `float.__repr__` are read as the float. -/
theorem shortest_reads (nonzero : mantissa bits ≠ 0) :
    readsAs bits ((shortest bits).1 * 10 ^ (shortest bits).2) = true := by
  unfold shortest
  cases found : (List.range' 1 17).findSome? (withDigits bits) with
  | none =>
      have missing := List.findSome?_eq_none_iff.mp found 17 (by simp)
      have enough := withDigits_seventeen nonzero
      rw [missing] at enough
      contradiction
  | some shortest =>
      obtain ⟨count, _, reads⟩ := List.exists_of_findSome?_eq_some found
      exact withDigits_reads reads

end StreamDockSdk.PyFloat
