import Mathlib.Data.Int.Log
import Mathlib.Data.Rat.Floor
import Mathlib.Tactic.Positivity
import Mathlib.Tactic.FieldSimp
import Mathlib.Tactic.Ring

namespace ConvoScore.Library.Decimal

/-- The nearest integer, and the even one of two nearest ones. -/
def roundHalfEven (value : ℚ) : ℤ :=
  if value - ⌊value⌋ < 1 / 2 then ⌊value⌋
  else if 1 / 2 < value - ⌊value⌋ then ⌊value⌋ + 1
  else if ⌊value⌋ % 2 = 0 then ⌊value⌋ else ⌊value⌋ + 1

/-- The nearest integer, and the one away from zero of two nearest ones. -/
def roundHalfUp (value : ℚ) : ℤ :=
  if 0 ≤ value then ⌊value + 1 / 2⌋ else -⌊-value + 1 / 2⌋

/-- An operation keeps the leading digits of its exact result. -/
def roundTo (digits : ℕ) (value : ℚ) : ℚ :=
  let exponent : ℤ := Int.log 10 |value| + 1 - digits
  roundHalfEven (value / 10 ^ exponent) * 10 ^ exponent

/-- A quantised number has a fixed number of decimals; too many digits are an `InvalidOperation`. -/
def quantize (digits scale : ℕ) (value : ℚ) : Option ℚ :=
  let coefficient := roundHalfUp (value * 10 ^ scale)
  if |coefficient| < 10 ^ digits then some (coefficient / 10 ^ scale) else none

@[simp] theorem roundHalfEven_intCast (value : ℤ) : roundHalfEven value = value := by
  simp [roundHalfEven]

@[simp] theorem roundHalfUp_intCast (value : ℤ) : roundHalfUp value = value := by
  have half : ∀ number : ℤ, ⌊(number : ℚ) + 1 / 2⌋ = number := by
    intro number
    rw [Int.floor_intCast_add]
    norm_num
  unfold roundHalfUp
  split
  · exact half value
  · have negated := half (-value)
    rw [Int.cast_neg] at negated
    rw [negated, neg_neg]

variable {digits : ℕ} {value : ℚ}

/-- A result that fits the precision is not rounded. -/
theorem roundTo_exact (scale : ℕ) (coefficient : ℤ)
    (scaled : value * 10 ^ scale = coefficient)
    (fits : |coefficient| < 10 ^ digits) : roundTo digits value = value := by
  by_cases zero : value = 0
  · subst zero
    simp [roundTo, roundHalfEven]
  · have positive : 0 < |value| := abs_pos.mpr zero
    have bounded : |value| < 10 ^ ((digits : ℤ) - scale) := by
      have cast : |value| * 10 ^ scale < (10 : ℚ) ^ digits := by
        have pow : (0 : ℚ) ≤ 10 ^ scale := by positivity
        rw [← abs_of_nonneg pow, ← abs_mul, scaled]
        exact_mod_cast fits
      rw [zpow_sub₀ (by norm_num), zpow_natCast, zpow_natCast]
      exact (lt_div_iff₀ (by positivity)).mpr cast
    have small := (Int.lt_zpow_iff_log_lt (by norm_num) positive).mp
      (by exact_mod_cast bounded : |value| < ((10 : ℕ) : ℚ) ^ ((digits : ℤ) - scale))
    -- The last digit that is kept is not before the last decimal of the value.
    obtain ⟨shift, shifted⟩ : ∃ shift : ℕ,
        Int.log 10 |value| + 1 - digits = -(scale : ℤ) - shift :=
      ⟨(digits - scale - 1 - Int.log 10 |value|).toNat, by omega⟩
    have whole : value / 10 ^ (Int.log 10 |value| + 1 - (digits : ℤ)) =
        ((coefficient * 10 ^ shift : ℤ) : ℚ) := by
      rw [shifted, zpow_sub₀ (by norm_num), zpow_neg, zpow_natCast, zpow_natCast]
      push_cast
      rw [← scaled]
      field_simp
    have step : (10 : ℚ) ^ (Int.log 10 |value| + 1 - (digits : ℤ)) ≠ 0 :=
      zpow_ne_zero _ (by norm_num)
    simp only [roundTo]
    rw [whole, roundHalfEven_intCast, ← whole, div_mul_cancel₀ value step]

/-- A number with few enough decimals and digits is quantised to itself. -/
theorem quantize_exact (scale : ℕ) (coefficient : ℤ)
    (scaled : value * 10 ^ scale = coefficient)
    (fits : |coefficient| < 10 ^ digits) : quantize digits scale value = some value := by
  have step : (10 : ℚ) ^ scale ≠ 0 := by positivity
  rw [quantize, scaled, roundHalfUp_intCast, if_pos fits, ← scaled, mul_div_cancel_right₀ value step]

end ConvoScore.Library.Decimal
