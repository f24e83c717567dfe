import ConvoScore.Repository.Queries
import ConvoScore.Scoring.Pricing
import Mathlib.Tactic.Linarith

namespace ConvoScore
open Library

/-- An `Integer` column holds such a count. -/
def TokenCount (tokens : Int) : Prop := 0 ≤ tokens ∧ tokens < integerBound

/-- This is the cost of the tokens without any rounding. -/
def exactCost (price : ModelPrice) (prompt completion : Int) : Rat :=
  (prompt * price.inputPerMillion + completion * price.outputPerMillion) / 1000000

/-- A price is a number of cents, at most two dollars. -/
structure InCents (price : ModelPrice) (input output : Int) : Prop where
  inputCents : price.inputPerMillion * 100 = input
  outputCents : price.outputPerMillion * 100 = output
  inputFloor : 0 ≤ input
  inputCeiling : input ≤ 200
  outputFloor : 0 ≤ output
  outputCeiling : output ≤ 200

section Costs
variable {price : ModelPrice} {input output prompt completion : Int}

/-- The cost in units of its last decimal is a whole number. -/
theorem InCents.scaled (cents : InCents price input output) (prompt completion : Int) :
    exactCost price prompt completion * 10 ^ costDecimals =
      ((prompt * input + completion * output : Int) : Rat) := by
  unfold exactCost costDecimals
  push_cast
  rw [← cents.inputCents, ← cents.outputCents]
  ring

/-- The product of a count and a price in cents has at most twelve digits. -/
theorem centsProduct_bounds {cents tokens : Int} (floor : 0 ≤ cents) (ceiling : cents ≤ 200)
    (count : TokenCount tokens) : 0 ≤ tokens * cents ∧ tokens * cents ≤ 2 ^ 31 * 200 := by
  obtain ⟨positive, bounded⟩ := count
  have limit : tokens ≤ 2 ^ 31 := by simpa [integerBound] using bounded.le
  exact ⟨Int.mul_nonneg positive floor,
    Int.mul_le_mul limit ceiling floor (by norm_num)⟩

/-- No decimal operation of the estimate rounds. -/
theorem InCents.tokenCost (cents : InCents price input output) (promptCount : TokenCount prompt)
    (completionCount : TokenCount completion) :
    tokenCost price prompt completion = exactCost price prompt completion := by
  obtain ⟨promptFloor, promptCeiling⟩ :=
    centsProduct_bounds cents.inputFloor cents.inputCeiling promptCount
  obtain ⟨completionFloor, completionCeiling⟩ :=
    centsProduct_bounds cents.outputFloor cents.outputCeiling completionCount
  have promptExact : Decimal.roundTo decimalDigits (prompt * price.inputPerMillion) =
      prompt * price.inputPerMillion := by
    refine Decimal.roundTo_exact 2 (prompt * input) ?_ ?_
    · push_cast
      rw [← cents.inputCents]
      ring
    · rw [abs_of_nonneg promptFloor, decimalDigits]
      omega
  have completionExact : Decimal.roundTo decimalDigits (completion * price.outputPerMillion) =
      completion * price.outputPerMillion := by
    refine Decimal.roundTo_exact 2 (completion * output) ?_ ?_
    · push_cast
      rw [← cents.outputCents]
      ring
    · rw [abs_of_nonneg completionFloor, decimalDigits]
      omega
  have sumExact : Decimal.roundTo decimalDigits
      (prompt * price.inputPerMillion + completion * price.outputPerMillion) =
      prompt * price.inputPerMillion + completion * price.outputPerMillion := by
    refine Decimal.roundTo_exact 2 (prompt * input + completion * output) ?_ ?_
    · push_cast
      rw [← cents.inputCents, ← cents.outputCents]
      ring
    · rw [abs_of_nonneg (Int.add_nonneg promptFloor completionFloor), decimalDigits]
      omega
  rw [ConvoScore.tokenCost, promptExact, completionExact, sumExact]
  refine Decimal.roundTo_exact costDecimals _ (cents.scaled prompt completion) ?_
  rw [abs_of_nonneg (Int.add_nonneg promptFloor completionFloor), decimalDigits]
  omega

/-- Inside the range of the columns the estimate is the exact cost. -/
theorem InCents.estimate {model : Text} (cents : InCents price input output)
    (priced : priceFor model = some price) (promptCount : TokenCount prompt)
    (completionCount : TokenCount completion) :
    estimateCost model (some prompt) (some completion) =
      .ok (some (exactCost price prompt completion)) := by
  obtain ⟨promptFloor, promptCeiling⟩ :=
    centsProduct_bounds cents.inputFloor cents.inputCeiling promptCount
  obtain ⟨completionFloor, completionCeiling⟩ :=
    centsProduct_bounds cents.outputFloor cents.outputCeiling completionCount
  have quantized : Decimal.quantize decimalDigits costDecimals (exactCost price prompt completion) =
      some (exactCost price prompt completion) := by
    refine Decimal.quantize_exact costDecimals _ (cents.scaled prompt completion) ?_
    rw [abs_of_nonneg (Int.add_nonneg promptFloor completionFloor), decimalDigits]
    omega
  have exact := cents.tokenCost promptCount completionCount
  exact estimateCost_of_quantize priced (exact ▸ quantized)

/-- The column keeps an exact cost without rounding it. -/
theorem InCents.storable (cents : InCents price input output) (promptCount : TokenCount prompt)
    (completionCount : TokenCount completion) :
    storableNumeric 12 8 (exactCost price prompt completion) = true := by
  obtain ⟨promptFloor, promptCeiling⟩ :=
    centsProduct_bounds cents.inputFloor cents.inputCeiling promptCount
  obtain ⟨completionFloor, completionCeiling⟩ :=
    centsProduct_bounds cents.outputFloor cents.outputCeiling completionCount
  have scaled : |exactCost price prompt completion| * 10 ^ 8 =
      ((prompt * input + completion * output : Int) : Rat) := by
    have scale : (0 : Rat) ≤ 10 ^ 8 := by norm_num
    have positive : (0 : Rat) ≤ ((prompt * input + completion * output : Int) : Rat) := by
      exact_mod_cast Int.add_nonneg promptFloor completionFloor
    rw [← abs_of_nonneg scale, ← abs_mul, ← abs_of_nonneg positive]
    exact congrArg abs (cents.scaled prompt completion)
  have rounded : ⌊((prompt * input + completion * output : Int) : Rat) + 1 / 2⌋ =
      prompt * input + completion * output := by
    rw [Int.floor_intCast_add]
    norm_num
  rw [storableNumeric, scaled, rounded, decide_eq_true_eq]
  omega

end Costs

end ConvoScore
