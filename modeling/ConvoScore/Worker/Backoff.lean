import ConvoScore.Worker.Retry
import Mathlib.Algebra.Order.Floor.Semifield
import Mathlib.Tactic.Linarith

namespace ConvoScore

/-- The delay before its jitter: it doubles with each attempt, up to the cap. -/
def cappedDelay (attempt base maximum : Nat) : Nat := min maximum (base * 2 ^ (attempt - 1))

section
variable {attempt base maximum : Nat} {jitter : Rat}

/-- The delay is the integer part of a share of the capped one, and never zero. -/
theorem backoffSeconds_floor :
    backoffSeconds attempt base maximum jitter =
      max 1 ⌊(cappedDelay attempt base maximum : Rat) * (1 / 2 + 1 / 2 * jitter)⌋₊ := by
  rw [← Int.floor_toNat]
  rfl

theorem cappedDelay_pos (baseFloor : 1 ≤ base) (maximumFloor : 1 ≤ maximum) :
    1 ≤ cappedDelay attempt base maximum :=
  le_min maximumFloor (Nat.mul_pos baseFloor (Nat.two_pow_pos _))

/-- No draw exceeds the capped delay. -/
theorem backoffSeconds_le_capped (baseFloor : 1 ≤ base) (maximumFloor : 1 ≤ maximum)
    (ceiling : jitter ≤ 1) :
    backoffSeconds attempt base maximum jitter ≤ cappedDelay attempt base maximum := by
  rw [backoffSeconds_floor]
  refine max_le (cappedDelay_pos baseFloor maximumFloor) ?_
  have share : 1 / 2 + 1 / 2 * jitter ≤ 1 := by linarith
  have scaled := mul_le_of_le_one_right (Nat.cast_nonneg (cappedDelay attempt base maximum)) share
  exact (Nat.floor_le_floor scaled).trans (Nat.floor_natCast _).le

/-- Every draw keeps at least half of the capped delay. -/
theorem half_le_backoffSeconds (floor : 0 ≤ jitter) :
    cappedDelay attempt base maximum / 2 ≤ backoffSeconds attempt base maximum jitter := by
  rw [backoffSeconds_floor, ← Nat.floor_div_eq_div (K := Rat)]
  refine le_trans (Nat.floor_le_floor ?_) (le_max_right _ _)
  have share : 1 / 2 ≤ 1 / 2 + 1 / 2 * jitter := by linarith
  have scaled := mul_le_mul_of_nonneg_left share
    (Nat.cast_nonneg (α := Rat) (cappedDelay attempt base maximum))
  rw [Nat.cast_ofNat]
  linarith

/-- Before the cap the next attempt has exactly twice the delay to draw from. -/
theorem cappedDelay_double (started : 1 ≤ attempt) (below : base * 2 ^ attempt ≤ maximum) :
    cappedDelay (attempt + 1) base maximum = 2 * cappedDelay attempt base maximum := by
  have doubled : base * 2 ^ attempt = 2 * (base * 2 ^ (attempt - 1)) := by
    obtain ⟨earlier, rfl⟩ := Nat.exists_eq_add_of_le' started
    rw [Nat.add_sub_cancel, pow_succ]
    ring
  have half : base * 2 ^ (attempt - 1) ≤ maximum := by omega
  rw [cappedDelay, cappedDelay, Nat.add_sub_cancel, min_eq_right below, min_eq_right half, doubled]

/-- Half of a doubled delay is the whole of the earlier one, so no draw falls below an earlier one. -/
theorem backoffSeconds_mono {later : Rat} (started : 1 ≤ attempt) (baseFloor : 1 ≤ base)
    (below : base * 2 ^ attempt ≤ maximum) (ceiling : jitter ≤ 1) (floor : 0 ≤ later) :
    backoffSeconds attempt base maximum jitter ≤
      backoffSeconds (attempt + 1) base maximum later := by
  have maximumFloor : 1 ≤ maximum :=
    (Nat.mul_pos baseFloor (Nat.two_pow_pos attempt)).trans_le below
  calc backoffSeconds attempt base maximum jitter
      ≤ cappedDelay attempt base maximum :=
        backoffSeconds_le_capped baseFloor maximumFloor ceiling
    _ = cappedDelay (attempt + 1) base maximum / 2 := by
        rw [cappedDelay_double started below]
        omega
    _ ≤ backoffSeconds (attempt + 1) base maximum later := half_le_backoffSeconds floor

end

/-- Every delay is bounded on both sides, and delays never shrink before the cap. -/
theorem backoffSeconds_bounded (base maximum attempt : Nat) (jitter later : Rat)
    (baseFloor : 1 ≤ base) (maximumFloor : 1 ≤ maximum) (started : 1 ≤ attempt)
    (drawn : 0 ≤ jitter ∧ jitter ≤ 1) (redrawn : 0 ≤ later ∧ later ≤ 1) :
    (1 ≤ backoffSeconds attempt base maximum jitter ∧
      backoffSeconds attempt base maximum jitter ≤ maximum) ∧
    min maximum (base * 2 ^ (attempt - 1)) / 2 ≤ backoffSeconds attempt base maximum jitter ∧
    (base * 2 ^ attempt ≤ maximum →
      backoffSeconds attempt base maximum jitter ≤
        backoffSeconds (attempt + 1) base maximum later) := by
  have atMost : backoffSeconds attempt base maximum jitter ≤ cappedDelay attempt base maximum :=
    backoffSeconds_le_capped baseFloor maximumFloor drawn.2
  refine ⟨⟨le_max_left _ _, atMost.trans (min_le_left _ _)⟩, half_le_backoffSeconds drawn.1, ?_⟩
  intro below
  exact backoffSeconds_mono started baseFloor below drawn.2 redrawn.1

/-- The longest draw of three seconds is still not above the shortest draw of six. -/
theorem backoffSeconds_bounded_three :
    backoffSeconds 1 3 6 1 = 3 ∧ backoffSeconds 2 3 6 0 = 3 ∧
      backoffSeconds 1 3 6 1 ≤ backoffSeconds 2 3 6 0 :=
  ⟨by decide +kernel, by decide +kernel,
    (backoffSeconds_bounded 3 6 1 1 0 (by decide) (by decide) (by decide)
      ⟨by decide, by decide⟩ ⟨by decide, by decide⟩).2.2 (by decide)⟩

end ConvoScore
