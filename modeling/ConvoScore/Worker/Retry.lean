import ConvoScore.Scoring.Provider
import Mathlib.Data.Rat.Floor

namespace ConvoScore

/-- The settings of one process stay inside the ranges that their fields declare. -/
structure Settings where
  maxAttempts : Nat
  visibilityTimeoutSeconds : Nat
  retryBaseBackoffSeconds : Nat
  retryMaxBackoffSeconds : Nat
  maxAttemptsRange : 1 ≤ maxAttempts ∧ maxAttempts ≤ 10
  visibilityRange : 10 ≤ visibilityTimeoutSeconds ∧ visibilityTimeoutSeconds ≤ 900
  baseRange : 1 ≤ retryBaseBackoffSeconds ∧ retryBaseBackoffSeconds ≤ 60
  maxRange : 1 ≤ retryMaxBackoffSeconds ∧ retryMaxBackoffSeconds ≤ 900

/-- Every default passes its own check. -/
def Settings.default : Settings where
  maxAttempts := 3
  visibilityTimeoutSeconds := 90
  retryBaseBackoffSeconds := 5
  retryMaxBackoffSeconds := 60
  maxAttemptsRange := by decide
  visibilityRange := by decide
  baseRange := by decide
  maxRange := by decide

structure RetryDecision where
  retry : Bool
  errorType : ErrorType
  backoffSeconds : Nat
  deriving DecidableEq

/-- The delay doubles with each attempt up to a cap, and half of it is jitter. -/
def backoffSeconds (attempt base maximum : Nat) (jitter : Rat) : Nat :=
  let capped := min maximum (base * 2 ^ (attempt - 1))
  max 1 (⌊(capped : Rat) * (1 / 2 + 1 / 2 * jitter)⌋.toNat)

/-- Permanent errors end the job; an invalid response gets one more chance. -/
def decideRetry (error : LLMError) (attemptCount maxAttempts baseBackoff maxBackoff : Nat)
    (jitter : Rat) : RetryDecision :=
  let delay := backoffSeconds attemptCount baseBackoff maxBackoff jitter
  match error with
  | .permanent _ => ⟨false, error.errorType, delay⟩
  | .invalidResponse _ => ⟨decide (attemptCount < min 2 maxAttempts), error.errorType, delay⟩
  | .base _ | .transient _ _ =>
      if maxAttempts ≤ attemptCount then ⟨false, .maxAttemptsExhausted, delay⟩
      else ⟨true, error.errorType, delay⟩

/-- A job that is given up never blames its publisher. -/
theorem decideRetry_blame {error : LLMError} {attemptCount maxAttempts base maximum : Nat}
    {jitter : Rat}
    (last : (decideRetry error attemptCount maxAttempts base maximum jitter).retry = false) :
    (decideRetry error attemptCount maxAttempts base maximum jitter).errorType ≠ .enqueueFailed := by
  cases error with
  | permanent | invalidResponse => simp [decideRetry, LLMError.errorType]
  | base | transient =>
      simp only [decideRetry] at last ⊢
      split at last
      · rename_i exhausted
        simp [exhausted]
      · cases last

/-- A job is retried only below its cap. -/
theorem decideRetry_below {error : LLMError} {attemptCount maxAttempts base maximum : Nat}
    {jitter : Rat}
    (again : (decideRetry error attemptCount maxAttempts base maximum jitter).retry = true) :
    attemptCount < maxAttempts := by
  cases error with
  | permanent => cases again
  | invalidResponse =>
      have below : attemptCount < min 2 maxAttempts := of_decide_eq_true again
      omega
  | base | transient =>
      simp only [decideRetry] at again
      split at again
      · cases again
      · omega

/-- A permanent error is never retried. -/
theorem decideRetry_impermanent {error : LLMError} {attemptCount maxAttempts base maximum : Nat}
    {jitter : Rat}
    (again : (decideRetry error attemptCount maxAttempts base maximum jitter).retry = true) :
    error.isPermanent = false := by
  cases error with
  | permanent => cases again
  | base | transient | invalidResponse => rfl

/-- A transient error ends a job only at its cap, and the error type says so. -/
theorem decideRetry_exhausted {error : LLMError} {attemptCount maxAttempts base maximum : Nat}
    {jitter : Rat} (transient : error.isTransient = true)
    (last : (decideRetry error attemptCount maxAttempts base maximum jitter).retry = false) :
    (decideRetry error attemptCount maxAttempts base maximum jitter).errorType =
      .maxAttemptsExhausted ∧ maxAttempts ≤ attemptCount := by
  cases error with
  | permanent | invalidResponse => cases transient
  | base | transient =>
      simp only [decideRetry] at last ⊢
      split at last
      · rename_i exhausted
        rw [if_pos exhausted]
        exact ⟨rfl, exhausted⟩
      · cases last

/-- Every other error is recorded under its own type. -/
theorem decideRetry_named {error : LLMError} {attemptCount maxAttempts base maximum : Nat}
    {jitter : Rat} (other : error.isTransient = false) :
    (decideRetry error attemptCount maxAttempts base maximum jitter).errorType =
      error.errorType := by
  cases error with
  | base | transient => cases other
  | permanent | invalidResponse => rfl

/-- A job that is given up for an invalid response had used its second attempt or its last one. -/
theorem decideRetry_invalid {error : LLMError} {attemptCount maxAttempts base maximum : Nat}
    {jitter : Rat}
    (last : (decideRetry error attemptCount maxAttempts base maximum jitter).retry = false)
    (blamed : (decideRetry error attemptCount maxAttempts base maximum jitter).errorType =
      .invalidLlmResponse) :
    (∃ message, error = .invalidResponse message) ∧ min 2 maxAttempts ≤ attemptCount := by
  cases error with
  | permanent => cases blamed
  | invalidResponse message =>
      have notBelow : ¬ attemptCount < min 2 maxAttempts := of_decide_eq_false last
      exact ⟨⟨message, rfl⟩, by omega⟩
  | base | transient =>
      simp only [decideRetry] at last blamed
      split at last
      · rename_i exhausted
        rw [if_pos exhausted] at blamed
        cases blamed
      · cases last

end ConvoScore
