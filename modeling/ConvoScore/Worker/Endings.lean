import ConvoScore.Worker.Deliveries

namespace ConvoScore.Worker.Sequential
open Library

/-- The worker schedules a retry for this answer to an attempt. -/
def retried (limits : Limits) (attempt : Nat) : ScoreReply → Bool
  | .outcome _ => false
  | .error error jitter => (decideRetry error attempt limits.maxAttempts
      limits.retryBaseBackoffSeconds limits.retryMaxBackoffSeconds jitter).retry

variable {limits : Limits} {jobs : Jobs} {job : Uuid} {attempts last : Nat}
  {exchanges : Nat → Exchange}

/-- A delivery of a waiting job keeps the message exactly when a retry is scheduled. -/
theorem process_deleted (limits : Limits) (exchange : Exchange) (waiting : Waiting jobs job attempts) :
    (process limits jobs (some job) exchange).deleted =
      !retried limits (attempts + 1) exchange.reply := by
  obtain ⟨row, present, status, unlocked, rfl⟩ := waiting
  let claimed := row.withClaim exchange.claimedAt
    (claimExpiry exchange.claimedAt limits.visibilityTimeoutSeconds)
  have stored : Function.update jobs job (some claimed) job = some claimed :=
    Function.update_self ..
  rw [process_waiting present status unlocked]
  simp only [scoreAndPersist, getJob]
  rw [stored]
  cases reply : exchange.reply with
  | outcome outcome =>
      dsimp only
      split <;> rfl
  | error error jitter =>
      have counted : claimed.attemptCount = row.attemptCount + 1 := rfl
      simp only [handleFailure, counted, retried]
      split
      · rename_i again
        rw [again]
        rfl
      · rename_i once
        rw [Bool.eq_false_iff.mpr once]
        rfl

/-- As long as every answer is retried, the job waits with one attempt for each delivery. -/
theorem redeliver_waiting (fresh : Waiting jobs job 0) (within : last < limits.maxAttempts)
    (again : ∀ index < last, retried limits (index + 1) (exchanges index).reply = true)
    (count : Nat) (early : count ≤ last) :
    let progress := redeliver limits jobs job exchanges count
    progress.queued = true ∧ progress.deliveries = count ∧ progress.calls = count ∧
      Waiting progress.jobs job count := by
  induction count with
  | zero => exact ⟨rfl, rfl, rfl, fresh⟩
  | succ count ih =>
      obtain ⟨queued, deliveries, calls, waiting⟩ := ih (Nat.le_of_succ_le early)
      have bounded : count < limits.maxAttempts := by omega
      have kept := process_deleted limits (exchanges count) waiting
      rw [again count early] at kept
      obtain ⟨scored, released | ended⟩ := process_cases (exchanges count) waiting bounded
      · simp only [redeliver, Progress.next, queued, if_true, deliveries, calls, scored, kept,
          Bool.not_true, Bool.not_false, true_and]
        exact released.2.1
      · rw [ended.1] at kept
        cases kept

/-- The first answer that is not retried ends the job, and later deliveries find nothing to do. -/
theorem redeliver_at (fresh : Waiting jobs job 0) (within : last < limits.maxAttempts)
    (again : ∀ index < last, retried limits (index + 1) (exchanges index).reply = true)
    (stops : retried limits (last + 1) (exchanges last).reply = false) (more : Nat) :
    let progress := redeliver limits jobs job exchanges (last + 1 + more)
    progress.queued = false ∧ progress.calls = last + 1 ∧
      ∃ final, progress.jobs job = some final ∧ final.attemptCount = last + 1 ∧
        Verdict limits final (exchanges last).reply := by
  induction more with
  | zero =>
      obtain ⟨queued, deliveries, calls, waiting⟩ :=
        redeliver_waiting fresh within again last (Nat.le_refl last)
      have deleted := process_deleted limits (exchanges last) waiting
      rw [stops] at deleted
      obtain ⟨scored, released | ended⟩ := process_cases (exchanges last) waiting within
      · rw [released.1] at deleted
        cases deleted
      · simp only [redeliver, Progress.next, queued, if_true, deliveries, calls,
          scored, deleted, Bool.not_false, Bool.not_true, true_and]
        exact ended.2
  | succ more ih =>
      have same : redeliver limits jobs job exchanges (last + 1 + (more + 1)) =
          redeliver limits jobs job exchanges (last + 1 + more) := by
        rw [← Nat.add_assoc, redeliver, Progress.next, ih.1]
        rfl
      rw [same]
      exact ih

end ConvoScore.Worker.Sequential
