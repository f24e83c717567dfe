import ConvoScore.Worker.Moves

namespace ConvoScore.Worker

/-- The message that a phase still has in hand. -/
def Phase.message : Phase → Option QueueMessage
  | .received message _ | .extending message _ | .acknowledging message _ => some message
  | .unclaimed delivery => some delivery.message
  | .claimed attempt | .scoring attempt _ | .persisting attempt _ _ | .releasing attempt _ _ _
  | .failing attempt _ _ _ => some attempt.message
  | .idle | .stopped => none

/-- The attempt between a successful claim and its finishing update. -/
def Phase.attempt : Phase → Option Attempt
  | .claimed attempt | .scoring attempt _ | .persisting attempt _ _ | .releasing attempt _ _ _
  | .failing attempt _ _ _ => some attempt
  | .idle | .received _ _ | .unclaimed _ | .extending _ _ | .acknowledging _ _ | .stopped => none

/-- The message that a phase acknowledges and the outcome that `process` returns for it. -/
def Phase.acknowledged : Phase → Option (QueueMessage × ProcessOutcome)
  | .acknowledging message exit => some (message, exit)
  | _ => none

theorem Phase.acknowledged_iff {phase : Phase} {message : QueueMessage} {exit : ProcessOutcome} :
    phase.acknowledged = some (message, exit) ↔ phase = .acknowledging message exit := by
  cases phase <;> simp [Phase.acknowledged]

/-- A finishing call updates the row of an attempt and returns whether it changed one. -/
def finishing (jobs : Jobs) : Phase → Action → Option (Attempt × Jobs × Bool)
  | .persisting attempt outcome _, .complete start =>
      some (attempt, completeJob start jobs attempt.job outcome)
  | .releasing attempt decision error _, .release start =>
      some (attempt, releaseJobForRetry start jobs attempt.job decision.errorType error.message)
  | .failing attempt decision error _, .fail start =>
      some (attempt, failJob start jobs attempt.job decision.errorType error.message)
  | _, _ => none

variable {settings : Settings} {shared next : Shared} {phase after : Phase} {action : Action}

/-- A finishing call ends the window of its own attempt. -/
theorem finishing_attempt {jobs : Jobs} {attempt : Attempt} {call : Jobs × Bool}
    (finished : finishing jobs phase action = some (attempt, call)) :
    phase.attempt = some attempt := by
  unfold finishing at finished
  split at finished <;> cases finished <;> rfl

/-- The step of a finishing call commits the table that the call returns. -/
theorem finishing_committed {attempt : Attempt} {result : Jobs × Bool}
    (stepped : step settings shared phase action = some (next, after))
    (finished : finishing shared.jobs phase action = some (attempt, result)) :
    next.jobs = result.1 := by
  unfold finishing at finished
  split at finished
  case h_4 => cases finished
  -- Each of the three updates runs in a transaction that starts after its phase was entered.
  all_goals
    simp only [step] at stepped
    split at stepped
    · cases stepped
      cases finished
      rfl
    · cases stepped

/-- An exception or a crash finishes nothing. -/
theorem finishing_none {jobs : Jobs} (ended : action = .abandon ∨ action = .crash) :
    finishing jobs phase action = none := by
  rcases ended with rfl | rfl <;> cases phase <;> rfl

namespace Move

/-- A worker never moves the clock. -/
theorem now_eq (move : Move settings shared phase action next after) : next.now = shared.now := by
  cases move <;> rfl

/-- A message in hand was in hand before or comes from the queue. -/
theorem message_source {message : QueueMessage}
    (move : Move settings shared phase action next after) (held : after.message = some message) :
    phase.message = some message ∨ message ∈ shared.queue.messages := by
  cases move with
  | receive member =>
      have same := Option.some.inj held
      exact .inr (same ▸ member)
  | held | extended | deleted | undeleted | abandoned | crashed => cases held
  | _ => exact .inl held

/-- A worker changes the queue only when it deletes the message that it acknowledges. -/
theorem queue_cases (move : Move settings shared phase action next after) :
    next.queue = shared.queue ∨
      ∃ message exit raised, phase = .acknowledging message exit ∧ action = .delete true raised ∧
        next.queue = shared.queue.delete message := by
  cases move with
  | deleted => exact .inr ⟨_, _, _, rfl, rfl, rfl⟩
  | _ => exact .inl rfl

/-- An attempt in its window was there before or has just claimed its row. -/
theorem attempt_source {attempt : Attempt}
    (move : Move settings shared phase action next after) (held : after.attempt = some attempt) :
    phase.attempt = some attempt ∨
      ∃ start, action = .claim start ∧ after = .claimed attempt ∧
        (next.jobs attempt.job).isSome := by
  cases move with
  | claimed delivery =>
      cases held
      exact .inr ⟨_, rfl, rfl, by simp⟩
  | read | scored | retry | giveUp => exact .inl held
  | _ => cases held

/-- The row that a worker scores was read when it called its provider. -/
theorem scoring_source {attempt : Attempt} {read : Conversation}
    (move : Move settings shared phase action next after)
    (held : after = .scoring attempt read) :
    shared.jobs attempt.job = some read := by
  subst held
  cases move with
  | read present => exact present

/-- A worker releases its job after an error that `decide_retry` retries. -/
theorem releasing_source {attempt : Attempt} {decision : RetryDecision} {error : LLMError}
    {since : Timestamp} (move : Move settings shared phase action next after)
    (held : after = .releasing attempt decision error since) :
    ∃ read reply, phase = .scoring attempt read ∧ action = .score reply ∧
      read.attemptCount < settings.maxAttempts := by
  subst held
  cases move with
  | retry decided again =>
      subst decided
      exact ⟨_, _, rfl, rfl, decideRetry_below again⟩

/-- A worker fails its job after an error that `decide_retry` does not retry. -/
theorem failing_source {attempt : Attempt} {decision : RetryDecision} {error : LLMError}
    {since : Timestamp} (move : Move settings shared phase action next after)
    (held : after = .failing attempt decision error since) :
    ∃ read jitter, phase = .scoring attempt read ∧ action = .score (.error error jitter) ∧
      decision = decideRetry error read.attemptCount settings.maxAttempts
        settings.retryBaseBackoffSeconds settings.retryMaxBackoffSeconds jitter ∧
      decision.retry = false := by
  subst held
  cases move with
  | giveUp decided last => exact ⟨_, _, rfl, rfl, decided, last⟩

/-- An invalid response is retried exactly on the first attempt of a job that may have two. -/
theorem invalid_retried {attempt : Attempt} {read : Conversation} {message : Text} {jitter : Rat}
    (move : Move settings shared (.scoring attempt read)
      (.score (.error (.invalidResponse message) jitter)) next after) :
    (∃ decision error since, after = .releasing attempt decision error since) ↔
      read.attemptCount < min 2 settings.maxAttempts := by
  cases move with
  | retry decided again =>
      subst decided
      have below : read.attemptCount < min 2 settings.maxAttempts := of_decide_eq_true again
      exact ⟨fun _ => below, fun _ => ⟨_, _, _, rfl⟩⟩
  | giveUp decided last =>
      subst decided
      have notBelow : ¬ read.attemptCount < min 2 settings.maxAttempts := of_decide_eq_false last
      refine ⟨?_, fun below => absurd below notBelow⟩
      rintro ⟨_, _, _, released⟩
      cases released

end Move
end ConvoScore.Worker
