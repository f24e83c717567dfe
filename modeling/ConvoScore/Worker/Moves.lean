import ConvoScore.Worker.Process

namespace ConvoScore.Worker
open Library

/-- A move is what one step of `process` does, with the fact that made it possible. -/
inductive Move (settings : Settings) (shared : Shared) :
    Phase → Action → Shared → Phase → Prop
  | receive {message : QueueMessage} (member : message ∈ shared.queue.messages) :
      Move settings shared .idle (.receive message) shared (.received message shared.now)
  | discard {message : QueueMessage} {since : Timestamp} (bodyless : message.jobId = none) :
      Move settings shared (.received message since) .discard shared
        (.acknowledging message .malformedMessage)
  | claimed (delivery : Delivery) {since start : Timestamp} {row : Conversation}
      (timed : since ≤ start) (past : start ≤ shared.now)
      (present : shared.jobs delivery.job = some row) (free : row.claimable start = true) :
      Move settings shared (.received delivery.message since) (.claim start)
        (shared.write delivery.job
          (row.withClaim start (claimExpiry start settings.visibilityTimeoutSeconds)))
        (.claimed ⟨delivery, claimExpiry start settings.visibilityTimeoutSeconds⟩)
  | unclaimed (delivery : Delivery) {since start : Timestamp}
      (timed : since ≤ start) (past : start ≤ shared.now)
      (taken : ∀ row, shared.jobs delivery.job = some row → row.claimable start = false) :
      Move settings shared (.received delivery.message since) (.claim start) shared
        (.unclaimed delivery)
  | unknown {delivery : Delivery} (absent : shared.jobs delivery.job = none) :
      Move settings shared (.unclaimed delivery) .classify shared
        (.acknowledging delivery.message .unknownJob)
  | duplicate {delivery : Delivery} {row : Conversation}
      (present : shared.jobs delivery.job = some row) (ended : row.status.terminal = true) :
      Move settings shared (.unclaimed delivery) .classify shared
        (.acknowledging delivery.message .duplicateSkipped)
  | held {delivery : Delivery} {row : Conversation}
      (present : shared.jobs delivery.job = some row) (unfinished : row.status.terminal = false) :
      Move settings shared (.unclaimed delivery) .classify shared .idle
  | vanished {attempt : Attempt} (absent : shared.jobs attempt.job = none) :
      Move settings shared (.claimed attempt) .readJob shared
        (.acknowledging attempt.message .unknownJob)
  | read {attempt : Attempt} {row : Conversation} (present : shared.jobs attempt.job = some row) :
      Move settings shared (.claimed attempt) .readJob shared (.scoring attempt row)
  | scored {attempt : Attempt} {row : Conversation} {outcome : ScoringOutcome} :
      Move settings shared (.scoring attempt row) (.score (.outcome outcome)) shared
        (.persisting attempt outcome shared.now)
  | retry {attempt : Attempt} {row : Conversation} {error : LLMError} {jitter : Rat}
      {decision : RetryDecision}
      (decided : decision = decideRetry error row.attemptCount settings.maxAttempts
        settings.retryBaseBackoffSeconds settings.retryMaxBackoffSeconds jitter)
      (again : decision.retry = true) :
      Move settings shared (.scoring attempt row) (.score (.error error jitter)) shared
        (.releasing attempt decision error shared.now)
  | giveUp {attempt : Attempt} {row : Conversation} {error : LLMError} {jitter : Rat}
      {decision : RetryDecision}
      (decided : decision = decideRetry error row.attemptCount settings.maxAttempts
        settings.retryBaseBackoffSeconds settings.retryMaxBackoffSeconds jitter)
      (last : decision.retry = false) :
      Move settings shared (.scoring attempt row) (.score (.error error jitter)) shared
        (.failing attempt decision error shared.now)
  | completed {attempt : Attempt} {outcome : ScoringOutcome} {since start : Timestamp}
      {row : Conversation} (timed : since ≤ start) (past : start ≤ shared.now)
      (present : shared.jobs attempt.job = some row) (accepted : row.isProcessing = true) :
      Move settings shared (.persisting attempt outcome since) (.complete start)
        (shared.write attempt.job (row.withResult start outcome))
        (.acknowledging attempt.message .completed)
  | lost {attempt : Attempt} {outcome : ScoringOutcome} {since start : Timestamp}
      (timed : since ≤ start) (past : start ≤ shared.now)
      (rejected : ∀ row, shared.jobs attempt.job = some row → row.isProcessing = false) :
      Move settings shared (.persisting attempt outcome since) (.complete start) shared
        (.acknowledging attempt.message .lostClaim)
  | released {attempt : Attempt} {decision : RetryDecision} {error : LLMError}
      {since start : Timestamp} {row : Conversation} (timed : since ≤ start)
      (past : start ≤ shared.now) (present : shared.jobs attempt.job = some row)
      (accepted : row.isProcessing = true) :
      Move settings shared (.releasing attempt decision error since) (.release start)
        (shared.write attempt.job (row.withRelease start decision.errorType error.message))
        (.extending attempt.message decision.backoffSeconds)
  | releaseMissed {attempt : Attempt} {decision : RetryDecision} {error : LLMError}
      {since start : Timestamp} (timed : since ≤ start) (past : start ≤ shared.now)
      (rejected : ∀ row, shared.jobs attempt.job = some row → row.isProcessing = false) :
      Move settings shared (.releasing attempt decision error since) (.release start) shared
        (.extending attempt.message decision.backoffSeconds)
  | failed {attempt : Attempt} {decision : RetryDecision} {error : LLMError}
      {since start : Timestamp} {row : Conversation} (timed : since ≤ start)
      (past : start ≤ shared.now) (present : shared.jobs attempt.job = some row)
      (accepted : row.isUnfinished = true) :
      Move settings shared (.failing attempt decision error since) (.fail start)
        (shared.write attempt.job (row.withFailure start decision.errorType error.message))
        (.acknowledging attempt.message .failed)
  | failMissed {attempt : Attempt} {decision : RetryDecision} {error : LLMError}
      {since start : Timestamp} (timed : since ≤ start) (past : start ≤ shared.now)
      (rejected : ∀ row, shared.jobs attempt.job = some row → row.isUnfinished = false) :
      Move settings shared (.failing attempt decision error since) (.fail start) shared
        (.acknowledging attempt.message .failed)
  | extended {message : QueueMessage} {seconds : Nat} :
      Move settings shared (.extending message seconds) .changeVisibility shared .idle
  | deleted {message : QueueMessage} {exit : ProcessOutcome} {raised : Bool} :
      Move settings shared (.acknowledging message exit) (.delete true raised)
        {shared with queue := shared.queue.delete message} .idle
  | undeleted {message : QueueMessage} {exit : ProcessOutcome} {raised : Bool} :
      Move settings shared (.acknowledging message exit) (.delete false raised) shared .idle
  | abandoned {phase : Phase} (running : phase ≠ .stopped) :
      Move settings shared phase .abandon shared .idle
  | crashed {phase : Phase} (running : phase ≠ .stopped) :
      Move settings shared phase .crash shared .stopped

variable {settings : Settings} {shared next : Shared} {phase after : Phase} {action : Action}

/-- The claim takes a free row and no other. -/
theorem claim_move {message : QueueMessage} {since start : Timestamp}
    (stepped : step settings shared (.received message since) (.claim start) = some (next, after)) :
    Move settings shared (.received message since) (.claim start) next after := by
  simp only [step] at stepped
  split at stepped
  · cases stepped
  · rename_i job addressed
    split at stepped
    · rename_i timed
      obtain ⟨timed, past⟩ := Shared.txStart_iff.mp timed
      let delivery : Delivery := ⟨message, job, addressed⟩
      rcases Table.updateWhere_cases shared.jobs job (Conversation.claimable start)
          (Conversation.withClaim start (claimExpiry start settings.visibilityTimeoutSeconds))
        with ⟨row, present, free, updated⟩ | ⟨taken, updated⟩
      · simp only [claimUpdate, updated] at stepped
        cases stepped
        exact .claimed delivery timed past present free
      · simp only [claimUpdate, updated] at stepped
        cases stepped
        exact .unclaimed delivery timed past taken
    · cases stepped

/-- After a claim that took no row, the row found tells why. -/
theorem classify_move {delivery : Delivery}
    (stepped : step settings shared (.unclaimed delivery) .classify = some (next, after)) :
    Move settings shared (.unclaimed delivery) .classify next after := by
  simp only [step, unclaimedOutcome] at stepped
  cases present : shared.jobs delivery.job with
  | none =>
      simp only [present] at stepped
      cases stepped
      exact .unknown present
  | some row =>
      cases ended : row.status.terminal <;> simp [present, ended] at stepped
      · obtain ⟨rfl, rfl⟩ := stepped
        exact .held present ended
      · obtain ⟨rfl, rfl⟩ := stepped
        exact .duplicate present ended

theorem readJob_move {attempt : Attempt}
    (stepped : step settings shared (.claimed attempt) .readJob = some (next, after)) :
    Move settings shared (.claimed attempt) .readJob next after := by
  simp only [step, getJob] at stepped
  cases present : shared.jobs attempt.job with
  | none =>
      rw [present] at stepped
      cases stepped
      exact .vanished present
  | some row =>
      rw [present] at stepped
      cases stepped
      exact .read present

/-- A score goes on to the completion, and an error to what `decide_retry` says of it. -/
theorem score_move {attempt : Attempt} {row : Conversation} {reply : ScoreReply}
    (stepped : step settings shared (.scoring attempt row) (.score reply) = some (next, after)) :
    Move settings shared (.scoring attempt row) (.score reply) next after := by
  cases reply with
  | outcome outcome =>
      cases stepped
      exact .scored
  | error error jitter =>
      simp only [step, handleFailure] at stepped
      split at stepped
      · rename_i again
        cases stepped
        exact .retry rfl again
      · rename_i last
        cases stepped
        exact .giveUp rfl (Bool.eq_false_iff.mpr last)

theorem complete_move {attempt : Attempt} {outcome : ScoringOutcome} {since start : Timestamp}
    (stepped : step settings shared (.persisting attempt outcome since) (.complete start) =
      some (next, after)) :
    Move settings shared (.persisting attempt outcome since) (.complete start) next after := by
  simp only [step] at stepped
  split at stepped
  · rename_i timed
    obtain ⟨timed, past⟩ := Shared.txStart_iff.mp timed
    rcases Table.updateWhere_cases shared.jobs attempt.job Conversation.isProcessing
        (Conversation.withResult start outcome)
      with ⟨row, present, accepted, updated⟩ | ⟨rejected, updated⟩
    · simp only [completeJob, updated] at stepped
      cases stepped
      exact .completed timed past present accepted
    · simp only [completeJob, updated] at stepped
      cases stepped
      exact .lost timed past rejected
  · cases stepped

theorem release_move {attempt : Attempt} {decision : RetryDecision} {error : LLMError}
    {since start : Timestamp}
    (stepped : step settings shared (.releasing attempt decision error since) (.release start) =
      some (next, after)) :
    Move settings shared (.releasing attempt decision error since) (.release start) next after := by
  simp only [step] at stepped
  split at stepped
  · rename_i timed
    obtain ⟨timed, past⟩ := Shared.txStart_iff.mp timed
    rcases Table.updateWhere_cases shared.jobs attempt.job Conversation.isProcessing
        (Conversation.withRelease start decision.errorType error.message)
      with ⟨row, present, accepted, updated⟩ | ⟨rejected, updated⟩
    · simp only [releaseJobForRetry, updated] at stepped
      cases stepped
      exact .released timed past present accepted
    · simp only [releaseJobForRetry, updated] at stepped
      cases stepped
      exact .releaseMissed timed past rejected
  · cases stepped

/-- The failing update asks only that the row is not finished. -/
theorem fail_move {attempt : Attempt} {decision : RetryDecision} {error : LLMError}
    {since start : Timestamp}
    (stepped : step settings shared (.failing attempt decision error since) (.fail start) =
      some (next, after)) :
    Move settings shared (.failing attempt decision error since) (.fail start) next after := by
  simp only [step] at stepped
  split at stepped
  · rename_i timed
    obtain ⟨timed, past⟩ := Shared.txStart_iff.mp timed
    rcases Table.updateWhere_cases shared.jobs attempt.job Conversation.isUnfinished
        (Conversation.withFailure start decision.errorType error.message)
      with ⟨row, present, accepted, updated⟩ | ⟨rejected, updated⟩
    · simp only [failJob, updated] at stepped
      cases stepped
      exact .failed timed past present accepted
    · simp only [failJob, updated] at stepped
      cases stepped
      exact .failMissed timed past rejected
  · cases stepped

/-- Every step of `process` is one of the moves. -/
theorem step_move (stepped : step settings shared phase action = some (next, after)) :
    Move settings shared phase action next after := by
  have whole := stepped
  unfold step at stepped
  -- one case for each line of the step, in its order
  split at stepped
  · split at stepped
    · cases stepped
      exact .receive ‹_›
    · cases stepped
  · split at stepped
    · cases stepped
      exact .discard (Option.isNone_iff_eq_none.mp ‹_›)
    · cases stepped
  · exact claim_move whole
  · exact classify_move whole
  · exact readJob_move whole
  · exact score_move whole
  · exact score_move whole
  · exact complete_move whole
  · exact release_move whole
  · exact fail_move whole
  · cases stepped
    exact .extended
  · rename_i message exit removed raised
    cases removed with
    | true =>
        cases stepped
        exact .deleted
    | false =>
        cases stepped
        exact .undeleted
  · cases stepped
  · rename_i running
    cases stepped
    exact .abandoned running
  · rename_i running
    cases stepped
    exact .crashed running
  · cases stepped

end ConvoScore.Worker
