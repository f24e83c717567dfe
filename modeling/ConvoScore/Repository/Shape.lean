import ConvoScore.Repository.Calls

namespace ConvoScore
namespace Conversation

/-- The columns of a row are set exactly as its status says. -/
structure Shaped (row : Conversation) : Prop where
  locked : row.lockedUntil ≠ none ↔ row.status = .processing
  ended : row.completedAt ≠ none ↔ row.status.terminal = true
  sentiment : row.sentiment ≠ none ↔ row.status = .completed
  riskScore : row.riskScore ≠ none ↔ row.status = .completed
  rationale : row.rationale ≠ none ↔ row.status = .completed
  ranged : ∀ score, row.riskScore = some score → 0 ≤ score ∧ score ≤ 100
  errorless : row.status = .completed → row.lastErrorType = none
  blamed : row.status = .failed → row.lastErrorType ≠ none
  attempted : row.status = .processing ∨ row.status = .completed → 1 ≤ row.attemptCount
  started : row.status = .processing → row.startedAt ≠ none

/-- A row without a verdict has neither an end nor any column of a result. -/
structure Open (row : Conversation) : Prop where
  completedAt : row.completedAt = none
  sentiment : row.sentiment = none
  riskScore : row.riskScore = none
  rationale : row.rationale = none

variable {row : Conversation} {now expiry : Timestamp} {error : Text} {errorType : ErrorType}
  {columns : ResultColumns}

namespace Shaped

/-- Only finished rows have ended, and only completed ones have a result. -/
theorem open_of_unfinished (shaped : row.Shaped) (unfinished : row.status.terminal = false) :
    row.Open := by
  have incomplete : row.status ≠ .completed := by
    intro completed
    rw [completed] at unfinished
    cases unfinished
  refine ⟨?_, ?_, ?_, ?_⟩
  · by_contra ended
    rw [shaped.ended.mp ended] at unfinished
    cases unfinished
  · by_contra present
    exact incomplete (shaped.sentiment.mp present)
  · by_contra present
    exact incomplete (shaped.riskScore.mp present)
  · by_contra present
    exact incomplete (shaped.rationale.mp present)

theorem createJob {sha256 : Text → Text} {id : Uuid} {clock : Timestamp}
    {conversation : ConversationInput} {source : JobSource} {maxAttempts : Nat}
    {sourceRef : Option Text} :
    (ConvoScore.createJob sha256 id clock conversation source maxAttempts sourceRef).Shaped := by
  constructor <;> simp [ConvoScore.createJob]

theorem withEnqueued (shaped : row.Shaped) : (row.withEnqueued now).Shaped :=
  ⟨shaped.locked, shaped.ended, shaped.sentiment, shaped.riskScore, shaped.rationale, shaped.ranged,
    shaped.errorless, shaped.blamed, shaped.attempted, shaped.started⟩

/-- A row that was never claimed holds no lock and no result that the failure would leave behind. -/
theorem withEnqueueFailed (shaped : row.Shaped) (unclaimed : row.attemptCount = 0) :
    (row.withEnqueueFailed now error).Shaped := by
  have unattempted : ¬ (row.status = .processing ∨ row.status = .completed) := by
    intro attempted
    have positive := shaped.attempted attempted
    omega
  have unlocked : row.lockedUntil = none := by
    by_contra locked
    exact unattempted (.inl (shaped.locked.mp locked))
  have noSentiment : row.sentiment = none := by
    by_contra present
    exact unattempted (.inr (shaped.sentiment.mp present))
  have noScore : row.riskScore = none := by
    by_contra present
    exact unattempted (.inr (shaped.riskScore.mp present))
  have noRationale : row.rationale = none := by
    by_contra present
    exact unattempted (.inr (shaped.rationale.mp present))
  constructor <;>
    simp [Conversation.withEnqueueFailed, unlocked, noSentiment, noScore, noRationale]

theorem withClaim (shaped : row.Shaped) (free : row.claimable now = true) :
    (row.withClaim now expiry).Shaped := by
  obtain ⟨ended, sentiment, score, rationale⟩ :=
    shaped.open_of_unfinished (claimable_iff.mp free).1
  constructor <;> simp [Conversation.withClaim, ended, sentiment, score, rationale]

/-- A completion writes a result with a valid score and takes the last error away. -/
theorem withColumns (shaped : row.Shaped) (accepted : row.status = .processing)
    (valid : 0 ≤ columns.riskScore ∧ columns.riskScore ≤ 100) :
    (row.withColumns now columns).Shaped := by
  have attempted := shaped.attempted (.inl accepted)
  constructor <;> simp [Conversation.withColumns, attempted, valid]

theorem withRelease (shaped : row.Shaped) (accepted : row.status = .processing) :
    (row.withRelease now errorType error).Shaped := by
  obtain ⟨ended, sentiment, score, rationale⟩ :=
    shaped.open_of_unfinished (by rw [accepted]; rfl)
  constructor <;> simp [Conversation.withRelease, ended, sentiment, score, rationale]

theorem withFailure (shaped : row.Shaped) (accepted : row.status.terminal = false) :
    (row.withFailure now errorType error).Shaped := by
  obtain ⟨_, sentiment, score, rationale⟩ := shaped.open_of_unfinished accepted
  constructor <;> simp [Conversation.withFailure, sentiment, score, rationale]

end Shaped
end Conversation

variable {sha256 : Text → Text} {job : Uuid} {now : Timestamp} {call : Call}
  {before after : Option Conversation}

/-- A call keeps every row shaped if its scores are valid
and it marks an enqueue failure only on a row that was never claimed. -/
theorem Call.Effect.shaped (effect : Call.Effect sha256 job now call before after)
    (shaped : ∀ row, before = some row → row.Shaped)
    (valid : ∀ columns, call = .completeJob columns →
      0 ≤ columns.riskScore ∧ columns.riskScore ≤ 100)
    (unclaimed : ∀ error row, call = .markEnqueueFailed error → before = some row →
      row.attemptCount = 0) : ∀ row, after = some row → row.Shaped := by
  intro later written
  cases effect with
  | kept => exact shaped later written
  | created =>
      cases written
      exact .createJob
  | enqueued =>
      cases written
      exact (shaped _ rfl).withEnqueued
  | enqueueFailed =>
      cases written
      exact (shaped _ rfl).withEnqueueFailed (unclaimed _ _ rfl rfl)
  | claimed free =>
      cases written
      exact (shaped _ rfl).withClaim free
  | completed accepted =>
      cases written
      exact (shaped _ rfl).withColumns accepted (valid _ rfl)
  | released accepted =>
      cases written
      exact (shaped _ rfl).withRelease accepted
  | failed accepted =>
      cases written
      exact (shaped _ rfl).withFailure accepted

end ConvoScore
