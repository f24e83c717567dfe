import ConvoScore.Repository.Jobs

namespace ConvoScore
open Library

/-- The keyword arguments of `complete_job`. -/
structure ResultColumns where
  sentiment : Sentiment
  riskScore : Int
  rationale : Text
  model : Text
  promptVersion : Text
  schemaVersion : Text
  promptTokens : Option Int
  completionTokens : Option Int
  totalTokens : Option Int
  llmLatencyMs : Option Int
  estimatedCostUsd : Option Rat
  pricingVersion : Option Text

/-- A worker passes on what its provider returned. -/
def ScoringOutcome.columns (outcome : ScoringOutcome) : ResultColumns where
  sentiment := outcome.result.sentiment
  riskScore := outcome.result.riskScore
  rationale := outcome.result.rationale
  model := outcome.model
  promptVersion := outcome.promptVersion
  schemaVersion := outcome.schemaVersion
  promptTokens := outcome.promptTokens
  completionTokens := outcome.completionTokens
  totalTokens := outcome.totalTokens
  llmLatencyMs := some outcome.latencyMs
  estimatedCostUsd := outcome.estimatedCostUsd
  pricingVersion := some outcome.pricingVersion

/-- These values are what `complete_job` writes for any caller. -/
def Conversation.withColumns (now : Timestamp) (columns : ResultColumns) (row : Conversation) :
    Conversation :=
  {row with
    status := .completed
    sentiment := some columns.sentiment
    riskScore := some columns.riskScore
    rationale := some columns.rationale
    model := some columns.model
    promptVersion := some columns.promptVersion
    schemaVersion := some columns.schemaVersion
    promptTokens := columns.promptTokens
    completionTokens := columns.completionTokens
    totalTokens := columns.totalTokens
    llmLatencyMs := columns.llmLatencyMs
    estimatedCostUsd := columns.estimatedCostUsd
    pricingVersion := columns.pricingVersion
    lastErrorType := none
    lastError := none
    lockedUntil := none
    completedAt := some now
    updatedAt := now}

/-- `complete_job` with the arguments of any caller. -/
def completeJobWith (now : Timestamp) (jobs : Jobs) (jobId : Uuid) (columns : ResultColumns) :
    Jobs × Bool :=
  jobs.updateWhere jobId Conversation.isProcessing (Conversation.withColumns now columns)

/-- The `complete_job` of a worker is the one of any caller. -/
theorem completeJob_columns (now : Timestamp) (jobs : Jobs) (jobId : Uuid)
    (outcome : ScoringOutcome) :
    completeJob now jobs jobId outcome = completeJobWith now jobs jobId outcome.columns := rfl

/-- A call of one of the functions that write a row of `conversations`. -/
inductive Call
  | createJob (conversation : ConversationInput) (source : JobSource) (maxAttempts : Nat)
      (sourceRef : Option Text)
  | markEnqueued
  | markEnqueueFailed (error : Text)
  | claimJob (visibilityTimeoutSeconds : Nat)
  | completeJob (columns : ResultColumns)
  | releaseJobForRetry (errorType : ErrorType) (error : Text)
  | failJob (errorType : ErrorType) (error : Text)

/-- A call runs in a transaction of its own; an insert of a used id is rolled back. -/
def Call.run (sha256 : Text → Text) (now : Timestamp) (jobs : Jobs) (jobId : Uuid) : Call → Jobs
  | .createJob conversation source maxAttempts sourceRef =>
      (jobs.insert jobId (ConvoScore.createJob sha256 jobId now conversation source maxAttempts
        sourceRef)).getD jobs
  | .markEnqueued => ConvoScore.markEnqueued now jobs jobId
  | .markEnqueueFailed error => ConvoScore.markEnqueueFailed now jobs jobId error
  | .claimJob visibilityTimeoutSeconds =>
      (ConvoScore.claimJob now jobs jobId visibilityTimeoutSeconds).1
  | .completeJob columns => (completeJobWith now jobs jobId columns).1
  | .releaseJobForRetry errorType error =>
      (ConvoScore.releaseJobForRetry now jobs jobId errorType error).1
  | .failJob errorType error => (ConvoScore.failJob now jobs jobId errorType error).1

/-- An effect is what a call can do to the row of its job. -/
inductive Call.Effect (sha256 : Text → Text) (job : Uuid) (now : Timestamp) :
    Call → Option Conversation → Option Conversation → Prop
  | kept {call : Call} {row : Option Conversation} : Effect sha256 job now call row row
  | created {conversation : ConversationInput} {source : JobSource} {maxAttempts : Nat}
      {sourceRef : Option Text} :
      Effect sha256 job now (.createJob conversation source maxAttempts sourceRef) none
        (some (ConvoScore.createJob sha256 job now conversation source maxAttempts sourceRef))
  | enqueued {row : Conversation} :
      Effect sha256 job now .markEnqueued (some row) (some (row.withEnqueued now))
  | enqueueFailed {row : Conversation} {error : Text} :
      Effect sha256 job now (.markEnqueueFailed error) (some row)
        (some (row.withEnqueueFailed now error))
  | claimed {row : Conversation} {visibilityTimeoutSeconds : Nat}
      (free : row.claimable now = true) :
      Effect sha256 job now (.claimJob visibilityTimeoutSeconds) (some row)
        (some (row.withClaim now (claimExpiry now visibilityTimeoutSeconds)))
  | completed {row : Conversation} {columns : ResultColumns}
      (accepted : row.status = .processing) :
      Effect sha256 job now (.completeJob columns) (some row) (some (row.withColumns now columns))
  | released {row : Conversation} {errorType : ErrorType} {error : Text}
      (accepted : row.status = .processing) :
      Effect sha256 job now (.releaseJobForRetry errorType error) (some row)
        (some (row.withRelease now errorType error))
  | failed {row : Conversation} {errorType : ErrorType} {error : Text}
      (accepted : row.status.terminal = false) :
      Effect sha256 job now (.failJob errorType error) (some row)
        (some (row.withFailure now errorType error))

variable {sha256 : Text → Text} {now : Timestamp} {jobs : Jobs} {job other : Uuid}

/-- `claim_job` writes what its `UPDATE` writes. -/
theorem claimJob_jobs (visibilityTimeoutSeconds : Nat) :
    (claimJob now jobs job visibilityTimeoutSeconds).1 =
      (claimUpdate now jobs job visibilityTimeoutSeconds).1 := by
  unfold claimJob
  split <;> simp_all

/-- A claim takes a free row and tells so, or it changes nothing. -/
theorem claimJob_cases (now : Timestamp) (jobs : Jobs) (job : Uuid) (visibilityTimeoutSeconds : Nat) :
    (∃ row, jobs job = some row ∧ row.claimable now = true ∧
      claimJob now jobs job visibilityTimeoutSeconds = (Function.update jobs job
        (some (row.withClaim now (claimExpiry now visibilityTimeoutSeconds))), .claimed)) ∨
    (claimJob now jobs job visibilityTimeoutSeconds).1 = jobs ∧
      (claimJob now jobs job visibilityTimeoutSeconds).2 ≠ .claimed := by
  rcases jobs.updateWhere_cases job (Conversation.claimable now)
      (Conversation.withClaim now (claimExpiry now visibilityTimeoutSeconds)) with
    ⟨row, present, free, updated⟩ | ⟨taken, updated⟩
  · exact .inl ⟨row, present, free, by simp only [claimJob, claimUpdate, updated]⟩
  · refine .inr ⟨by simp only [claimJob, claimUpdate, updated], ?_⟩
    simp only [claimJob, claimUpdate, updated]
    exact unclaimedOutcome_unclaimed

/-- An update has an effect of its own or keeps the row. -/
theorem updateWhere_effect {call : Call} {guard : Conversation → Bool}
    {set : Conversation → Conversation}
    (effect : ∀ row, guard row = true → Call.Effect sha256 job now call (some row) (some (set row))) :
    Call.Effect sha256 job now call (jobs job) ((jobs.updateWhere job guard set).1 job) := by
  rcases jobs.updateWhere_cases job guard set with ⟨row, present, accepted, updated⟩ | ⟨_, updated⟩
  · simp only [updated, Function.update_self, present]
    exact effect row accepted
  · rw [updated]
    exact .kept

/-- Every call has one of the listed effects on the row of its job. -/
theorem Call.run_effect (call : Call) :
    Call.Effect sha256 job now call (jobs job) (call.run sha256 now jobs job job) := by
  cases call with
  | createJob conversation source maxAttempts sourceRef =>
      simp only [run, Table.insert]
      split
      · rename_i absent
        rw [Option.isNone_iff_eq_none.mp absent, Option.getD_some, Function.update_self]
        exact .created
      · exact .kept
  | markEnqueued => exact updateWhere_effect fun _ _ => .enqueued
  | markEnqueueFailed => exact updateWhere_effect fun _ _ => .enqueueFailed
  | claimJob visibilityTimeoutSeconds =>
      simp only [run, claimJob_jobs]
      exact updateWhere_effect fun _ free => .claimed free
  | completeJob =>
      exact updateWhere_effect fun _ accepted => .completed (Conversation.isProcessing_iff.mp accepted)
  | releaseJobForRetry =>
      exact updateWhere_effect fun _ accepted => .released (Conversation.isProcessing_iff.mp accepted)
  | failJob =>
      exact updateWhere_effect fun _ accepted => .failed (Conversation.isUnfinished_iff.mp accepted)

/-- A call keeps the rows of the other jobs. -/
theorem Call.run_other (call : Call) (different : other ≠ job) :
    call.run sha256 now jobs job other = jobs other := by
  cases call with
  | createJob =>
      simp only [run, Table.insert]
      split
      · exact Function.update_of_ne different _ _
      · rfl
  | claimJob =>
      simp only [run, claimJob_jobs]
      exact Table.updateWhere_other different
  | _ => exact Table.updateWhere_other different

namespace Call.Effect
variable {call : Call} {row : Conversation} {before after : Option Conversation}

/-- No call takes a finished job back to an unfinished status. -/
theorem terminal (effect : Effect sha256 job now call (some row) after)
    (ended : row.status.terminal = true) :
    ∃ later, after = some later ∧ later.status.terminal = true := by
  cases effect with
  | kept => exact ⟨row, rfl, ended⟩
  | enqueued => exact ⟨_, rfl, ended⟩
  | enqueueFailed | completed | failed => exact ⟨_, rfl, rfl⟩
  | claimed free => simp [(Conversation.claimable_iff.mp free).1] at ended
  | released accepted => simp [accepted] at ended

end Call.Effect
end ConvoScore
