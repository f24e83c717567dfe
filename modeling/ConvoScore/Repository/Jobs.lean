import ConvoScore.Library.Table
import ConvoScore.Scoring.Provider

namespace ConvoScore
open Library

/-- The rows of `conversations` that are committed. -/
abbrev Jobs := Table Uuid Conversation

/-- `_truncate` keeps error text bounded. -/
def truncate (text : Text) : Text :=
  if text.length ≤ lastErrorMaxChars then text
  else text.take (lastErrorMaxChars - 1) ++ "…".toList

theorem truncate_length_le (text : Text) : (truncate text).length ≤ lastErrorMaxChars := by
  unfold truncate
  split
  · assumption
  · simp only [lastErrorMaxChars, List.length_append, List.length_take]
    change min (1000 - 1) text.length + 1 ≤ 1000
    omega

/-- The inserted row waits for its first attempt; the clock gives both time stamps. -/
def createJob (sha256 : Text → Text) (id : Uuid) (clock : Timestamp)
    (conversation : ConversationInput) (source : JobSource) (maxAttempts : Nat)
    (sourceRef : Option Text) : Conversation where
  id
  source
  sourceRef
  conversation := conversation.normalized
  conversationHash := conversation.contentHash sha256
  messageCount := conversation.messages.length
  status := .pending
  attemptCount := 0
  maxAttempts
  lockedUntil := none
  lastErrorType := none
  lastError := none
  sentiment := none
  riskScore := none
  rationale := none
  model := none
  promptVersion := none
  schemaVersion := none
  promptTokens := none
  completionTokens := none
  totalTokens := none
  llmLatencyMs := none
  estimatedCostUsd := none
  pricingVersion := none
  createdAt := clock
  enqueuedAt := none
  startedAt := none
  completedAt := none
  updatedAt := clock

namespace Conversation

/-- These values are what `mark_enqueued` writes. -/
def withEnqueued (now : Timestamp) (row : Conversation) : Conversation :=
  {row with enqueuedAt := some now, updatedAt := now}

/-- These values are what `mark_enqueue_failed` writes. -/
def withEnqueueFailed (now : Timestamp) (error : Text) (row : Conversation) : Conversation :=
  {row with
    status := .failed
    lastErrorType := some .enqueueFailed
    lastError := some (truncate error)
    completedAt := some now
    updatedAt := now}

/-- A claim needs an unfinished row without a live lock. -/
def claimable (now : Timestamp) (row : Conversation) : Bool :=
  row.status.unfinished && row.lockedUntil.all fun stored => decide (stored < now)

/-- These values are what `claim_job` writes. -/
def withClaim (now expiry : Timestamp) (row : Conversation) : Conversation :=
  {row with
    status := .processing
    attemptCount := row.attemptCount + 1
    startedAt := some (row.startedAt.getD now)
    lockedUntil := some expiry
    updatedAt := now}

/-- Completing and releasing test only this. -/
def isProcessing (row : Conversation) : Bool := row.status = .processing

/-- Failing accepts a pending row as well. -/
def isUnfinished (row : Conversation) : Bool := row.status.unfinished

/-- These values are what `complete_job` writes. -/
def withResult (now : Timestamp) (outcome : ScoringOutcome) (row : Conversation) : Conversation :=
  {row with
    status := .completed
    sentiment := some outcome.result.sentiment
    riskScore := some outcome.result.riskScore
    rationale := some outcome.result.rationale
    model := some outcome.model
    promptVersion := some outcome.promptVersion
    schemaVersion := some outcome.schemaVersion
    promptTokens := outcome.promptTokens
    completionTokens := outcome.completionTokens
    totalTokens := outcome.totalTokens
    llmLatencyMs := some outcome.latencyMs
    estimatedCostUsd := outcome.estimatedCostUsd
    pricingVersion := some outcome.pricingVersion
    lastErrorType := none
    lastError := none
    lockedUntil := none
    completedAt := some now
    updatedAt := now}

/-- These values are what `release_job_for_retry` writes. -/
def withRelease (now : Timestamp) (errorType : ErrorType) (error : Text) (row : Conversation) :
    Conversation :=
  {row with
    status := .pending
    lastErrorType := some errorType
    lastError := some (truncate error)
    lockedUntil := none
    updatedAt := now}

/-- These values are what `fail_job` writes. -/
def withFailure (now : Timestamp) (errorType : ErrorType) (error : Text) (row : Conversation) :
    Conversation :=
  {row with
    status := .failed
    lastErrorType := some errorType
    lastError := some (truncate error)
    lockedUntil := none
    completedAt := some now
    updatedAt := now}

section Fields
variable {now expiry : Timestamp} {error : Text} {errorType : ErrorType} {outcome : ScoringOutcome}
  {row : Conversation}

@[simp] theorem withEnqueued_status : (row.withEnqueued now).status = row.status := rfl

@[simp] theorem withEnqueued_lockedUntil : (row.withEnqueued now).lockedUntil = row.lockedUntil := rfl

@[simp] theorem withEnqueueFailed_status : (row.withEnqueueFailed now error).status = .failed := rfl

@[simp] theorem withEnqueueFailed_lockedUntil :
    (row.withEnqueueFailed now error).lockedUntil = row.lockedUntil := rfl

@[simp] theorem withClaim_status : (row.withClaim now expiry).status = .processing := rfl

@[simp] theorem withClaim_lockedUntil : (row.withClaim now expiry).lockedUntil = some expiry := rfl

@[simp] theorem withResult_status : (row.withResult now outcome).status = .completed := rfl

@[simp] theorem withResult_lockedUntil : (row.withResult now outcome).lockedUntil = none := rfl

@[simp] theorem withRelease_status : (row.withRelease now errorType error).status = .pending := rfl

@[simp] theorem withRelease_lockedUntil :
    (row.withRelease now errorType error).lockedUntil = none := rfl

@[simp] theorem withFailure_status : (row.withFailure now errorType error).status = .failed := rfl

@[simp] theorem withFailure_lockedUntil :
    (row.withFailure now errorType error).lockedUntil = none := rfl

@[simp] theorem isProcessing_iff : row.isProcessing = true ↔ row.status = .processing := by
  simp [isProcessing]

@[simp] theorem isUnfinished_iff : row.isUnfinished = true ↔ row.status.terminal = false := by
  simp [isUnfinished]

/-- A claimable row is unfinished and its lock, if it has one, has expired. -/
theorem claimable_iff : row.claimable now = true ↔
    row.status.terminal = false ∧ ∀ stored, row.lockedUntil = some stored → stored < now := by
  cases lock : row.lockedUntil <;> simp [claimable, lock]

end Fields

end Conversation

/-- The mark is written whatever the row's status is. -/
def markEnqueued (now : Timestamp) (jobs : Jobs) (jobId : Uuid) : Jobs :=
  (jobs.updateWhere jobId (fun _ => true) (Conversation.withEnqueued now)).1

/-- The failure is written whatever the row's status is. -/
def markEnqueueFailed (now : Timestamp) (jobs : Jobs) (jobId : Uuid) (error : Text) : Jobs :=
  (jobs.updateWhere jobId (fun _ => true) (Conversation.withEnqueueFailed now error)).1

inductive ClaimOutcome
  | claimed
  | alreadyFinished
  | heldByAnotherWorker
  | notFound
  deriving DecidableEq, Repr

/-- The claim expires a visibility timeout after its transaction started. -/
def claimExpiry (now : Timestamp) (visibilityTimeoutSeconds : Nat) : Timestamp :=
  now + visibilityTimeoutSeconds * microsecondsPerSecond

/-- This is the `UPDATE` of `claim_job`. -/
def claimUpdate (now : Timestamp) (jobs : Jobs) (jobId : Uuid) (visibilityTimeoutSeconds : Nat) :
    Jobs × Bool :=
  jobs.updateWhere jobId (Conversation.claimable now)
    (Conversation.withClaim now (claimExpiry now visibilityTimeoutSeconds))

/-- A claim that updated nothing reads the row once more to find out why. -/
def unclaimedOutcome (jobs : Jobs) (jobId : Uuid) : ClaimOutcome :=
  match jobs jobId with
  | none => .notFound
  | some row => if row.status.terminal then .alreadyFinished else .heldByAnotherWorker

theorem unclaimedOutcome_unclaimed {jobs : Jobs} {jobId : Uuid} :
    unclaimedOutcome jobs jobId ≠ .claimed := by
  unfold unclaimedOutcome
  split
  · simp
  · split <;> simp

/-- The whole of `claim_job` on one snapshot. -/
def claimJob (now : Timestamp) (jobs : Jobs) (jobId : Uuid) (visibilityTimeoutSeconds : Nat) :
    Jobs × ClaimOutcome :=
  match claimUpdate now jobs jobId visibilityTimeoutSeconds with
  | (claimed, true) => (claimed, .claimed)
  | (unchanged, false) => (unchanged, unclaimedOutcome unchanged jobId)

def completeJob (now : Timestamp) (jobs : Jobs) (jobId : Uuid) (outcome : ScoringOutcome) :
    Jobs × Bool :=
  jobs.updateWhere jobId Conversation.isProcessing (Conversation.withResult now outcome)

def releaseJobForRetry (now : Timestamp) (jobs : Jobs) (jobId : Uuid) (errorType : ErrorType)
    (error : Text) : Jobs × Bool :=
  jobs.updateWhere jobId Conversation.isProcessing (Conversation.withRelease now errorType error)

def failJob (now : Timestamp) (jobs : Jobs) (jobId : Uuid) (errorType : ErrorType)
    (error : Text) : Jobs × Bool :=
  jobs.updateWhere jobId Conversation.isUnfinished (Conversation.withFailure now errorType error)

def getJob (jobs : Jobs) (jobId : Uuid) : Option Conversation := jobs jobId

end ConvoScore
