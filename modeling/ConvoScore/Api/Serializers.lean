import ConvoScore.Repository.Jobs

namespace ConvoScore

inductive RiskBand
  | low
  | moderate
  | high
  | urgent
  deriving DecidableEq, Repr

/-- This list holds the inclusive upper bound of each band. -/
def bandUpperBounds : List (Int × RiskBand) :=
  [(25, .low), (50, .moderate), (75, .high), (100, .urgent)]

def RiskBand.label : RiskBand → Text
  | .low => "Low concern".toList
  | .moderate => "Moderate concern".toList
  | .high => "High concern".toList
  | .urgent => "Urgent / escalation".toList

/-- A score outside its range raises an error; no score has no band. -/
def riskBand : Option Int → Except Text (Option RiskBand)
  | none => .ok none
  | some score =>
      if 0 ≤ score ∧ score ≤ 100 then
        match bandUpperBounds.find? fun bound => decide (score ≤ bound.1) with
        | some bound => .ok (some bound.2)
        | none => .error "unreachable: bands cover 0-100".toList
      else
        .error ("risk_score must be between 0 and 100, got ".toList ++ (toString score).toList)

/-- The bands cover every valid score. -/
theorem riskBand_of_valid {score : Int} (floor : 0 ≤ score) (ceiling : score ≤ 100) :
    ∃ band, riskBand (some score) = .ok (some band) := by
  have found : ∃ bound, bandUpperBounds.find? (fun bound => decide (score ≤ bound.1)) =
      some bound := by
    apply Option.isSome_iff_exists.mp
    rw [List.find?_isSome]
    exact ⟨(100, .urgent), by simp [bandUpperBounds], by simpa using ceiling⟩
  obtain ⟨bound, found⟩ := found
  exact ⟨bound.2, by simp only [riskBand, floor, ceiling, and_self, if_true, found]⟩

structure ScoreResult where
  sentiment : Sentiment
  riskScore : Int
  riskBand : RiskBand
  riskBandLabel : Text
  rationale : Text
  deriving DecidableEq

structure JobError where
  type : ErrorType
  message : Option Text
  deriving DecidableEq

structure JobStatusResponse where
  jobId : Uuid
  status : JobStatus
  source : JobSource
  attemptCount : Nat
  maxAttempts : Nat
  createdAt : Timestamp
  completedAt : Option Timestamp
  result : Option ScoreResult
  error : Option JobError
  deriving DecidableEq

structure LlmExecution where
  model : Option Text
  promptVersion : Option Text
  schemaVersion : Option Text
  promptTokens : Option Int
  completionTokens : Option Int
  totalTokens : Option Int
  llmLatencyMs : Option Int
  estimatedCostUsd : Option Rat
  pricingVersion : Option Text
  deriving DecidableEq

structure ConversationDetail where
  id : Uuid
  source : JobSource
  sourceRef : Option Text
  status : JobStatus
  conversation : NormalizedConversation
  messageCount : Nat
  result : Option ScoreResult
  llm : LlmExecution
  attemptCount : Nat
  maxAttempts : Nat
  error : Option JobError
  createdAt : Timestamp
  enqueuedAt : Option Timestamp
  startedAt : Option Timestamp
  completedAt : Option Timestamp
  deriving DecidableEq

/-- A result needs all of its three columns; its assertion is an error here. -/
def toResult (job : Conversation) : Except Text (Option ScoreResult) :=
  match job.sentiment, job.riskScore, job.rationale with
  | some sentiment, some riskScore, some rationale =>
      match riskBand (some riskScore) with
      | .error message => .error message
      | .ok none => .error "assertion failed".toList
      | .ok (some band) => .ok (some ⟨sentiment, riskScore, band, band.label, rationale⟩)
  | _, _, _ => .ok none

def toError (job : Conversation) : Option JobError :=
  job.lastErrorType.map fun type => ⟨type, job.lastError⟩

def toJobStatus (job : Conversation) : Except Text JobStatusResponse :=
  (toResult job).map fun result => {
    jobId := job.id
    status := job.status
    source := job.source
    attemptCount := job.attemptCount
    maxAttempts := job.maxAttempts
    createdAt := job.createdAt
    completedAt := job.completedAt
    result
    error := toError job }

def toDetail (job : Conversation) : Except Text ConversationDetail :=
  (toResult job).map fun result => {
    id := job.id
    source := job.source
    sourceRef := job.sourceRef
    status := job.status
    conversation := job.conversation
    messageCount := job.messageCount
    result
    llm := {
      model := job.model
      promptVersion := job.promptVersion
      schemaVersion := job.schemaVersion
      promptTokens := job.promptTokens
      completionTokens := job.completionTokens
      totalTokens := job.totalTokens
      llmLatencyMs := job.llmLatencyMs
      estimatedCostUsd := job.estimatedCostUsd
      pricingVersion := job.pricingVersion }
    attemptCount := job.attemptCount
    maxAttempts := job.maxAttempts
    error := toError job
    createdAt := job.createdAt
    enqueuedAt := job.enqueuedAt
    startedAt := job.startedAt
    completedAt := job.completedAt }

/-- A request that finds no row answers 404; a serializer error answers 500. -/
inductive HttpError
  | notFound (detail : Text)
  | serverError (detail : Text)
  deriving DecidableEq

def getJobStatus (jobs : Jobs) (jobId : Uuid) : Except HttpError JobStatusResponse :=
  match getJob jobs jobId with
  | none => .error (.notFound "job not found".toList)
  | some job => (toJobStatus job).mapError .serverError

/-- A status request answers 404 exactly when no committed row has the id. -/
theorem getJobStatus_notFound_iff (jobs : Jobs) (jobId : Uuid) :
    (∃ detail, getJobStatus jobs jobId = .error (.notFound detail)) ↔ jobs jobId = none := by
  unfold getJobStatus getJob
  cases present : jobs jobId with
  | none => simp
  | some job =>
      cases status : toJobStatus job <;> simp [status, Except.mapError]

end ConvoScore
