import ConvoScore.Queue.Messages
import ConvoScore.Worker.Retry

namespace ConvoScore

namespace Worker

inductive ProcessOutcome
  | completed
  | retryScheduled
  | failed
  | duplicateSkipped
  | heldByAnotherWorker
  | unknownJob
  | malformedMessage
  | lostClaim
  deriving DecidableEq, Repr

/-- A delivery is a message whose body names a job. -/
structure Delivery where
  message : QueueMessage
  job : Uuid
  addressed : message.jobId = some job
  deriving DecidableEq

/-- An attempt also remembers the expiry that its claim wrote. -/
structure Attempt extends Delivery where
  expiry : Timestamp
  deriving DecidableEq

/-- A phase is the place in `process` between two steps that others can observe.
A phase that opens a transaction keeps the time at which it was entered. -/
inductive Phase
  | idle
  | received (message : QueueMessage) (since : Timestamp)
  | unclaimed (delivery : Delivery)
  | claimed (attempt : Attempt)
  | scoring (attempt : Attempt) (row : Conversation)
  | persisting (attempt : Attempt) (outcome : ScoringOutcome) (since : Timestamp)
  | releasing (attempt : Attempt) (decision : RetryDecision) (error : LLMError)
      (since : Timestamp)
  | failing (attempt : Attempt) (decision : RetryDecision) (error : LLMError) (since : Timestamp)
  | extending (message : QueueMessage) (backoffSeconds : Nat)
  | acknowledging (message : QueueMessage) (exit : ProcessOutcome)
  | stopped

/-- The provider returns a score or raises one of its own errors.
The jitter is the random number that `decide_retry` draws. -/
inductive ScoreReply
  | outcome (outcome : ScoringOutcome)
  | error (error : LLMError) (jitter : Rat)

inductive Action
  | receive (message : QueueMessage)
  | discard
  | claim (start : Timestamp)
  | classify
  | readJob
  | score (reply : ScoreReply)
  | complete (start : Timestamp)
  | release (start : Timestamp)
  | fail (start : Timestamp)
  | changeVisibility
  | delete (removed : Bool) (raised : Bool)
  | abandon
  | crash

/-- The failure handler either schedules a retry or ends the job. -/
def handleFailure (settings : Settings) (attempt : Attempt) (attemptCount : Nat) (error : LLMError)
    (jitter : Rat) (since : Timestamp) : Phase :=
  let decision := decideRetry error attemptCount settings.maxAttempts
    settings.retryBaseBackoffSeconds settings.retryMaxBackoffSeconds jitter
  if decision.retry then .releasing attempt decision error since
  else .failing attempt decision error since

/-- One step of `process`.
`abandon` is any exception that leaves `process`, and `crash` ends the worker in any phase. -/
def step (settings : Settings) (shared : Shared) : Phase → Action → Option (Shared × Phase)
  | .idle, .receive message =>
      if message ∈ shared.queue.messages then some (shared, .received message shared.now) else none
  | .received message _, .discard =>
      if message.jobId.isNone then some (shared, .acknowledging message .malformedMessage) else none
  | .received message since, .claim start =>
      match addressed : message.jobId with
      | none => none
      | some job =>
          if shared.txStart since start then
            let (jobs, changed) :=
              claimUpdate start shared.jobs job settings.visibilityTimeoutSeconds
            let delivery : Delivery := ⟨message, job, addressed⟩
            let expiry := claimExpiry start settings.visibilityTimeoutSeconds
            some ({shared with jobs},
              if changed then .claimed ⟨delivery, expiry⟩ else .unclaimed delivery)
          else none
  | .unclaimed delivery, .classify =>
      match unclaimedOutcome shared.jobs delivery.job with
      | .notFound => some (shared, .acknowledging delivery.message .unknownJob)
      | .alreadyFinished => some (shared, .acknowledging delivery.message .duplicateSkipped)
      | .heldByAnotherWorker => some (shared, .idle)
      | .claimed => none
  | .claimed attempt, .readJob =>
      match getJob shared.jobs attempt.job with
      | none => some (shared, .acknowledging attempt.message .unknownJob)
      | some row => some (shared, .scoring attempt row)
  | .scoring attempt _, .score (.outcome outcome) =>
      some (shared, .persisting attempt outcome shared.now)
  | .scoring attempt row, .score (.error error jitter) =>
      some (shared, handleFailure settings attempt row.attemptCount error jitter shared.now)
  | .persisting attempt outcome since, .complete start =>
      if shared.txStart since start then
        let (jobs, persisted) := completeJob start shared.jobs attempt.job outcome
        some ({shared with jobs},
          .acknowledging attempt.message (if persisted then .completed else .lostClaim))
      else none
  | .releasing attempt decision error since, .release start =>
      if shared.txStart since start then
        let (jobs, _) :=
          releaseJobForRetry start shared.jobs attempt.job decision.errorType error.message
        some ({shared with jobs}, .extending attempt.message decision.backoffSeconds)
      else none
  | .failing attempt decision error since, .fail start =>
      if shared.txStart since start then
        let (jobs, _) := failJob start shared.jobs attempt.job decision.errorType error.message
        some ({shared with jobs}, .acknowledging attempt.message .failed)
      else none
  | .extending _ _, .changeVisibility => some (shared, .idle)
  | .acknowledging message _, .delete removed _ =>
      some (if removed then {shared with queue := shared.queue.delete message} else shared, .idle)
  | .stopped, _ => none
  | _, .abandon => some (shared, .idle)
  | _, .crash => some (shared, .stopped)
  | _, _ => none

end Worker
end ConvoScore
