import ConvoScore.Repository.Columns
import ConvoScore.Worker.Deliveries
import ConvoScore.Worker.Usage

namespace ConvoScore.Worker

/-- The counters take the answer of the provider, and it fits the columns that record it. -/
def ScoreReply.recordable : ScoreReply → Bool
  | .outcome scored => countable scored && scored.storable
  | .error raised _ => raised.storable

namespace Checked
open Library Worker.Sequential

/-- `complete_job` raises a `DataError` for a row that the table rejects. -/
def completeJob (now : Timestamp) (jobs : Jobs) (jobId : Uuid) (outcome : ScoringOutcome) :
    Option (Jobs × Bool) :=
  jobs.updateChecked jobId Conversation.isProcessing (Conversation.withResult now outcome)
    Conversation.accepted

def releaseJobForRetry (now : Timestamp) (jobs : Jobs) (jobId : Uuid) (errorType : ErrorType)
    (error : Text) : Option (Jobs × Bool) :=
  jobs.updateChecked jobId Conversation.isProcessing (Conversation.withRelease now errorType error)
    Conversation.accepted

def failJob (now : Timestamp) (jobs : Jobs) (jobId : Uuid) (errorType : ErrorType)
    (error : Text) : Option (Jobs × Bool) :=
  jobs.updateChecked jobId Conversation.isUnfinished (Conversation.withFailure now errorType error)
    Conversation.accepted

/-- `_handle_failure` on a database that checks what it stores. -/
def handleFailure (limits : Limits) (jobs : Jobs) (jobId : Uuid) (error : LLMError) (attempt : Nat)
    (jitter : Rat) (recordedAt : Timestamp) : Option Ran :=
  let decision := decideRetry error attempt limits.maxAttempts limits.retryBaseBackoffSeconds
    limits.retryMaxBackoffSeconds jitter
  if decision.retry then
    (releaseJobForRetry recordedAt jobs jobId decision.errorType error.message).map fun result =>
      ⟨result.1, false, true, .retryScheduled⟩
  else
    (failJob recordedAt jobs jobId decision.errorType error.message).map fun result =>
      ⟨result.1, true, true, .failed⟩

/-- `_score_and_persist` on a database that checks what it stores, with counters that raise for a
negative amount. -/
def scoreAndPersist (limits : Limits) (jobs : Jobs) (jobId : Uuid) (exchange : Exchange) :
    Option Ran :=
  match getJob jobs jobId with
  | none => some ⟨jobs, true, false, .unknownJob⟩
  | some job =>
      match exchange.reply with
      | .error error jitter =>
          handleFailure limits jobs jobId error job.attemptCount jitter exchange.recordedAt
      | .outcome outcome =>
          -- the metrics come before the update, and nothing here catches what they raise
          if (recordSuccessMetrics outcome).2 then none
          else
            (completeJob exchange.recordedAt jobs jobId outcome).map fun result =>
              ⟨result.1, true, true, if result.2 then .completed else .lostClaim⟩

variable {limits : Limits} {jobs : Jobs} {job : Uuid} {exchange : Exchange} {ran : Ran}
  {row : Conversation}

/-- Where nothing is raised, the checks make no difference. -/
theorem scoreAndPersist_refines
    (recorded : scoreAndPersist limits jobs job exchange = some ran) :
    Sequential.scoreAndPersist limits jobs job exchange = ran := by
  unfold scoreAndPersist at recorded
  cases found : getJob jobs job with
  | none =>
      rw [found] at recorded
      simp only [Sequential.scoreAndPersist, found]
      exact Option.some.inj recorded
  | some row =>
      simp only [found] at recorded
      cases reply : exchange.reply with
      | outcome outcome =>
          simp only [reply] at recorded
          rw [Option.ite_none_left_eq_some] at recorded
          obtain ⟨⟨persisted, changed⟩, updated, rfl⟩ := Option.map_eq_some_iff.mp recorded.2
          have plain : ConvoScore.completeJob exchange.recordedAt jobs job outcome =
            (persisted, changed) := Table.updateWhere_of_checked updated
          simp only [Sequential.scoreAndPersist, found, reply, plain]
          cases changed <;> rfl
      | error error jitter =>
          simp only [reply, handleFailure] at recorded
          simp only [Sequential.scoreAndPersist, found, reply, Sequential.handleFailure]
          split at recorded
          · rename_i again
            obtain ⟨result, updated, rfl⟩ := Option.map_eq_some_iff.mp recorded
            rw [if_pos again, ConvoScore.releaseJobForRetry, Table.updateWhere_of_checked updated]
          · rename_i last
            obtain ⟨result, updated, rfl⟩ := Option.map_eq_some_iff.mp recorded
            rw [if_neg last, ConvoScore.failJob, Table.updateWhere_of_checked updated]

/-- An answer that can be recorded is, in a row that the table accepts and that has left
processing. -/
theorem scoreAndPersist_recorded (present : jobs job = some row)
    (claimed : row.status = .processing) (stored : row.accepted = true)
    (recordable : exchange.reply.recordable = true) :
    ∃ ran final, scoreAndPersist limits jobs job exchange = some ran ∧
      ran.jobs job = some final ∧ final.accepted = true ∧ final.status ≠ .processing := by
  have processing : row.isProcessing = true := Conversation.isProcessing_iff.mpr claimed
  have unfinished : row.isUnfinished = true := by
    rw [Conversation.isUnfinished_iff, claimed]
    rfl
  simp only [scoreAndPersist, getJob, present]
  cases reply : exchange.reply with
  | outcome outcome =>
      rw [reply] at recordable
      obtain ⟨counted, storable⟩ := Bool.and_eq_true_iff.mp recordable
      have accepted : (row.withResult exchange.recordedAt outcome).accepted = true :=
        (Conversation.withResult_accepted stored).trans storable
      simp only [recordSuccessMetrics_raises, counted, Bool.not_true, Bool.false_eq_true, if_false,
        completeJob, Table.updateChecked_accepts present processing, if_pos accepted]
      exact ⟨_, _, rfl, Function.update_self .., accepted, by simp⟩
  | error error jitter =>
      rw [reply, ScoreReply.recordable, LLMError.storable] at recordable
      simp only [handleFailure]
      split
      · rw [← Conversation.withRelease_accepted stored] at recordable
        rw [releaseJobForRetry, Table.updateChecked_accepts present processing, if_pos recordable]
        exact ⟨_, _, rfl, Function.update_self .., recordable, by simp⟩
      · rw [← Conversation.withFailure_accepted stored] at recordable
        rw [failJob, Table.updateChecked_accepts present unfinished, if_pos recordable]
        exact ⟨_, _, rfl, Function.update_self .., recordable, by simp⟩

/-- A row that a worker has just claimed for the first time. -/
def claimedRow : Conversation :=
  (createJob (fun _ => []) 1 0 .smallest .api 3 none).withClaim 0 (claimExpiry 0 90)

def claimedJobs : Jobs := Function.update Table.empty 1 (some claimedRow)

end Checked
end ConvoScore.Worker
