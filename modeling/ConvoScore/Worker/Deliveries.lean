import ConvoScore.Library.System
import ConvoScore.Worker.Process

namespace ConvoScore

/-- The settings that `process` reads, whatever their ranges are. -/
structure Limits where
  maxAttempts : Nat
  visibilityTimeoutSeconds : Nat
  retryBaseBackoffSeconds : Nat
  retryMaxBackoffSeconds : Nat

def Settings.limits (settings : Settings) : Limits where
  maxAttempts := settings.maxAttempts
  visibilityTimeoutSeconds := settings.visibilityTimeoutSeconds
  retryBaseBackoffSeconds := settings.retryBaseBackoffSeconds
  retryMaxBackoffSeconds := settings.retryMaxBackoffSeconds

/-- The row stores exactly what the provider returned, and no error. -/
structure Conversation.Stores (row : Conversation) (outcome : ScoringOutcome) : Prop where
  sentiment : row.sentiment = some outcome.result.sentiment
  riskScore : row.riskScore = some outcome.result.riskScore
  rationale : row.rationale = some outcome.result.rationale
  model : row.model = some outcome.model
  promptVersion : row.promptVersion = some outcome.promptVersion
  schemaVersion : row.schemaVersion = some outcome.schemaVersion
  promptTokens : row.promptTokens = outcome.promptTokens
  completionTokens : row.completionTokens = outcome.completionTokens
  totalTokens : row.totalTokens = outcome.totalTokens
  llmLatencyMs : row.llmLatencyMs = some outcome.latencyMs
  estimatedCostUsd : row.estimatedCostUsd = outcome.estimatedCostUsd
  pricingVersion : row.pricingVersion = some outcome.pricingVersion
  lastErrorType : row.lastErrorType = none
  lastError : row.lastError = none

namespace Worker.Sequential
open Library

/-- One delivery meets the times of its two transactions and the answer of the provider. -/
structure Exchange where
  claimedAt : Timestamp
  reply : ScoreReply
  recordedAt : Timestamp

/-- What `process` leaves behind and whether it deleted the message and called the provider. -/
structure Ran where
  jobs : Jobs
  deleted : Bool
  scored : Bool
  outcome : ProcessOutcome

/-- `_handle_failure` in one go. -/
def handleFailure (limits : Limits) (jobs : Jobs) (jobId : Uuid) (error : LLMError) (attempt : Nat)
    (jitter : Rat) (recordedAt : Timestamp) : Ran :=
  let decision := decideRetry error attempt limits.maxAttempts limits.retryBaseBackoffSeconds
    limits.retryMaxBackoffSeconds jitter
  if decision.retry then
    ⟨(releaseJobForRetry recordedAt jobs jobId decision.errorType error.message).1, false, true,
      .retryScheduled⟩
  else
    ⟨(failJob recordedAt jobs jobId decision.errorType error.message).1, true, true, .failed⟩

/-- `_score_and_persist` in one go. -/
def scoreAndPersist (limits : Limits) (jobs : Jobs) (jobId : Uuid) (exchange : Exchange) : Ran :=
  match getJob jobs jobId with
  | none => ⟨jobs, true, false, .unknownJob⟩
  | some job =>
      match exchange.reply with
      | .error error jitter =>
          handleFailure limits jobs jobId error job.attemptCount jitter exchange.recordedAt
      | .outcome outcome =>
          match completeJob exchange.recordedAt jobs jobId outcome with
          | (persisted, true) => ⟨persisted, true, true, .completed⟩
          | (unchanged, false) => ⟨unchanged, true, true, .lostClaim⟩

/-- `process` in one go, when nothing but the provider fails and no other process steps. -/
def process (limits : Limits) (jobs : Jobs) (jobId : Option Uuid) (exchange : Exchange) : Ran :=
  match jobId with
  | none => ⟨jobs, true, false, .malformedMessage⟩
  | some jobId =>
      match claimJob exchange.claimedAt jobs jobId limits.visibilityTimeoutSeconds with
      | (jobs, .notFound) => ⟨jobs, true, false, .unknownJob⟩
      | (jobs, .alreadyFinished) => ⟨jobs, true, false, .duplicateSkipped⟩
      | (jobs, .heldByAnotherWorker) => ⟨jobs, false, false, .heldByAnotherWorker⟩
      | (jobs, .claimed) => scoreAndPersist limits jobs jobId exchange

/-- The steps of one worker and what it shares with the others. -/
def system (settings : Settings) : System (Shared × Phase) Action where
  start state := state.2 = .idle
  step state action := Worker.step settings state.1 state.2 action

/-- What a delivery in one go leaves of what the processes share. -/
def Ran.shared (ran : Ran) (shared : Shared) (message : QueueMessage) : Shared where
  now := shared.now
  jobs := ran.jobs
  queue := if ran.deleted then shared.queue.delete message else shared.queue

section Steps
variable {settings : Settings} {shared : Shared} {attempt : Attempt} {row : Conversation}
  {exchange : Exchange}

theorem txStart_now : shared.txStart shared.now shared.now = true :=
  Shared.txStart_iff.mpr ⟨Nat.le_refl _, Nat.le_refl _⟩

/-! Each step of a delivery in one go finds the clock where its phase began. -/

theorem step_receive {message : QueueMessage} (member : message ∈ shared.queue.messages) :
    (system settings).step (shared, .idle) (.receive message) =
      some (shared, .received message shared.now) := if_pos member

theorem step_claim (messageId : Nat) (job : Uuid) :
    (system settings).step (shared, .received ⟨messageId, some job⟩ shared.now)
        (.claim shared.now) =
      some ({shared with jobs := (claimUpdate shared.now shared.jobs job
          settings.visibilityTimeoutSeconds).1},
        if (claimUpdate shared.now shared.jobs job settings.visibilityTimeoutSeconds).2 then
          .claimed ⟨⟨⟨messageId, some job⟩, job, rfl⟩,
            claimExpiry shared.now settings.visibilityTimeoutSeconds⟩
        else .unclaimed ⟨⟨messageId, some job⟩, job, rfl⟩) := if_pos txStart_now

theorem step_readJob (present : shared.jobs attempt.job = some row) :
    (system settings).step (shared, .claimed attempt) .readJob =
      some (shared, .scoring attempt row) := by
  show Worker.step settings shared (.claimed attempt) .readJob = _
  simp only [Worker.step, getJob, present]

theorem step_complete (outcome : ScoringOutcome) :
    (system settings).step (shared, .persisting attempt outcome shared.now)
        (.complete shared.now) =
      some ({shared with jobs := (completeJob shared.now shared.jobs attempt.job outcome).1},
        .acknowledging attempt.message
          (if (completeJob shared.now shared.jobs attempt.job outcome).2 then .completed
            else .lostClaim)) := if_pos txStart_now

theorem step_release (decision : RetryDecision) (error : LLMError) :
    (system settings).step (shared, .releasing attempt decision error shared.now)
        (.release shared.now) =
      some ({shared with jobs := (releaseJobForRetry shared.now shared.jobs attempt.job
          decision.errorType error.message).1},
        .extending attempt.message decision.backoffSeconds) := if_pos txStart_now

theorem step_fail (decision : RetryDecision) (error : LLMError) :
    (system settings).step (shared, .failing attempt decision error shared.now)
        (.fail shared.now) =
      some ({shared with jobs := (failJob shared.now shared.jobs attempt.job
          decision.errorType error.message).1},
        .acknowledging attempt.message .failed) := if_pos txStart_now

theorem step_delete {message : QueueMessage} (exit : ProcessOutcome) :
    (system settings).step (shared, .acknowledging message exit) (.delete true false) =
      some ({shared with queue := shared.queue.delete message}, .idle) := rfl

/-- The end of a delivery whose attempt has read its row. -/
def finish (settings : Settings) (shared : Shared) (row : Conversation) : ScoreReply → List Action
  | .outcome _ => [.complete shared.now, .delete true false]
  | .error error jitter =>
      if (decideRetry error row.attemptCount settings.maxAttempts settings.retryBaseBackoffSeconds
        settings.retryMaxBackoffSeconds jitter).retry then [.release shared.now, .changeVisibility]
      else [.fail shared.now, .delete true false]

/-- The steps that follow a claim do what `_score_and_persist` does. -/
theorem scoreAndPersist_steps (settings : Settings) (exchange : Exchange)
    (present : shared.jobs attempt.job = some row)
    (recordedAt : exchange.recordedAt = shared.now) :
    (system settings).run (shared, .claimed attempt)
        (.readJob :: .score exchange.reply :: finish settings shared row exchange.reply) =
      some ((scoreAndPersist settings.limits shared.jobs attempt.job exchange).shared shared
        attempt.message, .idle) := by
  cases reply : exchange.reply with
  | outcome outcome =>
      have scored : (system settings).step (shared, .scoring attempt row)
          (.score (.outcome outcome)) =
        some (shared, .persisting attempt outcome shared.now) := rfl
      simp only [finish, System.run, step_readJob present, scored, step_complete, step_delete,
        Option.bind_some, scoreAndPersist, getJob, present, reply, recordedAt]
      cases completeJob shared.now shared.jobs attempt.job outcome with
      | mk jobs persisted => cases persisted <;> rfl
  | error error jitter =>
      have scored : (system settings).step (shared, .scoring attempt row)
          (.score (.error error jitter)) =
        some (shared, Worker.handleFailure settings attempt row.attemptCount error jitter
          shared.now) := rfl
      simp only [scoreAndPersist, getJob, present, reply, recordedAt, handleFailure,
        Settings.limits]
      by_cases again : (decideRetry error row.attemptCount settings.maxAttempts
          settings.retryBaseBackoffSeconds settings.retryMaxBackoffSeconds jitter).retry = true
      · simp only [finish, if_pos again, System.run, step_readJob present, scored,
          Worker.handleFailure, step_release, Option.bind_some]
        rfl
      · simp only [finish, if_neg again, System.run, step_readJob present, scored,
          Worker.handleFailure, step_fail, step_delete, Option.bind_some]
        rfl

/-- A delivery in one go does what the steps of one do when no other process steps. -/
theorem process_steps (settings : Settings) {message : QueueMessage}
    (member : message ∈ shared.queue.messages) (claimedAt : exchange.claimedAt = shared.now)
    (recordedAt : exchange.recordedAt = shared.now) :
    ∃ schedule, (system settings).run (shared, .idle) schedule =
      some ((process settings.limits shared.jobs message.jobId exchange).shared shared message,
        .idle) := by
  obtain ⟨messageId, body⟩ := message
  cases body with
  | none =>
      refine ⟨[.receive ⟨messageId, none⟩, .discard, .delete true false], ?_⟩
      simp [System.run, system, step, member, process, Ran.shared]
  | some job =>
      let delivery : Delivery := ⟨⟨messageId, some job⟩, job, rfl⟩
      rcases shared.jobs.updateWhere_cases job (Conversation.claimable shared.now)
          (Conversation.withClaim shared.now
            (claimExpiry shared.now settings.visibilityTimeoutSeconds)) with
        ⟨row, present, free, updated⟩ | ⟨taken, updated⟩
      · let attempt : Attempt := ⟨delivery, claimExpiry shared.now settings.visibilityTimeoutSeconds⟩
        let claimed := row.withClaim shared.now
          (claimExpiry shared.now settings.visibilityTimeoutSeconds)
        let later := shared.write job claimed
        have stored : later.jobs attempt.job = some claimed := Shared.write_jobs_self
        have claims : ∀ rest, (system settings).run (shared, .idle)
            (.receive ⟨messageId, some job⟩ :: .claim shared.now :: rest) =
              (system settings).run (later, .claimed attempt) rest := by
          intro rest
          simp only [System.run, step_receive member, step_claim, claimUpdate, updated, if_true,
            Option.bind_some]
          rfl
        refine ⟨.receive ⟨messageId, some job⟩ :: .claim shared.now :: .readJob ::
          .score exchange.reply :: finish settings later claimed exchange.reply, ?_⟩
        rw [claims, scoreAndPersist_steps settings exchange stored recordedAt]
        simp only [process, claimJob, claimUpdate, claimedAt, Settings.limits, updated]
        rfl
      · have claims : ∀ rest, (system settings).run (shared, .idle)
            (.receive ⟨messageId, some job⟩ :: .claim shared.now :: rest) =
              (system settings).run (shared, .unclaimed delivery) rest := by
          intro rest
          simp only [System.run, step_receive member, step_claim, claimUpdate, updated,
            Option.bind_some]
          rfl
        have unclaimed : claimJob exchange.claimedAt shared.jobs job
            settings.limits.visibilityTimeoutSeconds =
              (shared.jobs, unclaimedOutcome shared.jobs job) := by
          simp only [claimJob, claimUpdate, claimedAt, Settings.limits, updated]
        cases outcome : unclaimedOutcome shared.jobs job with
        | claimed => exact absurd outcome unclaimedOutcome_unclaimed
        | heldByAnotherWorker =>
            refine ⟨[.receive ⟨messageId, some job⟩, .claim shared.now, .classify], ?_⟩
            rw [claims]
            simp [System.run, system, step, delivery, process, Ran.shared, outcome, unclaimed]
        | notFound | alreadyFinished =>
            refine ⟨[.receive ⟨messageId, some job⟩, .claim shared.now, .classify,
              .delete true false], ?_⟩
            rw [claims]
            simp [System.run, system, step, delivery, process, Ran.shared, outcome, unclaimed]

end Steps

/-- The deliveries of one message so far. -/
structure Progress where
  jobs : Jobs
  queued : Bool
  deliveries : Nat
  calls : Nat

/-- The queue delivers the message once more unless it is deleted. -/
def Progress.next (limits : Limits) (jobId : Uuid) (exchanges : Nat → Exchange)
    (before : Progress) : Progress :=
  if before.queued then
    let ran := process limits before.jobs (some jobId) (exchanges before.deliveries)
    ⟨ran.jobs, !ran.deleted, before.deliveries + 1, before.calls + if ran.scored then 1 else 0⟩
  else before

/-- The queue delivers the message until it is deleted, at most so many times. -/
def redeliver (limits : Limits) (jobs : Jobs) (jobId : Uuid) (exchanges : Nat → Exchange) :
    Nat → Progress
  | 0 => ⟨jobs, true, 0, 0⟩
  | count + 1 => (redeliver limits jobs jobId exchanges count).next limits jobId exchanges

/-- The row waits for its next attempt. -/
structure Waiting (jobs : Jobs) (job : Uuid) (attempts : Nat) : Prop where
  row : ∃ row, jobs job = some row ∧ row.status = .pending ∧ row.lockedUntil = none ∧
    row.attemptCount = attempts

/-- The row has ended as the last answer of the provider asks for. -/
inductive Verdict (limits : Limits) (row : Conversation) : ScoreReply → Prop
  | completed {outcome : ScoringOutcome} (status : row.status = .completed)
      (stores : row.Stores outcome) : Verdict limits row (.outcome outcome)
  | failed {error : LLMError} {jitter : Rat} (status : row.status = .failed)
      (message : row.lastError = some (truncate error.message))
      (exhausted : error.isTransient = true →
        row.lastErrorType = some .maxAttemptsExhausted ∧ row.attemptCount = limits.maxAttempts)
      (named : error.isTransient = false → row.lastErrorType = some error.errorType) :
      Verdict limits row (.error error jitter)

variable {limits : Limits} {jobs : Jobs} {job : Uuid} {exchange : Exchange} {attempts : Nat}

/-- A waiting job is claimed by the next delivery, and its row counts one more attempt. -/
theorem process_waiting {row : Conversation} (present : jobs job = some row)
    (waiting : row.status = .pending) (unlocked : row.lockedUntil = none) :
    process limits jobs (some job) exchange =
      scoreAndPersist limits (Function.update jobs job (some (row.withClaim exchange.claimedAt
        (claimExpiry exchange.claimedAt limits.visibilityTimeoutSeconds)))) job exchange := by
  have free : row.claimable exchange.claimedAt = true := by
    simp [Conversation.claimable, waiting, unlocked, JobStatus.unfinished]
  simp only [process, claimJob, claimUpdate, Table.updateWhere_accepts present free]

/-- A failed attempt is released below its cap, or it ends the job. -/
theorem handleFailure_cases (limits : Limits) (error : LLMError) (jitter : Rat)
    (recordedAt : Timestamp) {row : Conversation} (present : jobs job = some row)
    (status : row.status = .processing) (bounded : row.attemptCount ≤ limits.maxAttempts) :
    let ran := handleFailure limits jobs job error row.attemptCount jitter recordedAt
    ran.scored = true ∧
      ((ran.deleted = false ∧ Waiting ran.jobs job row.attemptCount ∧
          row.attemptCount < limits.maxAttempts ∧ error.isPermanent = false) ∨
        (ran.deleted = true ∧ ∃ final, ran.jobs job = some final ∧
          final.attemptCount = row.attemptCount ∧ Verdict limits final (.error error jitter))) := by
  intro ran
  have accepted : row.isProcessing = true := Conversation.isProcessing_iff.mpr status
  have unfinished : row.isUnfinished = true := by
    rw [Conversation.isUnfinished_iff, status]
    rfl
  by_cases again : (decideRetry error row.attemptCount limits.maxAttempts
      limits.retryBaseBackoffSeconds limits.retryMaxBackoffSeconds jitter).retry = true
  · simp only [ran, handleFailure, again, if_true, releaseJobForRetry,
      Table.updateWhere_accepts present accepted, true_and]
    refine .inl ⟨⟨_, Function.update_self .., rfl, rfl, rfl⟩, ?_, ?_⟩
    · exact decideRetry_below again
    · exact decideRetry_impermanent again
  · have last := Bool.eq_false_iff.mpr again
    simp only [ran, handleFailure, last, failJob, Table.updateWhere_accepts present unfinished]
    refine ⟨rfl, .inr ⟨rfl, _, Function.update_self .., rfl, .failed rfl rfl ?_ ?_⟩⟩
    · intro transient
      obtain ⟨exhausted, reached⟩ := decideRetry_exhausted transient last
      exact ⟨congrArg some exhausted, Nat.le_antisymm bounded reached⟩
    · intro other
      exact congrArg some (decideRetry_named other)

/-- A delivery of a waiting job calls the provider once; then the job waits for one more attempt,
or it has ended and its message is gone. -/
theorem process_cases (exchange : Exchange) (waiting : Waiting jobs job attempts)
    (bounded : attempts < limits.maxAttempts) :
    let ran := process limits jobs (some job) exchange
    ran.scored = true ∧
      ((ran.deleted = false ∧ Waiting ran.jobs job (attempts + 1) ∧
          attempts + 1 < limits.maxAttempts ∧ ∃ error jitter,
          exchange.reply = .error error jitter ∧ error.isPermanent = false) ∨
        (ran.deleted = true ∧ ∃ final, ran.jobs job = some final ∧
          final.attemptCount = attempts + 1 ∧ Verdict limits final exchange.reply)) := by
  intro ran
  obtain ⟨row, present, status, unlocked, rfl⟩ := waiting
  let claimed := row.withClaim exchange.claimedAt
    (claimExpiry exchange.claimedAt limits.visibilityTimeoutSeconds)
  have stored : Function.update jobs job (some claimed) job = some claimed :=
    Function.update_self ..
  have same : ran = scoreAndPersist limits (Function.update jobs job (some claimed)) job exchange :=
    process_waiting present status unlocked
  rw [same]
  simp only [scoreAndPersist, getJob, stored]
  cases reply : exchange.reply with
  | outcome outcome =>
      have accepted : claimed.isProcessing = true := rfl
      simp only [completeJob, Table.updateWhere_accepts stored accepted]
      refine ⟨trivial, .inr ⟨trivial, _, Function.update_self .., rfl, .completed rfl ?_⟩⟩
      constructor <;> rfl
  | error error jitter =>
      obtain ⟨scored, released | ended⟩ :=
        handleFailure_cases limits error jitter exchange.recordedAt stored rfl bounded
      · obtain ⟨kept, again, below, impermanent⟩ := released
        exact ⟨scored, .inl ⟨kept, again, below, error, jitter, rfl, impermanent⟩⟩
      · exact ⟨scored, .inr ended⟩

/-- After some deliveries the job still waits, or one of them has ended it. -/
inductive Delivered (limits : Limits) (job : Uuid) (exchanges : Nat → Exchange) (count : Nat)
    (progress : Progress) : Prop
  | waiting (queued : progress.queued = true) (deliveries : progress.deliveries = count)
      (calls : progress.calls = count) (row : Waiting progress.jobs job count)
      (below : count < limits.maxAttempts)
      (retried : ∀ index < count, ∃ error jitter, (exchanges index).reply = .error error jitter ∧
        error.isPermanent = false)
  | ended {last : Nat} {final : Conversation} (deleted : progress.queued = false)
      (deliveries : progress.deliveries = last + 1) (calls : progress.calls = last + 1)
      (present : progress.jobs job = some final) (attempts : final.attemptCount = last + 1)
      (within : last < count) (below : last < limits.maxAttempts)
      (retried : ∀ index < last, ∃ error jitter, (exchanges index).reply = .error error jitter ∧
        error.isPermanent = false)
      (verdict : Verdict limits final (exchanges last).reply)

theorem delivered_next {exchanges : Nat → Exchange} {count : Nat} {before : Progress}
    (delivered : Delivered limits job exchanges count before) :
    Delivered limits job exchanges (count + 1) (before.next limits job exchanges) := by
  cases delivered with
  | waiting queued deliveries calls row below retried =>
      obtain ⟨scored, again | last⟩ := process_cases (exchanges count) row below
      · obtain ⟨kept, waiting, room, answered⟩ := again
        simp only [Progress.next, queued, if_true, deliveries]
        refine .waiting (by rw [kept]; rfl) rfl (by rw [calls, scored]; rfl) waiting room ?_
        intro index earlier
        rcases Nat.lt_succ_iff_lt_or_eq.mp earlier with old | rfl
        · exact retried index old
        · exact answered
      · obtain ⟨deleted, final, present, attempts, verdict⟩ := last
        simp only [Progress.next, queued, if_true, deliveries]
        exact .ended (by rw [deleted]; rfl) rfl (by rw [calls, scored]; rfl) present attempts
          (Nat.lt_succ_self count) below retried verdict
  | ended deleted deliveries calls present attempts within below retried verdict =>
      have same : before.next limits job exchanges = before := by
        simp [Progress.next, deleted]
      rw [same]
      exact .ended deleted deliveries calls present attempts (Nat.lt_succ_of_lt within) below retried
        verdict

theorem redeliver_delivered (positive : 1 ≤ limits.maxAttempts) (fresh : Waiting jobs job 0)
    (exchanges : Nat → Exchange) (count : Nat) :
    Delivered limits job exchanges count (redeliver limits jobs job exchanges count) := by
  induction count with
  | zero => exact .waiting rfl rfl rfl fresh positive fun _ earlier => absurd earlier (Nat.not_lt_zero _)
  | succ count ih => exact delivered_next ih

namespace Verdict
variable {final : Conversation} {reply : ScoreReply}

theorem terminal (verdict : Verdict limits final reply) : final.status.terminal = true := by
  cases verdict with
  | completed status => rw [status]; rfl
  | failed status => rw [status]; rfl

end Verdict

/-- A new row waits for its first attempt. -/
theorem waiting_createJob {sha256 : Text → Text} {clock : Timestamp}
    {conversation : ConversationInput} {source : JobSource} {maxAttempts : Nat}
    {sourceRef : Option Text} (present : jobs job =
      some (createJob sha256 job clock conversation source maxAttempts sourceRef)) :
    Waiting jobs job 0 :=
  ⟨⟨_, present, rfl, rfl, rfl⟩⟩

/-- The provider times out twice, answers with something invalid and would succeed next. -/
def sampleExchanges (index : Nat) : Exchange where
  claimedAt := index
  reply :=
    match index with
    | 0 => .error (.transient "timeout".toList .timeout) 0
    | 1 => .error (.transient "rate limited".toList .rateLimited) 0
    | _ => .outcome .calm
  recordedAt := index

def sampleJobs : Jobs :=
  Function.update Table.empty 1 (some (createJob (fun _ => []) 1 0 .smallest .api 4 none))

end Worker.Sequential
end ConvoScore
