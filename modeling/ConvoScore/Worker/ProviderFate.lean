import ConvoScore.Scoring.OpenAi
import ConvoScore.Worker.Redelivery

namespace ConvoScore.Worker.Sequential
open Library

/-- The worker gets what the provider returned or raised, unless it was no `LLMError`. -/
inductive Scored : Except ScoreFailure ScoringOutcome → ScoreReply → Prop
  | outcome (outcome : ScoringOutcome) : Scored (.ok outcome) (.outcome outcome)
  | error (error : LLMError) (jitter : Rat) : Scored (.error (.llm error)) (.error error jitter)

/-- This kind of result ends the job on this attempt, by itself or because of a cap. -/
def decisive (maxAttempts attempt : Nat) : ResultKind → Bool
  | .valid | .refused => true
  | .unusable => decide (min 2 maxAttempts ≤ attempt)
  | .temporary => decide (maxAttempts ≤ attempt)

/-- The error type of a job that this kind of result ends. -/
def blame : ResultKind → Option ErrorType
  | .valid => none
  | .refused => some .clientError
  | .unusable => some .invalidLlmResponse
  | .temporary => some .maxAttemptsExhausted

variable {limits : Limits} {jobs : Jobs} {job : Uuid} {provider : OpenAiProvider}
  {result : SdkResult} {reply : ScoreReply} {final : Conversation}

/-- What the worker gets for a result of each kind. -/
inductive Received : ResultKind → ScoreReply → Prop
  | valid (outcome : ScoringOutcome) : Received .valid (.outcome outcome)
  | refused (message : Text) (jitter : Rat) : Received .refused (.error (.permanent message) jitter)
  | unusable (message : Text) (jitter : Rat) :
      Received .unusable (.error (.invalidResponse message) jitter)
  | temporary (message : Text) (errorType : ErrorType) (jitter : Rat) :
      Received .temporary (.error (.transient message errorType) jitter)

/-- The translation of the provider keeps the kind of every result. -/
theorem Scored.received (scored : Scored (provider.score result) reply)
    (documented : result.Documented) : Received result.kind reply := by
  cases kind : result.kind with
  | valid =>
      have usable := provider.score_valid kind
      generalize provider.score result = answer at scored usable
      cases scored with
      | outcome outcome => exact .valid outcome
      | error error jitter => exact absurd rfl (usable error)
  | refused =>
      obtain ⟨message, same⟩ := provider.score_refused documented kind
      rw [same] at scored
      cases scored with
      | error error jitter => exact .refused message jitter
  | unusable =>
      obtain ⟨message, same⟩ := provider.score_unusable kind
      rw [same] at scored
      cases scored with
      | error error jitter => exact .unusable message jitter
  | temporary =>
      obtain ⟨message, errorType, same⟩ := provider.score_temporary documented kind
      rw [same] at scored
      cases scored with
      | error error jitter => exact .temporary message errorType jitter

/-- A result is retried exactly when its kind does not end the job yet. -/
theorem Received.retried {kind : ResultKind} (received : Received kind reply) (attempt : Nat) :
    retried limits attempt reply = !decisive limits.maxAttempts attempt kind := by
  cases received with
  | valid | refused => rfl
  | unusable message jitter =>
      show decide (attempt < min 2 limits.maxAttempts) =
        !decide (min 2 limits.maxAttempts ≤ attempt)
      rw [← decide_not]
      exact decide_eq_decide.mpr Nat.not_le.symm
  | temporary message errorType jitter =>
      by_cases capped : limits.maxAttempts ≤ attempt
      · simp [Sequential.retried, decideRetry, decisive, capped]
      · simp [Sequential.retried, decideRetry, decisive, capped]

/-- A job that ends with a result has its status and blames its kind. -/
theorem Received.ended {kind : ResultKind} (received : Received kind reply)
    (verdict : Verdict limits final reply) :
    (final.status = .completed ↔ kind = .valid) ∧ final.lastErrorType = blame kind := by
  cases received with
  | valid outcome =>
      cases verdict with
      | completed status stores => exact ⟨iff_of_true status rfl, stores.lastErrorType⟩
  | refused message jitter | unusable message jitter =>
      cases verdict with
      | failed status _ _ named => exact ⟨by simp [status], named rfl⟩
  | temporary message errorType jitter =>
      cases verdict with
      | failed status _ exhausted => exact ⟨by simp [status], (exhausted rfl).1⟩

/-- The last attempt that is allowed always ends the job. -/
theorem decisive_last (positive : 1 ≤ limits.maxAttempts) (kind : ResultKind) :
    decisive limits.maxAttempts (limits.maxAttempts - 1 + 1) kind = true := by
  rw [Nat.sub_add_cancel positive]
  cases kind with
  | valid | refused => rfl
  | unusable => exact decide_eq_true (Nat.min_le_right _ _)
  | temporary => exact decide_eq_true (Nat.le_refl _)

/-- The job ends with the first result that is decisive, by its HTTP status, its contract or the
cap on the attempts; it completes exactly when that one is valid, and otherwise blames it.
The estimate of the cost raises nothing, and every answer can be recorded. -/
theorem provider_fate (positive : 1 ≤ limits.maxAttempts)
    (capped : limits.maxAttempts < integerBound) (fresh : Waiting jobs job 0)
    (stored : Checked.Stored jobs job) {results : Nat → SdkResult} {exchanges : Nat → Exchange}
    (documented : ∀ index < limits.maxAttempts, (results index).Documented)
    (scored : ∀ index < limits.maxAttempts,
      Scored (provider.score (results index)) (exchanges index).reply)
    (recordable : ∀ index < limits.maxAttempts, (exchanges index).reply.recordable = true) :
    let progress := Checked.redeliver limits jobs job exchanges limits.maxAttempts
    ∃ last final, last < limits.maxAttempts ∧
      (∀ index < last, decisive limits.maxAttempts (index + 1) (results index).kind = false) ∧
      decisive limits.maxAttempts (last + 1) (results last).kind = true ∧
      progress.jobs job = some final ∧ progress.queued = false ∧
      progress.calls = last + 1 ∧ final.attemptCount = last + 1 ∧
      (final.status = .completed ↔ (results last).kind = .valid) ∧
      final.lastErrorType = blame (results last).kind ∧
      ∀ outcome, provider.score (results last) = .ok outcome → final.Stores outcome := by
  intro progress
  have unchecked : progress = redeliver limits jobs job exchanges limits.maxAttempts :=
    (Checked.redeliver_recorded positive capped fresh stored recordable).1
  rw [unchecked]
  have ends : ∃ last, decisive limits.maxAttempts (last + 1) (results last).kind = true :=
    ⟨limits.maxAttempts - 1, decisive_last positive _⟩
  let last := Nat.find ends
  have decided : decisive limits.maxAttempts (last + 1) (results last).kind = true :=
    Nat.find_spec ends
  have within : last < limits.maxAttempts := by
    have least := Nat.find_min' ends (decisive_last positive (results (limits.maxAttempts - 1)).kind)
    omega
  have earlier : ∀ index < last,
      decisive limits.maxAttempts (index + 1) (results index).kind = false :=
    fun index early => Bool.eq_false_iff.mpr (Nat.find_min ends early)
  have received : ∀ index ≤ last, Received (results index).kind (exchanges index).reply :=
    fun index upTo => (scored index (Nat.lt_of_le_of_lt upTo within)).received
      (documented index (Nat.lt_of_le_of_lt upTo within))
  have again : ∀ index < last, retried limits (index + 1) (exchanges index).reply = true := by
    intro index early
    rw [(received index early.le).retried, earlier index early]
    rfl
  have stops : retried limits (last + 1) (exchanges last).reply = false := by
    rw [(received last le_rfl).retried, decided]
    rfl
  obtain ⟨more, enough⟩ := Nat.exists_eq_add_of_le (Nat.succ_le_of_lt within)
  obtain ⟨queued, calls, final, present, attempts, verdict⟩ :=
    redeliver_at fresh within again stops more
  rw [← Nat.succ_eq_add_one, ← enough] at queued calls present
  obtain ⟨status, blamed⟩ := (received last le_rfl).ended verdict
  refine ⟨last, final, within, earlier, decided, present, queued, calls, attempts, status, blamed, ?_⟩
  intro outcome returned
  have answered := scored last within
  rw [returned] at answered
  generalize (exchanges last).reply = reply at answered verdict
  cases answered
  cases verdict with
  | completed _ stores => exact stores

/-- A rate limit is a status error with the code 429. -/
def rateLimited : ProviderException where
  own := none
  isInstance name := name = .rateLimitError || name = .apiStatusError
  statusCode := some 429
  typeName := "RateLimitError".toList
  text := "slow down".toList

theorem rateLimited_documented : rateLimited.Documented where
  foreign := rfl
  timeout raised := by cases raised
  connection raised := by cases raised
  rateLimit _ := ⟨rfl, rfl⟩
  server raised := by cases raised
  authentication raised := by cases raised
  permission raised := by cases raised
  badRequest raised := by cases raised
  notFound raised := by cases raised

/-- The first call meets the rate limit, and every later one gives a valid result. -/
def limitedResults : Nat → SdkResult
  | 0 => .raised rateLimited
  | _ + 1 => .response ⟨some ⟨"neutral".toList, 42, "Asks for a refund.".toList⟩,
      "completed".toList, none, none⟩ 800

def limitedProvider : OpenAiProvider := ⟨"gpt-4.1-mini".toList, fun _ => []⟩

/-- A result that is no answer to the worker does not occur here. -/
def limitedExchange (index : Nat) : Exchange where
  claimedAt := index
  reply :=
    match limitedProvider.score (limitedResults index) with
    | .ok outcome => .outcome outcome
    | .error (.llm error) => .error error 0
    | .error (.cost _) => .outcome .calm
  recordedAt := index

/-- The job of the sample ends with the first decisive result. -/
theorem provider_fate_limited : ∃ last final,
    (Checked.redeliver ⟨3, 90, 5, 60⟩ sampleJobs 1 limitedExchange 3).jobs 1 = some final ∧
    decisive 3 (last + 1) (limitedResults last).kind = true ∧
    final.attemptCount = last + 1 ∧
    (final.status = .completed ↔ (limitedResults last).kind = .valid) := by
  have fresh : Waiting sampleJobs 1 0 := waiting_createJob (Function.update_self ..)
  have documented : ∀ index < 3, (limitedResults index).Documented := by
    intro index _
    cases index with
    | zero => exact rateLimited_documented
    | succ => trivial
  have scored : ∀ index < 3, Scored (limitedProvider.score (limitedResults index))
      (limitedExchange index).reply := by
    intro index _
    cases index with
    | zero => exact .error _ 0
    | succ => exact .outcome _
  have recordable : ∀ index < 3, (limitedExchange index).reply.recordable = true := by
    intro index _
    cases index with
    | zero => decide
    | succ => rfl
  obtain ⟨last, final, _, _, decided, present, _, _, attempts, status, _⟩ :=
    @provider_fate ⟨3, 90, 5, 60⟩ sampleJobs 1 limitedProvider (by decide) (by decide) fresh
      Checked.sampleJobs_stored limitedResults limitedExchange documented scored recordable
  exact ⟨last, final, present, decided, attempts, status⟩

end ConvoScore.Worker.Sequential
