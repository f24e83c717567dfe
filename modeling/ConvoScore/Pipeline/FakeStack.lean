import ConvoScore.Pipeline.Coherence
import ConvoScore.Pipeline.Sources
import ConvoScore.Schema.Canonical
import ConvoScore.Scoring.Fake

namespace ConvoScore

/-- The columns of the result. -/
structure StoredResult where
  sentiment : Option Sentiment
  riskScore : Option Int
  rationale : Option Text
  model : Option Text
  promptVersion : Option Text
  schemaVersion : Option Text
  promptTokens : Option Int
  completionTokens : Option Int
  totalTokens : Option Int
  llmLatencyMs : Option Int
  estimatedCostUsd : Option Rat
  pricingVersion : Option Text

def Conversation.storedResult (row : Conversation) : StoredResult where
  sentiment := row.sentiment
  riskScore := row.riskScore
  rationale := row.rationale
  model := row.model
  promptVersion := row.promptVersion
  schemaVersion := row.schemaVersion
  promptTokens := row.promptTokens
  completionTokens := row.completionTokens
  totalTokens := row.totalTokens
  llmLatencyMs := row.llmLatencyMs
  estimatedCostUsd := row.estimatedCostUsd
  pricingVersion := row.pricingVersion

def ScoringOutcome.stored (outcome : ScoringOutcome) : StoredResult where
  sentiment := some outcome.result.sentiment
  riskScore := some outcome.result.riskScore
  rationale := some outcome.result.rationale
  model := some outcome.model
  promptVersion := some outcome.promptVersion
  schemaVersion := some outcome.schemaVersion
  promptTokens := outcome.promptTokens
  completionTokens := outcome.completionTokens
  totalTokens := outcome.totalTokens
  llmLatencyMs := some outcome.latencyMs
  estimatedCostUsd := outcome.estimatedCostUsd
  pricingVersion := some outcome.pricingVersion

/-- A completed row stores what the provider answers for its conversation, every error is an
error of the publish, and a row that waits has never been claimed. -/
structure Conversation.Answered (score : NormalizedConversation → ScoringOutcome)
    (row : Conversation) : Prop where
  completed : row.status = .completed → row.storedResult = (score row.conversation).stored
  blamed : row.lastErrorType = none ∨ row.lastErrorType = some .enqueueFailed
  failed : row.status = .failed → row.lastErrorType = some .enqueueFailed
  pending : row.status = .pending → row.attemptCount = 0

namespace Conversation.Answered
variable {score : NormalizedConversation → ScoringOutcome} {row : Conversation}
  {start expiry : Timestamp} {error : Text}

theorem createJob {sha256 : Text → Text} {job : Uuid} {clock : Timestamp}
    {conversation : ConversationInput} {source : JobSource} {maxAttempts : Nat}
    {sourceRef : Option Text} : (ConvoScore.createJob sha256 job clock conversation source
      maxAttempts sourceRef).Answered score :=
  ⟨fun completed => JobStatus.noConfusion completed, .inl rfl,
    fun failed => JobStatus.noConfusion failed, fun _ => rfl⟩

theorem withEnqueued (answered : row.Answered score) :
    (row.withEnqueued start).Answered score :=
  ⟨answered.completed, answered.blamed, answered.failed, answered.pending⟩

theorem withEnqueueFailed : (row.withEnqueueFailed start error).Answered score :=
  ⟨fun completed => JobStatus.noConfusion completed, .inr rfl, fun _ => rfl,
    fun pending => JobStatus.noConfusion pending⟩

theorem withClaim (answered : row.Answered score) : (row.withClaim start expiry).Answered score :=
  ⟨fun completed => JobStatus.noConfusion completed, answered.blamed,
    fun failed => JobStatus.noConfusion failed, fun pending => JobStatus.noConfusion pending⟩

/-- A result that the provider answers for the row's conversation is stored as it is. -/
theorem withResult : (row.withResult start (score row.conversation)).Answered score :=
  ⟨fun _ => rfl, .inl rfl, fun failed => JobStatus.noConfusion failed,
    fun pending => JobStatus.noConfusion pending⟩

/-- The row of an open request is not scored. -/
theorem of_draft {sha256 : Text → Text} (draft : Pipeline.Draft sha256 row) :
    row.Answered score := by
  induction draft with
  | created => exact createJob
  | enqueued _ ih => exact ih.withEnqueued
  | enqueueFailed => exact withEnqueueFailed

end Conversation.Answered

namespace Worker

/-- The worker handles an error of its provider. -/
def Phase.handlesError : Phase → Bool
  | .releasing _ _ _ _ | .failing _ _ _ _ => true
  | _ => false

variable {settings : Settings} {shared next : Shared} {phase after : Phase} {action : Action}

/-- A worker persists what its provider has just returned. -/
theorem Move.persisting_source {attempt : Attempt} {outcome : ScoringOutcome} {since : Timestamp}
    (move : Move settings shared phase action next after)
    (held : after = .persisting attempt outcome since) :
    ∃ read, phase = .scoring attempt read ∧ action = .score (.outcome outcome) := by
  subst held
  cases move with
  | scored => exact ⟨_, rfl, rfl⟩

/-- A worker handles an error that its provider has just raised. -/
theorem Move.error_source (move : Move settings shared phase action next after)
    (handles : after.handlesError = true) :
    ∃ attempt read error jitter, phase = .scoring attempt read ∧
      action = .score (.error error jitter) := by
  cases move with
  | retry | giveUp => exact ⟨_, _, _, _, rfl, rfl⟩
  | _ => cases handles

end Worker

namespace Pipeline
open Library

/-- Every call of a provider returns what a function of the conversation says. -/
def ScoredBy (score : NormalizedConversation → ScoringOutcome) : System.Condition State Action :=
  fun before action _ => ∀ id attempt row reply, before.workers id = .scoring attempt row →
    action = .worker id (.score reply) → reply = .outcome (score row.conversation)

/-- Each worker holds an answer for the conversation of its job, and none handles an error. -/
structure Answering (score : NormalizedConversation → ScoringOutcome) (state : State) : Prop where
  rows : ∀ job row, state.shared.jobs job = some row → row.Answered score
  scoring : ∀ id attempt read row, state.workers id = .scoring attempt read →
    state.shared.jobs attempt.job = some row → row.conversation = read.conversation
  persisting : ∀ id attempt outcome since row, state.workers id = .persisting attempt outcome since →
    state.shared.jobs attempt.job = some row → outcome = score row.conversation
  errorless : ∀ id, (state.workers id).handlesError = false

variable {score : NormalizedConversation → ScoringOutcome} {env : Environment}
  {state next : State} {action : Action} {job : Uuid} {row : Conversation}

/-- A step keeps the conversation of every row that is there. -/
theorem conversation_kept (step : Step env state action next) {before after : Conversation}
    (present : state.shared.jobs job = some before) (found : next.shared.jobs job = some after) :
    after.conversation = before.conversation :=
  ((row_change step job).sameRequest present found).conversation

theorem rows_answered (drafts : DraftRows env state) (answering : Answering score state)
    (step : Step env state action next) (found : next.shared.jobs job = some row) :
    row.Answered score := by
  cases row_change step job with
  | kept same => exact answering.rows job row (same ▸ found)
  | submitted origin opened _ written =>
      rw [written, Option.some.injEq] at found
      exact found ▸ .of_draft (drafts.submitted origin opened)
  | created _ _ written =>
      rw [written, Option.some.injEq] at found
      exact found ▸ .createJob
  | claimed _ _ _ _ present _ written =>
      rw [written, Option.some.injEq] at found
      exact found ▸ (answering.rows job _ present).withClaim
  | completed held same present _ written =>
      rw [written, Option.some.injEq] at found
      have answer := answering.persisting _ _ _ _ _ held (same ▸ present)
      exact found ▸ answer ▸ .withResult
  | @released id _ _ _ _ _ _ held | @failed id _ _ _ _ _ _ held =>
      have errorless := answering.errorless id
      rw [held] at errorless
      cases errorless
  | enqueued present written =>
      rw [written, Option.some.injEq] at found
      exact found ▸ (answering.rows job _ present).withEnqueued
  | enqueueFailed _ written =>
      rw [written, Option.some.injEq] at found
      exact found ▸ .withEnqueueFailed

/-- Every step that scores as the provider does keeps the workers answering. -/
theorem answering_step (consistent : Consistent state) (drafts : DraftRows env state)
    (answering : Answering score state) (step : Step env state action next)
    (fine : ScoredBy score state action next) : Answering score next where
  rows _ _ found := rows_answered drafts answering step found
  scoring id attempt read row held found := by
    rcases worker_source step id with unmoved | ⟨_, _, move⟩
    · rw [unmoved] at held
      obtain ⟨before, present⟩ := inWindow_row consistent (by rw [held]; rfl) rfl
      exact (conversation_kept step present found).trans
        (answering.scoring id attempt read before held present)
    · exact conversation_kept step (move.scoring_source held) found
  persisting id attempt outcome since row held found := by
    rcases worker_source step id with unmoved | ⟨call, rfl, move⟩
    · rw [unmoved] at held
      obtain ⟨before, present⟩ := inWindow_row consistent (by rw [held]; rfl) rfl
      rw [conversation_kept step present found]
      exact answering.persisting id attempt outcome since before held present
    · obtain ⟨read, scoring, rfl⟩ := move.persisting_source held
      obtain ⟨before, present⟩ := inWindow_row consistent (by rw [scoring]; rfl) rfl
      rw [conversation_kept step present found,
        answering.scoring id attempt read before scoring present]
      exact Worker.ScoreReply.outcome.inj (fine id attempt read _ scoring rfl)
  errorless id := by
    rcases worker_source step id with unmoved | ⟨call, rfl, move⟩
    · rw [unmoved]
      exact answering.errorless id
    · by_contra handles
      obtain ⟨attempt, read, error, jitter, scoring, rfl⟩ :=
        move.error_source (Bool.not_eq_false _ ▸ handles)
      cases fine id attempt read _ scoring rfl

/-- In a run that scores by a function, every row stores what the function says. -/
theorem reached_answering (reached : (system env).Reached (ScoredBy score) state) :
    Answering score state := by
  refine reached.invariantWithin ?_ ?_
  · rintro _ ⟨now, rfl⟩
    refine ⟨?_, ?_, ?_, fun _ => rfl⟩
    · intro job row found
      cases found
    · intro id attempt read row held
      cases held
    · intro id attempt outcome since row held
      cases held
  · intro before action after earlier answering stepped fine
    exact answering_step (reached_consistent earlier) (reached_drafts earlier) answering
      (step_cases stepped) fine

/-- With the fake provider every completed job stores the result of its messages, at no cost, and
its sentiment is negative exactly when one of them mentions a keyword of the upper bands. Jobs with
the same messages store the same result, and a job fails only when its publish does. -/
theorem fake_results {sha256 : Text → Digest} {provider : FakeProvider}
    (reached : (system env).Reached (ScoredBy (provider.score sha256)) state)
    (present : state.shared.jobs job = some row) :
    (row.status = .completed →
      row.storedResult = (provider.score sha256 row.conversation).stored ∧
      row.estimatedCostUsd = some 0 ∧
      (row.sentiment = some .negative ↔ ∃ message ∈ row.conversation.messages,
        mentions (urgentWords ++ highWords) (lower message.2) = true)) ∧
    (row.status = .failed → row.lastErrorType = some .enqueueFailed) ∧
    (row.status = .pending → row.attemptCount = 0) ∧
    ∀ other twin, state.shared.jobs other = some twin → row.status = .completed →
      twin.status = .completed → row.conversation.messages = twin.conversation.messages →
        row.storedResult = twin.storedResult := by
  have rows := (reached_answering reached).rows
  have answered := rows job row present
  refine ⟨fun completed => ?_, answered.failed, answered.pending, ?_⟩
  · have stored := answered.completed completed
    have sentiment : row.sentiment = some (fakeResult (sha256 (buildUserInput row.conversation))
        (buildUserInput row.conversation)).sentiment := congrArg StoredResult.sentiment stored
    refine ⟨stored, congrArg StoredResult.estimatedCostUsd stored, ?_⟩
    rw [sentiment, Option.some.injEq, fakeResult, fakeSentiment_negative_iff]
    exact fakeRisk_upper_iff _
  · intro other twin found completed alsoCompleted same
    rw [answered.completed completed, (rows other twin found).completed alsoCompleted,
      provider.score_messages sha256 same]

/-- Every score of the step is the provider's. -/
def checkScores (score : NormalizedConversation → ScoringOutcome) (before : State) : Action → Bool
  | .worker id (.score (.outcome outcome)) =>
      match before.workers id with
      | .scoring _ row => decide (outcome = score row.conversation)
      | _ => true
  | .worker id (.score (.error _ _)) =>
      match before.workers id with
      | .scoring _ _ => false
      | _ => true
  | _ => true

theorem checkScores_sound {before after : State} (checked : checkScores score before action = true) :
    ScoredBy score before action after := by
  rintro id attempt row reply scoring rfl
  cases reply with
  | outcome outcome =>
      simp only [checkScores, scoring, decide_eq_true_eq] at checked
      rw [checked]
  | error => simp [checkScores, scoring] at checked

/-- The bytes of the digest for the input of the smallest conversation. -/
def smallestDigest (_ : Text) : Digest := fun index =>
  [179, 148, 34, 219, 57, 177, 216, 192, 201, 100, 198, 145, 17, 96, 233, 83, 199, 105, 131, 218,
    251, 230, 70, 76, 189, 255, 184, 24, 80, 57, 170, 129].get index

def smallestAnswer : ScoringOutcome :=
  FakeProvider.default.score smallestDigest ConversationInput.smallest.normalized

/-- One conversation arrives through both doors, once with a channel, and is scored twice. -/
def twiceSchedule : List Action :=
  [.submit 1 .smallest 3 0, .api 1 (.publish .delivered), .api 1 .markEnqueued, .api 1 .respond,
    .api 1 .commit, .createJob 2 .routed 3 "s3://incoming/a.json".toList 0,
    .ingest 2 (.publish .delivered), .worker 1 (.receive ⟨0, some 1⟩), .worker 1 (.claim 0),
    .worker 2 (.receive ⟨1, some 2⟩), .worker 2 (.claim 0), .worker 2 .readJob, .worker 1 .readJob,
    .worker 1 (.score (.outcome smallestAnswer)), .worker 2 (.score (.outcome smallestAnswer)),
    .worker 2 (.complete 0), .worker 1 (.complete 0)]

/-- Both jobs store the same result. -/
theorem fake_results_twice : ∃ state row twin,
    (system sampleEnvironment).Reached (ScoredBy (FakeProvider.default.score smallestDigest)) state ∧
    state.shared.jobs 1 = some row ∧ state.shared.jobs 2 = some twin ∧
    row.conversation ≠ twin.conversation ∧ row.storedResult = twin.storedResult := by
  have ran : (((system sampleEnvironment).guarded
      (checkScores (FakeProvider.default.score smallestDigest))).run (initial 0) twiceSchedule).map
      (fun state => ((state.shared.jobs 1).map fun row => (row.status, row.conversation),
        (state.shared.jobs 2).map fun row => (row.status, row.conversation))) =
      some (some (.completed, ConversationInput.smallest.normalized),
        some (.completed, ConversationInput.routed.normalized)) := by
    decide +kernel
  obtain ⟨state, path, seen⟩ := System.guarded_observed ran fun _ _ _ => checkScores_sound
  obtain ⟨first, second⟩ := Prod.mk.inj seen
  obtain ⟨row, present, shown⟩ := Option.map_eq_some_iff.mp first
  obtain ⟨twin, found, alsoShown⟩ := Option.map_eq_some_iff.mp second
  obtain ⟨completed, conversation⟩ := Prod.mk.inj shown
  obtain ⟨alsoCompleted, alsoConversation⟩ := Prod.mk.inj alsoShown
  have reached : (system sampleEnvironment).Reached
      (ScoredBy (FakeProvider.default.score smallestDigest)) state := ⟨_, ⟨0, rfl⟩, path⟩
  refine ⟨state, row, twin, reached, present, found, ?_, ?_⟩
  · rw [conversation, alsoConversation]
    decide
  · refine (fake_results reached present).2.2.2 2 twin found completed alsoCompleted ?_
    rw [conversation, alsoConversation]
    rfl

end Pipeline
end ConvoScore
