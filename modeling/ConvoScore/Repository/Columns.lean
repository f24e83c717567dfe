import ConvoScore.Repository.Jobs
import Mathlib.Algebra.Order.Floor.Ring
import Mathlib.Data.Rat.Floor

namespace ConvoScore
open Library

/-- PostgreSQL rejects a text that contains U+0000. -/
def storableText (text : Text) : Bool := text.all fun letter => letter ≠ Char.ofNat 0

/-- A `VARCHAR` column also bounds the length of its text. -/
def storableVarchar (bound : Nat) (text : Text) : Bool :=
  storableText text && text.length ≤ bound

/-- This is the first number that an `Integer` column rejects. -/
def integerBound : Nat := 2 ^ 31

/-- JSONB rejects U+0000 in any of its texts. -/
def NormalizedConversation.storable (payload : NormalizedConversation) : Bool :=
  payload.messages.all (fun message => storableText message.2) &&
    payload.channel.all storableText && payload.tags.all storableText &&
    payload.externalId.all storableText

/-- The payload and the reference hold the texts that an object brings in;
the hash, the counters and the enumerations of a new row always fit their columns. -/
def Conversation.storable (row : Conversation) : Bool :=
  row.conversation.storable && row.sourceRef.all storableText

/-- An `Integer` column holds four bytes. -/
def storableInteger (value : Int) : Bool :=
  decide (-integerBound ≤ value) && decide (value < integerBound)

/-- A `SmallInteger` column holds two bytes. -/
def storableSmallInteger (value : Int) : Bool := decide (-2 ^ 15 ≤ value) && decide (value < 2 ^ 15)

/-- A `Numeric` column rounds to its scale and bounds the digits before it. -/
def storableNumeric (precision scale : Nat) (value : Rat) : Bool :=
  decide (⌊|value| * 10 ^ scale + 1 / 2⌋ < 10 ^ precision)

def JobStatus.value : JobStatus → Text
  | .pending => "pending".toList
  | .processing => "processing".toList
  | .completed => "completed".toList
  | .failed => "failed".toList

def JobSource.value : JobSource → Text
  | .api => "api".toList
  | .s3 => "s3".toList

def ErrorType.value : ErrorType → Text
  | .timeout => "timeout".toList
  | .rateLimited => "rate_limited".toList
  | .serverError => "server_error".toList
  | .connectionError => "connection_error".toList
  | .invalidLlmResponse => "invalid_llm_response".toList
  | .clientError => "client_error".toList
  | .enqueueFailed => "enqueue_failed".toList
  | .maxAttemptsExhausted => "max_attempts_exhausted".toList
  | .internalError => "internal_error".toList

def Sentiment.value : Sentiment → Text
  | .positive => "positive".toList
  | .neutral => "neutral".toList
  | .negative => "negative".toList

namespace Conversation

/-- The columns that only the insert writes, with the check constraint on the source. -/
def inputAccepted (row : Conversation) : Bool :=
  row.storable && storableVarchar 16 row.source.value &&
    ["api".toList, "s3".toList].contains row.source.value &&
    storableVarchar 64 row.conversationHash && storableInteger row.messageCount &&
    storableInteger row.maxAttempts

/-- The columns of the job's life, with their two check constraints. -/
def lifecycleAccepted (row : Conversation) : Bool :=
  storableVarchar 16 row.status.value &&
    ["pending".toList, "processing".toList, "completed".toList, "failed".toList].contains
      row.status.value &&
    storableInteger row.attemptCount && decide (0 ≤ (row.attemptCount : Int)) &&
    row.lastErrorType.all (fun type => storableVarchar 32 type.value) &&
    row.lastError.all storableText

/-- The columns of the result, with their two check constraints. -/
def resultAccepted (row : Conversation) : Bool :=
  row.sentiment.all (fun sentiment => storableVarchar 16 sentiment.value &&
      ["positive".toList, "neutral".toList, "negative".toList].contains sentiment.value) &&
    row.riskScore.all (fun score => storableSmallInteger score &&
      decide (0 ≤ score) && decide (score ≤ 100)) &&
    row.rationale.all storableText &&
    row.model.all (storableVarchar 64) &&
    row.promptVersion.all (storableVarchar 16) &&
    row.schemaVersion.all (storableVarchar 16) &&
    row.promptTokens.all storableInteger &&
    row.completionTokens.all storableInteger &&
    row.totalTokens.all storableInteger &&
    row.llmLatencyMs.all storableInteger &&
    row.estimatedCostUsd.all (storableNumeric 12 8) &&
    row.pricingVersion.all (storableVarchar 16)

/-- Every column type and check constraint of `conversations` accepts the row. -/
def accepted (row : Conversation) : Bool :=
  row.inputAccepted && row.lifecycleAccepted && row.resultAccepted

end Conversation

/-- The free fields of an outcome fit the columns that they are written to. -/
def ScoringOutcome.storable (outcome : ScoringOutcome) : Bool :=
  storableText outcome.result.rationale &&
    storableVarchar 64 outcome.model &&
    storableVarchar 16 outcome.promptVersion &&
    storableVarchar 16 outcome.schemaVersion &&
    outcome.promptTokens.all storableInteger &&
    outcome.completionTokens.all storableInteger &&
    outcome.totalTokens.all storableInteger &&
    storableInteger outcome.latencyMs &&
    outcome.estimatedCostUsd.all (storableNumeric 12 8) &&
    storableVarchar 16 outcome.pricingVersion

/-- The text of an error is stored truncated. -/
def LLMError.storable (error : LLMError) : Bool :=
  storableText (truncate error.message)

/-- A text that can be stored can be stored truncated. -/
theorem storableText_truncate {text : Text} (storable : storableText text = true) :
    storableText (truncate text) = true := by
  unfold truncate
  split
  · exact storable
  · rw [storableText, List.all_append, Bool.and_eq_true]
    refine ⟨List.all_eq_true.mpr fun letter member => ?_, by decide⟩
    exact List.all_eq_true.mp storable letter (List.mem_of_mem_take member)

variable {row : Conversation} {now : Timestamp} {errorType : ErrorType} {error : Text}
  {outcome : ScoringOutcome}

/-- Every error type fits its column. -/
theorem ErrorType.value_accepted (type : ErrorType) :
    storableVarchar 32 type.value = true := by
  cases type <;> rfl

theorem Sentiment.value_accepted (sentiment : Sentiment) :
    (storableVarchar 16 sentiment.value &&
      ["positive".toList, "neutral".toList, "negative".toList].contains sentiment.value) = true := by
  cases sentiment <;> rfl

theorem JobStatus.value_accepted (status : JobStatus) :
    (storableVarchar 16 status.value && ["pending".toList, "processing".toList,
      "completed".toList, "failed".toList].contains status.value) = true := by
  cases status <;> rfl

theorem storableSmallInteger_percentage {score : Int} (floor : 0 ≤ score) (ceiling : score ≤ 100) :
    storableSmallInteger score = true := by
  simp only [storableSmallInteger, Bool.and_eq_true, decide_eq_true_eq]
  omega

namespace Conversation

/-- The columns of an accepted row are accepted group by group. -/
theorem accepted_iff : row.accepted = true ↔
    row.inputAccepted = true ∧ row.lifecycleAccepted = true ∧ row.resultAccepted = true := by
  simp only [accepted, Bool.and_eq_true, and_assoc]

/-- A row of another status and error has its life accepted when the error text is. -/
theorem lifecycleAccepted_of {later : Conversation} (stored : row.lifecycleAccepted = true)
    (attempts : later.attemptCount = row.attemptCount) :
    later.lifecycleAccepted = later.lastError.all storableText := by
  have status := later.status.value_accepted
  have type : later.lastErrorType.all (fun type => storableVarchar 32 type.value) = true := by
    cases later.lastErrorType with
    | none => rfl
    | some type => exact type.value_accepted
  simp only [lifecycleAccepted, Bool.and_eq_true] at stored
  obtain ⟨⟨⟨⟨_, counted⟩, positive⟩, _⟩, _⟩ := stored
  simp only [lifecycleAccepted, status, type, attempts, counted, positive, Bool.true_and]

/-- A completed row is accepted exactly when the outcome fits its columns. -/
theorem withResult_accepted (stored : row.accepted = true) :
    (row.withResult now outcome).accepted = outcome.storable := by
  obtain ⟨input, lifecycle, _⟩ := accepted_iff.mp stored
  have sameInput : (row.withResult now outcome).inputAccepted = true := input
  have sameLife : (row.withResult now outcome).lifecycleAccepted = true :=
    lifecycleAccepted_of lifecycle rfl
  have sentiment := outcome.result.sentiment.value_accepted
  have score := storableSmallInteger_percentage outcome.result.riskFloor outcome.result.riskCeiling
  have floor := decide_eq_true outcome.result.riskFloor
  have ceiling := decide_eq_true outcome.result.riskCeiling
  simp only [accepted, sameInput, sameLife, Bool.true_and]
  simp only [resultAccepted, Conversation.withResult, Option.all_some, sentiment, score, floor,
    ceiling, Bool.and_self, Bool.true_and, ScoringOutcome.storable]

/-- A released or failed row is accepted exactly when the text of its error is. -/
theorem withRelease_accepted (stored : row.accepted = true) :
    (row.withRelease now errorType error).accepted = storableText (truncate error) := by
  obtain ⟨input, lifecycle, result⟩ := accepted_iff.mp stored
  have sameInput : (row.withRelease now errorType error).inputAccepted = true := input
  have sameResult : (row.withRelease now errorType error).resultAccepted = true := result
  simp only [accepted, sameInput, sameResult, Bool.true_and, Bool.and_true]
  exact lifecycleAccepted_of lifecycle rfl

theorem withFailure_accepted (stored : row.accepted = true) :
    (row.withFailure now errorType error).accepted = storableText (truncate error) := by
  obtain ⟨input, lifecycle, result⟩ := accepted_iff.mp stored
  have sameInput : (row.withFailure now errorType error).inputAccepted = true := input
  have sameResult : (row.withFailure now errorType error).resultAccepted = true := result
  simp only [accepted, sameInput, sameResult, Bool.true_and, Bool.and_true]
  exact lifecycleAccepted_of lifecycle rfl

end Conversation
end ConvoScore
