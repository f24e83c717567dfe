import ConvoScore.Demo.Tokens
import ConvoScore.Scoring.Pricing

namespace ConvoScore

/-- The classes of the OpenAI SDK that `classify_provider_error` asks for. -/
inductive OpenAiClass
  | apiTimeoutError
  | rateLimitError
  | internalServerError
  | apiConnectionError
  | authenticationError
  | permissionDeniedError
  | badRequestError
  | notFoundError
  | apiStatusError
  deriving DecidableEq

/-- What the classification reads of an exception; `own` is the exception if it is an `LLMError`. -/
structure ProviderException where
  own : Option LLMError
  isInstance : OpenAiClass → Bool
  statusCode : Option Int
  typeName : Text
  text : Text

/-- A missing status code counts as 0. -/
def ProviderException.status (exception : ProviderException) : Int := exception.statusCode.getD 0

def classifyProviderError (exception : ProviderException) : LLMError :=
  match exception.own with
  | some error => error
  | none =>
      if exception.isInstance .apiTimeoutError then .transient exception.text .timeout
      else if exception.isInstance .rateLimitError then .transient exception.text .rateLimited
      else if exception.isInstance .internalServerError then .transient exception.text .serverError
      else if exception.isInstance .apiConnectionError then
        .transient exception.text .connectionError
      else if exception.isInstance .authenticationError ||
          exception.isInstance .permissionDeniedError ||
          exception.isInstance .badRequestError || exception.isInstance .notFoundError then
        .permanent exception.text
      else if exception.isInstance .apiStatusError then
        if 500 ≤ exception.status then .transient exception.text .serverError
        else if exception.status = 429 then .transient exception.text .rateLimited
        else .permanent exception.text
      else .transient (exception.typeName ++ ": ".toList ++ exception.text) .internalError

/-- The token counts of a response, each of which may be missing. -/
structure ResponseUsage where
  inputTokens : Option Int
  outputTokens : Option Int
  totalTokens : Option Int

/-- What `score` reads of a response of the SDK; the status is the text that an f-string shows. -/
structure SdkResponse where
  outputParsed : Option RawResult
  status : Text
  usage : Option ResponseUsage
  model : Option Text

/-- A call of the SDK gives a response after some time, or it raises. -/
inductive SdkResult
  | response (response : SdkResponse) (latencyMs : Int)
  | raised (exception : ProviderException)

def usageOf : Option ResponseUsage → Option Int × Option Int × Option Int
  | none => (none, none, none)
  | some usage =>
      let total := match usage.totalTokens, usage.inputTokens, usage.outputTokens with
        | some total, _, _ => some total
        | none, some input, some output => some (input + output)
        | none, _, _ => none
      (usage.inputTokens, usage.outputTokens, total)

/-- A response without a model, or with an empty one, was made by the model that was asked for. -/
def servedModel (asked : Text) : Option Text → Text
  | none | some [] => asked
  | some model => model

def currentPricingVersion : Text := "2026-09".toList

/-- A provider knows its model; the text explains a result that the contract rejects. -/
structure OpenAiProvider where
  model : Text
  explain : RawResult → Text

/-- A score fails with one of the provider's errors; an estimate that raises is none of them. -/
inductive ScoreFailure
  | llm (error : LLMError)
  | cost (error : CostError)

namespace OpenAiProvider

def score (provider : OpenAiProvider) : SdkResult → Except ScoreFailure ScoringOutcome
  | .raised exception => .error (.llm (classifyProviderError exception))
  | .response response latencyMs =>
      match response.outputParsed with
      | none => .error (.llm (.invalidResponse
          ("model returned no parsable result (status=".toList ++ response.status ++ ")".toList)))
      | some parsed =>
          match ScoringResult.modelValidate parsed with
          | none => .error (.llm (.invalidResponse
              ("response failed contract validation: ".toList ++ provider.explain parsed)))
          | some result =>
              let (promptTokens, completionTokens, totalTokens) := usageOf response.usage
              let served := servedModel provider.model response.model
              match estimateCost served promptTokens completionTokens with
              | .error error => .error (.cost error)
              | .ok estimatedCostUsd => .ok
                  { result
                    model := served
                    promptTokens
                    completionTokens
                    totalTokens
                    latencyMs
                    estimatedCostUsd
                    promptVersion := currentPromptVersion
                    schemaVersion := currentSchemaVersion
                    pricingVersion := currentPricingVersion }

end OpenAiProvider

/-- The class hierarchy of the SDK: a timeout is a connection error, every other class is a status
error, and the class of a status error tells its code. -/
structure ProviderException.Documented (exception : ProviderException) : Prop where
  foreign : exception.own = none
  timeout : exception.isInstance .apiTimeoutError = true →
    exception.isInstance .apiConnectionError = true
  connection : exception.isInstance .apiConnectionError = true →
    exception.isInstance .apiStatusError = false
  rateLimit : exception.isInstance .rateLimitError = true →
    exception.isInstance .apiStatusError = true ∧ exception.statusCode = some 429
  server : exception.isInstance .internalServerError = true →
    exception.isInstance .apiStatusError = true ∧ ∃ code, exception.statusCode = some code ∧ 500 ≤ code
  authentication : exception.isInstance .authenticationError = true →
    exception.isInstance .apiStatusError = true ∧ exception.statusCode = some 401
  permission : exception.isInstance .permissionDeniedError = true →
    exception.isInstance .apiStatusError = true ∧ exception.statusCode = some 403
  badRequest : exception.isInstance .badRequestError = true →
    exception.isInstance .apiStatusError = true ∧ exception.statusCode = some 400
  notFound : exception.isInstance .notFoundError = true →
    exception.isInstance .apiStatusError = true ∧ exception.statusCode = some 404

/-- What a result means to a caller that only knows the documentation of the SDK. -/
inductive ResultKind
  | valid
  | unusable
  | refused
  | temporary
  deriving DecidableEq

/-- A status below 500 other than 429 refuses the request; everything else may pass. -/
def SdkResult.kind : SdkResult → ResultKind
  | .response answer _ =>
      if (answer.outputParsed.bind ScoringResult.modelValidate).isSome then .valid else .unusable
  | .raised exception =>
      if exception.isInstance .apiStatusError = true ∧ exception.status < 500 ∧
          exception.status ≠ 429 then .refused
      else .temporary

def SdkResult.Documented : SdkResult → Prop
  | .response .. => True
  | .raised exception => exception.Documented

section Classification
variable {exception : ProviderException}

theorem ProviderException.Documented.unconnected (documented : exception.Documented)
    (answered : exception.isInstance .apiStatusError = true) :
    exception.isInstance .apiTimeoutError = false ∧
      exception.isInstance .apiConnectionError = false := by
  have connected : exception.isInstance .apiConnectionError = false := by
    by_contra connects
    rw [documented.connection (Bool.of_not_eq_false connects)] at answered
    cases answered
  refine ⟨?_, connected⟩
  by_contra timeout
  rw [documented.timeout (Bool.of_not_eq_false timeout)] at connected
  cases connected

/-- A status error is translated by its code alone, whatever class it has. -/
theorem classify_status (documented : exception.Documented)
    (answered : exception.isInstance .apiStatusError = true) :
    classifyProviderError exception =
      if 500 ≤ exception.status then .transient exception.text .serverError
      else if exception.status = 429 then .transient exception.text .rateLimited
      else .permanent exception.text := by
  obtain ⟨noTimeout, noConnection⟩ := documented.unconnected answered
  simp only [classifyProviderError, documented.foreign, noTimeout, noConnection]
  by_cases limited : exception.isInstance .rateLimitError = true
  · have code : exception.status = 429 := by
      rw [ProviderException.status, (documented.rateLimit limited).2]
      rfl
    simp [limited, code]
  · by_cases broken : exception.isInstance .internalServerError = true
    · obtain ⟨_, code, coded, large⟩ := documented.server broken
      have status : exception.status = code := by
        rw [ProviderException.status, coded]
        rfl
      simp [limited, broken, status, large]
    · by_cases refused : (exception.isInstance .authenticationError ||
          exception.isInstance .permissionDeniedError ||
          exception.isInstance .badRequestError || exception.isInstance .notFoundError) = true
      · have code : exception.status = 401 ∨ exception.status = 403 ∨ exception.status = 400 ∨
            exception.status = 404 := by
          simp only [Bool.or_eq_true] at refused
          unfold ProviderException.status
          rcases refused with ((authentication | permission) | badRequest) | notFound
          · exact .inl (by rw [(documented.authentication authentication).2]; rfl)
          · exact .inr (.inl (by rw [(documented.permission permission).2]; rfl))
          · exact .inr (.inr (.inl (by rw [(documented.badRequest badRequest).2]; rfl)))
          · exact .inr (.inr (.inr (by rw [(documented.notFound notFound).2]; rfl)))
        have small : ¬ 500 ≤ exception.status ∧ exception.status ≠ 429 := by omega
        simp [limited, broken, refused, small.1, small.2]
      · simp [limited, broken, refused, answered]

/-- An exception that is no status error is translated to a temporary failure. -/
theorem classify_unanswered (documented : exception.Documented)
    (unanswered : exception.isInstance .apiStatusError = false) :
    ∃ message errorType, classifyProviderError exception = .transient message errorType := by
  have never : ∀ name, (exception.isInstance name = true →
      exception.isInstance .apiStatusError = true) → exception.isInstance name = false := by
    intro name answered
    by_contra holds
    rw [answered (Bool.of_not_eq_false holds)] at unanswered
    cases unanswered
  simp only [classifyProviderError, documented.foreign, unanswered,
    never .authenticationError fun holds => (documented.authentication holds).1,
    never .permissionDeniedError fun holds => (documented.permission holds).1,
    never .badRequestError fun holds => (documented.badRequest holds).1,
    never .notFoundError fun holds => (documented.notFound holds).1]
  split
  · exact ⟨_, _, rfl⟩
  · split
    · exact ⟨_, _, rfl⟩
    · split
      · exact ⟨_, _, rfl⟩
      · split <;> exact ⟨_, _, rfl⟩

end Classification

namespace OpenAiProvider
variable (provider : OpenAiProvider) {result : SdkResult}

/-- A usable response becomes an outcome unless its estimate raises. -/
theorem score_valid (valid : result.kind = .valid) (error : LLMError) :
    provider.score result ≠ .error (.llm error) := by
  cases result with
  | raised exception =>
      simp only [SdkResult.kind] at valid
      split at valid <;> cases valid
  | response response latencyMs =>
      simp only [SdkResult.kind] at valid
      cases parsed : response.outputParsed with
      | none => simp [parsed] at valid
      | some raw =>
          cases accepted : ScoringResult.modelValidate raw with
          | none => simp [parsed, accepted] at valid
          | some scored =>
              simp only [score, parsed, accepted]
              split <;> simp

theorem score_unusable (unusable : result.kind = .unusable) :
    ∃ message, provider.score result = .error (.llm (.invalidResponse message)) := by
  cases result with
  | raised exception =>
      simp only [SdkResult.kind] at unusable
      split at unusable <;> cases unusable
  | response response latencyMs =>
      simp only [SdkResult.kind] at unusable
      cases parsed : response.outputParsed with
      | none => exact ⟨_, by simp only [score, parsed]; rfl⟩
      | some raw =>
          cases accepted : ScoringResult.modelValidate raw with
          | none => exact ⟨_, by simp only [score, parsed, accepted]; rfl⟩
          | some scored => simp [parsed, accepted] at unusable

theorem score_refused (documented : result.Documented) (refused : result.kind = .refused) :
    ∃ message, provider.score result = .error (.llm (.permanent message)) := by
  cases result with
  | response response latencyMs =>
      simp only [SdkResult.kind] at refused
      split at refused <;> cases refused
  | raised exception =>
      simp only [SdkResult.kind] at refused
      split at refused
      · rename_i answered
        obtain ⟨status, small, other⟩ := answered
        refine ⟨exception.text, ?_⟩
        rw [score, classify_status documented status, if_neg (Int.not_le.mpr small), if_neg other]
      · cases refused

theorem score_temporary (documented : result.Documented) (temporary : result.kind = .temporary) :
    ∃ message errorType, provider.score result = .error (.llm (.transient message errorType)) := by
  cases result with
  | response response latencyMs =>
      simp only [SdkResult.kind] at temporary
      split at temporary <;> cases temporary
  | raised exception =>
      have translated : ∃ message errorType,
          classifyProviderError exception = .transient message errorType := by
        cases answered : exception.isInstance .apiStatusError with
        | false => exact classify_unanswered documented answered
        | true =>
            rw [classify_status documented answered]
            simp only [SdkResult.kind, answered, true_and] at temporary
            split at temporary
            · cases temporary
            · rename_i passing
              by_cases large : 500 ≤ exception.status
              · exact ⟨_, _, if_pos large⟩
              · have limited : exception.status = 429 := by omega
                exact ⟨_, _, by rw [if_neg large, if_pos limited]⟩
      obtain ⟨message, errorType, same⟩ := translated
      exact ⟨message, errorType, by rw [score, same]⟩

end OpenAiProvider
end ConvoScore
