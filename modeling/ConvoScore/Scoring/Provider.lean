import ConvoScore.Schema.Conversation

namespace ConvoScore

def rationaleMaxChars : Nat := 300

/-- A scoring result has passed the contract's validation. -/
@[ext]
structure ScoringResult where
  sentiment : Sentiment
  riskScore : Int
  rationale : Text
  riskFloor : 0 ≤ riskScore
  riskCeiling : riskScore ≤ 100
  rationaleNonempty : 1 ≤ rationale.length
  rationaleBounded : rationale.length ≤ rationaleMaxChars

/-- Two scoring results are equal when their data are. -/
instance : DecidableEq ScoringResult :=
  fun _ _ => decidable_of_iff _ ScoringResult.ext_iff.symm

/-- An outcome adds what the row records about how the score was produced. -/
structure ScoringOutcome where
  result : ScoringResult
  model : Text
  promptTokens : Option Int
  completionTokens : Option Int
  totalTokens : Option Int
  latencyMs : Int
  estimatedCostUsd : Option Rat
  promptVersion : Text
  schemaVersion : Text
  pricingVersion : Text
  deriving DecidableEq

def currentPromptVersion : Text := "v1".toList
def currentSchemaVersion : Text := "1".toList

/-- A calm conversation has a low score; its tokens and its cost are unknown. -/
def ScoringOutcome.calm : ScoringOutcome where
  result := {
    sentiment := .neutral
    riskScore := 5
    rationale := "calm".toList
    riskFloor := by decide
    riskCeiling := by decide
    rationaleNonempty := by decide
    rationaleBounded := by decide }
  model := "mock".toList
  promptTokens := none
  completionTokens := none
  totalTokens := none
  latencyMs := 1
  estimatedCostUsd := none
  promptVersion := currentPromptVersion
  schemaVersion := currentSchemaVersion
  pricingVersion := "none".toList

/-- Everything that a provider fails with is one of these classes. -/
inductive LLMError
  | base (message : Text)
  | transient (message : Text) (errorType : ErrorType)
  | permanent (message : Text)
  | invalidResponse (message : Text)
  deriving DecidableEq

def LLMError.errorType : LLMError → ErrorType
  | .base _ => .internalError
  | .transient _ errorType => errorType
  | .permanent _ => .clientError
  | .invalidResponse _ => .invalidLlmResponse

/-- A raw error of the base class is retried like a transient one. -/
def LLMError.isTransient : LLMError → Bool
  | .base _ | .transient _ _ => true
  | .permanent _ | .invalidResponse _ => false

def LLMError.isPermanent : LLMError → Bool
  | .permanent _ => true
  | .base _ | .transient _ _ | .invalidResponse _ => false

/-- This text is `str(error)`. -/
def LLMError.message : LLMError → Text
  | .base message | .transient message _ | .permanent message | .invalidResponse message => message

end ConvoScore
