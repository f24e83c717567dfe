import ConvoScore.Repository.Totals
import ConvoScore.Worker.Counters
import Mathlib.Algebra.Order.BigOperators.Group.List
import Mathlib.Algebra.Order.Ring.Int
import Mathlib.Data.List.TakeWhile

namespace ConvoScore.Worker
open Library

/-- The counters that `_record_success_metrics` increments, each by an amount.
The histogram that observes the latency accepts every number. -/
inductive Increment
  | llmCalls
  | promptTokens (amount : Int)
  | completionTokens (amount : Int)
  | estimatedCost (amount : Rat)
  | pricingUnknown

/-- `float` rounds a negative cost above this to zero. -/
def negligibleCost : Rat := -(1 / 2 ^ 1075)

/-- A counter raises for a negative amount. -/
def Increment.negative : Increment → Bool
  | .llmCalls | .pricingUnknown => false
  | .promptTokens amount | .completionTokens amount => decide (amount < 0)
  | .estimatedCost amount => decide (amount < negligibleCost)

/-- The increments that `_record_success_metrics` tries in this order. -/
def successIncrements (outcome : ScoringOutcome) : List Increment :=
  .llmCalls :: (outcome.promptTokens.map .promptTokens).toList ++
    (outcome.completionTokens.map .completionTokens).toList ++
    [(outcome.estimatedCostUsd.map .estimatedCost).getD .pricingUnknown]

/-- The increments that are made, and whether the next one raises. -/
def recordSuccessMetrics (outcome : ScoringOutcome) : List Increment × Bool :=
  ((successIncrements outcome).takeWhile fun increment => !increment.negative,
    (successIncrements outcome).any Increment.negative)

/-- The counters take the tokens and the cost of an outcome. -/
def countable (outcome : ScoringOutcome) : Bool :=
  outcome.promptTokens.all (fun tokens => decide (0 ≤ tokens)) &&
    outcome.completionTokens.all (fun tokens => decide (0 ≤ tokens)) &&
    outcome.estimatedCostUsd.all fun cost => decide (negligibleCost ≤ cost)

/-- The metrics raise exactly for an outcome that the counters do not take. -/
theorem recordSuccessMetrics_raises (outcome : ScoringOutcome) :
    (recordSuccessMetrics outcome).2 = !countable outcome := by
  rw [Bool.eq_iff_iff, Bool.not_eq_true', ← Bool.not_eq_true]
  cases prompt : outcome.promptTokens <;> cases completion : outcome.completionTokens <;>
    cases cost : outcome.estimatedCostUsd <;>
    simp [recordSuccessMetrics, successIncrements, countable, Increment.negative, prompt,
      completion, cost, imp_iff_not_or, or_assoc]

/-- What both the counters and the statistics report about the answers of the provider:
`llm_tokens_total` of each kind and `llm_calls_total` with the outcome `success`. -/
inductive Usage
  | promptTokens
  | completionTokens
  | successfulCalls
  deriving DecidableEq

namespace Usage

/-- What one increment adds to the counter. -/
def amount : Usage → Increment → Int
  | .promptTokens, .promptTokens amount => amount
  | .completionTokens, .completionTokens amount => amount
  | .successfulCalls, .llmCalls => 1
  | _, _ => 0

/-- What the counter goes up by for an answer. -/
def counted (usage : Usage) (outcome : ScoringOutcome) : Int :=
  ((recordSuccessMetrics outcome).1.map usage.amount).sum

/-- What the statistics sum up; a row with a sentiment stands for one call. -/
def column : Usage → Conversation → Option Int
  | .promptTokens, row => row.promptTokens
  | .completionTokens, row => row.completionTokens
  | .successfulCalls, row => row.sentiment.map fun _ => 1

/-- What the statistics report. -/
def reported : Usage → Stats → Int
  | .promptTokens, stats => stats.promptTokens
  | .completionTokens, stats => stats.completionTokens
  | .successfulCalls, stats =>
      ((stats.bySentiment .positive).getD 0 + (stats.bySentiment .neutral).getD 0 +
        (stats.bySentiment .negative).getD 0 : Nat)

variable {usage : Usage} {outcome : ScoringOutcome} {row : Conversation} {now expiry : Timestamp}
  {error : Text} {errorType : ErrorType}

/-- No counter ever goes down. -/
theorem counted_nonneg : 0 ≤ usage.counted outcome := by
  refine List.sum_nonneg ?_
  intro amount member
  obtain ⟨increment, made, rfl⟩ := List.mem_map.mp member
  have fine := List.mem_takeWhile_imp made
  cases usage <;> cases increment <;> simp_all [Usage.amount, Increment.negative]

/-- An answer that raises nothing is counted as it is stored. -/
theorem counted_of_recorded (recorded : (recordSuccessMetrics outcome).2 = false) :
    usage.counted outcome = (usage.column (row.withResult now outcome)).getD 0 := by
  have all : (recordSuccessMetrics outcome).1 = successIncrements outcome := by
    refine List.takeWhile_eq_self_iff.mpr ?_
    intro increment member
    have fine := List.any_eq_false.mp recorded increment member
    simpa using fine
  rw [counted, all]
  cases prompt : outcome.promptTokens <;> cases completion : outcome.completionTokens <;>
    cases cost : outcome.estimatedCostUsd <;> cases usage <;>
    simp [successIncrements, prompt, completion, cost, Usage.amount, Usage.column,
      Conversation.withResult]

@[simp] theorem column_withEnqueued :
    usage.column (row.withEnqueued now) = usage.column row := by cases usage <;> rfl

@[simp] theorem column_withEnqueueFailed :
    usage.column (row.withEnqueueFailed now error) = usage.column row := by cases usage <;> rfl

@[simp] theorem column_withClaim :
    usage.column (row.withClaim now expiry) = usage.column row := by cases usage <;> rfl

@[simp] theorem column_withRelease :
    usage.column (row.withRelease now errorType error) = usage.column row := by cases usage <;> rfl

@[simp] theorem column_withFailure :
    usage.column (row.withFailure now errorType error) = usage.column row := by cases usage <;> rfl

@[simp] theorem column_createJob {sha256 : Text → Text} {id : Uuid}
    {conversation : ConversationInput} {source : JobSource} {maxAttempts : Nat}
    {sourceRef : Option Text} :
    usage.column (createJob sha256 id now conversation source maxAttempts sourceRef) = none := by
  cases usage <;> rfl

/-- The three groups of `by_sentiment` are the rows with a sentiment. -/
theorem countBy_sentiment (rows : List Conversation) :
    ((Query.countBy (·.sentiment) rows Sentiment.positive).getD 0 +
      (Query.countBy (·.sentiment) rows Sentiment.neutral).getD 0 +
      (Query.countBy (·.sentiment) rows Sentiment.negative).getD 0 : Nat) =
    Query.sum (fun row => row.sentiment.map fun _ => (1 : Int)) rows := by
  push_cast
  rw [countBy_sum, countBy_sum, countBy_sum]
  induction rows with
  | nil => rfl
  | cons row rest ih =>
      simp only [Query.sum_cons, ← ih]
      rcases sentiment : row.sentiment with _ | _ | _ | _ <;> simp <;> omega

/-- What the statistics report is the sum of the column. -/
theorem reported_stats (rows : List Conversation) :
    usage.reported (stats rows) = Query.sum usage.column rows := by
  cases usage with
  | promptTokens => rfl
  | completionTokens => rfl
  | successfulCalls => exact countBy_sentiment rows

/-- The answer that a step of the worker stores. -/
def saving (jobs : Jobs) : Phase → Action → Option (Attempt × ScoringOutcome)
  | .persisting attempt outcome _, .complete start =>
      if (completeJob start jobs attempt.job outcome).2 then some (attempt, outcome) else none
  | _, _ => none

/-- What the counter goes up by in a step. -/
def spent (usage : Usage) : Action → Int
  | .score (.outcome outcome) => usage.counted outcome
  | _ => 0

/-- What has been counted for an answer that is not stored yet. -/
def pending (usage : Usage) : Phase → Int
  | .persisting _ outcome _ => usage.counted outcome
  | _ => 0

/-- What has been counted for the answer that a step stores. -/
def saved (usage : Usage) (jobs : Jobs) (phase : Phase) (action : Action) : Int :=
  ((saving jobs phase action).map fun found => usage.counted found.2).getD 0

/-- What has been counted for an answer that a step gives up. -/
def dropped (usage : Usage) (jobs : Jobs) (phase : Phase) (action : Action) : Int :=
  if (saving jobs phase action).isSome then 0 else usage.pending phase

variable {settings : Settings} {shared next : Shared} {phase after : Phase} {action : Action}

theorem pending_nonneg : 0 ≤ usage.pending phase := by
  cases phase with
  | persisting => exact counted_nonneg
  | _ => exact le_rfl

theorem dropped_nonneg {jobs : Jobs} : 0 ≤ usage.dropped jobs phase action := by
  unfold dropped
  split
  · exact le_rfl
  · exact pending_nonneg

/-- A step that stores an answer completes the row of its attempt. -/
theorem saving_written {attempt : Attempt} (move : Move settings shared phase action next after)
    (found : saving shared.jobs phase action = some (attempt, outcome)) :
    ∃ since start row, phase = .persisting attempt outcome since ∧ action = .complete start ∧
      shared.jobs attempt.job = some row ∧ row.status = .processing ∧
      next = shared.write attempt.job (row.withResult start outcome) := by
  cases move with
  | completed _ _ present accepted =>
      rw [saving] at found
      split at found
      · cases found
        exact ⟨_, _, _, rfl, rfl, present, Conversation.isProcessing_iff.mp accepted, rfl⟩
      · cases found
  | lost _ _ rejected =>
      rw [saving] at found
      split at found
      · rename_i changed
        rw [completeJob, Table.updateWhere_rejects rejected] at changed
        cases changed
      · cases found
  | abandoned =>
      cases phase <;> cases found
  | crashed =>
      cases phase <;> cases found
  | _ => cases found

/-- What a worker counts is pending until it is stored or given up. -/
theorem pending_step (move : Move settings shared phase action next after) :
    usage.spent action + usage.pending phase =
      usage.saved shared.jobs phase action + usage.dropped shared.jobs phase action +
        usage.pending after := by
  have settled : usage.saved shared.jobs phase action + usage.dropped shared.jobs phase action =
      usage.pending phase := by
    cases found : saving shared.jobs phase action with
    | none => simp [saved, dropped, found]
    | some answer =>
        obtain ⟨since, start, row, rfl, _⟩ := saving_written move found
        simp [saved, dropped, found, pending]
  rw [settled, add_comm]
  refine congrArg _ ?_
  cases move <;> rfl

end Usage
end ConvoScore.Worker
