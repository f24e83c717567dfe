import ConvoScore.Repository.Totals
import Mathlib.Algebra.Order.Ring.Int

namespace ConvoScore
open Library

/-- Each statement of `stats` has its own scan of the table. -/
def statsOver (statuses sources sentiments totals : List Conversation) : Stats :=
  {stats totals with
    byStatus := countByStatus statuses
    bySource := Query.countBy (fun row => some row.source) sources
    bySentiment := Query.countBy (·.sentiment) sentiments}

/-- A status without jobs is shown as 0. -/
structure StatusCounts where
  pending : Nat
  processing : Nat
  completed : Nat
  failed : Nat
  deriving DecidableEq

def StatusCounts.total (counts : StatusCounts) : Nat :=
  counts.pending + counts.processing + counts.completed + counts.failed

structure StatsResponse where
  totalJobs : Nat
  byStatus : StatusCounts
  bySource : JobSource → Option Nat
  bySentiment : Sentiment → Option Nat
  averageRiskScore : Option Rat
  maxRiskScore : Option Int
  promptTokens : Int
  completionTokens : Int
  totalTokens : Int
  estimatedCostUsd : Rat
  averageLlmLatencyMs : Option Rat

def getStats (data : Stats) : StatsResponse where
  totalJobs := data.totalJobs
  byStatus :=
    { pending := (data.byStatus .pending).getD 0
      processing := (data.byStatus .processing).getD 0
      completed := (data.byStatus .completed).getD 0
      failed := (data.byStatus .failed).getD 0 }
  bySource := data.bySource
  bySentiment := data.bySentiment
  averageRiskScore := data.averageRiskScore
  maxRiskScore := data.maxRiskScore
  promptTokens := data.promptTokens
  completionTokens := data.completionTokens
  totalTokens := data.totalTokens
  estimatedCostUsd := data.estimatedCostUsd
  averageLlmLatencyMs := data.averageLlmLatencyMs

/-- The jobs of every source in a response. -/
def StatsResponse.sourced (response : StatsResponse) : Nat :=
  (response.bySource .api).getD 0 + (response.bySource .s3).getD 0

/-- The jobs of every sentiment in a response. -/
def StatsResponse.scored (response : StatsResponse) : Nat :=
  (response.bySentiment .positive).getD 0 + (response.bySentiment .neutral).getD 0 +
    (response.bySentiment .negative).getD 0

/-- The gauge has a series for each status. -/
def jobsByStatus (rows : List Conversation) (status : JobStatus) : Nat :=
  (countByStatus rows status).getD 0

/-- The age is counted from the start of the transaction, which may come before the newest rows. -/
def oldestPendingAge (rows : List Conversation) (now : Timestamp) : Int :=
  match ((rows.filter Conversation.isUnfinished).map (·.createdAt)).min? with
  | none => 0
  | some oldest => max 0 ((now : Int) - oldest)

variable {jobs : Jobs} {rows statuses sources sentiments totals : List Conversation}

/-- The counts of all statuses are the counts of the rows. -/
theorem byStatus_total :
    (getStats (statsOver statuses sources sentiments totals)).byStatus.total = statuses.length := by
  have whole := countBy_total {.pending, .processing, .completed, .failed}
    (fun status => by cases status <;> simp) (fun row => some row.status) statuses
  simpa [getStats, statsOver, countByStatus, StatusCounts.total, Nat.add_assoc] using whole

theorem sourced_eq :
    (getStats (statsOver statuses sources sentiments totals)).sourced = sources.length := by
  have whole := countBy_total {.api, .s3} (fun source => by cases source <;> simp)
    (fun row => some row.source) sources
  simpa [getStats, statsOver, StatsResponse.sourced] using whole

theorem scored_eq :
    (getStats (statsOver statuses sources sentiments totals)).scored =
      sentiments.countP fun row => row.sentiment.isSome := by
  have whole := countBy_total {.positive, .neutral, .negative}
    (fun sentiment => by cases sentiment <;> simp) (·.sentiment) sentiments
  simpa [getStats, statsOver, StatsResponse.scored, Nat.add_assoc] using whole

theorem oldestPendingAge_nonneg (rows : List Conversation) (now : Timestamp) :
    0 ≤ oldestPendingAge rows now := by
  unfold oldestPendingAge
  split
  · exact le_rfl
  · exact le_max_left _ _

/-- The backlog is older than a threshold exactly when some unfinished job is. -/
theorem oldestPendingAge_exceeds (scan : Scan jobs rows) (now : Timestamp) (threshold : Nat) :
    (threshold : Int) < oldestPendingAge rows now ↔ ∃ job row, jobs job = some row ∧
      row.status.terminal = false ∧ row.createdAt + threshold < now := by
  have listed : ∀ created, created ∈ (rows.filter Conversation.isUnfinished).map (·.createdAt) ↔
      ∃ job row, jobs job = some row ∧ row.status.terminal = false ∧ row.createdAt = created := by
    intro created
    simp only [List.mem_map, List.mem_filter, Conversation.isUnfinished_iff]
    constructor
    · rintro ⟨row, ⟨member, unfinished⟩, same⟩
      exact ⟨row.id, row, (scan.stored _ _).mpr ⟨member, rfl⟩, unfinished, same⟩
    · rintro ⟨job, row, present, unfinished, same⟩
      exact ⟨row, ⟨((scan.stored _ _).mp present).1, unfinished⟩, same⟩
  unfold oldestPendingAge
  split
  · rename_i nothing
    rw [List.min?_eq_none_iff] at nothing
    constructor
    · intro exceeds
      omega
    · rintro ⟨job, row, present, unfinished, _⟩
      have member := (listed row.createdAt).mpr ⟨job, row, present, unfinished, rfl⟩
      rw [nothing] at member
      cases member
  · rename_i oldest found
    obtain ⟨member, smallest⟩ := List.min?_eq_some_iff.mp found
    constructor
    · intro exceeds
      obtain ⟨job, row, present, unfinished, same⟩ := (listed oldest).mp member
      refine ⟨job, row, present, unfinished, ?_⟩
      have past : (oldest : Int) + threshold < now := by omega
      rw [same]
      exact_mod_cast past
    · rintro ⟨job, row, present, unfinished, older⟩
      have first : (oldest : Int) ≤ row.createdAt := by
        exact_mod_cast smallest row.createdAt
          ((listed _).mpr ⟨job, row, present, unfinished, rfl⟩)
      have past : (row.createdAt : Int) + threshold < now := by exact_mod_cast older
      omega

end ConvoScore
