import ConvoScore.Library.Query
import ConvoScore.Repository.Columns
import Mathlib.Data.Prod.Lex

namespace ConvoScore
open Library

/-- A scan finds the committed rows in some order, each of them once. -/
structure Scan (jobs : Jobs) (rows : List Conversation) : Prop where
  distinct : (rows.map (·.id)).Nodup
  stored : ∀ id row, jobs id = some row ↔ row ∈ rows ∧ row.id = id

/-- These are the filters of `list_conversations`. -/
structure ConversationFilters where
  status : Option Text
  source : Option Text
  sentiment : Option Text
  minRisk : Option Int
  deriving DecidableEq

/-- An absent filter and an empty text add no condition. -/
def textFilter (column : Conversation → Option Text) :
    Option Text → List (Conversation → Query.Truth)
  | none | some [] => []
  | some text => [fun row => Query.compare (fun stored => decide (stored = text)) (column row)]

/-- A given minimum adds its condition even when it is 0. -/
def minRiskFilter : Option Int → List (Conversation → Query.Truth)
  | none => []
  | some minRisk => [fun row => Query.compare (fun score => decide (minRisk ≤ score)) row.riskScore]

def applyFilters (filters : ConversationFilters) : List (Conversation → Query.Truth) :=
  textFilter (fun row => some row.status.value) filters.status ++
    textFilter (fun row => some row.source.value) filters.source ++
    textFilter (fun row => row.sentiment.map (·.value)) filters.sentiment ++
    minRiskFilter filters.minRisk

/-- Rows of one time stamp are ordered by their ids. -/
def creationKey (row : Conversation) : Timestamp ×ₗ Uuid := toLex (row.createdAt, row.id)

/-- The count and the rows come from two queries, each with its own scan of the table. -/
def listConversations (counted listed : List Conversation) (filters : ConversationFilters)
    (limit offset : Nat) : List Conversation × Nat :=
  let total := (counted.filter (Query.selects (applyFilters filters))).length
  let rows := Query.orderDescending creationKey
    (listed.filter (Query.selects (applyFilters filters)))
  (Query.window limit offset rows, total)

def countByStatus (rows : List Conversation) : JobStatus → Option Nat :=
  Query.countBy (fun row => some row.status) rows

/-- The averages are exact here; the response rounds them to floats. -/
structure Stats where
  totalJobs : Nat
  byStatus : JobStatus → Option Nat
  bySource : JobSource → Option Nat
  bySentiment : Sentiment → Option Nat
  averageRiskScore : Option Rat
  maxRiskScore : Option Int
  promptTokens : Int
  completionTokens : Int
  totalTokens : Int
  estimatedCostUsd : Rat
  averageLlmLatencyMs : Option Rat

def stats (rows : List Conversation) : Stats where
  totalJobs := rows.length
  byStatus := countByStatus rows
  bySource := Query.countBy (fun row => some row.source) rows
  bySentiment := Query.countBy (·.sentiment) rows
  averageRiskScore := Query.average (·.riskScore) rows
  maxRiskScore := Query.maximum (·.riskScore) rows
  promptTokens := Query.sum (·.promptTokens) rows
  completionTokens := Query.sum (·.completionTokens) rows
  totalTokens := Query.sum (·.totalTokens) rows
  estimatedCostUsd := Query.sum (·.estimatedCostUsd) rows
  averageLlmLatencyMs := Query.average (·.llmLatencyMs) rows

/-- A row satisfies the filters that are given; an empty text is no filter. -/
structure Satisfies (filters : ConversationFilters) (row : Conversation) : Prop where
  status : ∀ text, filters.status = some text → text ≠ [] → row.status.value = text
  source : ∀ text, filters.source = some text → text ≠ [] → row.source.value = text
  sentiment : ∀ text, filters.sentiment = some text → text ≠ [] →
    ∃ sentiment, row.sentiment = some sentiment ∧ sentiment.value = text
  minRisk : ∀ minRisk, filters.minRisk = some minRisk →
    ∃ score, row.riskScore = some score ∧ minRisk ≤ score

section Filters
variable {column : Conversation → Option Text} {given : Option Text} {row : Conversation}
  {filters : ConversationFilters}

/-- The conditions of a text filter hold exactly when the column has the given text. -/
theorem textFilter_iff : (∀ condition ∈ textFilter column given, condition row = some true) ↔
    ∀ text, given = some text → text ≠ [] → column row = some text := by
  rcases given with _ | _ | ⟨letter, rest⟩
  · simp [textFilter]
  · simp [textFilter]
  · simp [textFilter, Query.compare_eq_true]

theorem minRiskFilter_iff {given : Option Int} :
    (∀ condition ∈ minRiskFilter given, condition row = some true) ↔
      ∀ minRisk, given = some minRisk → ∃ score, row.riskScore = some score ∧ minRisk ≤ score := by
  cases given with
  | none => simp [minRiskFilter]
  | some minRisk => simp [minRiskFilter, Query.compare_eq_true]

/-- A query with the filters selects exactly the rows that satisfy them. -/
theorem applyFilters_iff :
    Query.selects (applyFilters filters) row = true ↔ Satisfies filters row := by
  rw [Query.selects_iff, applyFilters]
  simp only [List.forall_mem_append, textFilter_iff, minRiskFilter_iff, Option.some.injEq,
    Option.map_eq_some_iff]
  constructor
  · rintro ⟨⟨⟨status, source⟩, sentiment⟩, minRisk⟩
    exact ⟨status, source, sentiment, minRisk⟩
  · intro satisfied
    exact ⟨⟨⟨satisfied.status, satisfied.source⟩, satisfied.sentiment⟩, satisfied.minRisk⟩

end Filters

/-- One row is listed before another when it is newer, or as new with a larger id. -/
def Newer (first second : Conversation) : Prop :=
  second.createdAt < first.createdAt ∨
    second.createdAt = first.createdAt ∧ second.id < first.id

theorem newer_iff {first second : Conversation} :
    Newer first second ↔ creationKey second < creationKey first := by
  rw [creationKey, creationKey, Prod.Lex.toLex_lt_toLex]
  exact Iff.rfl

/-- Pages of one size cut the listing of the matching rows without loss or repetition. -/
structure PagesOf (jobs : Jobs) (filters : ConversationFilters) (limit : Nat)
    (page : Nat → List Conversation × Nat) (listing : List Conversation) : Prop where
  descending : listing.Pairwise Newer
  selected : ∀ row, row ∈ listing ↔ jobs row.id = some row ∧ Satisfies filters row
  total : ∀ number, (page number).2 = listing.length
  consecutive : ∀ count,
    ((List.range count).flatMap fun number => (page number).1) = listing.take (count * limit)
  complete : ∃ enough, ∀ count, enough ≤ count →
    ((List.range count).flatMap fun number => (page number).1) = listing

section Paging
variable {jobs : Jobs} {rows others : List Conversation} {filters : ConversationFilters}

/-- The matching rows of a scan have distinct keys. -/
theorem Scan.distinctKeys (scan : Scan jobs rows) (accepts : Conversation → Bool) :
    ((rows.filter accepts).map creationKey).Nodup := by
  have ids : ((rows.filter accepts).map (·.id)).Nodup :=
    scan.distinct.sublist ((List.filter_sublist).map _)
  rw [List.Nodup, List.pairwise_map] at ids ⊢
  refine ids.imp ?_
  intro first second different same
  exact different (congrArg (fun key => (ofLex key).2) same)

theorem Scan.mem_filter (scan : Scan jobs rows) {row : Conversation} :
    row ∈ rows.filter (Query.selects (applyFilters filters)) ↔
      jobs row.id = some row ∧ Satisfies filters row := by
  rw [List.mem_filter, applyFilters_iff, scan.stored]
  simp only [and_true]

/-- Every scan of one table gives the same listing. -/
theorem Scan.listing_unique (scan : Scan jobs rows) (alsoScan : Scan jobs others)
    (filters : ConversationFilters) :
    Query.orderDescending creationKey (rows.filter (Query.selects (applyFilters filters))) =
      Query.orderDescending creationKey
        (others.filter (Query.selects (applyFilters filters))) := by
  refine Query.descending_unique (Query.orderDescending_strict (scan.distinctKeys _))
    (Query.orderDescending_strict (alsoScan.distinctKeys _)) ?_
  intro row
  rw [Query.mem_orderDescending, Query.mem_orderDescending, scan.mem_filter, alsoScan.mem_filter]

/-- Both queries of a page may scan the table in any order. -/
theorem listConversations_eq {counted listed : List Conversation} (scan : Scan jobs rows)
    (counting : Scan jobs counted) (listing : Scan jobs listed) (limit offset : Nat) :
    listConversations counted listed filters limit offset =
      listConversations rows rows filters limit offset := by
  have rowsSame := listing.listing_unique scan filters
  have countSame := congrArg List.length (counting.listing_unique scan filters)
  rw [(Query.orderDescending_perm _ _).length_eq, (Query.orderDescending_perm _ _).length_eq]
    at countSame
  simp only [listConversations, rowsSame, countSame]

end Paging

/-- Paging through a table that does not change lists the matching rows, each of them once,
in strictly descending order, and every page reports how many there are. -/
theorem listConversations_pages (jobs : Jobs) (filters : ConversationFilters) (limit : Nat)
    (positive : 1 ≤ limit) (counted listed : Nat → List Conversation)
    (counting : ∀ number, Scan jobs (counted number))
    (listing : ∀ number, Scan jobs (listed number)) :
    ∃ all, PagesOf jobs filters limit (fun number =>
      listConversations (counted number) (listed number) filters limit (number * limit)) all := by
  have scan := listing 0
  let all := Query.orderDescending creationKey
    ((listed 0).filter (Query.selects (applyFilters filters)))
  have same : ∀ number, listConversations (counted number) (listed number) filters limit
      (number * limit) = (Query.window limit (number * limit) all, all.length) := by
    intro number
    rw [listConversations_eq scan (counting number) (listing number), listConversations,
      (Query.orderDescending_perm _ _).length_eq]
  have consecutive : ∀ count, ((List.range count).flatMap fun number =>
      (listConversations (counted number) (listed number) filters limit (number * limit)).1) =
        all.take (count * limit) := by
    intro count
    simp only [same]
    exact Query.windows_flatMap count
  refine ⟨all, ?_, ?_, ?_, consecutive, all.length, ?_⟩
  · exact (Query.orderDescending_strict (scan.distinctKeys _)).imp newer_iff.mpr
  · intro row
    rw [Query.mem_orderDescending, scan.mem_filter]
  · intro number
    rw [same]
  · intro count enough
    rw [consecutive count]
    exact List.take_of_length_le (enough.trans (Nat.le_mul_of_pos_right count positive))

/-- Both twins are created at the same time. -/
def twin (id : Uuid) : Conversation := createJob (fun _ => []) id 0 .smallest .api 3 none

def twins : Jobs := fun id => if id = 1 ∨ id = 2 then some (twin id) else none

theorem twins_scan {first second : Uuid}
    (both : first = 1 ∧ second = 2 ∨ first = 2 ∧ second = 1) :
    Scan twins [twin first, twin second] := by
  refine ⟨?_, ?_⟩
  · rcases both with ⟨rfl, rfl⟩ | ⟨rfl, rfl⟩ <;> simp [twin, createJob]
  · intro id row
    rw [twins, Option.ite_none_right_eq_some, List.mem_pair, Option.some.injEq]
    constructor
    · rintro ⟨listed, rfl⟩
      rcases both with ⟨rfl, rfl⟩ | ⟨rfl, rfl⟩ <;> rcases listed with rfl | rfl <;>
        simp [twin, createJob]
    · rintro ⟨listed, rfl⟩
      rcases both with ⟨rfl, rfl⟩ | ⟨rfl, rfl⟩ <;> rcases listed with rfl | rfl <;>
        simp [twin, createJob]

/-- The twins are on one page each, although every page scans them in the other order. -/
theorem listConversations_pages_twins : ∃ all, PagesOf twins ⟨none, none, none, none⟩ 1
    (fun number => listConversations [twin 1, twin 2]
      (if number % 2 = 0 then [twin 1, twin 2] else [twin 2, twin 1])
      ⟨none, none, none, none⟩ 1 (number * 1)) all := by
  refine listConversations_pages twins ⟨none, none, none, none⟩ 1 (by decide)
    (fun _ => [twin 1, twin 2])
    (fun number => if number % 2 = 0 then [twin 1, twin 2] else [twin 2, twin 1]) ?_ ?_
  · intro _
    exact twins_scan (.inl ⟨rfl, rfl⟩)
  · intro number
    split
    · exact twins_scan (.inl ⟨rfl, rfl⟩)
    · exact twins_scan (.inr ⟨rfl, rfl⟩)

end ConvoScore
