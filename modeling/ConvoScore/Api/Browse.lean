import ConvoScore.Api.Serializers
import ConvoScore.Repository.Totals
import Mathlib.Data.Char
import Mathlib.Data.List.Lex

namespace ConvoScore
open Library

structure ConversationSummary where
  id : Uuid
  source : JobSource
  sourceRef : Option Text
  status : JobStatus
  sentiment : Option Sentiment
  riskScore : Option Int
  riskBand : Option RiskBand
  messageCount : Nat
  attemptCount : Nat
  createdAt : Timestamp
  completedAt : Option Timestamp
  deriving DecidableEq

def toSummary (job : Conversation) : Except Text ConversationSummary :=
  (riskBand job.riskScore).map fun band => {
    id := job.id
    source := job.source
    sourceRef := job.sourceRef
    status := job.status
    sentiment := job.sentiment
    riskScore := job.riskScore
    riskBand := band
    messageCount := job.messageCount
    attemptCount := job.attemptCount
    createdAt := job.createdAt
    completedAt := job.completedAt }

/-- An absent text is `none`; the page and the offset have the defaults of the endpoint. -/
structure BrowseQuery where
  filters : ConversationFilters := ⟨none, none, none, none⟩
  limit : Int := 50
  offset : Int := 0
  deriving DecidableEq

structure ConversationListResponse where
  items : List ConversationSummary
  total : Nat
  limit : Int
  offset : Int
  deriving DecidableEq

/-- A bound of a parameter and an unknown text are answered by 422, an exception by 500. -/
inductive BrowseError
  | outOfRange (parameters : List Text)
  | unprocessable (detail : Text)
  | serverError (message : Text)
  deriving DecidableEq

/-- These are the parameters whose declared bounds do not hold. -/
def BrowseQuery.outOfRange (query : BrowseQuery) : List Text :=
  (if query.filters.minRisk.all fun score => 0 ≤ score ∧ score ≤ 100 then []
    else ["min_risk".toList]) ++
  (if 1 ≤ query.limit ∧ query.limit ≤ 200 then [] else ["limit".toList]) ++
  (if 0 ≤ query.offset then [] else ["offset".toList])

/-- Python writes a list of plain texts with single quotes. -/
def listText (texts : List Text) : Text :=
  "[".toList ++ ", ".toList.intercalate (texts.map fun text => '\'' :: text ++ ['\'']) ++ "]".toList

def validateEnum (name : Text) (value : Option Text) (allowed : List Text) :
    Except BrowseError Unit :=
  match value with
  | none => .ok ()
  | some text =>
      if allowed.contains text then .ok ()
      else .error (.unprocessable (name ++ " must be one of ".toList ++
        listText (allowed.mergeSort fun first second => first ≤ second)))

def allowedStatuses : List Text :=
  [JobStatus.pending, .processing, .completed, .failed].map JobStatus.value

def allowedSources : List Text := [JobSource.api, .s3].map JobSource.value

def allowedSentiments : List Text :=
  ["positive".toList, "neutral".toList, "negative".toList]

/-- This is the first offset that PostgreSQL has no `bigint` for. -/
def offsetBound : Int := 2 ^ 63

/-- The count and the rows are two statements, and each has its own scan of the table. -/
def browseConversations (counted listed : List Conversation) (query : BrowseQuery) :
    Except BrowseError ConversationListResponse := do
  if query.outOfRange ≠ [] then throw (.outOfRange query.outOfRange)
  validateEnum "status".toList query.filters.status allowedStatuses
  validateEnum "source".toList query.filters.source allowedSources
  validateEnum "sentiment".toList query.filters.sentiment allowedSentiments
  -- the endpoint sets no upper bound, so the second statement raises a `DataError`
  if offsetBound ≤ query.offset then throw (.serverError "bigint out of range".toList)
  let (rows, total) :=
    listConversations counted listed query.filters query.limit.toNat query.offset.toNat
  let items ← (rows.mapM toSummary).mapError .serverError
  return { items, total, limit := query.limit, offset := query.offset }

/-- A row whose score is in range has a summary. -/
theorem toSummary_ok {job : Conversation}
    (ranged : ∀ score, job.riskScore = some score → 0 ≤ score ∧ score ≤ 100) :
    ∃ summary, toSummary job = .ok summary := by
  unfold toSummary
  cases scored : job.riskScore with
  | none => exact ⟨_, rfl⟩
  | some score =>
      obtain ⟨floor, ceiling⟩ := ranged score scored
      obtain ⟨band, banded⟩ := riskBand_of_valid floor ceiling
      rw [banded]
      exact ⟨_, rfl⟩

/-- Apart from the band, a summary copies columns of its row. -/
theorem toSummary_eq {job : Conversation} {summary : ConversationSummary}
    (made : toSummary job = .ok summary) : ∃ band, riskBand job.riskScore = .ok band ∧
      summary = ⟨job.id, job.source, job.sourceRef, job.status, job.sentiment, job.riskScore, band,
        job.messageCount, job.attemptCount, job.createdAt, job.completedAt⟩ := by
  unfold toSummary at made
  cases banded : riskBand job.riskScore with
  | error message =>
      rw [banded] at made
      cases made
  | ok band =>
      rw [banded] at made
      cases made
      exact ⟨band, rfl, rfl⟩

/-- Each row has its summary, in the same order. -/
theorem summaries_forall₂ {rows : List Conversation} {items : List ConversationSummary}
    (made : rows.mapM toSummary = .ok items) :
    List.Forall₂ (fun row item => toSummary row = .ok item) rows items := by
  induction rows generalizing items with
  | nil =>
      rw [List.mapM_nil] at made
      cases made
      exact .nil
  | cons row rest ih =>
      rw [List.mapM_cons] at made
      cases first : toSummary row with
      | error message =>
          rw [first] at made
          cases made
      | ok summary =>
          cases others : rest.mapM toSummary with
          | error message =>
              rw [first, others] at made
              cases made
          | ok summaries =>
              rw [first, others] at made
              cases made
              exact .cons first (ih others)

/-- The rows and the summaries of an answer belong to each other. -/
theorem summaries_mem {rows : List Conversation} {items : List ConversationSummary}
    (made : rows.mapM toSummary = .ok items) :
    (∀ row ∈ rows, ∃ item ∈ items, toSummary row = .ok item) ∧
    ∀ item ∈ items, ∃ row ∈ rows, toSummary row = .ok item := by
  have related := summaries_forall₂ made
  clear made
  induction related with
  | nil => exact ⟨fun _ member => (List.not_mem_nil member).elim,
      fun _ member => (List.not_mem_nil member).elim⟩
  | cons first _ ih =>
      obtain ⟨shown, stored⟩ := ih
      simp only [List.mem_cons, forall_eq_or_imp, exists_eq_or_imp]
      exact ⟨⟨.inl first, fun row later => .inr (shown row later)⟩,
        ⟨.inl first, fun item later => .inr (stored item later)⟩⟩

theorem summaries_ok {rows : List Conversation} (ranged : ∀ row ∈ rows, ∀ score,
    row.riskScore = some score → 0 ≤ score ∧ score ≤ 100) :
    ∃ items, rows.mapM toSummary = .ok items := by
  induction rows with
  | nil => exact ⟨[], rfl⟩
  | cons row rest ih =>
      obtain ⟨summary, first⟩ := toSummary_ok (ranged row List.mem_cons_self)
      obtain ⟨summaries, others⟩ := ih fun other later => ranged other (List.mem_cons_of_mem _ later)
      refine ⟨summary :: summaries, ?_⟩
      rw [List.mapM_cons, first, others]
      rfl

theorem validateEnum_ok_iff {name : Text} {value : Option Text} {allowed : List Text} :
    validateEnum name value allowed = .ok () ↔ ∀ text, value = some text → text ∈ allowed := by
  cases value with
  | none => simp [validateEnum]
  | some text =>
      unfold validateEnum
      split <;> simp_all

/-- The endpoint accepts these parameters. -/
structure BrowseQuery.Valid (query : BrowseQuery) : Prop where
  inRange : query.outOfRange = []
  status : ∀ text, query.filters.status = some text → text ∈ allowedStatuses
  source : ∀ text, query.filters.source = some text → text ∈ allowedSources
  sentiment : ∀ text, query.filters.sentiment = some text → text ∈ allowedSentiments

/-- The database has a page for these parameters. -/
structure BrowseQuery.Answerable (query : BrowseQuery) : Prop extends query.Valid where
  fits : query.offset < offsetBound

section Answers
variable {counted listed : List Conversation} {query : BrowseQuery}
  {response : ConversationListResponse}

/-- Valid parameters leave only the offset and the serializer to fail. -/
theorem browseConversations_valid (valid : query.Valid) :
    browseConversations counted listed query =
      if offsetBound ≤ query.offset then .error (.serverError "bigint out of range".toList)
      else (do
        let found := listConversations counted listed query.filters query.limit.toNat
          query.offset.toNat
        let items ← (found.1.mapM toSummary).mapError BrowseError.serverError
        return { items, total := found.2, limit := query.limit, offset := query.offset }) := by
  simp only [browseConversations, valid.inRange, ne_eq, not_true_eq_false, if_false,
    validateEnum_ok_iff.mpr valid.status, validateEnum_ok_iff.mpr valid.source,
    validateEnum_ok_iff.mpr valid.sentiment]
  by_cases beyond : offsetBound ≤ query.offset
  · simp only [if_pos beyond]
    rfl
  · simp only [if_neg beyond]
    rfl

/-- Parameters that the endpoint does not accept are no error of the server. -/
theorem browseConversations_invalid (invalid : ¬ query.Valid) :
    ∃ error, browseConversations counted listed query = .error error ∧
      ∀ message, error ≠ .serverError message := by
  have rejected : ∀ {name : Text} {value : Option Text} {allowed : List Text} {error : BrowseError},
      validateEnum name value allowed = .error error → ∀ message, error ≠ .serverError message := by
    intro name value allowed error raised message
    unfold validateEnum at raised
    split at raised
    · cases raised
    · split at raised <;> cases raised
      exact nofun
  unfold browseConversations
  by_cases inRange : query.outOfRange = []
  · simp only [inRange, ne_eq, not_true_eq_false, if_false]
    cases status : validateEnum "status".toList query.filters.status allowedStatuses with
    | error error => exact ⟨error, rfl, rejected status⟩
    | ok _ =>
        cases source : validateEnum "source".toList query.filters.source allowedSources with
        | error error => exact ⟨error, rfl, rejected source⟩
        | ok _ =>
            cases sentiment : validateEnum "sentiment".toList query.filters.sentiment
                allowedSentiments with
            | error error => exact ⟨error, rfl, rejected sentiment⟩
            | ok _ =>
                exact absurd ⟨inRange, validateEnum_ok_iff.mp status,
                  validateEnum_ok_iff.mp source, validateEnum_ok_iff.mp sentiment⟩ invalid
  · simp only [ne_eq, inRange, not_false_eq_true, if_true]
    exact ⟨_, rfl, nofun⟩

/-- An answer shows the rows that the query has found. -/
theorem browseConversations_ok (answered : browseConversations counted listed query = .ok response) :
    query.Answerable ∧
    (listConversations counted listed query.filters query.limit.toNat
      query.offset.toNat).1.mapM toSummary = .ok response.items ∧
    response.total = (listConversations counted listed query.filters query.limit.toNat
      query.offset.toNat).2 := by
  have valid : query.Valid := by
    by_contra invalid
    obtain ⟨error, raised, _⟩ := @browseConversations_invalid counted listed query invalid
    rw [raised] at answered
    cases answered
  rw [browseConversations_valid valid] at answered
  by_cases beyond : offsetBound ≤ query.offset
  · rw [if_pos beyond] at answered
    cases answered
  · rw [if_neg beyond] at answered
    cases made : (listConversations counted listed query.filters query.limit.toNat
        query.offset.toNat).1.mapM toSummary with
    | error message =>
        simp only [made] at answered
        cases answered
    | ok items =>
        simp only [made] at answered
        cases answered
        exact ⟨⟨valid, not_le.mp beyond⟩, rfl, rfl⟩

/-- Parameters that the database has a page for are answered. -/
theorem browseConversations_answerable (answerable : query.Answerable)
    (ranged : ∀ row ∈ listed, ∀ score,
      row.riskScore = some score → 0 ≤ score ∧ score ≤ 100) :
    ∃ response, browseConversations counted listed query = .ok response := by
  have stored : ∀ row ∈ (listConversations counted listed query.filters query.limit.toNat
      query.offset.toNat).1, row ∈ listed := by
    intro row shown
    have ordered := List.mem_of_mem_drop (List.mem_of_mem_take shown)
    exact (List.mem_filter.mp (Query.mem_orderDescending.mp ordered)).1
  obtain ⟨items, made⟩ := summaries_ok fun row shown => ranged row (stored row shown)
  rw [browseConversations_valid answerable.toValid, if_neg (not_le.mpr answerable.fits)]
  simp only [made]
  exact ⟨_, rfl⟩

/-- Parameters are answered exactly when they are valid and the offset fits, and valid ones with
another offset are the only error of the server. -/
theorem browseConversations_answers (ranged : ∀ row ∈ listed, ∀ score,
    row.riskScore = some score → 0 ≤ score ∧ score ≤ 100) :
    ((∃ response, browseConversations counted listed query = .ok response) ↔ query.Answerable) ∧
    ((∃ message, browseConversations counted listed query = .error (.serverError message)) ↔
      query.Valid ∧ offsetBound ≤ query.offset) := by
  refine ⟨⟨?_, fun answerable => browseConversations_answerable answerable ranged⟩, ?_, ?_⟩
  · rintro ⟨response, answered⟩
    exact (browseConversations_ok answered).1
  · rintro ⟨message, raised⟩
    have valid : query.Valid := by
      by_contra invalid
      obtain ⟨error, other, blameless⟩ := @browseConversations_invalid counted listed query invalid
      rw [raised, Except.error.injEq] at other
      exact blameless message other.symm
    refine ⟨valid, ?_⟩
    by_contra within
    obtain ⟨response, answered⟩ :=
      @browseConversations_answerable counted listed query ⟨valid, not_le.mp within⟩ ranged
    rw [raised] at answered
    cases answered
  · rintro ⟨valid, beyond⟩
    rw [browseConversations_valid valid, if_pos beyond]
    exact ⟨_, rfl⟩

end Answers

/-- A conversation is opened by its id. -/
def getConversation (jobs : Jobs) (conversationId : Uuid) : Except HttpError ConversationDetail :=
  match getJob jobs conversationId with
  | none => .error (.notFound "conversation not found".toList)
  | some job => (toDetail job).mapError .serverError

end ConvoScore
