import ConvoScore.Api.Browse
import ConvoScore.Library.Rank
import ConvoScore.Pipeline.Overview

namespace ConvoScore
open Library

/-- A row has the three columns of a verdict together, and its score is in range. -/
structure Conversation.Graded (row : Conversation) : Prop where
  riskScore : row.riskScore ≠ none ↔ row.sentiment ≠ none
  rationale : row.rationale ≠ none ↔ row.sentiment ≠ none
  ranged : ∀ score, row.riskScore = some score → 0 ≤ score ∧ score ≤ 100

/-- A later row comes from the same request, keeps its verdict and stays failed. -/
structure Conversation.Remains (row later : Conversation) : Prop where
  id : later.id = row.id
  request : Pipeline.SameRequest row later
  grown : row.Outgrown later
  riskScore : ∀ score, row.riskScore = some score → later.riskScore = some score
  rationale : ∀ rationale, row.rationale = some rationale → later.rationale = some rationale
  attempts : row.attemptCount ≤ later.attemptCount
  failed : row.status = .failed → later.status = .failed

/-- No row leaves the listing of these filters later. -/
def ConversationFilters.Stable (filters : ConversationFilters) : Prop :=
  ∀ text, filters.status = some text → text = [] ∨ text = JobStatus.failed.value

theorem Conversation.Shaped.graded {row : Conversation} (shaped : row.Shaped) : row.Graded where
  riskScore := shaped.riskScore.trans shaped.sentiment.symm
  rationale := shaped.rationale.trans shaped.sentiment.symm
  ranged := shaped.ranged

theorem Conversation.Graded.withResult {row : Conversation} {start : Timestamp}
    {outcome : ScoringOutcome} : (row.withResult start outcome).Graded where
  riskScore := iff_of_true (Option.some_ne_none _) (Option.some_ne_none _)
  rationale := iff_of_true (Option.some_ne_none _) (Option.some_ne_none _)
  ranged score set := by
    have same : outcome.result.riskScore = score := Option.some.inj set
    exact same ▸ ⟨outcome.result.riskFloor, outcome.result.riskCeiling⟩

/-- A row without a sentiment has no column of a verdict. -/
theorem Conversation.Graded.unset {row : Conversation} (graded : row.Graded)
    (unset : row.sentiment = none) : row.riskScore = none ∧ row.rationale = none :=
  ⟨by_contra fun set => graded.riskScore.mp set unset,
    by_contra fun set => graded.rationale.mp set unset⟩

/-- A row with a sentiment has a result with it. -/
theorem Conversation.Graded.toResult {row : Conversation} (graded : row.Graded) {sentiment : Sentiment}
    (set : row.sentiment = some sentiment) : ∃ score band rationale, row.riskScore = some score ∧
      riskBand (some score) = .ok (some band) ∧
      ConvoScore.toResult row = .ok (some ⟨sentiment, score, band, band.label, rationale⟩) := by
  have rated : row.sentiment ≠ none := set ▸ Option.some_ne_none sentiment
  obtain ⟨score, scored⟩ := Option.ne_none_iff_exists'.mp (graded.riskScore.mpr rated)
  obtain ⟨rationale, explained⟩ := Option.ne_none_iff_exists'.mp (graded.rationale.mpr rated)
  obtain ⟨floor, ceiling⟩ := graded.ranged score scored
  obtain ⟨band, banded⟩ := riskBand_of_valid floor ceiling
  refine ⟨score, band, rationale, scored, banded, ?_⟩
  simp only [ConvoScore.toResult, set, scored, explained, banded]

/-- The result of a graded row is never an error. -/
theorem Conversation.Graded.toResult_ok {row : Conversation} (graded : row.Graded) :
    ∃ result, ConvoScore.toResult row = .ok result := by
  cases set : row.sentiment with
  | none => exact ⟨none, by simp only [ConvoScore.toResult, set]⟩
  | some sentiment =>
      obtain ⟨_, _, _, _, _, made⟩ := graded.toResult set
      exact ⟨_, made⟩

theorem Conversation.Remains.refl (row : Conversation) : row.Remains row :=
  ⟨rfl, ⟨rfl, rfl, rfl, rfl, rfl, rfl, rfl⟩, .refl row, fun _ set => set, fun _ set => set,
    le_rfl, fun failed => failed⟩

theorem Conversation.Remains.trans {row middle later : Conversation} (first : row.Remains middle)
    (second : middle.Remains later) : row.Remains later where
  id := second.id.trans first.id
  request := {
    source := second.request.source.trans first.request.source
    sourceRef := second.request.sourceRef.trans first.request.sourceRef
    conversation := second.request.conversation.trans first.request.conversation
    conversationHash := second.request.conversationHash.trans first.request.conversationHash
    messageCount := second.request.messageCount.trans first.request.messageCount
    maxAttempts := second.request.maxAttempts.trans first.request.maxAttempts
    createdAt := second.request.createdAt.trans first.request.createdAt }
  grown := first.grown.trans second.grown
  riskScore score set := second.riskScore score (first.riskScore score set)
  rationale text set := second.rationale text (first.rationale text set)
  attempts := first.attempts.trans second.attempts
  failed := second.failed ∘ first.failed

theorem Conversation.Remains.creationKey {row later : Conversation} (remains : row.Remains later) :
    creationKey later = creationKey row := by
  rw [ConvoScore.creationKey, ConvoScore.creationKey, remains.id, remains.grown.createdAt]

/-- A row that satisfies stable filters satisfies them later. -/
theorem Conversation.Remains.satisfies {row later : Conversation} {filters : ConversationFilters}
    (remains : row.Remains later) (stable : filters.Stable) (satisfied : Satisfies filters row) :
    Satisfies filters later where
  status text given nonempty := by
    rcases stable text given with empty | failed
    · exact absurd empty nonempty
    · have status := satisfied.status text given nonempty
      rw [failed] at status ⊢
      have before : row.status = .failed := by
        cases same : row.status <;> rw [same] at status <;> first | rfl | cases status
      rw [remains.failed before]
  source text given nonempty := by
    rw [remains.request.source]
    exact satisfied.source text given nonempty
  sentiment text given nonempty := by
    obtain ⟨sentiment, set, value⟩ := satisfied.sentiment text given nonempty
    exact ⟨sentiment, remains.grown.rated sentiment set, value⟩
  minRisk minRisk given := by
    obtain ⟨score, set, least⟩ := satisfied.minRisk minRisk given
    exact ⟨score, remains.riskScore score set, least⟩

namespace Pipeline

/-- Every stored row is graded. -/
def GradedRows (state : State) : Prop :=
  ∀ job row, state.shared.jobs job = some row → row.Graded

variable {env : Environment} {state next first last : State} {action : Action} {job : Uuid}
  {row later : Conversation} {rows : List Conversation} {filters : ConversationFilters}

/-- Only a result writes the columns of a verdict, and only where there is none yet. -/
theorem RowChange.verdict (change : RowChange env state next job action) (rated : RatedRows state)
    (present : state.shared.jobs job = some row) (found : next.shared.jobs job = some later) :
    (later.sentiment = row.sentiment ∧ later.riskScore = row.riskScore ∧
      later.rationale = row.rationale) ∨
    row.sentiment = none ∧ ∃ start outcome, later = row.withResult start outcome := by
  cases change with
  | kept same =>
      rw [same, present, Option.some.injEq] at found
      exact .inl (found ▸ ⟨rfl, rfl, rfl⟩)
  | submitted _ _ absent | created _ absent =>
      rw [absent] at present
      cases present
  | completed _ _ held accepted written =>
      rw [present, Option.some.injEq] at held
      subst held
      rw [written, Option.some.injEq] at found
      have unset := (rated job row present).unset (by rw [accepted]; rfl)
      exact .inr ⟨unset, _, _, found.symm⟩
  | claimed _ _ _ _ held _ written | released _ _ held _ written | failed _ _ held _ written
  | enqueued held written | enqueueFailed held written =>
      rw [present, Option.some.injEq] at held
      subst held
      rw [written, Option.some.injEq] at found
      exact .inl (found ▸ ⟨rfl, rfl, rfl⟩)

/-- A row keeps its id, and a failed row stays failed. -/
theorem RowChange.failed_stays (change : RowChange env state next job action)
    (present : state.shared.jobs job = some row) (found : next.shared.jobs job = some later) :
    later.id = row.id ∧ (row.status = .failed → later.status = .failed) := by
  cases change with
  | kept same =>
      rw [same, present, Option.some.injEq] at found
      exact found ▸ ⟨rfl, fun failed => failed⟩
  | submitted _ _ absent | created _ absent =>
      rw [absent] at present
      cases present
  | claimed _ _ _ _ held free written =>
      rw [present, Option.some.injEq] at held
      subst held
      rw [written, Option.some.injEq] at found
      refine found ▸ ⟨rfl, fun failed => ?_⟩
      have unfinished := (Conversation.claimable_iff.mp free).1
      rw [failed] at unfinished
      cases unfinished
  | completed _ _ held accepted written | released _ _ held accepted written =>
      rw [present, Option.some.injEq] at held
      subst held
      rw [written, Option.some.injEq] at found
      exact found ▸ ⟨rfl, fun failed => by rw [accepted] at failed; cases failed⟩
  | enqueued held written =>
      rw [present, Option.some.injEq] at held
      subst held
      rw [written, Option.some.injEq] at found
      exact found ▸ ⟨rfl, fun failed => failed⟩
  | failed _ _ held _ written | enqueueFailed held written =>
      rw [present, Option.some.injEq] at held
      subst held
      rw [written, Option.some.injEq] at found
      exact found ▸ ⟨rfl, fun _ => rfl⟩

/-- Every step keeps all rows graded. -/
theorem gradedRows_step (drafts : DraftRows env state) (rated : RatedRows state)
    (graded : GradedRows state) (step : Step env state action next) : GradedRows next := by
  intro job later found
  have change := row_change step job
  cases before : state.shared.jobs job with
  | none =>
      rcases change.appeared before found with ⟨request, origin, opened, _⟩ | ⟨_, _, _, _, _, _, rfl⟩
      · exact (drafts.submitted origin opened).shaped.graded
      · exact Conversation.Shaped.createJob.graded
  | some row =>
      rcases change.verdict rated before found with ⟨sentiment, riskScore, rationale⟩ |
        ⟨_, _, _, rfl⟩
      · obtain ⟨scored, explained, ranged⟩ := graded job row before
        exact ⟨by rw [sentiment, riskScore]; exact scored,
          by rw [sentiment, rationale]; exact explained, by rw [riskScore]; exact ranged⟩
      · exact .withResult

theorem reached_graded (reached : (system env).Reached System.anyStep state) :
    GradedRows state := by
  refine reached.invariantWithin (motive := fun state => GradedRows state) ?_ ?_
  · rintro _ ⟨now, rfl⟩ _ _ found
    cases found
  · intro before action after earlier graded stepped _
    obtain ⟨drafts, rated⟩ := reached_rated earlier
    exact gradedRows_step drafts rated graded (step_cases stepped)

/-- A step lets every row remain. -/
theorem remains_step (drafts : DraftRows env state) (rated : RatedRows state)
    (graded : GradedRows state) (step : Step env state action next)
    (present : state.shared.jobs job = some row) :
    ∃ later, next.shared.jobs job = some later ∧ row.Remains later := by
  have change := row_change step job
  obtain ⟨later, found, grown⟩ := change.outgrown rated present
  obtain ⟨id, failed⟩ := change.failed_stays present found
  refine ⟨later, found, id, change.sameRequest present found, grown, ?_, ?_,
    attempts_monotone drafts step present found, failed⟩
  · intro score set
    rcases change.verdict rated present found with ⟨_, same, _⟩ | ⟨unset, _⟩
    · exact same.trans set
    · rw [((graded job row present).unset unset).1] at set
      cases set
  · intro text set
    rcases change.verdict rated present found with ⟨_, _, same⟩ | ⟨unset, _⟩
    · exact same.trans set
    · rw [((graded job row present).unset unset).2] at set
      cases set

/-- A run lets every row of its first state remain. -/
theorem path_remains (reached : (system env).Reached System.anyStep first)
    (path : (system env).Path System.anyStep first last)
    (present : first.shared.jobs job = some row) :
    ∃ later, last.shared.jobs job = some later ∧ row.Remains later := by
  induction path with
  | refl => exact ⟨row, present, .refl row⟩
  | tail action path stepped _ ih =>
      obtain ⟨middle, found, before⟩ := ih
      have extended := reached.extend path
      obtain ⟨drafts, rated⟩ := reached_rated extended
      obtain ⟨later, written, after⟩ :=
        remains_step drafts rated (reached_graded extended) (step_cases stepped) found
      exact ⟨later, written, before.trans after⟩

/-- The keys of the rows that a listing orders. -/
def listedKeys (state : State) (filters : ConversationFilters) : Set (Timestamp ×ₗ Uuid) :=
  {key | ∃ job row, state.shared.jobs job = some row ∧ Satisfies filters row ∧
    creationKey row = key}

/-- A listing with stable filters only gets longer. -/
theorem listedKeys_grow (reached : (system env).Reached System.anyStep first)
    (path : (system env).Path System.anyStep first last) (stable : filters.Stable) :
    listedKeys first filters ⊆ listedKeys last filters := by
  rintro _ ⟨job, row, present, satisfied, rfl⟩
  obtain ⟨later, found, remains⟩ := path_remains reached path present
  exact ⟨job, later, found, remains.satisfies stable satisfied, remains.creationKey⟩

/-- The rows that a page is cut from, the newest first. -/
def listing (filters : ConversationFilters) (rows : List Conversation) : List Conversation :=
  Query.orderDescending creationKey (rows.filter (Query.selects (applyFilters filters)))

theorem listing_window (counted listed : List Conversation) (filters : ConversationFilters)
    (limit offset : Nat) : listConversations counted listed filters limit offset =
      (Query.window limit offset (listing filters listed), (listing filters counted).length) := by
  rw [listing, listing, (Query.orderDescending_perm _ _).length_eq]
  rfl

theorem mem_listing (scan : Scan state.shared.jobs rows) :
    row ∈ listing filters rows ↔ state.shared.jobs row.id = some row ∧ Satisfies filters row := by
  rw [listing, Query.mem_orderDescending, scan.mem_filter]

theorem listing_descending (scan : Scan state.shared.jobs rows) :
    (listing filters rows).Pairwise fun first second => creationKey second < creationKey first :=
  Query.orderDescending_strict (scan.distinctKeys _)

/-- The keys of a scanned listing are the listed keys of the state. -/
theorem listing_keys (scan : Scan state.shared.jobs rows) :
    (((listing filters rows).map creationKey).toFinset : Set (Timestamp ×ₗ Uuid)) =
      listedKeys state filters := by
  ext key
  rw [Finset.mem_coe, List.mem_toFinset, List.mem_map]
  constructor
  · rintro ⟨row, listed, same⟩
    obtain ⟨present, satisfied⟩ := (mem_listing scan).mp listed
    exact ⟨row.id, row, present, satisfied, same⟩
  · rintro ⟨job, row, present, satisfied, same⟩
    have keyed := ((scan.stored job row).mp present).2
    exact ⟨row, (mem_listing scan).mpr ⟨keyed ▸ present, satisfied⟩, same⟩

/-- The page of a job shows what its entry in the list has shown, and what has happened since. -/
structure Opens (item : ConversationSummary) (detail : ConversationDetail) : Prop where
  id : detail.id = item.id
  source : detail.source = item.source
  sourceRef : detail.sourceRef = item.sourceRef
  messageCount : detail.messageCount = item.messageCount
  createdAt : detail.createdAt = item.createdAt
  attemptCount : item.attemptCount ≤ detail.attemptCount
  ended : item.status.terminal = true → detail.status.terminal = true
  failed : item.status = .failed → detail.status = .failed
  result : ∀ sentiment, item.sentiment = some sentiment → ∃ result, detail.result = some result ∧
    result.sentiment = sentiment ∧ item.riskScore = some result.riskScore ∧
    item.riskBand = some result.riskBand

/-- A summary of a row opens as any later row of the job. -/
theorem opens_later {item : ConversationSummary} (graded : row.Graded) (laterGraded : later.Graded)
    (remains : row.Remains later) (made : toSummary row = .ok item) :
    ∃ detail, toDetail later = .ok detail ∧ Opens item detail := by
  obtain ⟨result, shown⟩ := laterGraded.toResult_ok
  obtain ⟨band, banded, rfl⟩ := toSummary_eq made
  refine ⟨_, by rw [toDetail, shown]; rfl, ?_⟩
  refine ⟨remains.id, remains.request.source, remains.request.sourceRef,
    remains.request.messageCount, remains.request.createdAt, remains.attempts, remains.grown.ended,
    remains.failed, ?_⟩
  intro sentiment set
  obtain ⟨score, _, _, scored, _, _⟩ := graded.toResult set
  obtain ⟨laterScore, laterBand, rationale, laterScored, laterValid, again⟩ :=
    laterGraded.toResult (remains.grown.rated sentiment set)
  have same : laterScore = score :=
    Option.some.inj (laterScored.symm.trans (remains.riskScore score scored))
  subst same
  rw [shown, Except.ok.injEq] at again
  rw [scored, laterValid, Except.ok.injEq] at banded
  exact ⟨_, again, rfl, scored, banded.symm⟩

/-- In every run `GET /conversations` answers exactly the valid parameters whose offset fits, it
fails for the valid ones whose offset does not, and each job that it has listed can be opened at
any later moment and still shows the verdict of the list. -/
theorem listed_jobs_open {counted listed : List Conversation} {query : BrowseQuery}
    (reached : (system env).Reached System.anyStep first)
    (path : (system env).Path System.anyStep first last) (scan : Scan first.shared.jobs listed) :
    ((∃ response, browseConversations counted listed query = .ok response) ↔ query.Answerable) ∧
    ((∃ message, browseConversations counted listed query = .error (.serverError message)) ↔
      query.Valid ∧ offsetBound ≤ query.offset) ∧
    ∀ response, browseConversations counted listed query = .ok response →
      ∀ item ∈ response.items, ∃ detail,
        getConversation last.shared.jobs item.id = .ok detail ∧ Opens item detail := by
  have graded := reached_graded reached
  have ranged : ∀ row ∈ listed, ∀ score, row.riskScore = some score → 0 ≤ score ∧ score ≤ 100 :=
    fun row member => (graded row.id row ((scan.stored row.id row).mpr ⟨member, rfl⟩)).ranged
  obtain ⟨answers, fails⟩ := @browseConversations_answers counted listed query ranged
  refine ⟨answers, fails, ?_⟩
  intro response answered item shown
  obtain ⟨_, made, _⟩ := browseConversations_ok answered
  obtain ⟨row, windowed, summary⟩ := (summaries_mem made).2 item shown
  rw [listing_window] at windowed
  have member := List.mem_of_mem_drop (List.mem_of_mem_take windowed)
  have present := ((mem_listing scan).mp member).1
  obtain ⟨found, stored, remains⟩ := path_remains reached path present
  obtain ⟨detail, opened, opens⟩ := opens_later (graded row.id row present)
    (reached_graded (reached.extend path) row.id found stored) remains summary
  obtain ⟨_, _, rfl⟩ := toSummary_eq summary
  refine ⟨detail, ?_, opens⟩
  rw [getConversation, getJob, stored]
  simp only [opened]
  rfl

def arrivedSummary : ConversationSummary :=
  ⟨1, .s3, some "s3://calls".toList, .pending, none, none, none, 1, 0, 0, none⟩

/-- A page without filters lists the job that has arrived. -/
theorem arrived_answer {limit : Int} (floor : 1 ≤ limit) (ceiling : limit ≤ 200) :
    browseConversations [arrivedRow 1] [arrivedRow 1] {limit} =
      .ok ⟨[arrivedSummary], 1, limit, 0⟩ := by
  have valid : BrowseQuery.Valid {limit} := by
    refine ⟨?_, ?_, ?_, ?_⟩
    · simp [BrowseQuery.outOfRange, floor, ceiling]
    all_goals exact fun _ given => nomatch given
  have kept : listing ⟨none, none, none, none⟩ [arrivedRow 1] = [arrivedRow 1] :=
    List.mergeSort_singleton _
  have found : listConversations [arrivedRow 1] [arrivedRow 1] ⟨none, none, none, none⟩
      limit.toNat 0 = ([arrivedRow 1], 1) := by
    have positive : [arrivedRow 1].length ≤ limit.toNat := by
      rw [List.length_singleton]
      omega
    rw [listing_window, kept, Query.window, List.drop_zero, List.take_of_length_le positive]
    rfl
  have fits : ¬ offsetBound ≤ (0 : Int) := by decide
  rw [browseConversations_valid valid, if_neg fits]
  exact congrArg (fun found : List Conversation × Nat => do
    let items ← (found.1.mapM toSummary).mapError BrowseError.serverError
    return ConversationListResponse.mk items found.2 limit 0) found

/-- The entry of the first job opens after the second one has arrived. -/
theorem listed_jobs_open_arrival : ∃ detail,
    browseConversations [arrivedRow 1] [arrivedRow 1] {} = .ok ⟨[arrivedSummary], 1, 50, 0⟩ ∧
    getConversation twoArrived.shared.jobs arrivedSummary.id = .ok detail ∧
    Opens arrivedSummary detail := by
  have answered : browseConversations [arrivedRow 1] [arrivedRow 1] {} =
      .ok ⟨[arrivedSummary], 1, 50, 0⟩ := arrived_answer (by decide) (by decide)
  obtain ⟨detail, opened, opens⟩ := (listed_jobs_open oneArrived_reached twoArrived_path
    oneArrived_scan).2.2 _ answered _ List.mem_cons_self
  exact ⟨detail, answered, opened, opens⟩

end Pipeline
end ConvoScore
