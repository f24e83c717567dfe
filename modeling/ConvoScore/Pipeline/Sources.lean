import ConvoScore.Pipeline.Consistency

namespace ConvoScore.Pipeline
open Library

/-- The source of a row tells which process created its job. -/
structure SourcedRows (state : State) : Prop where
  stored : ∀ job row, state.shared.jobs job = some row →
    (row.source = .s3 ↔ (state.origins job).ingested = true)
  opened : ∀ job request row, state.origins job = .api request →
    request.phase.openRow = some row → row.source = .api

/-- Two rows come from the same call of `create_job`. -/
structure SameRequest (row later : Conversation) : Prop where
  source : later.source = row.source
  sourceRef : later.sourceRef = row.sourceRef
  conversation : later.conversation = row.conversation
  conversationHash : later.conversationHash = row.conversationHash
  messageCount : later.messageCount = row.messageCount
  maxAttempts : later.maxAttempts = row.maxAttempts
  createdAt : later.createdAt = row.createdAt

variable {env : Environment} {state next : State} {action : Action} {job : Uuid}

/-- A step keeps what the request of every row that is there has written. -/
theorem RowChange.sameRequest (change : RowChange env state next job action)
    {row later : Conversation} (present : state.shared.jobs job = some row)
    (found : next.shared.jobs job = some later) : SameRequest row later := by
  cases change with
  | kept same =>
      rw [same, present, Option.some.injEq] at found
      subst found
      exact ⟨rfl, rfl, rfl, rfl, rfl, rfl, rfl⟩
  | submitted _ _ absent | created _ absent =>
      rw [absent] at present
      cases present
  | claimed _ _ _ _ held _ written | completed _ _ held _ written | released _ _ held _ written
  | failed _ _ held _ written | enqueued held written | enqueueFailed held written =>
      rw [present, Option.some.injEq] at held
      subst held
      rw [written, Option.some.injEq] at found
      subst found
      exact ⟨rfl, rfl, rfl, rfl, rfl, rfl, rfl⟩

/-- Every step keeps the sources right. -/
theorem sourcedRows_step (consistent : Consistent state) (sourced : SourcedRows state)
    (step : Step env state action next) : SourcedRows next where
  stored job row found := by
    have change := row_change step job
    cases before : state.shared.jobs job with
    | some earlier =>
        have stored := consistent.stored job
        rw [before] at stored
        rw [(change.sameRequest before found).source, sourced.stored job earlier before]
        constructor
        · exact ingested_step step
        · intro ingested
          rcases ingested_source step ingested with same | ⟨unused, _⟩
          · exact same
          · rw [unused] at stored
            cases stored
    | none =>
        rcases change.appeared before found with ⟨request, origin, opened, rfl⟩ |
          ⟨_, _, _, _, _, rfl, rfl⟩
        · have source := sourced.opened job request row origin (Api.Phase.openRow_of_opened opened)
          have ingested : (next.origins job).ingested = false := by
            cases step with
            | api => rw [withOrigin_origins, if_pos rfl]; rfl
          simp [source, ingested]
        · cases step with
          | createJob => simp [ConvoScore.createJob, Origin.ingested]
  opened _ _ _ := openRow_keeps (fun _ _ _ _ => rfl) (fun _ _ source => source)
    (fun _ _ _ source => source) sourced.opened step

theorem sourcedRows_initial (now : Timestamp) : SourcedRows (initial now) where
  stored _ _ found := by cases found
  opened _ _ _ origin := by cases origin

end ConvoScore.Pipeline
