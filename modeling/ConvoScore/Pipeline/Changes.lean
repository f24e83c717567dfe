import ConvoScore.Pipeline.System

namespace ConvoScore.Pipeline
open Library

/-- A step changes the row of a job in one of these ways, or keeps it. -/
inductive RowChange (env : Environment) (state next : State) (job : Uuid) : Action → Prop
  | kept {action : Action} (same : next.shared.jobs job = state.shared.jobs job) :
      RowChange env state next job action
  | submitted {request : Api.Request} {row : Conversation}
      (origin : state.origins job = .api request)
      (opened : request.phase = .committing row ∨ request.phase = .rejecting row)
      (absent : state.shared.jobs job = none) (written : next.shared.jobs job = some row) :
      RowChange env state next job (.api job .commit)
  | created {conversation : ConversationInput} {maxAttempts : Nat} {sourceRef : Text}
      {clock : Timestamp} (unused : state.origins job = .unused)
      (absent : state.shared.jobs job = none)
      (written : next.shared.jobs job = some (ConvoScore.createJob env.sha256 job clock
        conversation .s3 maxAttempts (some sourceRef))) :
      RowChange env state next job (.createJob job conversation maxAttempts sourceRef clock)
  | claimed {id : WorkerId} {delivery : Worker.Delivery} {since start expiry : Timestamp}
      {row : Conversation} (phase : state.workers id = .received delivery.message since)
      (same : delivery.job = job) (past : start ≤ state.shared.now)
      (expires : expiry = claimExpiry start (env.settings id).visibilityTimeoutSeconds)
      (present : state.shared.jobs job = some row) (free : row.claimable start = true)
      (written : next.shared.jobs job = some (row.withClaim start expiry))
      (entered : next.workers id = .claimed ⟨delivery, expiry⟩) :
      RowChange env state next job (.worker id (.claim start))
  | completed {id : WorkerId} {attempt : Worker.Attempt} {outcome : ScoringOutcome}
      {since start : Timestamp} {row : Conversation}
      (phase : state.workers id = .persisting attempt outcome since) (same : attempt.job = job)
      (present : state.shared.jobs job = some row) (accepted : row.status = .processing)
      (written : next.shared.jobs job = some (row.withResult start outcome)) :
      RowChange env state next job (.worker id (.complete start))
  | released {id : WorkerId} {attempt : Worker.Attempt} {decision : RetryDecision}
      {error : LLMError} {since start : Timestamp} {row : Conversation}
      (phase : state.workers id = .releasing attempt decision error since)
      (same : attempt.job = job) (present : state.shared.jobs job = some row)
      (accepted : row.status = .processing)
      (written : next.shared.jobs job =
        some (row.withRelease start decision.errorType error.message)) :
      RowChange env state next job (.worker id (.release start))
  | failed {id : WorkerId} {attempt : Worker.Attempt} {decision : RetryDecision}
      {error : LLMError} {since start : Timestamp} {row : Conversation}
      (phase : state.workers id = .failing attempt decision error since)
      (same : attempt.job = job) (present : state.shared.jobs job = some row)
      (accepted : row.status.terminal = false)
      (written : next.shared.jobs job =
        some (row.withFailure start decision.errorType error.message)) :
      RowChange env state next job (.worker id (.fail start))
  | enqueued {start : Timestamp} {row : Conversation} (present : state.shared.jobs job = some row)
      (written : next.shared.jobs job = some (row.withEnqueued start)) :
      RowChange env state next job (.ingest job (.markEnqueued start))
  | enqueueFailed {error : Text} {start : Timestamp} {row : Conversation}
      (present : state.shared.jobs job = some row)
      (written : next.shared.jobs job = some (row.withEnqueueFailed start error)) :
      RowChange env state next job (.ingest job (.markEnqueueFailed start))

variable {env : Environment} {state next : State} {action : Action} {job : Uuid}

@[simp] theorem withOrigin_origins {state : State} {shared : Shared} {target job : Uuid}
    {origin : Origin} : (state.withOrigin shared target origin).origins job =
      if job = target then origin else state.origins job := by
  simp only [State.withOrigin, Function.update_apply]

@[simp] theorem withOrigin_shared {state : State} {shared : Shared} {target : Uuid}
    {origin : Origin} : (state.withOrigin shared target origin).shared = shared := rfl

@[simp] theorem withWorker_workers {state : State} {shared : Shared} {target id : WorkerId}
    {phase : Worker.Phase} : (state.withWorker shared target phase).workers id =
      if id = target then phase else state.workers id := by
  simp only [State.withWorker, Function.update_apply]

@[simp] theorem withWorker_origins {state : State} {shared : Shared} {target : WorkerId}
    {phase : Worker.Phase} : (state.withWorker shared target phase).origins = state.origins := rfl

@[simp] theorem withWorker_shared {state : State} {shared : Shared} {target : WorkerId}
    {phase : Worker.Phase} : (state.withWorker shared target phase).shared = shared := rfl

/-- A write to one row either concerns the job or keeps its row. -/
theorem write_kept_or_same (shared : Shared) (target : Uuid) (row : Conversation) (job : Uuid) :
    target = job ∨ (shared.write target row).jobs job = shared.jobs job := by
  by_cases same : target = job
  · exact .inl same
  · exact .inr (Shared.write_jobs_of_ne (Ne.symm same))

theorem worker_row_change {id : WorkerId} {action : Worker.Action} {shared : Shared}
    {phase : Worker.Phase}
    (move : Worker.Move (env.settings id) state.shared (state.workers id) action shared phase)
    (job : Uuid) : RowChange env state (state.withWorker shared id phase) job (.worker id action) := by
  generalize held : state.workers id = before at move
  cases move with
  | claimed delivery timed past present free =>
      rcases write_kept_or_same state.shared delivery.job _ job with rfl | same
      · exact .claimed held rfl past rfl present free (Shared.write_jobs_self)
          (Function.update_self ..)
      · exact .kept same
  | @completed attempt _ _ _ _ _ _ present accepted =>
      rcases write_kept_or_same state.shared attempt.job _ job with rfl | same
      · exact .completed held rfl present (Conversation.isProcessing_iff.mp accepted)
          Shared.write_jobs_self
      · exact .kept same
  | @released attempt _ _ _ _ _ _ _ present accepted =>
      rcases write_kept_or_same state.shared attempt.job _ job with rfl | same
      · exact .released held rfl present (Conversation.isProcessing_iff.mp accepted)
          Shared.write_jobs_self
      · exact .kept same
  | @failed attempt _ _ _ _ _ _ _ present accepted =>
      rcases write_kept_or_same state.shared attempt.job _ job with rfl | same
      · exact .failed held rfl present (Conversation.isUnfinished_iff.mp accepted)
          Shared.write_jobs_self
      · exact .kept same
  | _ => exact .kept rfl

theorem api_row_change {target : Uuid} {request after : Api.Request} {action : Api.Action}
    {shared : Shared} (origin : state.origins target = .api request)
    (move : Api.Move state.shared target request action shared after) (job : Uuid) :
    RowChange env state (state.withOrigin shared target (.api after)) job (.api target action) := by
  cases move with
  | committed absent =>
      rcases write_kept_or_same state.shared target _ job with rfl | same
      · exact .submitted origin (.inl rfl) absent Shared.write_jobs_self
      · exact .kept same
  | rejected absent =>
      rcases write_kept_or_same state.shared target _ job with rfl | same
      · exact .submitted origin (.inr rfl) absent Shared.write_jobs_self
      · exact .kept same
  | _ => exact .kept rfl

/-- An unguarded update writes every row that is there. -/
theorem unguarded_cases (jobs : Jobs) (target : Uuid) (set : Conversation → Conversation)
    (job : Uuid) :
    (jobs.updateWhere target (fun _ => true) set).1 job = jobs job ∨
      target = job ∧ ∃ row, jobs job = some row ∧
        (jobs.updateWhere target (fun _ => true) set).1 job = some (set row) := by
  rcases jobs.updateWhere_cases target (fun _ => true) set with
    ⟨row, present, _, updated⟩ | ⟨_, updated⟩
  · by_cases same : target = job
    · subst same
      exact .inr ⟨rfl, row, present, by simp [updated]⟩
    · exact .inl (Table.updateWhere_other (Ne.symm same))
  · exact .inl (by rw [updated])

theorem ingest_row_change {target : Uuid} {publication after : Ingest.Publication}
    {action : Ingest.Publication.Action} {shared : Shared}
    (move : Ingest.Publication.Move state.shared target publication action shared after)
    (job : Uuid) :
    RowChange env state (state.withOrigin shared target (.s3 after)) job
      (.ingest target action) := by
  cases move with
  | @marked _ start =>
      rcases unguarded_cases state.shared.jobs target (Conversation.withEnqueued start) job with
        same | ⟨rfl, row, present, written⟩
      · exact .kept same
      · exact .enqueued present written
  | @markedFailed error _ start =>
      rcases unguarded_cases state.shared.jobs target (Conversation.withEnqueueFailed start error)
        job with same | ⟨rfl, row, present, written⟩
      · exact .kept same
      · exact .enqueueFailed present written
  | _ => exact .kept rfl

/-- Every step changes the row of a job in one of the listed ways. -/
theorem row_change (step : Step env state action next) (job : Uuid) :
    RowChange env state next job action := by
  cases step with
  | tick | duplicate | foreign | submit => exact .kept rfl
  | worker move => exact worker_row_change move job
  | api origin move => exact api_row_change origin move job
  | @createJob target _ _ _ _ unused _ absent =>
      rcases write_kept_or_same state.shared target _ job with rfl | same
      · exact .created unused absent Shared.write_jobs_self
      · exact .kept same
  | ingest origin move => exact ingest_row_change move job

/-- The database clock never goes back. -/
theorem step_now_le (step : Step env state action next) : state.shared.now ≤ next.shared.now := by
  cases step with
  | tick => exact Nat.le_add_right _ _
  | worker move => exact le_of_eq move.now_eq.symm
  | duplicate | foreign | submit | createJob => exact le_rfl
  | api _ move => cases move <;> exact le_rfl
  | ingest _ move => cases move <;> exact le_rfl

/-- The phase of a worker is the one it had, or the worker has just stepped. -/
theorem worker_source (step : Step env state action next) (id : WorkerId) :
    next.workers id = state.workers id ∨ ∃ call, action = .worker id call ∧
      Worker.Move (env.settings id) state.shared (state.workers id) call next.shared
        (next.workers id) := by
  cases step with
  | @worker target call shared phase move =>
      rw [withWorker_workers]
      split
      · rename_i same
        subst same
        exact .inr ⟨call, rfl, move⟩
      · exact .inl rfl
  | _ => exact .inl rfl

/-- A row that is there stays there. -/
theorem RowChange.present (change : RowChange env state next job action)
    (present : (state.shared.jobs job).isSome = true) :
    (next.shared.jobs job).isSome = true := by
  cases change with
  | kept same => rw [same]; exact present
  | _ => simp_all

/-- No step takes a finished job back to an unfinished status. -/
theorem RowChange.terminal (change : RowChange env state next job action) {row : Conversation}
    (present : state.shared.jobs job = some row) (ended : row.status.terminal = true) :
    ∃ later, next.shared.jobs job = some later ∧ later.status.terminal = true := by
  cases change with
  | kept same => exact ⟨row, same.trans present, ended⟩
  | submitted _ _ absent => simp [absent] at present
  | created _ absent => simp [absent] at present
  | claimed _ _ _ _ found free =>
      rw [present, Option.some.injEq] at found
      subst found
      simp [(Conversation.claimable_iff.mp free).1] at ended
  | completed _ _ _ _ written => exact ⟨_, written, rfl⟩
  | released _ _ found accepted =>
      rw [present, Option.some.injEq] at found
      subst found
      simp [accepted, JobStatus.terminal] at ended
  | failed _ _ _ _ written => exact ⟨_, written, rfl⟩
  | enqueued found written =>
      rw [present, Option.some.injEq] at found
      subst found
      exact ⟨_, written, ended⟩
  | enqueueFailed _ written => exact ⟨_, written, rfl⟩

/-- A row appears with the commit of its request or with the creation of an ingested job. -/
theorem RowChange.appeared (change : RowChange env state next job action) {row : Conversation}
    (absent : state.shared.jobs job = none) (found : next.shared.jobs job = some row) :
    (∃ request, state.origins job = .api request ∧
      (request.phase = .committing row ∨ request.phase = .rejecting row) ∧
      action = .api job .commit) ∨
    state.origins job = .unused ∧ ∃ conversation maxAttempts sourceRef clock,
      action = .createJob job conversation maxAttempts sourceRef clock ∧
      row = ConvoScore.createJob env.sha256 job clock conversation .s3 maxAttempts
        (some sourceRef) := by
  cases change with
  | kept same =>
      rw [same, absent] at found
      cases found
  | submitted origin opened _ written =>
      rw [written, Option.some.injEq] at found
      exact .inl ⟨_, origin, found ▸ opened, rfl⟩
  | created unused _ written =>
      rw [written, Option.some.injEq] at found
      exact .inr ⟨unused, _, _, _, _, rfl, found.symm⟩
  | claimed _ _ _ _ held | completed _ _ held | released _ _ held | failed _ _ held
  | enqueued held | enqueueFailed held =>
      rw [absent] at held
      cases held

/-- A step changes the origin of a job in one of these ways, or keeps it. -/
inductive OriginChange (env : Environment) (state next : State) (job : Uuid) : Action → Prop
  | kept {action : Action} (same : next.origins job = state.origins job) :
      OriginChange env state next job action
  | submitted {conversation : ConversationInput} {maxAttempts : Nat} {start : Timestamp}
      (unused : state.origins job = .unused)
      (origin : next.origins job = .api ⟨.publishing (ConvoScore.createJob env.sha256 job
        state.shared.now conversation .api maxAttempts none) start, none, none⟩) :
      OriginChange env state next job (.submit job conversation maxAttempts start)
  | requested {request after : Api.Request} {action : Api.Action} {shared : Shared}
      (before : state.origins job = .api request)
      (move : Api.Move state.shared job request action shared after)
      (origin : next.origins job = .api after) (result : next.shared = shared) :
      OriginChange env state next job (.api job action)
  | created {conversation : ConversationInput} {maxAttempts : Nat} {sourceRef : Text}
      {clock : Timestamp} (unused : state.origins job = .unused)
      (origin : next.origins job = .s3 .publishing) :
      OriginChange env state next job (.createJob job conversation maxAttempts sourceRef clock)
  | published {publication after : Ingest.Publication} {action : Ingest.Publication.Action}
      {shared : Shared} (before : state.origins job = .s3 publication)
      (move : Ingest.Publication.Move state.shared job publication action shared after)
      (origin : next.origins job = .s3 after) (result : next.shared = shared) :
      OriginChange env state next job (.ingest job action)

/-- Every step changes the origin of a job in one of the listed ways. -/
theorem origin_change (step : Step env state action next) (job : Uuid) :
    OriginChange env state next job action := by
  cases step with
  | tick | duplicate | foreign | worker => exact .kept rfl
  | @submit target _ _ _ unused =>
      by_cases same : job = target
      · subst same
        exact .submitted unused (by rw [withOrigin_origins, if_pos rfl])
      · exact .kept (by rw [withOrigin_origins, if_neg same])
  | @api target _ _ _ _ before move =>
      by_cases same : job = target
      · subst same
        exact .requested before move (by rw [withOrigin_origins, if_pos rfl]) rfl
      · exact .kept (by rw [withOrigin_origins, if_neg same])
  | @createJob target _ _ _ _ unused =>
      by_cases same : job = target
      · subst same
        exact .created unused (by rw [withOrigin_origins, if_pos rfl])
      · exact .kept (by rw [withOrigin_origins, if_neg same])
  | @ingest target _ _ _ _ before move =>
      by_cases same : job = target
      · subst same
        exact .published before move (by rw [withOrigin_origins, if_pos rfl]) rfl
      · exact .kept (by rw [withOrigin_origins, if_neg same])

/-- A request in the next state was there before, has just been submitted or has just moved. -/
theorem request_source (step : Step env state action next) {job : Uuid} {after : Api.Request}
    (origin : next.origins job = .api after) :
    state.origins job = .api after ∨
      (∃ conversation maxAttempts start,
        action = .submit job conversation maxAttempts start ∧
        after = ⟨.publishing (ConvoScore.createJob env.sha256 job state.shared.now conversation
          .api maxAttempts none) start, none, none⟩) ∨
      ∃ request call, action = .api job call ∧ state.origins job = .api request ∧
        Api.Move state.shared job request call next.shared after := by
  cases origin_change step job with
  | kept same => exact .inl (same ▸ origin)
  | submitted _ new =>
      rw [new] at origin
      cases origin
      exact .inr (.inl ⟨_, _, _, rfl, rfl⟩)
  | created _ new | published _ _ new =>
      rw [new] at origin
      cases origin
  | requested before move new result =>
      rw [new] at origin
      cases origin
      exact .inr (.inr ⟨_, _, rfl, before, result ▸ move⟩)

/-- A publication in the next state was there before, has just been opened or has just moved. -/
theorem published_source (step : Step env state action next) {job : Uuid}
    {after : Ingest.Publication} (origin : next.origins job = .s3 after) :
    state.origins job = .s3 after ∨ (state.origins job = .unused ∧ after = .publishing) ∨
      ∃ publication call, action = .ingest job call ∧ state.origins job = .s3 publication ∧
        Ingest.Publication.Move state.shared job publication call next.shared after := by
  cases origin_change step job with
  | kept same => exact .inl (same ▸ origin)
  | created unused new =>
      rw [new] at origin
      cases origin
      exact .inr (.inl ⟨unused, rfl⟩)
  | submitted _ new | requested _ _ new =>
      rw [new] at origin
      cases origin
  | published before move new result =>
      rw [new] at origin
      cases origin
      exact .inr (.inr ⟨_, _, rfl, before, result ▸ move⟩)

end ConvoScore.Pipeline
