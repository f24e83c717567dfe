import ConvoScore.Pipeline.Changes

namespace ConvoScore

/-- The row of a request is committed in these phases. -/
def Api.Phase.stored : Api.Phase → Bool
  | .committed | .rejected => true
  | _ => false

/-- A request past its publish may have a message in the queue. -/
def Api.Phase.pastPublish : Api.Phase → Bool
  | .publishing _ _ => false
  | _ => true

/-- A request that has its row in an open transaction has not stored it yet. -/
theorem Api.Phase.stored_of_open {phase : Api.Phase} {row : Conversation}
    (opened : phase.openRow = some row) : phase.stored = false := by
  cases phase <;> first | rfl | cases opened

namespace Pipeline
open Library

/-- The row of a job is committed in these states of its publisher. -/
def Origin.stored : Origin → Bool
  | .unused => false
  | .api request => request.phase.stored
  | .s3 _ => true

/-- An ingested job is committed before its id is published. -/
def Origin.ingested : Origin → Bool
  | .s3 _ => true
  | _ => false

theorem Origin.stored_of_ingested {origin : Origin} (ingested : origin.ingested = true) :
    origin.stored = true := by
  cases origin <;> first | rfl | cases ingested

/-- The queue may hold a message of a job in these states of its publisher. -/
def Origin.pastPublish : Origin → Bool
  | .unused => false
  | .api request => request.phase.pastPublish
  | .s3 publication => decide (publication ≠ .publishing)

/-- A job is stored once its transaction has committed, and never before. -/
def StoredRows (state : State) : Prop :=
  ∀ job, (state.shared.jobs job).isSome = (state.origins job).stored

/-- Only a job whose publisher went past the publish has a message somewhere. -/
structure SentMessages (state : State) : Prop where
  queued : ∀ message ∈ state.shared.queue.messages, ∀ job, message.jobId = some job →
    (state.origins job).pastPublish = true
  inHand : ∀ id message, (state.workers id).message = some message → ∀ job,
    message.jobId = some job → (state.origins job).pastPublish = true

/-- A pending row is unlocked, and so is a row that is about to be inserted. -/
structure UnlockedRows (state : State) : Prop where
  pending : ∀ job row, state.shared.jobs job = some row → row.status = .pending →
    row.lockedUntil = none
  opened : ∀ job request row, state.origins job = .api request →
    request.phase.openRow = some row → row.lockedUntil = none

/-- Every attempt in its window has a stored row. -/
def ClaimedRows (state : State) : Prop :=
  ∀ id attempt, (state.workers id).attempt = some attempt →
    (state.shared.jobs attempt.job).isSome = true

variable {env : Environment} {state next : State} {action : Action}

theorem worker_isSome {id : WorkerId} {action : Worker.Action} {shared : Shared}
    {phase : Worker.Phase}
    (move : Worker.Move (env.settings id) state.shared (state.workers id) action shared phase)
    (job : Uuid) : (shared.jobs job).isSome = (state.shared.jobs job).isSome := by
  have change := worker_row_change move job
  generalize same : state.withWorker shared id phase = next at change
  have rows : shared.jobs job = next.shared.jobs job := by rw [← same]; rfl
  rw [rows]
  cases change with
  | kept same => rw [same]
  | claimed _ _ _ _ present _ written => simp [present, written]
  | completed _ _ present _ written => simp [present, written]
  | released _ _ present _ written => simp [present, written]
  | failed _ _ present _ written => simp [present, written]

/-- The row of a job other than the one that the action names is kept. -/
theorem api_other {target job : Uuid} {request after : Api.Request} {action : Api.Action}
    {shared next : Shared} (move : Api.Move shared target request action next after)
    (different : job ≠ target) : next.jobs job = shared.jobs job := by
  cases move with
  | committed | rejected => exact Shared.write_jobs_of_ne different
  | _ => rfl

/-- A request stores its row exactly when its transaction commits. -/
theorem api_stored {job : Uuid} {request after : Api.Request} {action : Api.Action}
    {shared next : Shared} (move : Api.Move shared job request action next after)
    (stored : (shared.jobs job).isSome = request.phase.stored) :
    (next.jobs job).isSome = after.phase.stored := by
  cases move with
  | committed | rejected => simp [Api.Phase.stored]
  | rolledBack opened =>
      rw [Api.Phase.stored_of_open opened] at stored
      exact stored
  | _ => exact stored

theorem ingest_isSome {target job : Uuid} {publication after : Ingest.Publication}
    {action : Ingest.Publication.Action} {shared next : Shared}
    (move : Ingest.Publication.Move shared target publication action next after) :
    (next.jobs job).isSome = (shared.jobs job).isSome := by
  cases move with
  | marked | markedFailed => exact Table.updateWhere_isSome
  | _ => rfl

theorem storedRows_step (stored : StoredRows state) (step : Step env state action next) :
    StoredRows next := by
  intro job
  cases step with
  | tick | duplicate | foreign => exact stored job
  | worker move => exact (worker_isSome move job).trans (stored job)
  | submit unused =>
      rw [withOrigin_shared, withOrigin_origins, stored job]
      split
      · rename_i same
        rw [same, unused]
        rfl
      · rfl
  | @api target request after _ _ origin move =>
      rw [withOrigin_shared, withOrigin_origins]
      split
      · rename_i same
        have earlier := stored target
        rw [origin] at earlier
        exact same ▸ api_stored move earlier
      · rename_i different
        rw [api_other move different]
        exact stored job
  | @createJob target =>
      rw [withOrigin_shared, withOrigin_origins]
      split
      · rename_i same
        simp [same, Origin.stored]
      · rename_i different
        rw [Shared.write_jobs_of_ne different]
        exact stored job
  | @ingest target publication after _ _ origin move =>
      rw [withOrigin_shared, withOrigin_origins, ingest_isSome move, stored job]
      split
      · rename_i same
        rw [same, origin]
        rfl
      · rfl

/-- A publisher that went past its publish stays past it. -/
theorem pastPublish_step (step : Step env state action next) {job : Uuid}
    (past : (state.origins job).pastPublish = true) : (next.origins job).pastPublish = true := by
  cases origin_change step job with
  | kept same =>
      rw [same]
      exact past
  | submitted unused | created unused =>
      rw [unused] at past
      cases past
  | requested before move origin =>
      rw [before] at past
      rw [origin]
      cases move with
      | refused | received => exact past
      | _ => rfl
  | published _ move origin =>
      rw [origin]
      cases move <;> rfl

/-- Only the creation of a job makes it an ingested one. -/
theorem ingested_unchanged (step : Step env state action next) {job : Uuid}
    (other : ∀ conversation maxAttempts sourceRef clock,
      action ≠ .createJob job conversation maxAttempts sourceRef clock) :
    (next.origins job).ingested = (state.origins job).ingested := by
  cases origin_change step job with
  | kept same => rw [same]
  | submitted before origin | requested before _ origin | published before _ origin =>
      rw [before, origin]
      rfl
  | created => exact absurd rfl (other _ _ _ _)

/-- The creation of a job uses a new id and leaves the other jobs alone. -/
theorem createJob_origins {job : Uuid} {conversation : ConversationInput} {maxAttempts : Nat}
    {sourceRef : Text} {clock : Timestamp}
    (step : Step env state (.createJob job conversation maxAttempts sourceRef clock) next) :
    state.origins job = .unused ∧ ∀ other,
      next.origins other = if other = job then .s3 .publishing else state.origins other := by
  cases step with
  | createJob unused => exact ⟨unused, fun _ => withOrigin_origins⟩

/-- A step of a publication moves the publication of its own job. -/
theorem ingest_origins {job : Uuid} {call : Ingest.Publication.Action}
    (step : Step env state (.ingest job call) next) :
    ∃ before after, state.origins job = .s3 before ∧
      Ingest.Publication.Move state.shared job before call next.shared after ∧
      ∀ other, next.origins other = if other = job then .s3 after else state.origins other := by
  cases step with
  | ingest origin move => exact ⟨_, _, origin, move, fun _ => withOrigin_origins⟩

/-- An ingested job was ingested before or has just been created. -/
theorem ingested_source (step : Step env state action next) {job : Uuid}
    (ingested : (next.origins job).ingested = true) :
    (state.origins job).ingested = true ∨
      state.origins job = .unused ∧ next.origins job = .s3 .publishing := by
  by_cases created : ∃ conversation maxAttempts sourceRef clock,
      action = .createJob job conversation maxAttempts sourceRef clock
  · obtain ⟨_, _, _, _, rfl⟩ := created
    obtain ⟨unused, origins⟩ := createJob_origins step
    exact .inr ⟨unused, by rw [origins, if_pos rfl]⟩
  · rw [ingested_unchanged step fun _ _ _ _ same => created ⟨_, _, _, _, same⟩] at ingested
    exact .inl ingested

/-- A step keeps every ingested job ingested. -/
theorem ingested_step (step : Step env state action next) {job : Uuid}
    (ingested : (state.origins job).ingested = true) : (next.origins job).ingested = true := by
  by_cases created : ∃ conversation maxAttempts sourceRef clock,
      action = .createJob job conversation maxAttempts sourceRef clock
  · obtain ⟨_, _, _, _, rfl⟩ := created
    rw [(createJob_origins step).1] at ingested
    cases ingested
  · rw [ingested_unchanged step fun _ _ _ _ same => created ⟨_, _, _, _, same⟩]
    exact ingested

/-- A publish takes its publisher past it. -/
theorem publish_origins {job : Uuid} {result : PublishResult}
    (step : Step env state (.ingest job (.publish result)) next) :
    state.origins job = .s3 .publishing ∧ (next.origins job).pastPublish = true := by
  cases step with
  | ingest origin move =>
      rw [withOrigin_origins, if_pos rfl]
      cases move with
      | delivered | raised => exact ⟨origin, rfl⟩

/-- `mark_enqueue_failed` follows a publish that raised. -/
theorem markEnqueueFailed_origin {job : Uuid} {start : Timestamp}
    (step : Step env state (.ingest job (.markEnqueueFailed start)) next) :
    ∃ error since, state.origins job = .s3 (.failing error since) := by
  cases step with
  | ingest origin move =>
      cases move with
      | markedFailed => exact ⟨_, _, origin⟩

/-- A request adds at most its own message, and it is past its publish then. -/
theorem api_queue {target : Uuid} {request after : Api.Request} {action : Api.Action}
    {shared next : Shared} (move : Api.Move shared target request action next after)
    {message : QueueMessage} (member : message ∈ next.queue.messages) :
    message ∈ shared.queue.messages ∨
      message.jobId = some target ∧ after.phase.pastPublish = true := by
  cases move with
  | delivered =>
      rcases Queue.mem_send member with own | old
      · exact .inr ⟨own, rfl⟩
      · exact .inl old
  | raised =>
      rcases PublishResult.mem_enqueue member with own | old
      · exact .inr ⟨own, rfl⟩
      · exact .inl old
  | _ => exact .inl member

/-- A publication adds at most its own message, and it is past its publish then. -/
theorem ingest_queue {target : Uuid} {publication after : Ingest.Publication}
    {action : Ingest.Publication.Action} {shared next : Shared}
    (move : Ingest.Publication.Move shared target publication action next after)
    {message : QueueMessage} (member : message ∈ next.queue.messages) :
    message ∈ shared.queue.messages ∨
      message.jobId = some target ∧ (Origin.s3 after).pastPublish = true := by
  cases move with
  | delivered =>
      rcases Queue.mem_send member with own | old
      · exact .inr ⟨own, rfl⟩
      · exact .inl old
  | raised =>
      rcases PublishResult.mem_enqueue member with own | old
      · exact .inr ⟨own, rfl⟩
      · exact .inl old
  | _ => exact .inl member

/-- A message that appears in the queue copies an old one or carries the published id. -/
theorem queued_source (step : Step env state action next) {message : QueueMessage}
    (member : message ∈ next.shared.queue.messages) {job : Uuid}
    (addressed : message.jobId = some job) :
    (∃ old ∈ state.shared.queue.messages, old.jobId = some job) ∨
      (next.origins job).pastPublish = true := by
  cases step with
  | tick | submit | createJob => exact .inl ⟨message, member, addressed⟩
  | duplicate old =>
      rcases List.mem_cons.mp member with rfl | member
      · exact .inl ⟨_, old, addressed⟩
      · exact .inl ⟨message, member, addressed⟩
  | foreign =>
      rcases List.mem_cons.mp member with rfl | member
      · cases addressed
      · exact .inl ⟨message, member, addressed⟩
  | worker move =>
      rcases move.queue_cases with same | ⟨_, _, _, _, _, deleted⟩
      · rw [withWorker_shared, same] at member
        exact .inl ⟨message, member, addressed⟩
      · rw [withWorker_shared, deleted] at member
        exact .inl ⟨message, Queue.mem_of_mem_delete member, addressed⟩
  | api _ move =>
      rcases api_queue move member with old | ⟨own, past⟩
      · exact .inl ⟨message, old, addressed⟩
      · rw [own, Option.some.injEq] at addressed
        exact .inr (by rw [withOrigin_origins, if_pos addressed.symm]; exact past)
  | ingest _ move =>
      rcases ingest_queue move member with old | ⟨own, past⟩
      · exact .inl ⟨message, old, addressed⟩
      · rw [own, Option.some.injEq] at addressed
        exact .inr (by rw [withOrigin_origins, if_pos addressed.symm]; exact past)

/-- A message in hand was in hand before or comes from the queue. -/
theorem inHand_source (step : Step env state action next) {id : WorkerId}
    {message : QueueMessage} (held : (next.workers id).message = some message) :
    (state.workers id).message = some message ∨ message ∈ state.shared.queue.messages := by
  cases step with
  | worker move =>
      rw [withWorker_workers] at held
      split at held
      · rename_i same
        exact same ▸ move.message_source held
      · exact .inl held
  | _ => exact .inl held

theorem sentMessages_step (sent : SentMessages state) (step : Step env state action next) :
    SentMessages next where
  queued message member job addressed := by
    rcases queued_source step member addressed with ⟨old, member, addressed⟩ | past
    · exact pastPublish_step step (sent.queued old member job addressed)
    · exact past
  inHand id message held job addressed := by
    rcases inHand_source step held with held | member
    · exact pastPublish_step step (sent.inHand id message held job addressed)
    · exact pastPublish_step step (sent.queued message member job addressed)

/-- Where the action that opens it gives the new row a property, an open row keeps it. -/
theorem openRow_preserves {property : Conversation → Prop} {job : Uuid}
    (created : ∀ conversation maxAttempts start,
      action = .submit job conversation maxAttempts start → property
        (ConvoScore.createJob env.sha256 job state.shared.now conversation .api maxAttempts none))
    (enqueued : ∀ row start, property row → property (row.withEnqueued start))
    (enqueueFailed : ∀ row start error, property row → property (row.withEnqueueFailed start error))
    (holds : ∀ request row, state.origins job = .api request →
      request.phase.openRow = some row → property row)
    (step : Step env state action next) {request : Api.Request} {row : Conversation}
    (origin : next.origins job = .api request) (opened : request.phase.openRow = some row) :
    property row := by
  rcases request_source step origin with old | ⟨_, _, _, made, rfl⟩ | ⟨before, _, _, found, move⟩
  · exact holds request row old opened
  · cases opened
    exact created _ _ _ made
  · have earlier := holds before
    generalize next.shared = shared at move
    cases move with
    | @marked held start =>
        cases opened
        exact enqueued held start (earlier held found rfl)
    | @markedFailed held start error =>
        cases opened
        exact enqueueFailed held start error (earlier held found rfl)
    | committed | rejected | rolledBack => cases opened
    | _ => exact earlier row found opened

/-- The row of an open transaction keeps what a new row satisfies and its own updates keep. -/
theorem openRow_keeps {property : Conversation → Prop}
    (created : ∀ job clock conversation maxAttempts, property
      (ConvoScore.createJob env.sha256 job clock conversation .api maxAttempts none))
    (enqueued : ∀ row start, property row → property (row.withEnqueued start))
    (enqueueFailed : ∀ row start error, property row → property (row.withEnqueueFailed start error))
    (holds : ∀ job request row, state.origins job = .api request →
      request.phase.openRow = some row → property row)
    (step : Step env state action next) {job : Uuid} {request : Api.Request} {row : Conversation}
    (origin : next.origins job = .api request) (opened : request.phase.openRow = some row) :
    property row :=
  openRow_preserves (fun _ _ _ _ => created _ _ _ _) enqueued enqueueFailed (holds job) step origin
    opened

theorem unlockedRows_step (unlocked : UnlockedRows state) (step : Step env state action next) :
    UnlockedRows next where
  pending job row present waiting := by
    have change := row_change step job
    cases change with
    | kept same => exact unlocked.pending job row (same ▸ present) waiting
    | submitted origin opened _ written =>
        rw [written, Option.some.injEq] at present
        subst present
        exact unlocked.opened job _ _ origin (Api.Phase.openRow_of_opened opened)
    | @enqueued _ held found written =>
        rw [written, Option.some.injEq] at present
        subst present
        have unlockedRow : held.lockedUntil = none := unlocked.pending job held found waiting
        exact unlockedRow
    | enqueueFailed _ written | claimed _ _ _ _ _ _ written =>
        rw [written, Option.some.injEq] at present
        subst present
        cases waiting
    | created _ _ written | completed _ _ _ _ written | released _ _ _ _ written
    | failed _ _ _ _ written =>
        rw [written, Option.some.injEq] at present
        subst present
        rfl
  opened _ _ _ := openRow_keeps (fun _ _ _ _ => rfl) (fun _ _ waiting => waiting)
    (fun _ _ _ waiting => waiting) unlocked.opened step

theorem claimedRows_step (claimed : ClaimedRows state) (step : Step env state action next) :
    ClaimedRows next := by
  intro id attempt held
  have kept : ∀ attempt, (state.workers id).attempt = some attempt →
      (next.shared.jobs attempt.job).isSome = true :=
    fun attempt held => (row_change step attempt.job).present (claimed id attempt held)
  cases step with
  | worker move =>
      rw [withWorker_workers] at held
      split at held
      · rename_i same
        subst same
        rcases move.attempt_source held with held | ⟨_, _, _, present⟩
        · exact kept attempt held
        · exact present
      · exact kept attempt held
  | _ => exact kept attempt held

/-- These facts hold in every run, whatever fails. -/
structure Consistent (state : State) : Prop where
  stored : StoredRows state
  sent : SentMessages state
  unlocked : UnlockedRows state
  claimed : ClaimedRows state

theorem consistent_step (consistent : Consistent state) (step : Step env state action next) :
    Consistent next where
  stored := storedRows_step consistent.stored step
  sent := sentMessages_step consistent.sent step
  unlocked := unlockedRows_step consistent.unlocked step
  claimed := claimedRows_step consistent.claimed step

theorem consistent_initial (now : Timestamp) : Consistent (initial now) where
  stored _ := rfl
  sent := {
    queued := fun _ member => by cases member
    inHand := fun _ _ held => by cases held }
  unlocked := {
    pending := fun _ _ present => by cases present
    opened := fun _ _ _ origin => by cases origin }
  claimed _ _ held := by cases held

/-- A job in hand has a row. -/
theorem inWindow_row (consistent : Consistent state) {id : WorkerId} {attempt : Worker.Attempt} {job : Uuid}
    (held : (state.workers id).attempt = some attempt) (same : attempt.job = job) :
    ∃ row, state.shared.jobs job = some row := by
  subst same
  exact Option.isSome_iff_exists.mp (consistent.claimed id attempt held)

/-- Every reached state is consistent. -/
theorem reached_consistent {allowed : System.Condition State Action}
    (reached : (system env).Reached allowed state) : Consistent state := by
  refine reached.invariant ?_ ?_
  · rintro _ ⟨now, rfl⟩
    exact consistent_initial now
  · intro before action after consistent step _
    exact consistent_step consistent (step_cases step)

end Pipeline
end ConvoScore
