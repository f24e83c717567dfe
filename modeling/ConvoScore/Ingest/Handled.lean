import ConvoScore.Ingest.ExactlyOnce
import ConvoScore.Pipeline.LostClaim
import ConvoScore.Pipeline.Verdict

namespace ConvoScore.Ingest

/-- The publication of a job has not ended in these states. -/
def Publication.unfinished : Publication → Bool
  | .publishing | .marking _ | .failing _ _ => true
  | _ => false

/-- A publication whose `publish` returned can only be in these states. -/
def Publication.afterDelivery : Publication → Bool
  | .marking _ | .marked | .stopped => true
  | _ => false

/-- Only a `publish` that returns leads to the update of `enqueued_at`. -/
theorem Publication.Move.marking_source {shared next : Shared} {job : Uuid} {before : Publication}
    {action : Publication.Action} {since : Timestamp}
    (move : Publication.Move shared job before action next (.marking since)) :
    before = .publishing ∧ action = .publish .delivered := by
  cases move with
  | delivered => exact ⟨rfl, rfl⟩

/-- The update of `enqueued_at` follows a `publish` that returned. -/
theorem Publication.Move.marked_source {shared next : Shared} {job : Uuid}
    {before after : Publication} {start : Timestamp}
    (move : Publication.Move shared job before (.markEnqueued start) next after) :
    ∃ since, before = .marking since := by
  cases move with
  | marked => exact ⟨_, rfl⟩

/-- A publication stays past its delivery. -/
theorem Publication.Move.afterDelivery_kept {shared next : Shared} {job : Uuid}
    {before after : Publication} {action : Publication.Action}
    (move : Publication.Move shared job before action next after)
    (sent : before.afterDelivery = true) : after.afterDelivery = true := by
  cases move with
  | delivered | raised | markedFailed => cases sent
  | marked | stopped => rfl

/-- A `publish` that returns is a delivery. -/
theorem Publication.Move.afterDelivery_reached {shared next : Shared} {job : Uuid}
    {before after : Publication}
    (move : Publication.Move shared job before (.publish .delivered) next after) :
    after.afterDelivery = true := by
  cases move with
  | delivered => rfl
  | raised text => rcases text with text | text <;> cases text

/-- An exception writes nothing. -/
theorem Publication.Move.stop_shared {shared next : Shared} {job : Uuid}
    {before after : Publication} (move : Publication.Move shared job before .stop next after) :
    next = shared := by
  cases move with
  | stopped => rfl

/-- After its delivery, only the update of `enqueued_at` can be left of a publication. -/
theorem Publication.marking_of_unfinished {publication : Publication}
    (unfinished : publication.unfinished = true) (past : publication.afterDelivery = true) :
    ∃ since, publication = .marking since := by
  cases publication with
  | marking since => exact ⟨since, rfl⟩
  | publishing | failing => cases past
  | _ => cases unfinished

/-- A publish leaves the update of the row to be done. -/
theorem Publication.Move.publish_unfinished {shared next : Shared} {job : Uuid}
    {before after : Publication} {result : PublishResult}
    (move : Publication.Move shared job before (.publish result) next after) :
    after.unfinished = true := by
  cases move with
  | delivered | raised => rfl

namespace Replicas
open Library

/-- The job whose `publish` returns in a transition. -/
def deliveredJob (taken : System.Taken State Action) : Option Uuid :=
  match taken.action with
  | .replica id (.publication (.publish .delivered)) =>
      (taken.before.replicas id).phase.published.map (·.2)
  | _ => none

/-- The id of the job was successfully published. -/
def Published (history : List (System.Taken State Action)) (job : Uuid) : Prop :=
  ∃ taken ∈ history, deliveredJob taken = some job

/-- A replica is still on its way from the commit of the job to the end of its pass. -/
def InHand (state : State) (job : Uuid) : Prop :=
  ∃ id stored, (state.replicas id).phase.published = some (stored, job)

/-- The job is finished, was published, or belongs to a pass that still goes on. -/
def Settled (history : List (System.Taken State Action)) (state : State) (job : Uuid) : Prop :=
  InHand state job ∨ Pipeline.Finished state.pipeline job ∨ Published history job

/-- Every ingested object has a settled job, and an object without a record is not skipped:
its lookup is followed by a read, or it raises. -/
structure Handled (env : Environment) (run : List (System.Taken State Action) × State) :
    Prop where
  settled : ∀ record ∈ run.2.records, record.status = .ingested →
    ∃ job, record.conversationId = some job ∧ Settled run.1 run.2 job
  retried : ∀ id stored rest, run.2.replicas id = ⟨stored :: rest, .idle⟩ →
    ¬ Recorded run.2.records (env.store.identity stored) →
    ∃ next, replicaStep env run.2 id .check = some next ∧
      ((next.replicas id).phase = .reading stored ∨
        (env.store.identity stored).queryable = false)

/-- An exception cuts `_create_job` short after its commit only when `publish` has returned
or the job is finished. -/
def StopsSettled : System.Condition State Action :=
  fun before action _ => ∀ id stored job, action = .replica id (.publication .stop) →
    (before.replicas id).phase = .publishing stored job →
    (∃ since, before.pipeline.origins job = .s3 (.marking since)) ∨
      Pipeline.Finished before.pipeline job

/-- A job in hand has an unfinished publication of one replica,
and only a job whose `publish` returned is to be marked as enqueued. -/
structure Publications (history : List (System.Taken State Action)) (state : State) : Prop where
  held : ∀ id stored job, (state.replicas id).phase.published = some (stored, job) →
    ∃ publication, state.pipeline.origins job = .s3 publication ∧ publication.unfinished = true
  alone : ∀ first second one other job,
    (state.replicas first).phase.published = some (one, job) →
    (state.replicas second).phase.published = some (other, job) → first = second
  marking : ∀ job since, state.pipeline.origins job = .s3 (.marking since) → Published history job
  sent : ∀ job, Published history job →
    ∃ publication, state.pipeline.origins job = .s3 publication ∧
      publication.afterDelivery = true

variable {env : Environment} {state next : State} {id : ReplicaId} {action : Action} {job : Uuid}
  {history : List (System.Taken State Action)}

theorem Published.cons (published : Published history job) (taken : System.Taken State Action) :
    Published (taken :: history) job := by
  obtain ⟨earlier, member, delivered⟩ := published
  exact ⟨earlier, List.mem_cons_of_mem _ member, delivered⟩

theorem published_cons {taken : System.Taken State Action} :
    Published (taken :: history) job ↔ deliveredJob taken = some job ∨ Published history job := by
  simp [Published]

theorem publishing_of_published {phase : Phase} {stored : StoredObject}
    (held : phase.published = some (stored, job)) : phase = .publishing stored job := by
  cases phase with
  | publishing =>
      cases held
      rfl
  | _ => cases held

/-- Only a replica that publishes a job delivers it. -/
theorem deliveredJob_source (delivered : deliveredJob ⟨state, action, next⟩ = some job) :
    ∃ id stored, action = .replica id (.publication (.publish .delivered)) ∧
      (state.replicas id).phase = .publishing stored job := by
  unfold deliveredJob at delivered
  split at delivered
  · rename_i id call
    obtain ⟨⟨stored, held⟩, found, same⟩ := Option.map_eq_some_iff.mp delivered
    simp only at same call found
    subst same
    exact ⟨id, stored, call, publishing_of_published found⟩
  · cases delivered

/-- A transition that delivers nothing publishes no other job. -/
theorem published_unchanged (quiet : deliveredJob ⟨state, action, next⟩ = none) :
    Published (⟨state, action, next⟩ :: history) job ↔ Published history job := by
  rw [published_cons, quiet, or_iff_right]
  exact nofun

/-- A replica that publishes nothing delivers nothing. -/
theorem deliveredJob_none {call : ReplicaAction}
    (before : (state.replicas id).phase.published = none) :
    deliveredJob ⟨state, .replica id call, next⟩ = none := by
  rw [Option.eq_none_iff_forall_ne_some]
  intro job delivered
  obtain ⟨_, stored, same, phase⟩ := deliveredJob_source delivered
  cases same
  rw [phase] at before
  cases before

/-- Publications go on as before when no job enters a hand and no publication moves. -/
theorem Publications.quiet (publications : Publications history state)
    (held : ∀ id held, (next.replicas id).phase.published = some held →
      (state.replicas id).phase.published = some held)
    (origins : ∀ job publication, next.pipeline.origins job = .s3 publication ↔
      state.pipeline.origins job = .s3 publication)
    (quiet : deliveredJob ⟨state, action, next⟩ = none) :
    Publications (⟨state, action, next⟩ :: history) next where
  held id stored job found := by
    obtain ⟨publication, origin, unfinished⟩ := publications.held id stored job (held _ _ found)
    exact ⟨publication, (origins job publication).mpr origin, unfinished⟩
  alone first second one other job found alsoFound :=
    publications.alone first second one other job (held _ _ found) (held _ _ alsoFound)
  marking job since origin :=
    (published_unchanged quiet).mpr (publications.marking job since ((origins _ _).mp origin))
  sent job published := by
    obtain ⟨publication, origin, past⟩ :=
      publications.sent job ((published_unchanged quiet).mp published)
    exact ⟨publication, (origins job publication).mpr origin, past⟩

/-- Another process of the pipeline moves no publication of an ingested job. -/
theorem foreign_origins {action : Pipeline.Action} {pipeline : Pipeline.State}
    (foreign : ofReplica action = false)
    (stepped : Pipeline.step env.pipeline state.pipeline action = some pipeline) (job : Uuid)
    (publication : Publication) : pipeline.origins job = .s3 publication ↔
      state.pipeline.origins job = .s3 publication := by
  cases Pipeline.origin_change (Pipeline.step_cases stepped) job with
  | kept same => rw [same]
  | submitted unused origin => simp [unused, origin]
  | requested before _ origin => simp [before, origin]
  | created | published => cases foreign

/-- After the commit of a job its replica has it in hand, and the others keep their jobs. -/
theorem Publications.create_held (publications : Publications history state)
    (unused : state.pipeline.origins job = .unused) {stored object : StoredObject}
    {rest : List StoredObject} {other : ReplicaId} {target : Uuid}
    (replicas : next.replicas = Function.update state.replicas id ⟨rest, .publishing stored job⟩)
    (found : (next.replicas other).phase.published = some (object, target)) :
    other = id ∧ target = job ∨
      (state.replicas other).phase.published = some (object, target) ∧ target ≠ job := by
  rw [replicas, Function.update_apply] at found
  split at found
  · rename_i same
    cases found
    exact .inl ⟨same, rfl⟩
  · refine .inr ⟨found, ?_⟩
    rintro rfl
    obtain ⟨publication, origin, _⟩ := publications.held _ _ _ found
    rw [unused] at origin
    cases origin

/-- The commit of a job opens its publication in the hand of one replica. -/
theorem Publications.create (publications : Publications history state)
    {stored : StoredObject} {conversation : ConversationInput} {maxAttempts : Nat}
    {sourceRef : Text} {clock : Timestamp} {rest : List StoredObject}
    (created : Pipeline.step env.pipeline state.pipeline
      (.createJob job conversation maxAttempts sourceRef clock) = some next.pipeline)
    (replicas : next.replicas =
      Function.update state.replicas id ⟨rest, .publishing stored job⟩) :
    Publications (⟨state, .replica id .commit, next⟩ :: history) next := by
  obtain ⟨unused, origins⟩ := Pipeline.createJob_origins (Pipeline.step_cases created)
  have unchanged : ∀ {other publication}, state.pipeline.origins other = .s3 publication →
      next.pipeline.origins other = .s3 publication := by
    intro other publication origin
    have different : other ≠ job := by
      rintro rfl
      rw [unused] at origin
      cases origin
    rw [origins, if_neg different, origin]
  have held : ∀ {other : ReplicaId} {object target},
      (next.replicas other).phase.published = some (object, target) →
      other = id ∧ target = job ∨
        (state.replicas other).phase.published = some (object, target) ∧ target ≠ job :=
    fun found => publications.create_held unused replicas found
  constructor
  · intro other object target found
    rcases held found with ⟨rfl, rfl⟩ | ⟨earlier, _⟩
    · exact ⟨.publishing, by rw [origins, if_pos rfl], rfl⟩
    · obtain ⟨publication, origin, unfinished⟩ := publications.held _ _ _ earlier
      exact ⟨publication, unchanged origin, unfinished⟩
  · intro first second one other target found alsoFound
    rcases held found with ⟨rfl, rfl⟩ | ⟨earlier, different⟩
    · rcases held alsoFound with ⟨rfl, _⟩ | ⟨_, different⟩
      · rfl
      · exact absurd rfl different
    · rcases held alsoFound with ⟨_, rfl⟩ | ⟨alsoEarlier, _⟩
      · exact absurd rfl different
      · exact publications.alone first second one other target earlier alsoEarlier
  · intro target since marking
    rw [origins] at marking
    split at marking
    · cases marking
    · exact (publications.marking target since marking).cons _
  · intro target published
    rw [published_unchanged rfl] at published
    obtain ⟨publication, origin, past⟩ := publications.sent target published
    exact ⟨publication, unchanged origin, past⟩

/-- A replica at its publication delivers no other job. -/
theorem publishing_delivered {stored : StoredObject} {call : Publication.Action} {target : Uuid}
    (phase : (state.replicas id).phase = .publishing stored job)
    (delivered : deliveredJob ⟨state, .replica id (.publication call), next⟩ = some target) :
    target = job ∧ call = .publish .delivered := by
  obtain ⟨other, object, same, holding⟩ := deliveredJob_source delivered
  cases same
  rw [phase] at holding
  cases holding
  exact ⟨rfl, rfl⟩

/-- The job of a publication stays in hand after its publish only, and the others stay anyway. -/
theorem Publications.publish_held (publications : Publications history state)
    {stored object : StoredObject} {call : Publication.Action} {rest : List StoredObject}
    {other : ReplicaId} {target : Uuid}
    (phase : (state.replicas id).phase = .publishing stored job)
    (replicas : next.replicas =
      Function.update state.replicas id (afterPublication rest stored job call))
    (found : (next.replicas other).phase.published = some (object, target)) :
    (state.replicas other).phase.published = some (object, target) ∧
      (target = job → ∃ result, call = .publish result) := by
  have own : (state.replicas id).phase.published = some (stored, job) := by rw [phase]; rfl
  rw [replicas, Function.update_apply] at found
  split at found
  · rename_i same
    subst same
    cases call with
    | publish result =>
        cases found
        exact ⟨own, fun _ => ⟨result, rfl⟩⟩
    | _ => cases found
  · rename_i same
    refine ⟨found, ?_⟩
    rintro rfl
    exact absurd (publications.alone other id object stored target found own) same

/-- A step of a publication moves only its own job, which stays in hand until its row is marked. -/
theorem Publications.publish (publications : Publications history state)
    {stored : StoredObject} {call : Publication.Action} {rest : List StoredObject}
    (phase : (state.replicas id).phase = .publishing stored job)
    (stepped : Pipeline.step env.pipeline state.pipeline (.ingest job call) = some next.pipeline)
    (replicas : next.replicas =
      Function.update state.replicas id (afterPublication rest stored job call)) :
    Publications (⟨state, .replica id (.publication call), next⟩ :: history) next := by
  obtain ⟨before, after, origin, move, origins⟩ :=
    Pipeline.ingest_origins (Pipeline.step_cases stepped)
  have held : ∀ {other : ReplicaId} {object target},
      (next.replicas other).phase.published = some (object, target) →
      (state.replicas other).phase.published = some (object, target) ∧
        (target = job → ∃ result, call = .publish result) :=
    fun found => publications.publish_held phase replicas found
  constructor
  · intro other object target found
    obtain ⟨earlier, publishing⟩ := held found
    by_cases same : target = job
    · obtain ⟨result, rfl⟩ := publishing same
      exact ⟨after, by rw [origins, if_pos same],
        move.publish_unfinished⟩
    · obtain ⟨publication, known, unfinished⟩ := publications.held _ _ _ earlier
      exact ⟨publication, by rw [origins, if_neg same, known],
        unfinished⟩
  · intro first second one other target found alsoFound
    exact publications.alone first second one other target (held found).1 (held alsoFound).1
  · intro target since marking
    rw [origins] at marking
    split at marking
    · rename_i same
      cases marking
      obtain ⟨_, rfl⟩ := move.marking_source
      refine published_cons.mpr (.inl ?_)
      simp [deliveredJob, phase, Phase.published, same]
    · exact (publications.marking target since marking).cons _
  · intro target published
    by_cases same : target = job
    · refine ⟨after, by rw [origins, if_pos same], ?_⟩
      rcases published_cons.mp published with now | earlier
      · obtain ⟨_, rfl⟩ := publishing_delivered phase now
        exact move.afterDelivery_reached
      · obtain ⟨publication, known, past⟩ := publications.sent target earlier
        rw [same, origin] at known
        cases known
        exact move.afterDelivery_kept past
    · rcases published_cons.mp published with now | earlier
      · exact absurd (publishing_delivered phase now).1 same
      · obtain ⟨publication, known, past⟩ := publications.sent target earlier
        exact ⟨publication, by rw [origins, if_neg same, known],
          past⟩

theorem publications_step (publications : Publications history state)
    (step : Step env state action next) :
    Publications (⟨state, action, next⟩ :: history) next := by
  cases step with
  | pipeline foreign stepped =>
      exact publications.quiet (fun _ _ found => found) (foreign_origins foreign stepped) rfl
  | @replica id _ _ move =>
      have others : (next.replicas id).phase.published = none → ∀ other held,
          (next.replicas other).phase.published = some held →
          (state.replicas other).phase.published = some held := by
        intro none other held found
        by_cases same : other = id
        · rw [same, none] at found
          cases found
        · rwa [move_other move same] at found
      cases move with
      | moved before _ unpublished =>
          refine publications.quiet (others ?_) (fun _ _ => .rfl) (deliveredJob_none before)
          rw [withReplica_self, unpublished]
      | rolledBack before =>
          refine publications.quiet (others ?_) (fun _ _ => .rfl) (deliveredJob_none before)
          rw [State.rolledBack, withReplica_self]
          rfl
      | recorded _ unpublished =>
          refine publications.quiet (others ?_) (fun _ _ => .rfl) rfl
          rw [State.opened, withReplica_self, unpublished]
      | committedInvalid =>
          refine publications.quiet (others ?_) (fun _ _ => .rfl) rfl
          rw [State.commitRecord, withReplica_self]
          rfl
      | committedJob phase created =>
          exact publications.create created rfl
      | published phase stepped =>
          exact publications.publish phase stepped rfl

/-- A replica at its publication takes no other step. -/
theorem publishing_step {stored : StoredObject} {act : ReplicaAction}
    (phase : (state.replicas id).phase = .publishing stored job)
    (stepped : replicaStep env state id act = some next) :
    ∃ call, act = .publication call ∧
      Pipeline.step env.pipeline state.pipeline (.ingest job call) = some next.pipeline ∧
      next.replicas id = afterPublication (state.replicas id).rest stored job call := by
  cases act with
  | publication call =>
      simp only [replicaStep, phase] at stepped
      obtain ⟨pipeline, moved, rfl⟩ := Option.map_eq_some_iff.mp stepped
      exact ⟨call, rfl, moved, withReplica_self⟩
  | _ =>
      simp only [replicaStep, phase] at stepped
      cases stepped

/-- A finished job stays finished, whichever process steps. -/
theorem finished_kept (finished : Pipeline.Finished state.pipeline job)
    (step : Step env state action next) : Pipeline.Finished next.pipeline job := by
  cases step with
  | pipeline _ stepped => exact Pipeline.finished_step finished (Pipeline.step_cases stepped)
  | replica move =>
      cases move with
      | committedJob _ stepped | published _ stepped =>
          exact Pipeline.finished_step finished (Pipeline.step_cases stepped)
      | _ => exact finished

/-- The end of a publication leaves its job finished or published. -/
theorem publication_settles (linked : Linked state) (publications : Publications history state)
    {stored : StoredObject} {call : Publication.Action}
    (fine : StopsSettled state (.replica id (.publication call)) next)
    (phase : (state.replicas id).phase = .publishing stored job)
    (stepped : replicaStep env state id (.publication call) = some next) :
    Settled (⟨state, .replica id (.publication call), next⟩ :: history) next job := by
  obtain ⟨_, ⟨⟩, moved, replica⟩ := publishing_step phase stepped
  have step := Pipeline.step_cases moved
  obtain ⟨before, after, origin, move, origins⟩ := Pipeline.ingest_origins step
  cases call with
  | publish result => exact .inl ⟨id, stored, by rw [replica]; rfl⟩
  | markEnqueued start =>
      obtain ⟨since, rfl⟩ := move.marked_source
      exact .inr (.inr ((publications.marking job since origin).cons _))
  | markEnqueueFailed start =>
      have created : (state.pipeline.shared.jobs job).isSome = true := by
        rw [linked.consistent.stored, origin]
        rfl
      obtain ⟨row, present⟩ := Option.isSome_iff_exists.mp created
      obtain ⟨error, _, _, written⟩ := Pipeline.markEnqueueFailed_writes moved present
      exact .inr (.inl ⟨_, written, rfl⟩)
  | stop =>
      rcases fine id stored job rfl phase with ⟨since, marking⟩ | finished
      · exact .inr (.inr ((publications.marking job since marking).cons _))
      · exact .inr (.inl (finished_kept finished (.replica (replicaStep_move stepped))))

/-- A settled job stays settled, whichever process steps. -/
theorem settled_step (linked : Linked state) (publications : Publications history state)
    (fine : StopsSettled state action next) (stepped : step env state action = some next)
    (settled : Settled history state job) :
    Settled (⟨state, action, next⟩ :: history) next job := by
  rcases settled with ⟨holder, stored, held⟩ | finished | published
  · cases action with
    | pipeline call =>
        cases step_cases stepped with
        | pipeline => exact .inl ⟨holder, stored, held⟩
    | replica id call =>
        by_cases same : holder = id
        · subst same
          have phase := publishing_of_published held
          obtain ⟨_, rfl, _⟩ := publishing_step phase stepped
          exact publication_settles linked publications fine phase stepped
        · exact .inl ⟨holder, stored, by rwa [move_other (replicaStep_move stepped) same]⟩
  · exact .inr (.inl (finished_kept finished (step_cases stepped)))
  · exact .inr (.inr (published.cons _))

/-- An ingested record is an old one, or its job has just come into a hand. -/
theorem record_source (step : Step env state action next) {record : IngestedObject}
    (member : record ∈ next.records) (ingested : record.status = .ingested) :
    record ∈ state.records ∨ ∃ job, record.conversationId = some job ∧ InHand next job := by
  cases step with
  | pipeline => exact .inl member
  | @replica id _ _ move =>
      cases move with
      | committedInvalid =>
          rcases List.mem_cons.mp member with rfl | member
          · cases ingested
          · exact .inl member
      | @committedJob stored _ job =>
          rcases List.mem_cons.mp member with rfl | member
          · exact .inr ⟨job, rfl, id, stored, by rw [State.commitRecord, withReplica_self]; rfl⟩
          · exact .inl member
      | _ => exact .inl member

/-- The next pass looks up an object without a record and reads it when the lookup returns. -/
theorem unrecorded_retried {stored : StoredObject} {rest : List StoredObject}
    (replica : state.replicas id = ⟨stored :: rest, .idle⟩)
    (unrecorded : ¬ Recorded state.records (env.store.identity stored)) :
    ∃ next, replicaStep env state id .check = some next ∧
      ((next.replicas id).phase = .reading stored ∨
        (env.store.identity stored).queryable = false) := by
  simp only [replicaStep, replica]
  cases queryable : (env.store.identity stored).queryable with
  | false =>
      refine ⟨state.withReplica id ⟨[], .idle⟩, ?_, .inr rfl⟩
      simp [objectAlreadySeen, queryable]
  | true =>
      refine ⟨state.withReplica id ⟨rest, .reading stored⟩, ?_, .inl ?_⟩
      · simp [objectAlreadySeen, queryable, unrecorded]
      · rw [withReplica_self]

/-- Every run keeps its publications in order. -/
theorem run_publications {allowed : System.Condition _ Action}
    {run : List (System.Taken State Action) × State}
    (reached : (system env).recorded.Reached allowed run) : Publications run.1 run.2 := by
  refine reached.historyInvariant (motive := Publications) ?_ ?_
  · rintro _ ⟨now, rfl⟩
    constructor
    · intro _ _ _ held
      cases held
    · intro _ _ _ _ _ held
      cases held
    · intro _ _ origin
      cases origin
    · rintro _ ⟨_, member, _⟩
      cases member
  · intro history before action after _ publications stepped _
    exact publications_step publications (step_cases stepped)

theorem run_linked {allowed : System.Condition _ Action}
    {run : List (System.Taken State Action) × State}
    (reached : (system env).recorded.Reached allowed run) : Linked run.2 :=
  (reached_linked (System.recorded_reachable reached)).2

/-- In a run whose publications are cut short only when they are settled, every ingested object
has a settled job. -/
theorem run_settled {run : List (System.Taken State Action) × State}
    (reached : (system env).recorded.Reached (System.onStates StopsSettled) run) :
    ∀ record ∈ run.2.records, record.status = .ingested →
      ∃ job, record.conversationId = some job ∧ Settled run.1 run.2 job := by
  refine reached.historyInvariant (motive := fun history state => ∀ record ∈ state.records,
    record.status = .ingested → ∃ job, record.conversationId = some job ∧
      Settled history state job) ?_ ?_
  · rintro _ ⟨now, rfl⟩ record member
    cases member
  · intro history before action after earlier settled stepped fine record member ingested
    rcases record_source (step_cases stepped) member ingested with old | ⟨job, named, held⟩
    · obtain ⟨job, named, holds⟩ := settled record old ingested
      exact ⟨job, named, settled_step (run_linked earlier) (run_publications earlier) fine stepped
        holds⟩
    · exact ⟨job, named, .inl held⟩

/-- A publication that is cut short leaves its job in no hand. -/
theorem stopped_unheld (publications : Publications history state) {stored : StoredObject}
    (phase : (state.replicas id).phase = .publishing stored job)
    (stepped : replicaStep env state id (.publication .stop) = some next) : ¬ InHand next job := by
  rintro ⟨holder, object, held⟩
  obtain ⟨_, ⟨⟩, _, replica⟩ := publishing_step phase stepped
  by_cases same : holder = id
  · subst same
    rw [replica] at held
    cases held
  · rw [move_other (replicaStep_move stepped) same] at held
    exact same (publications.alone holder id object stored job held (by rw [phase]; rfl))

/-- In every run, ingested objects have settled jobs and the others are retried, exactly when
an exception after the commit of a job comes after its publish returned or its end. -/
theorem handled_iff {run : List (System.Taken State Action) × State} :
    (system env).recorded.Reached (fun _ _ after => Handled env after) run ↔
      (system env).recorded.Reached (System.onStates StopsSettled) run := by
  constructor
  · intro reached
    apply reached.convert
    intro before action after earlier stepped handled id stored job call phase
    obtain ⟨next, taken, rfl⟩ := System.recorded_next stepped
    have step := step_cases taken
    subst call
    have publications := run_publications earlier
    obtain ⟨publication, origin, unfinished⟩ :=
      publications.held id stored job (by rw [phase]; rfl)
    obtain ⟨record, member, named⟩ :=
      ((run_linked earlier).ingested job).mp (by rw [origin]; rfl)
    obtain ⟨ingested, named⟩ := ingestedJob_eq_some.mp named
    obtain ⟨target, same, settled⟩ :=
      handled.settled record (records_step step member) ingested
    rw [named, Option.some.injEq] at same
    subst same
    obtain ⟨_, ⟨⟩, moved, _⟩ := publishing_step phase taken
    rcases settled with held | finished | published
    · exact absurd held (stopped_unheld publications phase taken)
    · obtain ⟨_, _, _, move, _⟩ := Pipeline.ingest_origins (Pipeline.step_cases moved)
      exact .inr (by rwa [Pipeline.Finished, ← move.stop_shared])
    · rw [published_unchanged rfl] at published
      obtain ⟨sent, alsoOrigin, past⟩ := publications.sent job published
      rw [origin, Pipeline.Origin.s3.injEq] at alsoOrigin
      obtain ⟨since, rfl⟩ := Publication.marking_of_unfinished unfinished (alsoOrigin ▸ past)
      exact .inl ⟨since, origin⟩
  · intro reached
    apply reached.convert
    intro before action after earlier stepped fine
    exact ⟨run_settled (earlier.next action stepped fine),
      fun _ _ _ replica unrecorded => unrecorded_retried replica unrecorded⟩

/-- The queue refuses the job, and then the transaction of `mark_enqueue_failed` raises. -/
def refusedSchedule : List Action :=
  [.poll (.ok (sampleBucket "y".toList)), .check, .read (.ok (sampleObject "y".toList)),
    .createJob 7 0, .record, .commit, .publication (.publish (.refused "queue down".toList)),
    .publication .stop].map (.replica 0)

/-- The pass ends with an ingested object whose job stays pending although nothing was published,
and the next pass skips the object. -/
theorem refusedJob_stranded : ∃ run row,
    (system raceEnvironment).recorded.Reached System.anyStep run ∧
    run.2.replicas 0 = ⟨[], .idle⟩ ∧
    (∃ record ∈ run.2.records, record.status = .ingested ∧ record.conversationId = some 7 ∧
      objectAlreadySeen run.2.records record.identity = .ok true) ∧
    run.2.pipeline.shared.jobs 7 = some row ∧ row.status = .pending ∧ ¬ Published run.1 7 ∧
    run.2.pipeline.shared.queue.messages = [] := by
  have ran : ((system raceEnvironment).recorded.run ([], initial 0) refusedSchedule).map (fun run =>
      (run.2.replicas 0, run.2.records.map (fun record => (record.status, record.conversationId,
        objectAlreadySeen run.2.records record.identity)),
        (run.2.pipeline.shared.jobs 7).map (·.status), run.1.filterMap deliveredJob,
        run.2.pipeline.shared.queue.messages)) =
      some (⟨[], .idle⟩, [(.ingested, some 7, .ok true)], some .pending, [], []) := by
    rfl
  obtain ⟨run, path, seen⟩ := System.run_observed System.anyStep ran (fun _ _ _ _ => trivial)
  simp only [Prod.mk.injEq] at seen
  obtain ⟨replica, records, stored, delivered, messages⟩ := seen
  obtain ⟨row, present, pending⟩ := Option.map_eq_some_iff.mp stored
  obtain ⟨record, member, columns⟩ := List.mem_map.mp (records ▸ List.mem_singleton_self _)
  simp only [Prod.mk.injEq] at columns
  refine ⟨run, row, ⟨_, ⟨rfl, 0, rfl⟩, path⟩, replica, ⟨record, member, columns⟩, present, pending,
    ?_, messages⟩
  intro published
  have found := List.mem_filterMap.mpr published
  rw [delivered] at found
  cases found

end Replicas
end ConvoScore.Ingest
