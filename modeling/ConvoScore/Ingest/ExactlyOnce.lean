import ConvoScore.Ingest.Isolation
import ConvoScore.Ingest.Replicas
import ConvoScore.Pipeline.Sources

namespace ConvoScore.Ingest.Replicas
open Library

/-- The job that a record of an ingested object refers to. -/
def ingestedJob (record : IngestedObject) : Option Uuid :=
  if record.status = .ingested then record.conversationId else none

/-- Each version has at most one record, each ingested record refers to one stored row,
and each stored row of the storage path has exactly one ingested record. -/
structure ExactlyOnce (state : State) : Prop where
  unique : DistinctRecords state.records
  row : ∀ record ∈ state.records, record.status = .ingested →
    ∃ job row, record.conversationId = some job ∧
      state.pipeline.shared.jobs job = some row ∧ row.source = .s3
  record : ∀ job row, state.pipeline.shared.jobs job = some row → row.source = .s3 →
    ∃! record, record ∈ state.records ∧ record.status = .ingested ∧
      record.conversationId = some job

/-- An open transaction owns the index entry of its record, and no such record is committed. -/
structure Indexed (env : Environment) (state : State) : Prop where
  entered : ∀ id record, (state.replicas id).phase.pending env = some record →
    state.entries record.identity = some id
  uncommitted : ∀ id record, (state.replicas id).phase.pending env = some record →
    ¬ Recorded state.records record.identity
  distinct : DistinctRecords state.records

/-- The records name exactly the jobs that were created for ingested objects, each once. -/
structure Linked (state : State) : Prop where
  consistent : Pipeline.Consistent state.pipeline
  sourced : Pipeline.SourcedRows state.pipeline
  named : ∀ record ∈ state.records, record.status = .ingested →
    (ingestedJob record).isSome = true
  once : ∀ job, ∀ first ∈ state.records, ∀ second ∈ state.records,
    ingestedJob first = some job → ingestedJob second = some job → first = second
  ingested : ∀ job, (state.pipeline.origins job).ingested = true ↔
    ∃ record ∈ state.records, ingestedJob record = some job

variable {env : Environment} {state next : State} {id : ReplicaId} {action : Action}

section Updates
variable {other : ReplicaId} {replica : Replica} {record : IngestedObject} {identity : Identity}

theorem withReplica_self : (state.withReplica id replica).replicas id = replica :=
  Function.update_self ..

theorem withReplica_other (different : other ≠ id) :
    (state.withReplica id replica).replicas other = state.replicas other :=
  Function.update_of_ne different _ _

/-- A move of one replica leaves the others where they are. -/
theorem move_other {action : ReplicaAction} (move : Move env state id action next)
    (different : other ≠ id) : next.replicas other = state.replicas other := by
  cases move with
  | _ => exact withReplica_other different

/-- A replica without an open record leaves the open records to the others. -/
theorem pending_withReplica (hidden : replica.phase.pending env = none)
    (found : ((state.withReplica id replica).replicas other).phase.pending env = some record) :
    other ≠ id ∧ (state.replicas other).phase.pending env = some record := by
  by_cases same : other = id
  · rw [same, withReplica_self, hidden] at found
    cases found
  · rw [withReplica_other same] at found
    exact ⟨same, found⟩

/-- Another replica keeps its entries when a transaction ends. -/
theorem released_other (different : other ≠ id) (held : state.entries identity = some other) :
    state.released id identity = some other := by
  rw [State.released, held, if_neg]
  intro same
  exact different (Option.some.inj same)

end Updates

/-- Two open transactions never have records of the same object version. -/
theorem Indexed.exclusive (indexed : Indexed env state) {first second : ReplicaId}
    {one other : IngestedObject} (held : (state.replicas first).phase.pending env = some one)
    (alsoHeld : (state.replicas second).phase.pending env = some other)
    (same : one.identity = other.identity) : first = second := by
  have entry := indexed.entered first one held
  rw [same, indexed.entered second other alsoHeld, Option.some.injEq] at entry
  exact entry.symm

/-- A transaction that ends without a commit keeps the index. -/
theorem Indexed.rollback (indexed : Indexed env state) (rest : List StoredObject) :
    Indexed env (state.rolledBack id rest) where
  entered other record found := by
    obtain ⟨different, old⟩ := pending_withReplica rfl found
    exact released_other different (indexed.entered other record old)
  uncommitted other record found := by
    obtain ⟨_, old⟩ := pending_withReplica rfl found
    exact indexed.uncommitted other record old
  distinct := indexed.distinct

/-- A replica that holds no entry may move on. -/
theorem Indexed.move (indexed : Indexed env state) {replica : Replica} {pipeline : Pipeline.State}
    (hidden : replica.phase.pending env = none) :
    Indexed env ({state with pipeline}.withReplica id replica) where
  entered other record found :=
    indexed.entered other record (pending_withReplica hidden found).2
  uncommitted other record found :=
    indexed.uncommitted other record (pending_withReplica hidden found).2
  distinct := indexed.distinct

/-- The insert of a record takes a free entry of the index. -/
theorem Indexed.insert (indexed : Indexed env state) {record : IngestedObject} {replica : Replica}
    (pending : replica.phase.pending env = some record)
    (fresh : ¬ Recorded state.records record.identity)
    (free : state.entries record.identity = none) :
    Indexed env (state.opened id record replica) where
  entered other held found := by
    by_cases same : other = id
    · rw [same, State.opened, withReplica_self, pending, Option.some.injEq] at found
      subst found same
      exact Function.update_self ..
    · rw [State.opened, withReplica_other same] at found
      have entry : state.entries held.identity = some other := indexed.entered other held found
      have different : held.identity ≠ record.identity := by
        intro equal
        rw [equal, free] at entry
        cases entry
      exact (Function.update_of_ne different _ _).trans entry
  uncommitted other held found := by
    by_cases same : other = id
    · rw [same, State.opened, withReplica_self, pending, Option.some.injEq] at found
      exact found ▸ fresh
    · rw [State.opened, withReplica_other same] at found
      exact indexed.uncommitted other held found
  distinct := indexed.distinct

/-- The commit of an open record keeps the index. -/
theorem Indexed.commit (indexed : Indexed env state) {record : IngestedObject} {replica : Replica}
    {pipeline : Pipeline.State} (pending : (state.replicas id).phase.pending env = some record)
    (hidden : replica.phase.pending env = none) :
    Indexed env ({state with pipeline}.commitRecord id record replica) where
  entered other held found := by
    obtain ⟨different, old⟩ := pending_withReplica hidden found
    exact released_other different (indexed.entered other held old)
  uncommitted other held found := by
    obtain ⟨different, old⟩ := pending_withReplica hidden found
    intro recorded
    rcases recorded_cons.mp recorded with same | recorded
    · exact different (indexed.exclusive old pending same.symm)
    · exact indexed.uncommitted other held old recorded
  distinct := distinctRecords_cons indexed.distinct (indexed.uncommitted id record pending)

/-- A replica that publishes or marks a job has no open record. -/
theorem afterPublication_hidden (rest : List StoredObject) (stored : StoredObject) (job : Uuid)
    (action : Publication.Action) :
    (afterPublication rest stored job action).phase.pending env = none := by
  cases action <;> rfl

theorem indexed_step (indexed : Indexed env state) (step : Step env state action next) :
    Indexed env next := by
  cases step with
  | pipeline => exact ⟨indexed.entered, indexed.uncommitted, indexed.distinct⟩
  | replica move =>
      cases move with
      | moved _ hidden => exact indexed.move hidden
      | rolledBack => exact indexed.rollback _
      | recorded pending _ fresh free => exact indexed.insert pending fresh free
      | committedInvalid phase => exact indexed.commit (by rw [phase]; rfl) rfl
      | committedJob phase => exact indexed.commit (by rw [phase]; rfl) rfl
      | published => exact indexed.move (afterPublication_hidden _ _ _ _)

@[simp] theorem ingestedJob_ingested (stored : StoredObject) (job : Uuid) (discovered : Timestamp) :
    ingestedJob (env.ingestedRecord stored job discovered) = some job := rfl

@[simp] theorem ingestedJob_invalid (stored : StoredObject) (error : Text) (discovered : Timestamp) :
    ingestedJob (env.invalidRecord stored error discovered) = none := rfl

/-- A step of the pipeline that creates no ingested job keeps the links. -/
theorem Linked.pipeline (linked : Linked state) {action : Pipeline.Action} {pipeline : Pipeline.State}
    (stepped : Pipeline.step env.pipeline state.pipeline action = some pipeline)
    (other : ∀ job conversation maxAttempts sourceRef clock,
      action ≠ .createJob job conversation maxAttempts sourceRef clock)
    (same : next.pipeline = pipeline) (records : next.records = state.records) : Linked next := by
  have step := Pipeline.step_cases stepped
  constructor
  · rw [same]
    exact Pipeline.consistent_step linked.consistent step
  · rw [same]
    exact Pipeline.sourcedRows_step linked.consistent linked.sourced step
  · rw [records]
    exact linked.named
  · rw [records]
    exact linked.once
  · intro job
    rw [same, records, Pipeline.ingested_unchanged step (other job)]
    exact linked.ingested job

/-- The commit of a job and its record links the two. -/
theorem Linked.create (linked : Linked state) {stored : StoredObject} {job : Uuid}
    {conversation : ConversationInput} {maxAttempts : Nat} {sourceRef : Text}
    {clock discovered : Timestamp} {pipeline : Pipeline.State}
    (created : Pipeline.step env.pipeline state.pipeline
      (.createJob job conversation maxAttempts sourceRef clock) = some pipeline)
    (same : next.pipeline = pipeline)
    (records : next.records = env.ingestedRecord stored job discovered :: state.records) :
    Linked next := by
  have step := Pipeline.step_cases created
  obtain ⟨unused, origins⟩ := Pipeline.createJob_origins step
  have unlinked : ∀ record ∈ state.records, ingestedJob record ≠ some job := by
    intro record member named
    have ingested := (linked.ingested job).mpr ⟨record, member, named⟩
    rw [unused] at ingested
    cases ingested
  constructor
  · rw [same]
    exact Pipeline.consistent_step linked.consistent step
  · rw [same]
    exact Pipeline.sourcedRows_step linked.consistent linked.sourced step
  · intro record member ingested
    rw [records] at member
    rcases List.mem_cons.mp member with rfl | member
    · rfl
    · exact linked.named record member ingested
  · intro other first one second two named alsoNamed
    rw [records] at one two
    rcases List.mem_cons.mp one with rfl | one
    · cases named
      rcases List.mem_cons.mp two with rfl | two
      · rfl
      · exact absurd alsoNamed (unlinked second two)
    · rcases List.mem_cons.mp two with rfl | two
      · cases alsoNamed
        exact absurd named (unlinked first one)
      · exact linked.once other first one second two named alsoNamed
  · intro other
    rw [same, origins, records]
    split
    · rename_i equal
      exact iff_of_true rfl ⟨_, List.mem_cons_self, by rw [equal]; rfl⟩
    · rename_i different
      rw [linked.ingested other]
      simp [Ne.symm different]

/-- A record of an invalid object names no job. -/
theorem Linked.reject (linked : Linked state) {record : IngestedObject}
    (unnamed : ingestedJob record = none) (invalid : record.status ≠ .ingested)
    (same : next.pipeline = state.pipeline) (records : next.records = record :: state.records) :
    Linked next := by
  constructor
  · rw [same]
    exact linked.consistent
  · rw [same]
    exact linked.sourced
  · intro other member ingested
    rw [records] at member
    rcases List.mem_cons.mp member with rfl | member
    · exact absurd ingested invalid
    · exact linked.named other member ingested
  · intro job first one second two named alsoNamed
    rw [records] at one two
    rcases List.mem_cons.mp one with rfl | one
    · rw [unnamed] at named
      cases named
    · rcases List.mem_cons.mp two with rfl | two
      · rw [unnamed] at alsoNamed
        cases alsoNamed
      · exact linked.once job first one second two named alsoNamed
  · intro job
    rw [same, records, linked.ingested job]
    simp [unnamed]

theorem linked_step (linked : Linked state) (step : Step env state action next) : Linked next := by
  cases step with
  | pipeline foreign stepped =>
      refine linked.pipeline stepped ?_ rfl rfl
      rintro _ _ _ _ _ rfl
      cases foreign
  | replica move =>
      cases move with
      | moved | rolledBack | recorded =>
          exact ⟨linked.consistent, linked.sourced, linked.named, linked.once, linked.ingested⟩
      | committedInvalid => exact linked.reject (ingestedJob_invalid _ _ _) nofun rfl rfl
      | committedJob _ created => exact linked.create created rfl rfl
      | published _ stepped =>
          refine linked.pipeline stepped ?_ rfl rfl
          rintro _ _ _ _ _ ⟨⟩

/-- The object version whose job a step publishes. -/
def publishedBy (env : Environment) (taken : System.Taken State Action) : Option Identity :=
  match taken.action with
  | .replica id (.publication (.publish _)) =>
      (taken.before.replicas id).phase.published.map fun held => env.store.identity held.1
  | _ => none

/-- The record of a version names a job whose publisher has called `publish`. -/
def PastPublish (state : State) (identity : Identity) : Prop :=
  ∃ record ∈ state.records, record.identity = identity ∧ ∃ job, ingestedJob record = some job ∧
    (state.pipeline.origins job).pastPublish = true

/-- A replica publishes the job of a committed record, and each version at most once. -/
structure PublishedOnce (env : Environment) (history : List (System.Taken State Action))
    (state : State) : Prop where
  held : ∀ id stored job, (state.replicas id).phase.published = some (stored, job) →
    ∃ record ∈ state.records, record.identity = env.store.identity stored ∧
      ingestedJob record = some job
  sent : ∀ identity ∈ history.filterMap (publishedBy env), PastPublish state identity
  once : (history.filterMap (publishedBy env)).Nodup

/-- Records stay, and publishers that went past their publish stay past it. -/
theorem records_step (step : Step env state action next) {record : IngestedObject}
    (member : record ∈ state.records) : record ∈ next.records := by
  cases step with
  | pipeline => exact member
  | replica move =>
      cases move with
      | committedInvalid | committedJob => exact List.mem_cons_of_mem _ member
      | _ => exact member

theorem pastPublish_pipeline (step : Step env state action next) {job : Uuid}
    (past : (state.pipeline.origins job).pastPublish = true) :
    (next.pipeline.origins job).pastPublish = true := by
  cases step with
  | pipeline _ stepped => exact Pipeline.pastPublish_step (Pipeline.step_cases stepped) past
  | replica move =>
      cases move with
      | committedJob _ stepped | published _ stepped =>
          exact Pipeline.pastPublish_step (Pipeline.step_cases stepped) past
      | _ => exact past

theorem pastPublish_kept (step : Step env state action next) {identity : Identity}
    (past : PastPublish state identity) : PastPublish next identity := by
  obtain ⟨record, member, same, job, named, sent⟩ := past
  exact ⟨record, records_step step member, same, job, named, pastPublish_pipeline step sent⟩

/-- A replica publishes a job that it published before or has just committed. -/
theorem published_source (step : Step env state action next) {stored : StoredObject} {job : Uuid}
    (held : (next.replicas id).phase.published = some (stored, job)) :
    (state.replicas id).phase.published = some (stored, job) ∨
      ∃ discovered, env.ingestedRecord stored job discovered ∈ next.records := by
  cases step with
  | pipeline => exact .inl held
  | @replica actor _ _ move =>
      by_cases same : id = actor
      · subst same
        cases move with
        | moved _ _ unpublished =>
            rw [withReplica_self, unpublished] at held
            cases held
        | recorded _ unpublished =>
            rw [State.opened, withReplica_self, unpublished] at held
            cases held
        | rolledBack =>
            rw [State.rolledBack.eq_def, withReplica_self] at held
            cases held
        | committedInvalid =>
            rw [State.commitRecord, withReplica_self] at held
            cases held
        | committedJob =>
            rw [State.commitRecord, withReplica_self] at held
            cases held
            exact .inr ⟨_, List.mem_cons_self⟩
        | @published _ _ called _ _ phase =>
            rw [withReplica_self] at held
            cases called with
            | publish =>
                cases held
                exact .inl (by rw [phase]; rfl)
            | _ => cases held
      · exact .inl (move_other move same ▸ held)

/-- A publish concerns a version whose job has not been published yet. -/
theorem publish_first {history : List (System.Taken State Action)} {identity : Identity}
    (indexed : Indexed env state) (published : PublishedOnce env history state)
    (step : Step env state action next)
    (called : publishedBy env ⟨state, action, next⟩ = some identity) :
    PastPublish next identity ∧ ¬ PastPublish state identity := by
  cases step with
  | pipeline => cases called
  | @replica id _ _ move =>
      cases move with
      | moved before | rolledBack before =>
          simp only [publishedBy] at called
          split at called
          · rename_i same
            cases same
            rw [before] at called
            cases called
          · cases called
      | recorded | committedInvalid | committedJob => cases called
      | @published stored job act rest pipeline phase stepped =>
          cases act with
          | publish result =>
              simp only [publishedBy, phase, Phase.published, Option.map_some,
                Option.some.injEq] at called
              subst called
              obtain ⟨origin, past⟩ := Pipeline.publish_origins (Pipeline.step_cases stepped)
              obtain ⟨record, member, same, named⟩ :=
                published.held id stored job (by rw [phase]; rfl)
              refine ⟨⟨record, member, same, job, named, past⟩, ?_⟩
              rintro ⟨other, alsoMember, alsoSame, twin, alsoNamed, sent⟩
              have equal : other = record := List.inj_on_of_nodup_map indexed.distinct alsoMember
                member (alsoSame.trans same.symm)
              rw [equal, named, Option.some.injEq] at alsoNamed
              rw [← alsoNamed, origin] at sent
              cases sent
          | _ => cases called

theorem publishedOnce_step {history : List (System.Taken State Action)}
    (indexed : Indexed env state) (published : PublishedOnce env history state)
    (step : Step env state action next) :
    PublishedOnce env (⟨state, action, next⟩ :: history) next := by
  have held : ∀ id stored job, (next.replicas id).phase.published = some (stored, job) →
      ∃ record ∈ next.records, record.identity = env.store.identity stored ∧
        ingestedJob record = some job := by
    intro id stored job found
    rcases published_source step found with earlier | ⟨discovered, member⟩
    · obtain ⟨record, member, same, named⟩ := published.held id stored job earlier
      exact ⟨record, records_step step member, same, named⟩
    · exact ⟨_, member, rfl, rfl⟩
  have sent : ∀ identity ∈ history.filterMap (publishedBy env), PastPublish next identity :=
    fun identity member => pastPublish_kept step (published.sent identity member)
  cases called : publishedBy env ⟨state, action, next⟩ with
  | none =>
      refine ⟨held, ?_, ?_⟩
      · rw [List.filterMap_cons_none called]
        exact sent
      · rw [List.filterMap_cons_none called]
        exact published.once
  | some identity =>
      obtain ⟨past, unsent⟩ := publish_first indexed published step called
      refine ⟨held, ?_, ?_⟩
      · rw [List.filterMap_cons_some called]
        intro other member
        rcases List.mem_cons.mp member with rfl | member
        · exact past
        · exact sent other member
      · rw [List.filterMap_cons_some called, List.nodup_cons]
        exact ⟨fun member => unsent (published.sent identity member), published.once⟩

theorem ingestedJob_eq_some {record : IngestedObject} {job : Uuid} :
    ingestedJob record = some job ↔
      record.status = .ingested ∧ record.conversationId = some job := by
  unfold ingestedJob
  split
  · rename_i ingested
    simp [ingested]
  · rename_i other
    simp [other]

/-- An open index and linked records give exactly one job for each ingested version. -/
theorem exactlyOnce_of_linked (indexed : Indexed env state) (linked : Linked state) :
    ExactlyOnce state where
  unique := indexed.distinct
  row record member ingested := by
    obtain ⟨job, named⟩ := Option.isSome_iff_exists.mp (linked.named record member ingested)
    have created := (linked.ingested job).mpr ⟨record, member, named⟩
    have stored := linked.consistent.stored job
    rw [Pipeline.Origin.stored_of_ingested created] at stored
    obtain ⟨row, present⟩ := Option.isSome_iff_exists.mp stored
    exact ⟨job, row, (ingestedJob_eq_some.mp named).2, present,
      (linked.sourced.stored job row present).mpr created⟩
  record job row present source := by
    have created := (linked.sourced.stored job row present).mp source
    obtain ⟨record, member, named⟩ := (linked.ingested job).mp created
    refine ⟨record, ⟨member, ingestedJob_eq_some.mp named⟩, ?_⟩
    rintro other ⟨alsoMember, alsoNamed⟩
    exact linked.once job other alsoMember record member (ingestedJob_eq_some.mpr alsoNamed) named

/-- The job whose row the open transaction of a replica has inserted. -/
def Phase.openJob : Phase → Option Uuid
  | .inserted _ _ job _ | .recorded _ _ job _ _ => some job
  | _ => none

/-- A replica gives up the job that it has inserted, because it lost the race or was stopped. -/
def GivesUp (taken : System.Taken State Action) : Prop :=
  ∃ id, (taken.before.replicas id).phase.openJob.isSome = true ∧
    (taken.after.replicas id).phase = .idle

/-- A step leaves the jobs, the queue and the records as they were. -/
def LeavesNothing (taken : System.Taken State Action) : Prop :=
  taken.after.pipeline = taken.before.pipeline ∧ taken.after.records = taken.before.records

/-- A replica that gives up its job commits nothing in that step. -/
theorem leavesNothing_of_givesUp (step : Step env state action next)
    (gives : GivesUp ⟨state, action, next⟩) : LeavesNothing ⟨state, action, next⟩ := by
  obtain ⟨id, opened, ended⟩ := gives
  simp only at opened ended
  cases step with
  | pipeline =>
      simp only at ended
      rw [ended] at opened
      cases opened
  | @replica actor _ _ move =>
      have own : actor = id := by
        by_contra different
        rw [move_other move (Ne.symm different)] at ended
        rw [ended] at opened
        cases opened
      subst own
      cases move with
      | moved | rolledBack | recorded => exact ⟨rfl, rfl⟩
      | committedInvalid phase | published phase =>
          rw [phase] at opened
          cases opened
      | committedJob =>
          rw [State.commitRecord, withReplica_self] at ended
          cases ended

theorem indexed_initial (now : Timestamp) : Indexed env (initial now) where
  entered _ _ pending := by cases pending
  uncommitted _ _ pending := by cases pending
  distinct := List.nodup_nil

theorem linked_initial (now : Timestamp) : Linked (initial now) where
  consistent := Pipeline.consistent_initial now
  sourced := Pipeline.sourcedRows_initial now
  named _ member := by cases member
  once _ _ member := by cases member
  ingested job := by simp [initial, Pipeline.initial, Pipeline.Origin.ingested]

theorem publishedOnce_initial (now : Timestamp) : PublishedOnce env [] (initial now) where
  held _ _ _ found := by cases found
  sent _ member := by cases member
  once := List.nodup_nil

/-- Every reached state has an open index and linked records. -/
theorem reached_linked (reached : (system env).Reached System.anyStep state) :
    Indexed env state ∧ Linked state := by
  refine reached.invariant (motive := fun state => Indexed env state ∧ Linked state) ?_ ?_
  · rintro _ ⟨now, rfl⟩
    exact ⟨indexed_initial now, linked_initial now⟩
  · intro before action after holds stepped _
    have step := step_cases stepped
    exact ⟨indexed_step holds.1 step, linked_step holds.2 step⟩

/-- Nothing is ingested twice: in every run of any number of replicas, with stops at any place,
each object version has at most one record, ingested records and jobs of the storage path belong
together one to one, each version is published at most once, and a replica that gives up a job
leaves nothing behind. -/
theorem ingestion_exactlyOnce {run : List (System.Taken State Action) × State}
    (reached : (system env).recorded.Reached System.anyStep run) :
    ExactlyOnce run.2 ∧ (run.1.filterMap (publishedBy env)).Nodup ∧
      ∀ taken ∈ run.1, GivesUp taken → LeavesNothing taken := by
  obtain ⟨indexed, linked⟩ := reached_linked (System.recorded_reached reached)
  have history : PublishedOnce env run.1 run.2 ∧
      ∀ taken ∈ run.1, GivesUp taken → LeavesNothing taken := by
    refine reached.historyInvariant (motive := fun history state =>
      PublishedOnce env history state ∧
        ∀ taken ∈ history, GivesUp taken → LeavesNothing taken) ?_ ?_
    · rintro _ ⟨now, rfl⟩
      exact ⟨publishedOnce_initial now, fun _ member => by cases member⟩
    · intro history before action after earlier holds stepped _
      have step := step_cases stepped
      have index := (reached_linked (System.recorded_reached earlier)).1
      refine ⟨publishedOnce_step index holds.1 step, ?_⟩
      intro transition member gives
      rcases List.mem_cons.mp member with rfl | member
      · exact leavesNothing_of_givesUp step gives
      · exact holds.2 transition member gives
  exact ⟨exactlyOnce_of_linked indexed linked, history.1.once, history.2⟩

/-- The replicas poll the bucket with two harmless objects. -/
def raceEnvironment : Environment where
  pipeline := Pipeline.sampleEnvironment
  store := (sampleServices "y".toList 121).store
  codec := (sampleServices "y".toList 121).codec
  maxAttempts _ := 3

/-- Both replicas read the first object; the second one loses the race after its first insert. -/
def raceSchedule : List Action :=
  let listed := .poll (.ok (sampleBucket "y".toList))
  let fetched := .read (.ok (sampleObject "y".toList))
  [.replica 0 listed, .replica 1 listed, .replica 0 .check, .replica 1 .check,
    .replica 0 fetched, .replica 1 fetched, .replica 0 (.createJob 7 0),
    .replica 1 (.createJob 8 0), .replica 0 .record, .replica 0 .commit, .replica 1 .record,
    .replica 0 (.publication (.publish .delivered)), .replica 0 (.publication (.markEnqueued 0))]

/-- The race of two replicas ends with one record, one job and one publish. -/
theorem ingestion_exactlyOnce_race : ∃ run : List (System.Taken State Action) × State,
    (run.2.records.map (·.conversationId) = [some 7] ∧ run.2.pipeline.shared.jobs 8 = none ∧
      (run.1.filterMap (publishedBy raceEnvironment)).length = 1) ∧
    ExactlyOnce run.2 ∧ (run.1.filterMap (publishedBy raceEnvironment)).Nodup ∧
      ∀ taken ∈ run.1, GivesUp taken → LeavesNothing taken := by
  have ran : ((system raceEnvironment).recorded.run ([], initial 0) raceSchedule).map (fun run =>
      (run.2.records.map (·.conversationId), run.2.pipeline.shared.jobs 8,
        (run.1.filterMap (publishedBy raceEnvironment)).length)) = some ([some 7], none, 1) := by
    rfl
  obtain ⟨run, path, seen⟩ := System.run_observed System.anyStep ran (fun _ _ _ _ => trivial)
  simp only [Prod.mk.injEq] at seen
  exact ⟨run, seen, ingestion_exactlyOnce ⟨_, ⟨rfl, 0, rfl⟩, path⟩⟩

end ConvoScore.Ingest.Replicas
