import ConvoScore.Ingest.Poll
import ConvoScore.Pipeline.System

namespace ConvoScore.Ingest.Replicas
open Library

abbrev ReplicaId := Nat

/-- A replica is between two objects or at one of these places of `_handle`.
The phases after an insert belong to an open transaction. -/
inductive Phase
  | idle
  | reading (stored : StoredObject)
  | rejecting (stored : StoredObject) (error : Text)
  | rejected (stored : StoredObject) (error : Text) (discovered : Timestamp)
  | creating (stored : StoredObject) (conversation : ConversationInput)
  | inserted (stored : StoredObject) (conversation : ConversationInput) (job : Uuid)
      (clock : Timestamp)
  | recorded (stored : StoredObject) (conversation : ConversationInput) (job : Uuid)
      (clock discovered : Timestamp)
  | publishing (stored : StoredObject) (job : Uuid)

/-- A replica works through the objects that its last listing has left. -/
structure Replica where
  rest : List StoredObject
  phase : Phase

/-- The replicas share the pipeline and the records.
An entry of the unique index belongs to the replica whose open transaction inserted it. -/
structure State where
  pipeline : Pipeline.State
  records : Records
  entries : Identity → Option ReplicaId
  replicas : ReplicaId → Replica

/-- All replicas poll one prefix of one bucket, whose contents each listing brings anew. -/
structure Environment where
  pipeline : Pipeline.Environment
  store : ObjectStore
  codec : Codec
  maxAttempts : ReplicaId → Nat

/-- `stop` is a stop request between two objects, an exception, or a crash. -/
inductive ReplicaAction
  | poll (contents : Except Text Bucket)
  | check
  | read (raw : Except Text Bytes)
  | createJob (job : Uuid) (clock : Timestamp)
  | record
  | commit
  | publication (action : Publication.Action)
  | stop

inductive Action
  | replica (id : ReplicaId) (action : ReplicaAction)
  | pipeline (action : Pipeline.Action)

section Records
variable (env : Environment)

def Environment.jobRow (id : ReplicaId) (stored : StoredObject) (conversation : ConversationInput)
    (job : Uuid) (clock : Timestamp) : Conversation :=
  ConvoScore.createJob env.pipeline.sha256 job clock conversation .s3 (env.maxAttempts id)
    (some (env.store.uri stored.key))

def Environment.invalidRecord (stored : StoredObject) (error : Text) (discovered : Timestamp) :
    IngestedObject :=
  newRecord (env.store.identity stored) (some stored.sizeBytes) .invalid none (some error) discovered

def Environment.ingestedRecord (stored : StoredObject) (job : Uuid) (discovered : Timestamp) :
    IngestedObject :=
  newRecord (env.store.identity stored) (some stored.sizeBytes) .ingested (some job) none discovered

/-- The listing of the bucket with its present contents. -/
def Environment.listing (contents : Except Text Bucket) : Except Text (List StoredObject) :=
  {env.store with contents}.listObjects maxListedKeys

/-- The record that the open transaction of a replica has inserted. -/
def Phase.pending : Phase → Option IngestedObject
  | .rejected stored error discovered => some (env.invalidRecord stored error discovered)
  | .recorded stored _ job _ discovered => some (env.ingestedRecord stored job discovered)
  | _ => none

/-- The read and the parse of an object choose how the replica goes on. -/
def Environment.afterRead (rest : List StoredObject) (stored : StoredObject) :
    Except Text Bytes → Replica
  | .error _ => ⟨rest, .idle⟩
  | .ok raw =>
      match parse env.codec raw with
      | none => ⟨[], .idle⟩
      | some (.problem error) => ⟨rest, .rejecting stored error⟩
      | some (.conversation conversation) => ⟨rest, .creating stored conversation⟩

end Records

/-- The publication of a job ends with the update of its row, and an exception ends the pass. -/
def afterPublication (rest : List StoredObject) (stored : StoredObject) (job : Uuid) :
    Publication.Action → Replica
  | .publish _ => ⟨rest, .publishing stored job⟩
  | .markEnqueued _ | .markEnqueueFailed _ => ⟨rest, .idle⟩
  | .stop => ⟨[], .idle⟩

namespace State

def withReplica (state : State) (id : ReplicaId) (replica : Replica) : State :=
  {state with replicas := Function.update state.replicas id replica}

/-- A transaction that ends gives up its entries of the unique index. -/
def released (state : State) (id : ReplicaId) : Identity → Option ReplicaId :=
  fun identity => if state.entries identity = some id then none else state.entries identity

/-- A rollback leaves nothing of the transaction behind. -/
def rolledBack (state : State) (id : ReplicaId) (rest : List StoredObject) : State :=
  {state with entries := state.released id}.withReplica id ⟨rest, .idle⟩

/-- An inserted record takes its entry of the unique index. -/
def opened (state : State) (id : ReplicaId) (record : IngestedObject) (replica : Replica) : State :=
  {state with
    entries := Function.update state.entries record.identity (some id)}.withReplica id replica

/-- The insert of a record waits while another open transaction holds the same entry.
A violated constraint is caught; another database error ends the pass. -/
def insertRecord (state : State) (id : ReplicaId) (rest : List StoredObject)
    (record : IngestedObject) (phase : Phase) : Option State :=
  match recordIngestedObject state.records record with
  | .error .data => some (state.rolledBack id [])
  | .error .integrity => some (state.rolledBack id rest)
  | .ok _ =>
      if state.entries record.identity = none then some (state.opened id record ⟨rest, phase⟩)
      else none

/-- A commit makes the record visible. -/
def commitRecord (state : State) (id : ReplicaId) (record : IngestedObject) (replica : Replica) :
    State :=
  {state with
    records := record :: state.records
    entries := state.released id}.withReplica id replica

end State

/-- The other processes of the pipeline do not create or publish ingested jobs. -/
def ofReplica : Pipeline.Action → Bool
  | .createJob .. | .ingest .. => true
  | _ => false

/-- One step of a replica; the two transactions of `_handle` are separate steps. -/
def replicaStep (env : Environment) (state : State) (id : ReplicaId) (action : ReplicaAction) :
    Option State :=
  let rest := (state.replicas id).rest
  match (state.replicas id).phase, action with
  | .idle, .poll contents =>
      match rest, env.listing contents with
      | [], .ok objects => some (state.withReplica id ⟨objects, .idle⟩)
      | [], .error _ => some (state.withReplica id ⟨[], .idle⟩)
      | _ :: _, _ => none
  | .idle, .check =>
      match rest with
      | [] => none
      | stored :: rest =>
          match objectAlreadySeen state.records (env.store.identity stored) with
          | .error _ => some (state.withReplica id ⟨[], .idle⟩)
          | .ok true => some (state.withReplica id ⟨rest, .idle⟩)
          | .ok false => some (state.withReplica id ⟨rest, .reading stored⟩)
  | .reading stored, .read raw => some (state.withReplica id (env.afterRead rest stored raw))
  | .rejecting stored error, .record =>
      let discovered := state.pipeline.shared.now
      state.insertRecord id rest (env.invalidRecord stored error discovered)
        (.rejected stored error discovered)
  | .rejected stored error discovered, .commit =>
      some (state.commitRecord id (env.invalidRecord stored error discovered) ⟨rest, .idle⟩)
  | .creating stored conversation, .createJob job clock =>
      if clock ≤ state.pipeline.shared.now then
        if (env.jobRow id stored conversation job clock).storable then
          if (state.pipeline.shared.jobs job).isNone then
            some (state.withReplica id ⟨rest, .inserted stored conversation job clock⟩)
          else some (state.rolledBack id rest)
        else some (state.rolledBack id [])
      else none
  | .inserted stored conversation job clock, .record =>
      let discovered := state.pipeline.shared.now
      state.insertRecord id rest (env.ingestedRecord stored job discovered)
        (.recorded stored conversation job clock discovered)
  | .recorded stored conversation job clock discovered, .commit =>
      (Pipeline.step env.pipeline state.pipeline (.createJob job conversation (env.maxAttempts id)
        (env.store.uri stored.key) clock)).map fun pipeline =>
          {state with pipeline}.commitRecord id (env.ingestedRecord stored job discovered)
            ⟨rest, .publishing stored job⟩
  | .publishing stored job, .publication action =>
      (Pipeline.step env.pipeline state.pipeline (.ingest job action)).map fun pipeline =>
        {state with pipeline}.withReplica id (afterPublication rest stored job action)
  | .publishing _ _, .stop => none
  | _, .stop => some (state.rolledBack id [])
  | _, _ => none

def step (env : Environment) (state : State) : Action → Option State
  | .replica id action => replicaStep env state id action
  | .pipeline action =>
      if ofReplica action then none
      else (Pipeline.step env.pipeline state.pipeline action).map fun pipeline =>
        {state with pipeline}

/-- The object and the job that a replica is about to publish or to mark. -/
def Phase.published : Phase → Option (StoredObject × Uuid)
  | .publishing stored job => some (stored, job)
  | _ => none

/-- The actions that a phase of a replica enables. -/
inductive Phase.Enables : Phase → ReplicaAction → Prop
  | poll {contents : Except Text Bucket} : Enables .idle (.poll contents)
  | check : Enables .idle .check
  | read {stored : StoredObject} {raw : Except Text Bytes} : Enables (.reading stored) (.read raw)
  | recordInvalid {stored : StoredObject} {error : Text} : Enables (.rejecting stored error) .record
  | commitInvalid {stored : StoredObject} {error : Text} {discovered : Timestamp} :
      Enables (.rejected stored error discovered) .commit
  | createJob {stored : StoredObject} {conversation : ConversationInput} {job : Uuid}
      {clock : Timestamp} : Enables (.creating stored conversation) (.createJob job clock)
  | recordJob {stored : StoredObject} {conversation : ConversationInput} {job : Uuid}
      {clock : Timestamp} : Enables (.inserted stored conversation job clock) .record
  | commitJob {stored : StoredObject} {conversation : ConversationInput} {job : Uuid}
      {clock discovered : Timestamp} :
      Enables (.recorded stored conversation job clock discovered) .commit
  | publication {stored : StoredObject} {job : Uuid} {call : Publication.Action} :
      Enables (.publishing stored job) (.publication call)
  | stop {phase : Phase} : Enables phase .stop

/-- A move is what one step of a replica does to the shared data. -/
inductive Move (env : Environment) (state : State) (id : ReplicaId) : ReplicaAction → State → Prop
  | moved {action : ReplicaAction} {replica : Replica}
      (before : (state.replicas id).phase.published = none)
      (hidden : replica.phase.pending env = none) (unpublished : replica.phase.published = none) :
      Move env state id action (state.withReplica id replica)
  | rolledBack {action : ReplicaAction} {rest : List StoredObject}
      (before : (state.replicas id).phase.published = none) :
      Move env state id action (state.rolledBack id rest)
  | recorded {rest : List StoredObject} {record : IngestedObject} {phase : Phase}
      (pending : phase.pending env = some record) (unpublished : phase.published = none)
      (fresh : ¬ Recorded state.records record.identity)
      (free : state.entries record.identity = none) :
      Move env state id .record (state.opened id record ⟨rest, phase⟩)
  | committedInvalid {stored : StoredObject} {error : Text} {discovered : Timestamp}
      {rest : List StoredObject}
      (phase : (state.replicas id).phase = .rejected stored error discovered) :
      Move env state id .commit
        (state.commitRecord id (env.invalidRecord stored error discovered) ⟨rest, .idle⟩)
  | committedJob {stored : StoredObject} {conversation : ConversationInput} {job : Uuid}
      {clock discovered : Timestamp} {rest : List StoredObject} {pipeline : Pipeline.State}
      (phase : (state.replicas id).phase = .recorded stored conversation job clock discovered)
      (created : Pipeline.step env.pipeline state.pipeline (.createJob job conversation
        (env.maxAttempts id) (env.store.uri stored.key) clock) = some pipeline) :
      Move env state id .commit ({state with pipeline}.commitRecord id
        (env.ingestedRecord stored job discovered) ⟨rest, .publishing stored job⟩)
  | published {stored : StoredObject} {job : Uuid} {action : Publication.Action}
      {rest : List StoredObject} {pipeline : Pipeline.State}
      (phase : (state.replicas id).phase = .publishing stored job)
      (stepped : Pipeline.step env.pipeline state.pipeline (.ingest job action) = some pipeline) :
      Move env state id (.publication action)
        ({state with pipeline}.withReplica id (afterPublication rest stored job action))

variable {env : Environment} {state next : State} {id : ReplicaId}

/-- A step is one of the actions that the phase of the replica enables. -/
theorem replicaStep_enables {action : ReplicaAction}
    (stepped : replicaStep env state id action = some next) :
    ∃ phase, (state.replicas id).phase = phase ∧ phase.Enables action := by
  unfold replicaStep at stepped
  split at stepped
  · exact ⟨_, ‹_›, .poll⟩
  · exact ⟨_, ‹_›, .check⟩
  · exact ⟨_, ‹_›, .read⟩
  · exact ⟨_, ‹_›, .recordInvalid⟩
  · exact ⟨_, ‹_›, .commitInvalid⟩
  · exact ⟨_, ‹_›, .createJob⟩
  · exact ⟨_, ‹_›, .recordJob⟩
  · exact ⟨_, ‹_›, .commitJob⟩
  · exact ⟨_, ‹_›, .publication⟩
  · cases stepped
  · exact ⟨_, rfl, .stop⟩
  · cases stepped

/-- A replica that has read an object holds no entry and publishes nothing yet. -/
theorem Environment.afterRead_quiet (rest : List StoredObject) (stored : StoredObject)
    (raw : Except Text Bytes) : (env.afterRead rest stored raw).phase.pending env = none ∧
      (env.afterRead rest stored raw).phase.published = none := by
  unfold afterRead
  split
  · exact ⟨rfl, rfl⟩
  · split <;> exact ⟨rfl, rfl⟩

/-- The insert of a record rolls back or adds one entry for an object version without a row. -/
theorem State.insertRecord_move {rest : List StoredObject} {record : IngestedObject} {phase : Phase}
    (before : (state.replicas id).phase.published = none)
    (pending : phase.pending env = some record) (unpublished : phase.published = none)
    (stepped : state.insertRecord id rest record phase = some next) :
    Move env state id .record next := by
  unfold insertRecord at stepped
  split at stepped
  · cases stepped
    exact .rolledBack before
  · cases stepped
    exact .rolledBack before
  · rename_i records inserted
    obtain ⟨_, fresh, _⟩ := recordIngestedObject_ok inserted
    split at stepped
    · rename_i free
      cases stepped
      exact .recorded pending unpublished fresh free
    · cases stepped

/-- A stop rolls back whatever the replica has open. -/
theorem stop_move (stepped : replicaStep env state id .stop = some next) :
    Move env state id .stop next := by
  cases phase : (state.replicas id).phase with
  | publishing =>
      simp only [replicaStep, phase] at stepped
      cases stepped
  | _ =>
      simp only [replicaStep, phase] at stepped
      cases stepped
      exact .rolledBack (by rw [phase]; rfl)

/-- Between two objects a replica lists the bucket or looks up the next object. -/
theorem idle_move {action : ReplicaAction} (phase : (state.replicas id).phase = .idle)
    (stepped : replicaStep env state id action = some next) : Move env state id action next := by
  have before : (state.replicas id).phase.published = none := by rw [phase]; rfl
  cases action with
  | stop => exact stop_move stepped
  | poll contents =>
      simp only [replicaStep, phase] at stepped
      split at stepped
      · cases stepped
        exact .moved before rfl rfl
      · cases stepped
        exact .moved before rfl rfl
      · cases stepped
  | check =>
      simp only [replicaStep, phase] at stepped
      split at stepped
      · cases stepped
      · split at stepped
        · cases stepped
          exact .moved before rfl rfl
        · cases stepped
          exact .moved before rfl rfl
        · cases stepped
          exact .moved before rfl rfl
  | _ =>
      simp only [replicaStep, phase] at stepped
      cases stepped

/-- The insert of a job opens a transaction, is skipped, or ends the pass. -/
theorem createJob_move {stored : StoredObject} {conversation : ConversationInput} {job : Uuid}
    {clock : Timestamp} (phase : (state.replicas id).phase = .creating stored conversation)
    (stepped : replicaStep env state id (.createJob job clock) = some next) :
    Move env state id (.createJob job clock) next := by
  have before : (state.replicas id).phase.published = none := by rw [phase]; rfl
  simp only [replicaStep, phase] at stepped
  split at stepped
  · split at stepped
    · split at stepped
      · cases stepped
        exact .moved before rfl rfl
      · cases stepped
        exact .rolledBack before
    · cases stepped
      exact .rolledBack before
  · cases stepped

/-- Every step of a replica is one of the moves. -/
theorem replicaStep_move {action : ReplicaAction}
    (stepped : replicaStep env state id action = some next) : Move env state id action next := by
  obtain ⟨current, phase, enabled⟩ := replicaStep_enables stepped
  cases enabled with
  | poll | check => exact idle_move phase stepped
  | createJob => exact createJob_move phase stepped
  | stop => exact stop_move stepped
  | @read stored raw =>
      simp only [replicaStep, phase] at stepped
      cases stepped
      obtain ⟨hidden, unpublished⟩ := env.afterRead_quiet (state.replicas id).rest stored raw
      exact .moved (by rw [phase]; rfl) hidden unpublished
  | recordInvalid | recordJob =>
      simp only [replicaStep, phase] at stepped
      exact State.insertRecord_move (by rw [phase]; rfl) rfl rfl stepped
  | commitInvalid =>
      simp only [replicaStep, phase] at stepped
      cases stepped
      exact .committedInvalid phase
  | commitJob =>
      simp only [replicaStep, phase] at stepped
      obtain ⟨pipeline, created, rfl⟩ := Option.map_eq_some_iff.mp stepped
      exact .committedJob phase created
  | publication =>
      simp only [replicaStep, phase] at stepped
      obtain ⟨pipeline, moved, rfl⟩ := Option.map_eq_some_iff.mp stepped
      exact .published phase moved

/-- A step belongs to a replica or to another process of the pipeline. -/
inductive Step (env : Environment) (state : State) : Action → State → Prop
  | replica {id : ReplicaId} {action : ReplicaAction} {next : State}
      (move : Move env state id action next) : Step env state (.replica id action) next
  | pipeline {action : Pipeline.Action} {pipeline : Pipeline.State}
      (foreign : ofReplica action = false)
      (stepped : Pipeline.step env.pipeline state.pipeline action = some pipeline) :
      Step env state (.pipeline action) {state with pipeline}

/-- Every step of the system has one of these forms. -/
theorem step_cases {action : Action} (stepped : step env state action = some next) :
    Step env state action next := by
  cases action with
  | replica id action => exact .replica (replicaStep_move stepped)
  | pipeline action =>
      simp only [step] at stepped
      split at stepped
      · cases stepped
      · rename_i foreign
        obtain ⟨pipeline, moved, rfl⟩ := Option.map_eq_some_iff.mp stepped
        exact .pipeline (Bool.eq_false_of_not_eq_true foreign) moved

/-- A start state has no record, no open transaction and no busy process. -/
def initial (now : Timestamp) : State where
  pipeline := Pipeline.initial now
  records := []
  entries _ := none
  replicas _ := ⟨[], .idle⟩

def system (env : Environment) : System State Action where
  start state := ∃ now, state = initial now
  step := step env

end ConvoScore.Ingest.Replicas
