import ConvoScore.Ingest.ExactlyOnce

namespace ConvoScore.Ingest.Replicas
open Library

/-- Every replica works with the services of one pass. -/
def servedBy (services : Services) (settings : Pipeline.WorkerId → Settings) : Environment where
  pipeline := ⟨settings, services.sha256⟩
  store := services.store
  codec := services.codec
  maxAttempts _ := services.maxAttempts

/-- No other process steps. -/
def ownStep (id : ReplicaId) : System.Condition State Action :=
  fun _ action _ => ∃ own, action = .replica id own

/-- The shared data are the world of a pass, no transaction is open, and no later id is in use. -/
structure Mirrors (services : Services) (id : ReplicaId) (replica : Replica) (world : World)
    (state : State) : Prop where
  shared : state.pipeline.shared = world.shared
  records : state.records = world.records
  free : ∀ identity, state.entries identity = none
  replica : state.replicas id = replica
  unused : ∀ draw, world.drawn ≤ draw → state.pipeline.origins (services.uuid4 draw) = .unused

/-- The steps of one replica lead to such a state. -/
def Leads (services : Services) (settings : Pipeline.WorkerId → Settings) (id : ReplicaId)
    (state : State) (replica : Replica) (world : World) : Prop :=
  ∃ last, (system (servedBy services settings)).Path (ownStep id) state last ∧
    Mirrors services id replica world last

/-- An exception ends the pass, so that no object remains. -/
def remaining (rest : List StoredObject) : Except PollError PollResult → List StoredObject
  | .ok _ => rest
  | .error _ => []

variable {services : Services} {settings : Pipeline.WorkerId → Settings} {id : ReplicaId}
  {state next : State} {replica later : Replica} {world : World} {rest : List StoredObject}
  {stored : StoredObject}

theorem Leads.trans {middle : World} (first : Leads services settings id state replica middle)
    (second : ∀ mid, Mirrors services id replica middle mid →
      Leads services settings id mid later world) : Leads services settings id state later world := by
  obtain ⟨mid, path, mirrors⟩ := first
  obtain ⟨last, remainder, ends⟩ := second mid mirrors
  exact ⟨last, path.trans remainder, ends⟩

theorem Leads.step {action : ReplicaAction}
    (stepped : replicaStep (servedBy services settings) state id action = some next)
    (leads : Leads services settings id next replica world) :
    Leads services settings id state replica world := by
  obtain ⟨last, path, mirrors⟩ := leads
  have first : (system (servedBy services settings)).Path (ownStep id) state next :=
    System.Path.refl.tail (.replica id action) stepped ⟨action, rfl⟩
  exact ⟨last, first.trans path, mirrors⟩

theorem Mirrors.leads (mirrors : Mirrors services id replica world state) :
    Leads services settings id state replica world :=
  ⟨state, .refl, mirrors⟩

/-- A replica that only moves on keeps the world. -/
theorem Mirrors.moved (mirrors : Mirrors services id replica world state) (later : Replica) :
    Mirrors services id later world (state.withReplica id later) where
  shared := mirrors.shared
  records := mirrors.records
  free := mirrors.free
  replica := Function.update_self ..
  unused := mirrors.unused

theorem Mirrors.rolledBack (mirrors : Mirrors services id replica world state)
    (rest : List StoredObject) :
    Mirrors services id ⟨rest, .idle⟩ world (state.rolledBack id rest) where
  shared := mirrors.shared
  records := mirrors.records
  free identity := by
    show state.released id identity = none
    rw [State.released, mirrors.free identity]
    rfl
  replica := Function.update_self ..
  unused := mirrors.unused

/-- The commit of the only open record makes the records those of the pass. -/
theorem Mirrors.committed (mirrors : Mirrors services id replica world state)
    {record : IngestedObject} {records : Records} {pipeline : Pipeline.State} {drawn : Nat}
    (inserted : recordIngestedObject world.records record = .ok records)
    (unused : ∀ draw, drawn ≤ draw → pipeline.origins (services.uuid4 draw) = .unused)
    (opened later : Replica) :
    Mirrors services id later ⟨pipeline.shared, records, drawn⟩
      ({state.opened id record opened with pipeline}.commitRecord id record later) where
  shared := rfl
  records := by
    obtain ⟨_, _, rfl⟩ := recordIngestedObject_ok inserted
    rw [← mirrors.records]
    rfl
  free identity := by
    show (if Function.update state.entries record.identity (some id) identity = some id then none
      else Function.update state.entries record.identity (some id) identity) = none
    rw [Function.update_apply]
    by_cases same : identity = record.identity
    · rw [if_pos same]
      exact if_pos rfl
    · rw [if_neg same, mirrors.free identity]
      rfl
  replica := Function.update_self ..
  unused := unused

/-- An insert of a record succeeds, loses to a committed one, or does not fit its columns. -/
theorem Mirrors.insertRecord (mirrors : Mirrors services id replica world state)
    (rest : List StoredObject) (record : IngestedObject) (phase : Phase) :
    state.insertRecord id rest record phase =
      match recordIngestedObject world.records record with
      | .ok _ => some (state.opened id record ⟨rest, phase⟩)
      | .error .integrity => some (state.rolledBack id rest)
      | .error .data => some (state.rolledBack id []) := by
  rw [State.insertRecord, mirrors.records]
  cases recordIngestedObject world.records record with
  | ok records => exact if_pos (mirrors.free _)
  | error raised => cases raised <;> rfl

/-- `_record_invalid` is an insert and a commit, or a rollback. -/
theorem recordInvalid_simulated {error : Text}
    (mirrors : Mirrors services id ⟨rest, .rejecting stored error⟩ world state) :
    Leads services settings id state
      ⟨remaining rest (recordInvalid services world stored error).1, .idle⟩
      (recordInvalid services world stored error).2 := by
  let env := servedBy services settings
  let record := env.invalidRecord stored error world.shared.now
  have stepped : replicaStep env state id .record =
      state.insertRecord id rest record (.rejected stored error world.shared.now) := by
    simp only [replicaStep, mirrors.replica, mirrors.shared, record]
  have inserting : recordInvalid services world stored error =
      match recordIngestedObject world.records record with
      | .ok records => (.ok {PollResult.zero with invalid := 1}, {world with records})
      | .error .integrity => (.ok {PollResult.zero with invalid := 1}, world)
      | .error .data => (.error .data, world) := rfl
  rw [mirrors.insertRecord] at stepped
  rw [inserting]
  cases inserted : recordIngestedObject world.records record with
  | error raised =>
      rw [inserted] at stepped
      cases raised with
      | integrity => exact .step stepped (mirrors.rolledBack rest).leads
      | data => exact .step stepped (mirrors.rolledBack []).leads
  | ok records =>
      rw [inserted] at stepped
      have committed : replicaStep env (state.opened id record
          ⟨rest, .rejected stored error world.shared.now⟩) id .commit =
          some ((state.opened id record ⟨rest, .rejected stored error world.shared.now⟩).commitRecord
            id record ⟨rest, .idle⟩) := by
        simp only [replicaStep, State.opened, State.withReplica, Function.update_self, record]
      have ends := mirrors.committed inserted mirrors.unused
        ⟨rest, .rejected stored error world.shared.now⟩ ⟨rest, .idle⟩
      rw [mirrors.shared] at ends
      exact .step stepped (.step committed ends.leads)

/-- A step of a publication is a step of the replica that owns it. -/
theorem Mirrors.publication (settings : Pipeline.WorkerId → Settings) {job : Uuid}
    {publication after : Publication} {action : Publication.Action} {shared : Shared}
    (mirrors : Mirrors services id ⟨rest, .publishing stored job⟩ world state)
    (origin : state.pipeline.origins job = .s3 publication)
    (moved : publication.step world.shared job action = some (shared, after)) :
    ∃ next, replicaStep (servedBy services settings) state id (.publication action) = some next ∧
      next.pipeline.origins job = .s3 after ∧
      Mirrors services id (afterPublication rest stored job action) {world with shared} next := by
  refine ⟨{state with pipeline := state.pipeline.withOrigin shared job (.s3 after)}.withReplica id
    (afterPublication rest stored job action), ?_, Function.update_self .., ?_⟩
  · simp [replicaStep, mirrors.replica, Pipeline.step, origin, mirrors.shared, moved]
  · constructor
    · rfl
    · exact mirrors.records
    · exact mirrors.free
    · exact Function.update_self ..
    · intro draw later
      have unused := mirrors.unused draw later
      have different : services.uuid4 draw ≠ job := by
        intro same
        rw [same, origin] at unused
        cases unused
      exact (Function.update_of_ne different _ _).trans unused

/-- After a publish that raised, the replica fails the row. -/
theorem publishJob_raised {job : Uuid} {error : Text}
    (mirrors : Mirrors services id ⟨rest, .publishing stored job⟩ world state)
    (origin : state.pipeline.origins job = .s3 .publishing)
    (text : services.publish job = .replyLost error ∨ services.publish job = .refused error) :
    Leads services settings id state ⟨remaining rest (publishJob services world job).1, .idle⟩
      (publishJob services world job).2 := by
  let sent := {world.shared with queue := (services.publish job).enqueue world.shared.queue job}
  have published : Publication.publishing.step world.shared job (.publish (services.publish job)) =
      some (sent, .failing error world.shared.now) := by
    rcases text with same | same <;> simp [Publication.step, same, sent]
  have marked : (Publication.failing error world.shared.now).step sent job
      (.markEnqueueFailed world.shared.now) = some ({sent with
        jobs := markEnqueueFailed world.shared.now sent.jobs job error}, .markedFailed) := by
    simp [Publication.step, Shared.txStart, sent]
  have outcome : publishJob services world job = (.ok {PollResult.zero with failed := 1},
      {world with shared := {sent with
        jobs := markEnqueueFailed world.shared.now sent.jobs job error}}) := by
    rcases text with same | same <;> simp [publishJob, same, sent]
  obtain ⟨middle, first, failing, between⟩ := mirrors.publication settings origin published
  obtain ⟨last, second, _, ends⟩ := between.publication settings failing marked
  rw [outcome]
  exact .step first (.step second ends.leads)

/-- The publish and the update of the row are the last two steps for an object. -/
theorem publishJob_simulated {job : Uuid}
    (mirrors : Mirrors services id ⟨rest, .publishing stored job⟩ world state)
    (origin : state.pipeline.origins job = .s3 .publishing) :
    Leads services settings id state ⟨remaining rest (publishJob services world job).1, .idle⟩
      (publishJob services world job).2 := by
  cases result : services.publish job with
  | replyLost error => exact publishJob_raised mirrors origin (.inl result)
  | refused error => exact publishJob_raised mirrors origin (.inr result)
  | delivered =>
      let sent := {world.shared with queue := world.shared.queue.send job}
      have published : Publication.publishing.step world.shared job (.publish .delivered) =
          some (sent, .marking world.shared.now) := rfl
      have marked : (Publication.marking world.shared.now).step sent job
          (.markEnqueued world.shared.now) = some ({sent with
            jobs := markEnqueued world.shared.now sent.jobs job}, .marked) := by
        simp [Publication.step, Shared.txStart, sent]
      obtain ⟨middle, first, marking, between⟩ := mirrors.publication settings origin published
      obtain ⟨last, second, _, ends⟩ := between.publication settings marking marked
      simp only [publishJob, result]
      exact .step first (.step second ends.leads)

/-- The row and the record that a pass writes for a conversation. -/
def passRow (services : Services) (world : World) (stored : StoredObject)
    (conversation : ConversationInput) : Conversation :=
  createJob services.sha256 (services.uuid4 world.drawn) world.shared.now conversation .s3
    services.maxAttempts (some (services.store.uri stored.key))

def passRecord (services : Services) (world : World) (stored : StoredObject) : IngestedObject :=
  newRecord (identityOf services stored) (some stored.sizeBytes) .ingested
    (some (services.uuid4 world.drawn)) none world.shared.now

/-- Every call of `_create_job` draws one id. -/
def afterDraw (world : World) : World := {world with drawn := world.drawn + 1}

/-- The job is inserted when its id is new; then the record decides. -/
def recordOutcome (services : Services) (world : World) (stored : StoredObject)
    (conversation : ConversationInput) : Outcome PollResult :=
  match recordIngestedObject world.records (passRecord services world stored) with
  | .ok records => publishJob services {afterDraw world with
      shared := world.shared.write (services.uuid4 world.drawn)
        (passRow services world stored conversation), records} (services.uuid4 world.drawn)
  | .error .integrity => (.ok {PollResult.zero with skippedDuplicate := 1}, afterDraw world)
  | .error .data => (.error .data, afterDraw world)

theorem createIngestedJob_unstorable {conversation : ConversationInput}
    (unstorable : (passRow services world stored conversation).storable = false) :
    createIngestedJob services world stored conversation = (.error .data, afterDraw world) := by
  simp only [passRow] at unstorable
  simp [createIngestedJob, unstorable, afterDraw]

theorem createIngestedJob_taken {conversation : ConversationInput}
    (storable : (passRow services world stored conversation).storable = true)
    (taken : (world.shared.jobs (services.uuid4 world.drawn)).isNone = false) :
    createIngestedJob services world stored conversation =
      (.ok {PollResult.zero with skippedDuplicate := 1}, afterDraw world) := by
  simp only [passRow] at storable
  simp [createIngestedJob, storable, Table.insert, taken, afterDraw]

theorem createIngestedJob_inserted {conversation : ConversationInput}
    (storable : (passRow services world stored conversation).storable = true)
    (absent : (world.shared.jobs (services.uuid4 world.drawn)).isNone = true) :
    createIngestedJob services world stored conversation =
      recordOutcome services world stored conversation := by
  simp only [passRow] at storable
  simp only [createIngestedJob, storable, Table.insert, absent, recordOutcome, passRecord, if_true]
  cases recordIngestedObject world.records (newRecord (identityOf services stored)
      (some stored.sizeBytes) .ingested (some (services.uuid4 world.drawn)) none world.shared.now) with
  | ok records => rfl
  | error raised => cases raised <;> rfl

/-- The second insert of `_create_job` and the commit, or a rollback of both inserts. -/
theorem recordJob_simulated {conversation : ConversationInput}
    (mirrors : Mirrors services id ⟨rest, .inserted stored conversation
      (services.uuid4 world.drawn) world.shared.now⟩ world state)
    (absent : (world.shared.jobs (services.uuid4 world.drawn)).isNone = true)
    (distinct : ∀ first second, services.uuid4 first = services.uuid4 second → first = second) :
    Leads services settings id state
      ⟨remaining rest (recordOutcome services world stored conversation).1, .idle⟩
      (recordOutcome services world stored conversation).2 := by
  let env := servedBy services settings
  let job := services.uuid4 world.drawn
  let record := passRecord services world stored
  let row := passRow services world stored conversation
  let waiting : Replica :=
    ⟨rest, .recorded stored conversation job world.shared.now world.shared.now⟩
  have draws : Mirrors services id ⟨rest, .inserted stored conversation job world.shared.now⟩
      (afterDraw world) state :=
    {mirrors with unused := fun draw later => mirrors.unused draw (Nat.le_of_succ_le later)}
  have stepped : replicaStep env state id .record =
      state.insertRecord id rest record waiting.phase := by
    simp only [replicaStep, mirrors.replica, mirrors.shared, waiting]
    rfl
  rw [mirrors.insertRecord] at stepped
  unfold recordOutcome
  cases inserted : recordIngestedObject world.records (passRecord services world stored) with
  | error raised =>
      rw [inserted] at stepped
      cases raised with
      | integrity => exact .step stepped (draws.rolledBack rest).leads
      | data => exact .step stepped (draws.rolledBack []).leads
  | ok records =>
      rw [inserted] at stepped
      let pipeline := state.pipeline.withOrigin (world.shared.write job row) job (.s3 .publishing)
      have unused : state.pipeline.origins job = .unused := mirrors.unused world.drawn le_rfl
      have created : Pipeline.step env.pipeline state.pipeline (.createJob job conversation
          (env.maxAttempts id) (env.store.uri stored.key) world.shared.now) = some pipeline := by
        simp only [Pipeline.step, unused, mirrors.shared, le_refl, if_true, Table.insert, absent, job,
          Option.map_some]
        rfl
      have committed : replicaStep env (state.opened id record waiting) id .commit =
          some ({state.opened id record waiting with pipeline}.commitRecord id record
            ⟨rest, .publishing stored job⟩) := by
        simp only [replicaStep, State.opened, State.withReplica, Function.update_self, waiting,
          created, Option.map_some]
        rfl
      have origins : ∀ draw, world.drawn + 1 ≤ draw →
          pipeline.origins (services.uuid4 draw) = .unused := by
        intro draw later
        have different : services.uuid4 draw ≠ job := by
          intro same
          have equal := distinct _ _ same
          omega
        exact (Function.update_of_ne different _ _).trans
          (mirrors.unused draw (Nat.le_of_succ_le later))
      have ends := mirrors.committed inserted origins waiting ⟨rest, .publishing stored job⟩
      exact .step stepped (.step committed (publishJob_simulated ends (Function.update_self ..)))

/-- `_create_job` is an insert of the job and then of its record, unless the first one fails. -/
theorem createIngestedJob_simulated {conversation : ConversationInput}
    (distinct : ∀ first second, services.uuid4 first = services.uuid4 second → first = second)
    (mirrors : Mirrors services id ⟨rest, .creating stored conversation⟩ world state) :
    Leads services settings id state
      ⟨remaining rest (createIngestedJob services world stored conversation).1, .idle⟩
      (createIngestedJob services world stored conversation).2 := by
  let job := services.uuid4 world.drawn
  let row := passRow services world stored conversation
  have stepped : replicaStep (servedBy services settings) state id (.createJob job world.shared.now) =
      if row.storable then
        if (world.shared.jobs job).isNone then
          some (state.withReplica id ⟨rest, .inserted stored conversation job world.shared.now⟩)
        else some (state.rolledBack id rest)
      else some (state.rolledBack id []) := by
    simp only [replicaStep, mirrors.replica, mirrors.shared, le_refl, if_true]
    rfl
  have draws : Mirrors services id ⟨rest, .creating stored conversation⟩ (afterDraw world) state :=
    {mirrors with unused := fun draw later => mirrors.unused draw (Nat.le_of_succ_le later)}
  cases storable : (passRow services world stored conversation).storable with
  | false =>
      rw [createIngestedJob_unstorable storable]
      simp only [row, storable] at stepped
      exact .step stepped (draws.rolledBack []).leads
  | true =>
      simp only [row, storable, if_true] at stepped
      cases absent : (world.shared.jobs (services.uuid4 world.drawn)).isNone with
      | false =>
          rw [createIngestedJob_taken storable absent]
          simp only [job, absent] at stepped
          exact .step stepped (draws.rolledBack rest).leads
      | true =>
          rw [createIngestedJob_inserted storable absent]
          simp only [job, absent, if_true] at stepped
          exact .step stepped (recordJob_simulated (mirrors.moved _) absent distinct)

/-- `_handle` is a look-up, a read and the steps that the content asks for. -/
theorem handle_simulated
    (distinct : ∀ first second, services.uuid4 first = services.uuid4 second → first = second)
    (mirrors : Mirrors services id ⟨stored :: rest, .idle⟩ world state) :
    Leads services settings id state ⟨remaining rest (handle services world stored).1, .idle⟩
      (handle services world stored).2 := by
  let env := servedBy services settings
  have same : objectAlreadySeen state.records (env.store.identity stored) =
      objectAlreadySeen world.records (identityOf services stored) := by
    rw [mirrors.records]
    rfl
  unfold handle
  cases seen : objectAlreadySeen world.records (identityOf services stored) with
  | error raised =>
      have checked : replicaStep env state id .check = some (state.withReplica id ⟨[], .idle⟩) := by
        simp only [replicaStep, mirrors.replica, same, seen]
      exact .step checked (mirrors.moved _).leads
  | ok known =>
      cases known with
      | true =>
          have checked : replicaStep env state id .check =
              some (state.withReplica id ⟨rest, .idle⟩) := by
            simp only [replicaStep, mirrors.replica, same, seen]
          exact .step checked (mirrors.moved _).leads
      | false =>
          have checked : replicaStep env state id .check =
              some (state.withReplica id ⟨rest, .reading stored⟩) := by
            simp only [replicaStep, mirrors.replica, same, seen]
          refine .step checked ?_
          have reading := mirrors.moved ⟨rest, .reading stored⟩
          have fetched : replicaStep env (state.withReplica id ⟨rest, .reading stored⟩) id
              (.read (services.readObject stored.key)) = some ((state.withReplica id
                ⟨rest, .reading stored⟩).withReplica id
                  (env.afterRead rest stored (services.readObject stored.key))) := by
            simp only [replicaStep, reading.replica]
          cases read : services.readObject stored.key with
          | error text =>
              rw [read] at fetched
              exact .step fetched (reading.moved _).leads
          | ok raw =>
              rw [read] at fetched
              simp only [Environment.afterRead, env, servedBy] at fetched
              simp only
              cases parsed : parse services.codec raw with
              | none =>
                  rw [parsed] at fetched
                  exact .step fetched (reading.moved _).leads
              | some found =>
                  rw [parsed] at fetched
                  cases found with
                  | problem error =>
                      exact .step fetched (recordInvalid_simulated (reading.moved _))
                  | conversation conversation =>
                      exact .step fetched (createIngestedJob_simulated distinct (reading.moved _))

/-- The loop of a pass is a path of its replica. -/
theorem handleAll_simulated
    (distinct : ∀ first second, services.uuid4 first = services.uuid4 second → first = second)
    (objects : List StoredObject) (position : Nat) (result : PollResult)
    (mirrors : Mirrors services id ⟨objects, .idle⟩ world state) :
    Leads services settings id state ⟨[], .idle⟩
      (handleAll services position result world objects).2 := by
  induction objects generalizing position result world state with
  | nil => exact mirrors.leads
  | cons stored rest ih =>
      unfold handleAll
      cases stopped : services.stopping position with
      | true =>
          have stepped : replicaStep (servedBy services settings) state id .stop =
              some (state.rolledBack id []) := by
            simp only [replicaStep, mirrors.replica]
          exact .step stepped (mirrors.rolledBack []).leads
      | false =>
          have handled : Leads services settings id state _ _ := handle_simulated distinct mirrors
          simp only [Bool.false_eq_true, if_false]
          cases called : handle services world stored with
          | mk returned after =>
              rw [called] at handled
              cases returned with
              | error raised => exact handled
              | ok one => exact handled.trans fun mid between => ih _ _ between

/-- Whatever a pass does alone, its replica does in steps that the others may interleave. -/
theorem pollOnce_simulated
    (distinct : ∀ first second, services.uuid4 first = services.uuid4 second → first = second)
    (mirrors : Mirrors services id ⟨[], .idle⟩ world state) :
    Leads services settings id state ⟨[], .idle⟩ (pollOnce services world).2 := by
  have same : (servedBy services settings).listing services.store.contents =
      services.store.listObjects maxListedKeys := rfl
  have listing : replicaStep (servedBy services settings) state id (.poll services.store.contents) =
      match services.store.listObjects maxListedKeys with
      | .ok objects => some (state.withReplica id ⟨objects, .idle⟩)
      | .error _ => some (state.withReplica id ⟨[], .idle⟩) := by
    simp only [replicaStep, mirrors.replica, same]
    cases services.store.listObjects maxListedKeys <;> rfl
  unfold pollOnce
  cases listed : services.store.listObjects maxListedKeys with
  | error text =>
      rw [listed] at listing
      exact .step listing (mirrors.moved _).leads
  | ok objects =>
      rw [listed] at listing
      exact .step listing (handleAll_simulated distinct objects 0 _ (mirrors.moved _))

/-- After a pass between the steps of other replicas, every version still has one record. -/
theorem pollOnce_distinct
    (distinct : ∀ first second, services.uuid4 first = services.uuid4 second → first = second)
    (reached : (system (servedBy services settings)).Reached System.anyStep state)
    (mirrors : Mirrors services id ⟨[], .idle⟩ world state) :
    DistinctRecords (pollOnce services world).2.records := by
  obtain ⟨last, path, ends⟩ : Leads services settings id state _ _ :=
    pollOnce_simulated distinct mirrors
  have later := reached.extend (path.weaken fun _ _ _ _ => trivial)
  rw [← ends.records]
  exact (reached_linked later).1.distinct

end ConvoScore.Ingest.Replicas
