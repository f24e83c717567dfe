import ConvoScore.Ingest.Content

namespace ConvoScore.Ingest.Uploads
open Library Replicas

/-- An object is what the bucket holds under one key. -/
structure Object where
  key : Text
  raw : Bytes
  deriving DecidableEq

/-- The bucket holds one object for each key, in key order. -/
structure Objects where
  entries : List Object
  sorted : entries.Pairwise fun first second => first.key < second.key

/-- An upload replaces the object under its key or adds one. -/
def upload (object : Object) : List Object → List Object
  | [] => [object]
  | first :: rest =>
      if object.key < first.key then object :: first :: rest
      else if object.key = first.key then object :: rest
      else first :: upload object rest

theorem mem_upload {object other : Object} {entries : List Object}
    (member : other ∈ upload object entries) : other = object ∨ other ∈ entries := by
  induction entries with
  | nil => exact .inl (List.mem_singleton.mp member)
  | cons first rest ih =>
      simp only [upload] at member
      split at member
      · exact List.mem_cons.mp member
      · split at member
        · rcases List.mem_cons.mp member with same | later
          · exact .inl same
          · exact .inr (List.mem_cons_of_mem _ later)
        · rcases List.mem_cons.mp member with same | later
          · exact .inr (same ▸ List.mem_cons_self)
          · exact (ih later).imp_right (List.mem_cons_of_mem _)

/-- An upload keeps the key order. -/
theorem upload_sorted (object : Object) {entries : List Object}
    (sorted : entries.Pairwise fun first second => first.key < second.key) :
    (upload object entries).Pairwise fun first second => first.key < second.key := by
  induction sorted with
  | nil => exact List.pairwise_singleton _ _
  | @cons first rest least ordered ih =>
      simp only [upload]
      split
      · rename_i before
        refine List.pairwise_cons.mpr ⟨?_, List.pairwise_cons.mpr ⟨least, ordered⟩⟩
        intro other member
        rcases List.mem_cons.mp member with rfl | later
        · exact before
        · exact before.trans (least other later)
      · rename_i notBefore
        split
        · rename_i same
          exact List.pairwise_cons.mpr ⟨fun other member => same ▸ least other member, ordered⟩
        · rename_i different
          refine List.pairwise_cons.mpr ⟨?_, ih⟩
          intro other member
          rcases mem_upload member with rfl | later
          · exact lt_of_le_of_ne (not_lt.mp notBefore) (Ne.symm different)
          · exact least other later

def Objects.upload (objects : Objects) (object : Object) : Objects where
  entries := Uploads.upload object objects.entries
  sorted := upload_sorted object objects.sorted

/-- The current bytes of a key. -/
def Objects.get (objects : Objects) (key : Text) : Option Bytes :=
  (objects.entries.find? fun object => object.key = key).map (·.raw)

/-- The storage service computes the `ETag` header of an object from its bytes. -/
structure Environment where
  ingest : Replicas.Environment
  header : Bytes → Text

/-- The etag as the listing stores it. -/
def Environment.etag (env : Environment) (raw : Bytes) : Text := stripQuotes (env.header raw)

/-- The version of an object, as a record names it. -/
def Environment.version (env : Environment) (object : Object) : Identity :=
  ⟨env.ingest.store.bucket, object.key, env.etag object.raw⟩

def Environment.item (env : Environment) (object : Object) : Item :=
  ⟨object.key, some object.raw.length, some (env.header object.raw)⟩

/-- What a listing of the bucket sees. -/
def Environment.bucket (env : Environment) (objects : Objects) : Bucket where
  items := objects.entries.map env.item
  sorted := objects.sorted.map env.item fun _ _ ordered => ordered

/-- The history variables are the objects that each replica has read, the latest one first,
and the object that each ingested job comes from. -/
structure State where
  ingest : Replicas.State
  objects : Objects
  reads : List (ReplicaId × Object)
  sources : Uuid → Option Object

inductive Action
  | upload (object : Object)
  | ingest (action : Replicas.Action)

/-- A listing sees the current objects and a read returns the current bytes, or they fail. -/
def permitted (env : Environment) (state : State) : Replicas.Action → Bool
  | .replica _ (.poll (.ok bucket)) => bucket.items = (env.bucket state.objects).items
  | .replica id (.read (.ok raw)) =>
      match (state.ingest.replicas id).phase with
      | .reading stored => state.objects.get stored.key = some raw
      | _ => false
  | _ => true

namespace State

/-- The object that a replica has read last. -/
def lastRead (state : State) (id : ReplicaId) : Option Object :=
  (state.reads.find? fun read => read.1 = id).map (·.2)

def readsAfter (state : State) : Replicas.Action → List (ReplicaId × Object)
  | .replica id (.read (.ok raw)) =>
      match (state.ingest.replicas id).phase with
      | .reading stored => (id, ⟨stored.key, raw⟩) :: state.reads
      | _ => state.reads
  | _ => state.reads

/-- A committed job comes from the object that its replica has read last. -/
def sourcesAfter (state : State) : Replicas.Action → Uuid → Option Object
  | .replica id .commit =>
      match (state.ingest.replicas id).phase with
      | .recorded _ _ job _ _ => Function.update state.sources job (state.lastRead id)
      | _ => state.sources
  | _ => state.sources

end State

def step (env : Environment) (state : State) : Action → Option State
  | .upload object => some {state with objects := state.objects.upload object}
  | .ingest action =>
      if permitted env state action then
        (Replicas.step env.ingest state.ingest action).map fun ingest =>
          ⟨ingest, state.objects, state.readsAfter action, state.sourcesAfter action⟩
      else none

/-- A start state has no record and no job; the bucket may hold objects already. -/
def system (env : Environment) : System State Action where
  start state := ∃ now objects, state = ⟨Replicas.initial now, objects, [], fun _ => none⟩
  step := step env

/-- Each read that finds a conversation finds the bytes whose etag the listing gave. -/
def ReadsListed (env : Environment) : System.Condition State Action :=
  fun before action _ => ∀ id stored raw conversation,
    action = .ingest (.replica id (.read (.ok raw))) →
    (before.ingest.replicas id).phase = .reading stored →
    parse env.ingest.codec raw = some (.conversation conversation) → env.etag raw = stored.etag

/-- An ingested record names the version that its job was read and parsed from,
and no version gives two jobs. -/
structure NamesContent (env : Environment) (state : State) : Prop where
  content : ∀ record ∈ state.ingest.records, record.status = .ingested →
    ∃ job row object conversation, record.conversationId = some job ∧
      state.ingest.pipeline.shared.jobs job = some row ∧
      state.sources job = some object ∧ (∃ id, (id, object) ∈ state.reads) ∧
      record.identity = env.version object ∧
      parse env.ingest.codec object.raw = some (.conversation conversation) ∧
      row.conversation = conversation.normalized
  single : ∀ job other object another, state.sources job = some object →
    state.sources other = some another → env.version object = env.version another → job = other

/-- A replica works on what it read last, and the records name the versions of their jobs. -/
structure Carried (env : Environment) (state : State) : Prop where
  held : ∀ id stored conversation,
    (state.ingest.replicas id).phase.content = some (stored, conversation) →
    ∃ object, state.lastRead id = some object ∧
      env.version object = env.ingest.store.identity stored ∧
      parse env.ingest.codec object.raw = some (.conversation conversation)
  recorded : ∀ record ∈ state.ingest.records, ∀ job, ingestedJob record = some job →
    ∃ row object conversation, state.ingest.pipeline.shared.jobs job = some row ∧
      state.sources job = some object ∧ (∃ id, (id, object) ∈ state.reads) ∧
      record.identity = env.version object ∧
      parse env.ingest.codec object.raw = some (.conversation conversation) ∧
      row.conversation = conversation.normalized
  sourced : ∀ job object, state.sources job = some object →
    ∃ record ∈ state.ingest.records, ingestedJob record = some job

variable {env : Environment} {state : State} {ingest : Replicas.State} {action : Replicas.Action}
  {id : ReplicaId} {stored : StoredObject} {conversation : ConversationInput} {job : Uuid}

/-- What a step of the ingestor leaves behind. -/
abbrev State.after (state : State) (action : Replicas.Action) (ingest : Replicas.State) : State :=
  ⟨ingest, state.objects, state.readsAfter action, state.sourcesAfter action⟩

/-- Nothing that was read is forgotten. -/
theorem State.reads_kept {read : ReplicaId × Object} (member : read ∈ state.reads) :
    read ∈ state.readsAfter action := by
  unfold readsAfter
  split
  · split
    · exact List.mem_cons_of_mem _ member
    · exact member
  · exact member

/-- A replica that is not about to read keeps what it read last. -/
theorem State.lastRead_kept (busy : ∀ stored, (state.ingest.replicas id).phase ≠ .reading stored) :
    (state.after action ingest).lastRead id = state.lastRead id := by
  simp only [lastRead, readsAfter]
  split
  · rename_i actor raw
    split
    · rename_i stored reading
      have different : actor ≠ id := by
        rintro rfl
        exact busy stored reading
      rw [List.find?_cons_of_neg (by simpa using different)]
    · rfl
  · rfl

theorem State.lastRead_self {raw : Bytes}
    (reading : (state.ingest.replicas id).phase = .reading stored) :
    (state.after (.replica id (.read (.ok raw))) ingest).lastRead id = some ⟨stored.key, raw⟩ := by
  simp [lastRead, readsAfter, reading]

theorem State.lastRead_member {object : Object} (read : state.lastRead id = some object) :
    (id, object) ∈ state.reads := by
  obtain ⟨⟨reader, _⟩, found, rfl⟩ := Option.map_eq_some_iff.mp read
  have same := List.find?_some found
  simp only [decide_eq_true_eq] at same
  exact same ▸ List.mem_of_find?_eq_some found

/-- Only the commit of a job gives it a source. -/
theorem State.sources_kept (waiting : ∀ id stored conversation clock discovered,
      action = .replica id .commit →
      (state.ingest.replicas id).phase ≠ .recorded stored conversation job clock discovered) :
    state.sourcesAfter action job = state.sources job := by
  unfold sourcesAfter
  split
  · rename_i id
    cases phase : (state.ingest.replicas id).phase with
    | recorded stored conversation target clock discovered =>
        refine Function.update_of_ne ?_ _ _
        rintro rfl
        exact waiting id stored conversation clock discovered rfl phase
    | _ => rfl
  · rfl

theorem State.sources_committed {clock discovered : Timestamp}
    (phase : (state.ingest.replicas id).phase = .recorded stored conversation job clock discovered) :
    state.sourcesAfter (.replica id .commit) job = state.lastRead id := by
  simp [sourcesAfter, phase]

/-- A replica goes on with what it read last. -/
theorem held_step (carried : Carried env state)
    (fine : ReadsListed env state (.ingest action) (state.after action ingest))
    (stepped : Replicas.step env.ingest state.ingest action = some ingest)
    (held : (ingest.replicas id).phase.content = some (stored, conversation)) :
    ∃ object, (state.after action ingest).lastRead id = some object ∧
      env.version object = env.ingest.store.identity stored ∧
      parse env.ingest.codec object.raw = some (.conversation conversation) := by
  rcases content_source stepped held with earlier | ⟨raw, rfl, reading, parsed⟩
  · obtain ⟨object, read, same, parsed⟩ := carried.held id stored conversation earlier
    refine ⟨object, ?_, same, parsed⟩
    rw [State.lastRead_kept, read]
    intro other reading
    rw [reading] at earlier
    cases earlier
  · have listed := fine id stored raw conversation rfl reading parsed
    exact ⟨⟨stored.key, raw⟩, State.lastRead_self reading, by rw [Environment.version, listed]; rfl,
      parsed⟩

/-- The records go on naming the versions of their jobs. -/
theorem recorded_step (linked : Linked state.ingest) (carried : Carried env state)
    (stepped : Replicas.step env.ingest state.ingest action = some ingest)
    {record : IngestedObject} (member : record ∈ ingest.records)
    (named : ingestedJob record = some job) :
    ∃ row object conversation, ingest.pipeline.shared.jobs job = some row ∧
      state.sourcesAfter action job = some object ∧ (∃ id, (id, object) ∈ state.readsAfter action) ∧
      record.identity = env.version object ∧
      parse env.ingest.codec object.raw = some (.conversation conversation) ∧
      row.conversation = conversation.normalized := by
  have step := step_cases stepped
  rcases named_source step member named with
    old | ⟨id, stored, conversation, clock, discovered, rfl, phase, rfl⟩
  · obtain ⟨row, object, conversation, present, source, ⟨id, read⟩, same, parsed, content⟩ :=
      carried.recorded record old job named
    obtain ⟨later, found, request⟩ := sameRequest_step step present
    refine ⟨later, object, conversation, found, ?_, ⟨id, State.reads_kept read⟩, same, parsed,
      request.conversation.trans content⟩
    rw [State.sources_kept, source]
    rintro actor _ _ _ _ rfl phase
    have ingested := (linked.ingested job).mpr ⟨record, old, named⟩
    rw [(commit_recorded phase stepped).1] at ingested
    cases ingested
  · obtain ⟨object, read, same, parsed⟩ :=
      carried.held id stored conversation (by rw [phase]; rfl)
    obtain ⟨_, found, _⟩ := commit_recorded phase stepped
    exact ⟨_, object, conversation, found, (State.sources_committed phase).trans read,
      ⟨id, State.reads_kept (State.lastRead_member read)⟩, same.symm, parsed, rfl⟩

/-- A source belongs to the job of a record. -/
theorem sourced_step (carried : Carried env state)
    (stepped : Replicas.step env.ingest state.ingest action = some ingest) {object : Object}
    (source : state.sourcesAfter action job = some object) :
    ∃ record ∈ ingest.records, ingestedJob record = some job := by
  by_cases committing : ∃ id stored conversation clock discovered, action = .replica id .commit ∧
      (state.ingest.replicas id).phase = .recorded stored conversation job clock discovered
  · obtain ⟨id, stored, conversation, clock, discovered, rfl, phase⟩ := committing
    obtain ⟨_, _, records⟩ := commit_recorded phase stepped
    exact ⟨_, records ▸ List.mem_cons_self, rfl⟩
  · rw [State.sources_kept] at source
    · obtain ⟨record, member, named⟩ := carried.sourced job object source
      exact ⟨record, records_step (step_cases stepped) member, named⟩
    · intro id stored conversation clock discovered call phase
      exact committing ⟨id, stored, conversation, clock, discovered, call, phase⟩

/-- A step of the ingestor is a permitted step of its replicas or of another process. -/
theorem ingest_step {next : State} (stepped : step env state (.ingest action) = some next) :
    ∃ ingest, permitted env state action = true ∧
      Replicas.step env.ingest state.ingest action = some ingest ∧
      next = state.after action ingest := by
  simp only [step] at stepped
  split at stepped
  · rename_i allowed
    obtain ⟨ingest, moved, rfl⟩ := Option.map_eq_some_iff.mp stepped
    exact ⟨ingest, allowed, moved, rfl⟩
  · cases stepped

/-- The bucket adds nothing to what the replicas can reach. -/
theorem ingest_reached {allowed : System.Condition State Action}
    (reached : (system env).Reached allowed state) :
    (Replicas.system env.ingest).Reached System.anyStep state.ingest := by
  refine reached.invariant (motive := fun state =>
    (Replicas.system env.ingest).Reached System.anyStep state.ingest) ?_ ?_
  · rintro _ ⟨now, objects, rfl⟩
    exact ⟨_, ⟨now, rfl⟩, .refl⟩
  · intro before action after earlier stepped _
    cases action with
    | upload =>
        cases stepped
        exact earlier
    | ingest call =>
        obtain ⟨ingest, _, moved, rfl⟩ := ingest_step stepped
        exact earlier.next call moved trivial

/-- Replicas that read what was listed carry it to the record. -/
theorem reached_carried (reached : (system env).Reached (ReadsListed env) state) :
    Carried env state := by
  refine reached.invariantWithin (motive := Carried env) ?_ ?_
  · rintro _ ⟨now, objects, rfl⟩
    constructor
    · intro _ _ _ held
      cases held
    · intro _ member
      cases member
    · intro _ _ source
      cases source
  · intro before action after earlier carried stepped fine
    cases action with
    | upload =>
        cases stepped
        exact ⟨carried.held, carried.recorded, carried.sourced⟩
    | ingest call =>
        obtain ⟨ingest, _, moved, rfl⟩ := ingest_step stepped
        have linked := (reached_linked (ingest_reached earlier)).2
        constructor
        · intro id stored conversation
          exact held_step carried fine moved
        · intro record member job named
          exact recorded_step linked carried moved member named
        · intro job object
          exact sourced_step carried moved

/-- In a run whose reads find what was listed, every ingested record names the version that its
job was parsed from, and no version gives two jobs. -/
theorem readsListed_namesContent (reached : (system env).Reached (ReadsListed env) state) :
    NamesContent env state := by
  have carried := reached_carried reached
  obtain ⟨indexed, linked⟩ := reached_linked (ingest_reached reached)
  constructor
  · intro record member ingested
    obtain ⟨job, named⟩ := Option.isSome_iff_exists.mp (linked.named record member ingested)
    obtain ⟨row, object, conversation, facts⟩ := carried.recorded record member job named
    exact ⟨job, row, object, conversation, (ingestedJob_eq_some.mp named).2, facts⟩
  · intro job other object another source alsoSource same
    obtain ⟨first, one, named⟩ := carried.sourced job object source
    obtain ⟨second, two, alsoNamed⟩ := carried.sourced other another alsoSource
    obtain ⟨_, found, _, _, known, _, version, _⟩ := carried.recorded first one job named
    obtain ⟨_, alsoFound, _, _, alsoKnown, _, alsoVersion, _⟩ :=
      carried.recorded second two other alsoNamed
    rw [source, Option.some.injEq] at known
    rw [alsoSource, Option.some.injEq] at alsoKnown
    subst known alsoKnown
    have equal : first = second := List.inj_on_of_nodup_map indexed.distinct one two
      (version.trans (same.trans alsoVersion.symm))
    rw [equal, alsoNamed, Option.some.injEq] at named
    exact named.symm

/-- The service answers with the quoted digest of the two sample objects. -/
def sampleEnvironment : Environment where
  ingest := raceEnvironment
  header raw :=
    if raw = sampleObject "y".toList then "\"6641ff810107b3f847bf0ae3614c3559\"".toList
    else "\"22956dd1ee35a0ca77f407e61bd0be4f\"".toList

def sampleUpload (content : Text) : Object := ⟨"incoming/a".toList, sampleObject content⟩

/-- One replica ingests the object that it finds while the bucket holds some content. -/
def passSteps (listed found : Text) (job : Uuid) : List Action :=
  let objects := (⟨[], .nil⟩ : Objects).upload (sampleUpload listed)
  .ingest (.replica 0 (.poll (.ok (sampleEnvironment.bucket objects)))) ::
  .upload (sampleUpload found) ::
  ([.check, .read (.ok (sampleObject found)), .createJob job 0, .record, .commit,
    .publication (.publish .delivered), .publication (.markEnqueued 0)].map
      fun act => .ingest (.replica 0 act))

/-- A read passes this check when it finds bytes with the listed etag. -/
def findsListed (env : Environment) (state : State) : Action → Bool
  | .ingest (.replica id (.read (.ok raw))) =>
      match (state.ingest.replicas id).phase with
      | .reading stored => env.etag raw = stored.etag
      | _ => true
  | _ => true

theorem findsListed_sound {before after : State} {action : Action}
    (found : findsListed env before action = true) : ReadsListed env before action after := by
  rintro id stored raw conversation rfl reading _
  simpa [findsListed, reading] using found

/-- A pass that reads what it listed leaves one record that names the content of its job. -/
theorem readsListed_namesContent_pass : ∃ state,
    state.ingest.records.map (·.conversationId) = [some 7] ∧
      NamesContent sampleEnvironment state := by
  have ran : (((system sampleEnvironment).guarded (findsListed sampleEnvironment)).run
      ⟨Replicas.initial 0, ⟨[], .nil⟩, [], fun _ => none⟩ (.upload (sampleUpload "y".toList) ::
        passSteps "y".toList "y".toList 7)).map
      (fun state => state.ingest.records.map (·.conversationId)) = some [some 7] := by
    rfl
  obtain ⟨state, path, seen⟩ := System.guarded_observed ran
    fun _ _ _ found => findsListed_sound found
  exact ⟨state, seen, readsListed_namesContent ⟨_, ⟨0, _, rfl⟩, path⟩⟩

/-- The object is overwritten between the listing and the read of the first pass. -/
def overwriteSchedule : List Action :=
  .upload (sampleUpload "y".toList) ::
    (passSteps "y".toList "x".toList 7 ++ passSteps "x".toList "x".toList 8)

/-- The record of the first version names a job with the content of the second one, which gets
a job of its own in the next pass; the first version is never read. -/
theorem overwritten_misnamed : ∃ state, (system sampleEnvironment).Reached System.anyStep state ∧
    ∃ record ∈ state.ingest.records, record.status = .ingested ∧ record.conversationId = some 7 ∧
      (∀ read ∈ state.reads, sampleEnvironment.version read.2 ≠ record.identity) ∧
      state.sources 7 = some (sampleUpload "x".toList) ∧
      state.sources 8 = some (sampleUpload "x".toList) := by
  have ran : ((system sampleEnvironment).run
      ⟨Replicas.initial 0, ⟨[], .nil⟩, [], fun _ => none⟩ overwriteSchedule).map (fun state =>
      (state.ingest.records.map fun record => (record.status, record.conversationId, record.identity),
        state.reads, state.sources 7, state.sources 8)) =
      some ([(.ingested, some 8, sampleEnvironment.version (sampleUpload "x".toList)),
          (.ingested, some 7, sampleEnvironment.version (sampleUpload "y".toList))],
        [(0, sampleUpload "x".toList), (0, sampleUpload "x".toList)],
        some (sampleUpload "x".toList), some (sampleUpload "x".toList)) := by
    rfl
  obtain ⟨state, path, seen⟩ := System.run_observed System.anyStep ran (fun _ _ _ _ => trivial)
  simp only [Prod.mk.injEq] at seen
  obtain ⟨records, reads, first, second⟩ := seen
  have misnamed : (IngestStatus.ingested, some 7,
      sampleEnvironment.version (sampleUpload "y".toList)) ∈ state.ingest.records.map
        fun record => (record.status, record.conversationId, record.identity) := by
    rw [records]
    exact List.mem_cons_of_mem _ List.mem_cons_self
  obtain ⟨record, member, columns⟩ := List.mem_map.mp misnamed
  simp only [Prod.mk.injEq] at columns
  obtain ⟨ingested, named, version⟩ := columns
  refine ⟨state, ⟨_, ⟨0, _, rfl⟩, path⟩, record, member, ingested, named, ?_, first, second⟩
  rw [reads, version]
  decide

end ConvoScore.Ingest.Uploads
