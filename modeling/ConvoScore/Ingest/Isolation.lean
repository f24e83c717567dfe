import ConvoScore.Ingest.Poll

namespace ConvoScore.Ingest
open Library

variable (services : Services)

/-- The identity and the size of a listed object fit their columns. -/
def storableIdentity (stored : StoredObject) : Bool :=
  storableVarchar maxBucketChars services.store.bucket && storableText stored.key &&
    storableVarchar maxEtagChars stored.etag && stored.sizeBytes < integerBound

/-- The parser returns, and its problem or its conversation fits the columns of its row. -/
def acceptableContent (codec : Codec) (raw : Bytes) : Bool :=
  match parse codec raw with
  | none => false
  | some (.problem text) => storableText (truncate text)
  | some (.conversation conversation) => conversation.normalized.storable

/-- Neither the parser nor the database rejects the object with an exception that escapes. -/
def acceptable (stored : StoredObject) : Bool :=
  storableIdentity services stored &&
    match services.readObject stored.key with
    | .error _ => true
    | .ok raw => acceptableContent services.codec raw

/-- Storage, queue and database are available, nobody asks for a stop, and ids are fresh. -/
structure Ready (world : World) : Prop where
  reads : ∀ key, ∃ raw, services.readObject key = .ok raw
  publishes : ∀ job, services.publish job = .delivered
  running : ∀ position, services.stopping position = false
  fresh : ∀ draw, world.drawn ≤ draw → world.shared.jobs (services.uuid4 draw) = none
  distinct : ∀ first second, services.uuid4 first = services.uuid4 second → first = second
  stored : ∀ record ∈ world.records, record.storable = true

variable {services} {world : World} {stored : StoredObject}

theorem storableText_append {first second : Text} :
    storableText (first ++ second) = (storableText first && storableText second) := by
  simp [storableText]

/-- The address of an object is storable when its bucket and its key are. -/
theorem storableText_uri {key : Text} : storableText (services.store.uri key) =
    (storableText services.store.bucket && storableText key) := by
  unfold ObjectStore.uri
  rw [storableText_append, storableText_append, storableText_append]
  have scheme : storableText "s3://".toList = true := by decide
  have slash : storableText "/".toList = true := by decide
  rw [scheme, slash, Bool.true_and, Bool.and_true]

/-- A stored record can always be queried. -/
theorem queryable_of_recorded (ready : Ready services world) {identity : Identity}
    (recorded : Recorded world.records identity) : identity.queryable = true := by
  obtain ⟨record, member, rfl⟩ := recorded
  have storable := ready.stored record member
  simp only [IngestedObject.storable, storableVarchar, Bool.and_eq_true] at storable
  simp only [Identity.queryable, IngestedObject.identity, Bool.and_eq_true]
  tauto

/-- A recorded object is skipped. -/
theorem handle_recorded (ready : Ready services world)
    (recorded : Recorded world.records (identityOf services stored)) :
    handle services world stored = (.ok {PollResult.zero with skippedDuplicate := 1}, world) := by
  have queryable := queryable_of_recorded ready recorded
  simp [handle, objectAlreadySeen, queryable, recorded]

/-- What one handled object changes: its record appears and no other record does. -/
structure Handles (services : Services) (world next : World) (stored : StoredObject) : Prop where
  ready : Ready services next
  recorded : ∀ identity, Recorded next.records identity ↔
    Recorded world.records identity ∨ identityOf services stored = identity

/-- The record of an object is storable when its identity, its size and its error are. -/
theorem newRecord_storable {status : IngestStatus} {conversationId : Option Uuid}
    {error : Option Text} {clock : Timestamp} :
    (newRecord (identityOf services stored) (some stored.sizeBytes) status conversationId error
      clock).storable = (storableIdentity services stored &&
      (newRecord (identityOf services stored) (some stored.sizeBytes) status conversationId error
        clock).error.all storableText) := rfl

/-- The address of a storable object is storable. -/
theorem storableText_uri_of_identity (identity : storableIdentity services stored = true) :
    storableText (services.store.uri stored.key) = true := by
  simp only [storableIdentity, storableVarchar, Bool.and_eq_true] at identity
  rw [storableText_uri, Bool.and_eq_true]
  exact ⟨identity.1.1.1.1, identity.1.1.2⟩

/-- Without a row for the object version, a storable record is inserted. -/
theorem recordIngestedObject_fresh {records : Records} {record : IngestedObject}
    (storable : record.storable = true) (fresh : ¬ Recorded records record.identity) :
    recordIngestedObject records record = .ok (record :: records) := by
  simp [recordIngestedObject, storable, fresh]

/-- A record that does not fit its columns is rejected. -/
theorem recordIngestedObject_rejected {records : Records} {record : IngestedObject}
    (storable : record.storable = false) : recordIngestedObject records record = .error .data := by
  simp [recordIngestedObject, storable]

/-- An inserted record leaves the pass ready when the unused ids stay unused. -/
theorem handles_of_inserted (ready : Ready services world) {next : World} {record : IngestedObject}
    (same : record.identity = identityOf services stored) (storable : record.storable = true)
    (inserted : next.records = record :: world.records)
    (fresh : ∀ draw, next.drawn ≤ draw → next.shared.jobs (services.uuid4 draw) = none) :
    Handles services world next stored where
  ready := {
    reads := ready.reads
    publishes := ready.publishes
    running := ready.running
    fresh
    distinct := ready.distinct
    stored := by
      intro old member
      rw [inserted] at member
      rcases List.mem_cons.mp member with rfl | member
      · exact storable
      · exact ready.stored old member }
  recorded identity := by
    rw [inserted, recorded_cons, same]
    exact or_comm

/-- A pass inserts one record for an invalid object when its record is storable. -/
theorem recordInvalid_handles (ready : Ready services world) {error : Text}
    (fresh : ¬ Recorded world.records (identityOf services stored))
    (storable : (newRecord (identityOf services stored) (some stored.sizeBytes) .invalid none
      (some error) world.shared.now).storable = true) :
    (recordInvalid services world stored error).1 = .ok {PollResult.zero with invalid := 1} ∧
      Handles services world (recordInvalid services world stored error).2 stored := by
  have inserted := recordIngestedObject_fresh storable fresh
  simp only [recordInvalid, inserted, true_and]
  exact handles_of_inserted ready rfl storable rfl ready.fresh

/-- A pass commits one job with one record for a conversation when both rows are storable. -/
theorem createIngestedJob_handles (ready : Ready services world)
    {conversation : ConversationInput}
    (fresh : ¬ Recorded world.records (identityOf services stored))
    (identity : storableIdentity services stored = true)
    (payload : conversation.normalized.storable = true) :
    (createIngestedJob services world stored conversation).1 =
        .ok {PollResult.zero with ingested := 1} ∧
      Handles services world (createIngestedJob services world stored conversation).2 stored := by
  have rowStorable : (createJob services.sha256 (services.uuid4 world.drawn) world.shared.now
      conversation .s3 services.maxAttempts
      (some (services.store.uri stored.key))).storable = true := by
    simp only [Conversation.storable, Bool.and_eq_true]
    exact ⟨payload, storableText_uri_of_identity identity⟩
  have recordStorable : (newRecord (identityOf services stored) (some stored.sizeBytes) .ingested
      (some (services.uuid4 world.drawn)) none world.shared.now).storable = true := by
    rw [newRecord_storable, identity]
    rfl
  have inserted := recordIngestedObject_fresh recordStorable fresh
  have unused := ready.fresh world.drawn le_rfl
  simp only [createIngestedJob, rowStorable, if_true, Table.insert, unused, Option.isNone_none,
    inserted, publishJob, ready.publishes, true_and]
  refine handles_of_inserted ready rfl recordStorable rfl ?_
  intro draw later
  have different : services.uuid4 draw ≠ services.uuid4 world.drawn := by
    intro same
    have equal := ready.distinct _ _ same
    simp only at later
    omega
  simp only [markEnqueued, Table.updateWhere_other different, Function.update_of_ne different]
  exact ready.fresh draw (Nat.le_of_succ_le later)

/-- An object without a record is looked up in vain when the database accepts its identity. -/
theorem objectAlreadySeen_fresh {identity : Identity}
    (fresh : ¬ Recorded world.records identity) (queryable : identity.queryable = true) :
    objectAlreadySeen world.records identity = .ok false := by
  simp [objectAlreadySeen, fresh, queryable]

theorem queryable_of_storable (identity : storableIdentity services stored = true) :
    (identityOf services stored).queryable = true := by
  simp only [storableIdentity, storableVarchar, Bool.and_eq_true] at identity
  simp only [Identity.queryable, identityOf, Bool.and_eq_true]
  tauto

/-- A new acceptable object gets its record and one count in the result. -/
theorem handle_acceptable (ready : Ready services world)
    (fresh : ¬ Recorded world.records (identityOf services stored))
    (accepted : acceptable services stored = true) :
    ∃ one, (handle services world stored).1 = .ok one ∧ one.discovered = 0 ∧ one.handled = 1 ∧
      Handles services world (handle services world stored).2 stored := by
  obtain ⟨raw, read⟩ := ready.reads stored.key
  simp only [acceptable, acceptableContent, Bool.and_eq_true, read] at accepted
  obtain ⟨identity, content⟩ := accepted
  have unseen := objectAlreadySeen_fresh fresh (queryable_of_storable identity)
  simp only [handle, unseen, read]
  cases parsed : parse services.codec raw with
  | none => simp [parsed] at content
  | some result =>
      cases result with
      | problem text =>
          simp only [parsed] at content
          have nonempty := parse_problem_nonempty parsed
          have storable : (newRecord (identityOf services stored) (some stored.sizeBytes) .invalid
              none (some text) world.shared.now).storable = true := by
            rw [newRecord_storable, identity]
            simp [newRecord, nonempty, content]
          obtain ⟨returned, handles⟩ := recordInvalid_handles ready fresh storable
          exact ⟨_, returned, rfl, rfl, handles⟩
      | conversation conversation =>
          simp only [parsed] at content
          obtain ⟨returned, handles⟩ := createIngestedJob_handles ready fresh identity content
          exact ⟨_, returned, rfl, rfl, handles⟩

/-- An invalid object whose record does not fit raises out of the pass. -/
theorem recordInvalid_raises {error : Text}
    (unstorable : (newRecord (identityOf services stored) (some stored.sizeBytes) .invalid none
      (some error) world.shared.now).storable = false) :
    recordInvalid services world stored error = (.error .data, world) := by
  simp only [recordInvalid, recordIngestedObject_rejected unstorable]

/-- A conversation whose rows do not fit raises out of the pass and commits nothing. -/
theorem createIngestedJob_raises (ready : Ready services world) {conversation : ConversationInput}
    (unstorable : storableIdentity services stored = false ∨
      conversation.normalized.storable = false) :
    (createIngestedJob services world stored conversation).1 = .error .data ∧
      (createIngestedJob services world stored conversation).2.records = world.records := by
  have unused := ready.fresh world.drawn le_rfl
  cases rowStorable : (createJob services.sha256 (services.uuid4 world.drawn) world.shared.now
      conversation .s3 services.maxAttempts
      (some (services.store.uri stored.key))).storable with
  | false => simp [createIngestedJob, rowStorable]
  | true =>
      have payload : conversation.normalized.storable = true := by
        simp only [Conversation.storable, Bool.and_eq_true] at rowStorable
        exact rowStorable.1
      have identity : storableIdentity services stored = false := by
        rcases unstorable with identity | other
        · exact identity
        · rw [payload] at other
          cases other
      have rejected : (newRecord (identityOf services stored) (some stored.sizeBytes) .ingested
          (some (services.uuid4 world.drawn)) none world.shared.now).storable = false := by
        rw [newRecord_storable, identity]
        rfl
      simp [createIngestedJob, rowStorable, Table.insert, unused,
        recordIngestedObject_rejected rejected]

/-- A new object that is not acceptable ends the pass with an exception and gets no record. -/
theorem handle_unacceptable (ready : Ready services world)
    (fresh : ¬ Recorded world.records (identityOf services stored))
    (rejected : acceptable services stored = false) :
    (∃ error, (handle services world stored).1 = .error error) ∧
      (handle services world stored).2.records = world.records := by
  obtain ⟨raw, read⟩ := ready.reads stored.key
  cases queryable : (identityOf services stored).queryable with
  | false => simp [handle, objectAlreadySeen, queryable]
  | true =>
      have unseen := objectAlreadySeen_fresh fresh queryable
      simp only [acceptable, acceptableContent, read, Bool.and_eq_false_iff] at rejected
      simp only [handle, unseen, read]
      cases parsed : parse services.codec raw with
      | none => exact ⟨⟨_, rfl⟩, rfl⟩
      | some result =>
          simp only [parsed] at rejected
          cases result with
          | problem text =>
              have unstorable : (newRecord (identityOf services stored) (some stored.sizeBytes)
                  .invalid none (some text) world.shared.now).storable = false := by
                rw [newRecord_storable, Bool.and_eq_false_iff]
                simpa [newRecord, parse_problem_nonempty parsed] using rejected
              simp [recordInvalid_raises unstorable]
          | conversation conversation =>
              obtain ⟨raised, kept⟩ := createIngestedJob_raises ready rejected
              exact ⟨⟨_, raised⟩, kept⟩

/-- The loop adds the results of the objects that it handles. -/
theorem add_handled (first second : PollResult) :
    (first.add second).handled = first.handled + second.handled := by
  simp only [PollResult.add, PollResult.handled]
  omega

/-- A call for an old or an acceptable object counts it once and leaves its record. -/
theorem handle_counted (ready : Ready services world)
    (accepted : ¬ Recorded world.records (identityOf services stored) →
      acceptable services stored = true) :
    ∃ one next, handle services world stored = (.ok one, next) ∧ one.discovered = 0 ∧
      one.handled = 1 ∧ Ready services next ∧ ∀ identity, (Recorded world.records identity ∨
        identityOf services stored = identity) → Recorded next.records identity := by
  by_cases recorded : Recorded world.records (identityOf services stored)
  · refine ⟨_, world, handle_recorded ready recorded, rfl, rfl, ready, ?_⟩
    intro identity known
    rcases known with old | rfl
    · exact old
    · exact recorded
  · obtain ⟨one, returned, discovered, handled, handles⟩ :=
      handle_acceptable ready recorded (accepted recorded)
    refine ⟨one, (handle services world stored).2, ?_, discovered, handled, handles.ready,
      fun identity => (handles.recorded identity).mpr⟩
    rw [← returned]

/-- The loop reaches its end when every new object is acceptable, and then all have records. -/
theorem handleAll_complete (objects : List StoredObject) (position : Nat) (result : PollResult)
    (ready : Ready services world)
    (accepted : ∀ stored ∈ objects, ¬ Recorded world.records (identityOf services stored) →
      acceptable services stored = true) :
    ∃ final, (handleAll services position result world objects).1 = .ok final ∧
      final.discovered = result.discovered ∧
      final.handled = result.handled + objects.length ∧
      ∀ identity, (Recorded world.records identity ∨
        ∃ stored ∈ objects, identityOf services stored = identity) →
        Recorded (handleAll services position result world objects).2.records identity := by
  induction objects generalizing position result world with
  | nil =>
      refine ⟨result, rfl, rfl, rfl, ?_⟩
      intro identity known
      rcases known with recorded | ⟨_, member, _⟩
      · exact recorded
      · cases member
  | cons stored rest ih =>
      obtain ⟨one, next, called, discovered, handled, later, kept⟩ :=
        handle_counted ready (accepted stored List.mem_cons_self)
      have remaining : ∀ other ∈ rest, ¬ Recorded next.records (identityOf services other) →
          acceptable services other = true := by
        intro other member unrecorded
        apply accepted other (List.mem_cons_of_mem _ member)
        exact fun old => unrecorded (kept _ (.inl old))
      obtain ⟨final, returned, total, count, all⟩ :=
        ih (position + 1) (result.add one) later remaining
      simp only [handleAll, ready.running position, called, Bool.false_eq_true, if_false]
      refine ⟨final, returned, ?_, ?_, ?_⟩
      · rw [total]
        simp [PollResult.add, discovered]
      · rw [count, add_handled, handled, List.length_cons]
        omega
      · rintro identity (old | ⟨other, member, same⟩)
        · exact all identity (.inl (kept identity (.inl old)))
        · rcases List.mem_cons.mp member with rfl | member
          · exact all identity (.inl (kept identity (.inr same)))
          · exact all identity (.inr ⟨other, member, same⟩)

/-- The loop records only acceptable objects of its listing. -/
theorem handleAll_sound (objects : List StoredObject) (position : Nat) (result : PollResult)
    (ready : Ready services world) {identity : Identity}
    (recorded : Recorded (handleAll services position result world objects).2.records identity) :
    Recorded world.records identity ∨ ∃ stored ∈ objects,
      identityOf services stored = identity ∧ acceptable services stored = true := by
  induction objects generalizing position result world with
  | nil => exact .inl recorded
  | cons stored rest ih =>
      have member : stored ∈ stored :: rest := List.mem_cons_self
      simp only [handleAll, ready.running position, Bool.false_eq_true, if_false] at recorded
      by_cases old : Recorded world.records (identityOf services stored)
      · rw [handle_recorded ready old] at recorded
        rcases ih _ _ ready recorded with earlier | ⟨other, later, same, accepted⟩
        · exact .inl earlier
        · exact .inr ⟨other, List.mem_cons_of_mem _ later, same, accepted⟩
      · cases accepted : acceptable services stored with
        | true =>
            obtain ⟨one, returned, _, _, handles⟩ := handle_acceptable ready old accepted
            generalize called : handle services world stored = outcome at *
            obtain ⟨first, next⟩ := outcome
            simp only at returned
            subst returned
            rcases ih _ _ handles.ready recorded with earlier | ⟨other, later, same, accepted⟩
            · rcases (handles.recorded identity).mp earlier with earlier | same
              · exact .inl earlier
              · exact .inr ⟨stored, member, same, accepted⟩
            · exact .inr ⟨other, List.mem_cons_of_mem _ later, same, accepted⟩
        | false =>
            obtain ⟨⟨error, raised⟩, kept⟩ := handle_unacceptable ready old accepted
            generalize called : handle services world stored = outcome at *
            obtain ⟨first, next⟩ := outcome
            simp only at raised
            subst raised
            simp only at recorded kept
            rw [kept] at recorded
            exact .inl recorded

/-- Two listed objects with one identity are the same object. -/
theorem listed_unique {maxKeys : Nat} {objects : List StoredObject} {first second : StoredObject}
    (listed : services.store.listObjects maxKeys = .ok objects) (one : first ∈ objects)
    (other : second ∈ objects) (same : identityOf services first = identityOf services second) :
    first = second := by
  cases reachable : services.store.contents with
  | error text => simp [ObjectStore.listObjects, reachable] at listed
  | ok bucket =>
      rw [ObjectStore.mem_listObjects reachable listed] at one other
      obtain ⟨item, taken, _, rfl⟩ := one
      obtain ⟨twin, alsoTaken, _, rfl⟩ := other
      have key : item.key = twin.key := congrArg Identity.key same
      have found : item ∈ bucket.items := (List.mem_filter.mp (List.mem_of_mem_take taken)).1
      have twinFound : twin ∈ bucket.items :=
        (List.mem_filter.mp (List.mem_of_mem_take alsoTaken)).1
      rw [Bucket.eq_of_key found twinFound key]

/-- An ASCII text is encoded byte by byte. -/
def asciiBytes (text : Text) : Bytes := text.map fun letter => UInt8.ofNat letter.toNat

/-- The object holds one message of a customer with this content, written as JSON. -/
def sampleObject (content : Text) : Bytes :=
  asciiBytes ("\x7b\"messages\":[\x7b\"role\":\"customer\",\"content\":\"".toList ++ content ++
    "\"\x7d]\x7d".toList)

/-- What `json.loads` returns for such an object when its content stands for this character. -/
def sampleJson (code : Nat) : Json :=
  .object [(encodeText "messages".toList, .array [.object
    [(encodeText "role".toList, .string (encodeText "customer".toList)),
      (encodeText "content".toList, .string [code])]])]

/-- The bucket holds an object with a given content and an object with the letter x. -/
def sampleBucket (content : Text) : Bucket where
  items := [⟨"incoming/a".toList, some (sampleObject content).length, some "1".toList⟩,
    ⟨"incoming/b".toList, some (sampleObject "x".toList).length, some "2".toList⟩]
  sorted := by
    have ordered : "incoming/a".toList < "incoming/b".toList := by decide
    exact List.pairwise_pair.mpr ordered

/-- The given content of the first object stands for one character. -/
def sampleServices (content : Text) (code : Nat) : Services where
  store := {
    bucket := "convoscore".toList
    incoming := "incoming/".toList
    contents := .ok (sampleBucket content) }
  readObject key := .ok (if key = "incoming/a".toList then sampleObject content
    else sampleObject "x".toList)
  codec := {
    loads := fun raw => .value (sampleJson (if raw = sampleObject content then code else 120))
    validationText := fun _ => [] }
  sha256 text := text
  maxAttempts := 3
  publish _ := .delivered
  uuid4 draw := draw
  stopping _ := false

/-- A world without any job and any record. -/
def emptyWorld : World := ⟨⟨0, Table.empty, Queue.empty⟩, [], 0⟩

theorem sampleServices_ready (content : Text) (code : Nat) :
    Ready (sampleServices content code) emptyWorld where
  reads _ := ⟨_, rfl⟩
  publishes _ := rfl
  running _ := rfl
  fresh _ _ := rfl
  distinct _ _ same := same
  stored _ member := by cases member

/-- The pass returns normally, counts every listed object once and leaves a record for each. -/
def HandlesAll (services : Services) (world : World) (objects : List StoredObject) : Prop :=
  ∃ result, (pollOnce services world).1 = .ok result ∧ result.discovered = objects.length ∧
    result.discovered = result.handled ∧
    ∀ stored ∈ objects,
      Recorded (pollOnce services world).2.records (identityOf services stored)

/-- A pass handles everything that it lists exactly when every new object is acceptable. -/
theorem pollOnce_handlesAll_iff {objects : List StoredObject} (ready : Ready services world)
    (listed : services.store.listObjects maxListedKeys = .ok objects) :
    HandlesAll services world objects ↔ ∀ stored ∈ objects,
      ¬ Recorded world.records (identityOf services stored) → acceptable services stored = true := by
  have polled : pollOnce services world =
      handleAll services 0 {PollResult.zero with discovered := objects.length} world objects := by
    simp only [pollOnce, listed]
  constructor
  · rintro ⟨result, _, _, _, all⟩ stored member unrecorded
    have recorded := all stored member
    rw [polled] at recorded
    rcases handleAll_sound objects _ _ ready recorded with old | ⟨other, found, same, accepted⟩
    · exact absurd old unrecorded
    · exact listed_unique listed found member same ▸ accepted
  · intro accepted
    obtain ⟨final, returned, discovered, handled, all⟩ :=
      handleAll_complete objects 0 {PollResult.zero with discovered := objects.length} ready accepted
    refine ⟨final, by rw [polled, returned], discovered, ?_, ?_⟩
    · rw [discovered, handled]
      simp [PollResult.handled, PollResult.zero]
    · intro stored member
      rw [polled]
      exact all _ (.inr ⟨stored, member, rfl⟩)

/-- A pass handles two harmless objects. -/
theorem pollOnce_handlesAll_harmless : HandlesAll (sampleServices "y".toList 121) emptyWorld
    [⟨"incoming/a".toList, "1".toList, 48⟩, ⟨"incoming/b".toList, "2".toList, 48⟩] :=
  (pollOnce_handlesAll_iff (sampleServices_ready "y".toList 121) rfl).mpr (by decide)

/-- The object with U+0000 ends the pass, and the acceptable object after it gets no record. -/
theorem poisonedObject_stops_pass : ∃ services world objects stored,
    Ready services world ∧ services.store.listObjects maxListedKeys = .ok objects ∧
    (pollOnce services world).1 = .error .data ∧ stored ∈ objects ∧
    acceptable services stored = true ∧
    ¬ Recorded (pollOnce services world).2.records (identityOf services stored) := by
  refine ⟨sampleServices "\\u0000".toList 0, emptyWorld, _, ⟨"incoming/b".toList, "2".toList, 48⟩,
    sampleServices_ready _ _, rfl, ?_, ?_, ?_, ?_⟩
  · decide
  · decide
  · decide
  · decide

end ConvoScore.Ingest
