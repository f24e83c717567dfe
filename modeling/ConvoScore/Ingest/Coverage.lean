import ConvoScore.Ingest.Isolation

namespace ConvoScore.Ingest
open Library

variable {services : Services} {world : World} {stored : StoredObject}

/-- A call leaves the records alone or adds one record of its object. -/
def AddsAtMost (services : Services) (stored : StoredObject) (world next : World) : Prop :=
  next.records = world.records ∨
    ∃ record, record.identity = identityOf services stored ∧ next.records = record :: world.records

/-- An identity that a call adds belongs to its object. -/
theorem AddsAtMost.recorded {next : World} {identity : Identity}
    (added : AddsAtMost services stored world next) (recorded : Recorded next.records identity) :
    Recorded world.records identity ∨ identityOf services stored = identity := by
  rcases added with same | ⟨record, own, inserted⟩
  · rw [same] at recorded
    exact .inl recorded
  · rw [inserted, recorded_cons, own] at recorded
    exact recorded.symm

theorem recordInvalid_addsAtMost (error : Text) :
    AddsAtMost services stored world (recordInvalid services world stored error).2 := by
  simp only [recordInvalid]
  split
  · rename_i records inserted
    obtain ⟨_, _, rfl⟩ := recordIngestedObject_ok inserted
    exact .inr ⟨_, rfl, rfl⟩
  · exact .inl rfl
  · exact .inl rfl

/-- The publication of a job touches no record. -/
theorem publishJob_records (job : Uuid) :
    (publishJob services world job).2.records = world.records := by
  simp only [publishJob]
  split <;> rfl

theorem createIngestedJob_addsAtMost (conversation : ConversationInput) :
    AddsAtMost services stored world
      (createIngestedJob services world stored conversation).2 := by
  simp only [createIngestedJob]
  split
  · split
    · rename_i jobs records _ inserted
      obtain ⟨_, _, rfl⟩ := recordIngestedObject_ok inserted
      exact .inr ⟨_, rfl, publishJob_records _⟩
    · exact .inl rfl
    · exact .inl rfl
  · exact .inl rfl

/-- One handled object adds at most its own record, whatever fails on the way. -/
theorem handle_addsAtMost : AddsAtMost services stored world (handle services world stored).2 := by
  unfold handle
  split
  · exact .inl rfl
  · exact .inl rfl
  · split
    · exact .inl rfl
    · split
      · exact .inl rfl
      · exact recordInvalid_addsAtMost _
      · exact createIngestedJob_addsAtMost _

/-- The loop records only objects of its listing. -/
theorem handleAll_records (objects : List StoredObject) (position : Nat) (result : PollResult)
    {identity : Identity}
    (recorded : Recorded (handleAll services position result world objects).2.records identity) :
    Recorded world.records identity ∨ ∃ stored ∈ objects, identityOf services stored = identity := by
  induction objects generalizing position result world with
  | nil => exact .inl recorded
  | cons stored rest ih =>
      have added : AddsAtMost services stored world (handle services world stored).2 :=
        handle_addsAtMost
      have first : ∀ next, (handle services world stored).2 = next →
          Recorded next.records identity → Recorded world.records identity ∨
            ∃ other ∈ stored :: rest, identityOf services other = identity := by
        rintro next rfl known
        rcases added.recorded known with old | own
        · exact .inl old
        · exact .inr ⟨stored, List.mem_cons_self, own⟩
      simp only [handleAll] at recorded
      split at recorded
      · exact .inl recorded
      · split at recorded
        · rename_i error next called
          exact first next (by rw [called]) recorded
        · rename_i one next called
          rcases ih _ _ recorded with earlier | ⟨other, later, same⟩
          · exact first next (by rw [called]) earlier
          · exact .inr ⟨other, List.mem_cons_of_mem _ later, same⟩

/-- A pass records only candidates among the first keys of the prefix. -/
theorem pollOnce_records {bucket : Bucket} {identity : Identity}
    (reachable : services.store.contents = .ok bucket)
    (recorded : Recorded (pollOnce services world).2.records identity) :
    Recorded world.records identity ∨
      ∃ item ∈ (services.store.incomingItems bucket).take maxListedKeys,
        identityOf services item.stored = identity := by
  cases listed : services.store.listObjects maxListedKeys with
  | error text =>
      rw [pollOnce, listed] at recorded
      exact .inl recorded
  | ok objects =>
      rw [pollOnce, listed] at recorded
      rcases handleAll_records objects _ _ recorded with old | ⟨stored, member, same⟩
      · exact .inl old
      · obtain ⟨item, taken, _, rfl⟩ := (ObjectStore.mem_listObjects reachable listed).mp member
        exact .inr ⟨item, taken, same⟩

/-- The first keys of the prefix belong to the prefix. -/
theorem mem_items_of_incoming {bucket : Bucket} {item : Item}
    (incoming : item ∈ services.store.incomingItems bucket) : item ∈ bucket.items :=
  (List.mem_filter.mp incoming).1

/-- Two items of the prefix with one identity are the same item. -/
theorem incoming_unique {bucket : Bucket} {first second : Item}
    (one : first ∈ services.store.incomingItems bucket)
    (other : second ∈ services.store.incomingItems bucket)
    (same : identityOf services first.stored = identityOf services second.stored) :
    first = second :=
  Bucket.eq_of_key (mem_items_of_incoming one) (mem_items_of_incoming other)
    (congrArg Identity.key same)

/-- The ingestor polls an unchanged bucket this many times. -/
def polls (services : Services) (world : World) : Nat → World
  | 0 => world
  | count + 1 => (pollOnce services (polls services world count)).2

/-- An object behind the first keys never gets a record, however often the ingestor polls. -/
theorem polls_starve {bucket : Bucket} {item : Item}
    (reachable : services.store.contents = .ok bucket)
    (incoming : item ∈ services.store.incomingItems bucket)
    (late : item ∉ (services.store.incomingItems bucket).take maxListedKeys)
    (unrecorded : ¬ Recorded world.records (identityOf services item.stored)) (count : Nat) :
    ¬ Recorded (polls services world count).records (identityOf services item.stored) := by
  induction count with
  | zero => exact unrecorded
  | succ count ih =>
      intro recorded
      rcases pollOnce_records reachable recorded with old | ⟨other, taken, same⟩
      · exact ih old
      · obtain rfl := incoming_unique (List.mem_of_mem_take taken) incoming same
        exact late taken

/-- Every candidate under the prefix has a record after the pass. -/
def Covers (services : Services) (world : World) (bucket : Bucket) : Prop :=
  ∀ item ∈ services.store.incomingItems bucket, item.candidate = true →
    Recorded (pollOnce services world).2.records (identityOf services item.stored)

/-- A pass covers the prefix exactly when every new candidate is among the first keys
and acceptable. -/
theorem pollOnce_covers_iff {bucket : Bucket} (ready : Ready services world)
    (reachable : services.store.contents = .ok bucket) :
    Covers services world bucket ↔
      ∀ item ∈ services.store.incomingItems bucket, item.candidate = true →
        ¬ Recorded world.records (identityOf services item.stored) →
        item ∈ (services.store.incomingItems bucket).take maxListedKeys ∧
          acceptable services item.stored = true := by
  obtain ⟨objects, listed⟩ : ∃ objects,
      services.store.listObjects maxListedKeys = .ok objects := by
    rw [ObjectStore.listObjects, reachable]
    exact ⟨_, rfl⟩
  have polled : pollOnce services world =
      handleAll services 0 {PollResult.zero with discovered := objects.length} world objects := by
    simp only [pollOnce, listed]
  constructor
  · intro covers item incoming candidate unrecorded
    have recorded := covers item incoming candidate
    rw [polled] at recorded
    rcases handleAll_sound objects _ _ ready recorded with old | ⟨stored, member, same, accepted⟩
    · exact absurd old unrecorded
    · obtain ⟨other, taken, _, rfl⟩ := (ObjectStore.mem_listObjects reachable listed).mp member
      obtain rfl := incoming_unique (List.mem_of_mem_take taken) incoming same
      exact ⟨taken, accepted⟩
  · intro condition item incoming candidate
    have accepted : ∀ stored ∈ objects, ¬ Recorded world.records (identityOf services stored) →
        acceptable services stored = true := by
      intro stored member unrecorded
      obtain ⟨other, taken, chosen, rfl⟩ := (ObjectStore.mem_listObjects reachable listed).mp member
      exact (condition other (List.mem_of_mem_take taken) chosen unrecorded).2
    obtain ⟨_, _, _, _, all⟩ := handleAll_complete objects 0
      {PollResult.zero with discovered := objects.length} ready accepted
    rw [polled]
    by_cases old : Recorded world.records (identityOf services item.stored)
    · exact all _ (.inl old)
    · have taken := (condition item incoming candidate old).1
      have member := (ObjectStore.mem_listObjects reachable listed).mpr ⟨item, taken, candidate, rfl⟩
      exact all _ (.inr ⟨item.stored, member, rfl⟩)

/-- A pass covers a prefix with two harmless objects. -/
theorem pollOnce_covers_harmless :
    Covers (sampleServices "y".toList 121) emptyWorld (sampleBucket "y".toList) :=
  (pollOnce_covers_iff (sampleServices_ready "y".toList 121) rfl).mpr (by decide +kernel)

/-- The keys under the prefix that differ in their length only. -/
def crowdedKey (position : Nat) : Text :=
  "incoming/a".toList ++ List.replicate position 'a'

theorem crowdedKey_length (position : Nat) : (crowdedKey position).length = position + 10 := by
  have first : "incoming/a".toList.length = 10 := by decide
  unfold crowdedKey
  rw [List.length_append, List.length_replicate, first, Nat.add_comm]

/-- A longer key of this kind comes later in the listing. -/
theorem crowdedKey_lt {first second : Nat} (before : first < second) :
    crowdedKey first < crowdedKey second := by
  obtain ⟨gap, rfl⟩ := Nat.exists_eq_add_of_lt before
  have longer : crowdedKey (first + gap + 1) =
      crowdedKey first ++ 'a' :: List.replicate gap 'a' := by
    unfold crowdedKey
    rw [List.append_assoc, ← List.replicate_succ, List.replicate_append_replicate, Nat.add_assoc]
  have later : crowdedKey first ++ [] < crowdedKey first ++ 'a' :: List.replicate gap 'a' :=
    List.append_left_lt (List.nil_lt_cons 'a' _)
  rw [longer]
  rw [List.append_nil] at later
  exact later

def crowdedItem (position : Nat) : Item := ⟨crowdedKey position, some 48, some "1".toList⟩

/-- This many objects precede the last object of the bucket. -/
def crowdedBucket (last : Nat) : Bucket where
  items := (List.range (last + 1)).map crowdedItem
  sorted := by
    rw [List.pairwise_map]
    exact List.pairwise_lt_range.imp crowdedKey_lt

def crowdedServices (last : Nat) : Services :=
  let services := sampleServices "x".toList 120
  {services with
    store := {services.store with contents := .ok (crowdedBucket last)}
    readObject := fun _ => .ok (sampleObject "x".toList)}

theorem crowdedServices_ready (last : Nat) : Ready (crowdedServices last) emptyWorld where
  reads _ := ⟨_, rfl⟩
  publishes _ := rfl
  running _ := rfl
  fresh _ _ := rfl
  distinct _ _ same := same
  stored _ member := by cases member

/-- Every object of the crowded bucket lies under the prefix. -/
theorem crowdedServices_incoming (last : Nat) :
    (crowdedServices last).store.incomingItems (crowdedBucket last) =
      (List.range (last + 1)).map crowdedItem := by
  rw [ObjectStore.incomingItems, crowdedBucket, List.filter_eq_self]
  intro item member
  obtain ⟨position, _, rfl⟩ := List.mem_map.mp member
  exact List.isPrefixOf_iff_prefix.mpr (List.prefix_append _ _)

/-- The last object of the crowded bucket is not among the keys before it. -/
theorem crowdedItem_late (last : Nat) :
    crowdedItem last ∉ ((List.range (last + 1)).map crowdedItem).take last := by
  intro member
  rw [← List.map_take, List.take_range] at member
  obtain ⟨position, early, same⟩ := List.mem_map.mp member
  have keys : crowdedKey position = crowdedKey last := congrArg Item.key same
  have lengths := congrArg List.length keys
  rw [crowdedKey_length, crowdedKey_length] at lengths
  have bound := List.mem_range.mp early
  omega

/-- The last object of the crowded bucket carries a conversation. -/
theorem crowdedItem_candidate (last : Nat) : (crowdedItem last).candidate = true := by
  have letter : (crowdedKey last).getLast? = some 'a' := by
    unfold crowdedKey
    rw [List.getLast?_append, List.getLast?_replicate]
    split
    · decide
    · rfl
  simp [Item.candidate, Item.placeholder, crowdedItem, letter]

/-- The parser and the database accept every object of the crowded bucket. -/
theorem crowdedItem_acceptable (last : Nat) :
    acceptable (crowdedServices last) (crowdedItem last).stored = true := by
  have key : storableText (crowdedKey last) = true := by
    have start : storableText "incoming/a".toList = true := by decide
    unfold crowdedKey
    rw [storableText_append, start, Bool.true_and, storableText, List.all_replicate]
    split
    · rfl
    · decide
  have bucket : storableVarchar maxBucketChars "convoscore".toList = true := by decide
  have etag : storableVarchar maxEtagChars (stripQuotes "1".toList) = true := by decide
  have identity : storableIdentity (crowdedServices last) (crowdedItem last).stored = true := by
    rw [storableIdentity, Bool.and_eq_true, Bool.and_eq_true, Bool.and_eq_true]
    exact ⟨⟨⟨bucket, key⟩, etag⟩, rfl⟩
  rw [acceptable, identity, Bool.true_and]
  show acceptableContent (sampleServices "x".toList 120).codec (sampleObject "x".toList) = true
  decide

/-- An acceptable candidate behind a thousand others never gets a record. -/
theorem crowdedObject_starves : ∃ services world bucket item,
    Ready services world ∧ services.store.contents = .ok bucket ∧
    item ∈ services.store.incomingItems bucket ∧ item.candidate = true ∧
    acceptable services item.stored = true ∧
    ∀ count, ¬ Recorded (polls services world count).records (identityOf services item.stored) := by
  have incoming : crowdedItem maxListedKeys ∈
      (crowdedServices maxListedKeys).store.incomingItems (crowdedBucket maxListedKeys) := by
    rw [crowdedServices_incoming]
    exact List.mem_map_of_mem List.self_mem_range_succ
  have late : crowdedItem maxListedKeys ∉ ((crowdedServices maxListedKeys).store.incomingItems
      (crowdedBucket maxListedKeys)).take maxListedKeys := by
    rw [crowdedServices_incoming]
    exact crowdedItem_late _
  have unrecorded : ¬ Recorded emptyWorld.records
      (identityOf (crowdedServices maxListedKeys) (crowdedItem maxListedKeys).stored) := by
    rintro ⟨record, member, _⟩
    cases member
  exact ⟨crowdedServices maxListedKeys, emptyWorld, crowdedBucket maxListedKeys,
    crowdedItem maxListedKeys, crowdedServices_ready _, rfl, incoming, crowdedItem_candidate _,
    crowdedItem_acceptable _, polls_starve rfl incoming late unrecorded⟩

end ConvoScore.Ingest
