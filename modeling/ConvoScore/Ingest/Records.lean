import ConvoScore.Ingest.Storage
import ConvoScore.Repository.Columns

namespace ConvoScore

def maxBucketChars : Nat := 255
def maxEtagChars : Nat := 128

namespace Ingest

/-- A violated unique constraint is an `IntegrityError`; a rejected value is a `DataError`. -/
inductive DatabaseError
  | integrity
  | data
  deriving DecidableEq, Repr

/-- The identity of an object version is what the unique constraint covers. -/
structure Identity where
  bucket : Text
  key : Text
  etag : Text
  deriving DecidableEq

def ObjectStore.identity (store : ObjectStore) (stored : StoredObject) : Identity :=
  ⟨store.bucket, stored.key, stored.etag⟩

end Ingest

def IngestedObject.identity (record : IngestedObject) : Ingest.Identity :=
  ⟨record.bucket, record.key, record.etag⟩

/-- Every value of the record fits its column. -/
def IngestedObject.storable (record : IngestedObject) : Bool :=
  storableVarchar maxBucketChars record.bucket && storableText record.key &&
    storableVarchar maxEtagChars record.etag &&
    record.sizeBytes.all (fun size => size < integerBound) && record.error.all storableText

namespace Ingest

/-- The committed rows of `ingested_objects`. -/
abbrev Records := List IngestedObject

def Identity.queryable (identity : Identity) : Bool :=
  storableText identity.bucket && storableText identity.key && storableText identity.etag

/-- The object version has a row. -/
def Recorded (records : Records) (identity : Identity) : Prop :=
  ∃ record ∈ records, record.identity = identity

instance (records : Records) (identity : Identity) : Decidable (Recorded records identity) :=
  inferInstanceAs (Decidable (∃ record ∈ records, record.identity = identity))

/-- The parameters of the query must be texts that the database accepts. -/
def objectAlreadySeen (records : Records) (identity : Identity) : Except DatabaseError Bool :=
  if identity.queryable then .ok (decide (Recorded records identity)) else .error .data

/-- The record that is inserted keeps at most the allowed length of a non-empty error. -/
def newRecord (identity : Identity) (sizeBytes : Option Nat) (status : IngestStatus)
    (conversationId : Option Uuid) (error : Option Text) (clock : Timestamp) : IngestedObject where
  bucket := identity.bucket
  key := identity.key
  etag := identity.etag
  sizeBytes
  conversationId
  status
  error := match error with
    | some text => if text = [] then none else some (truncate text)
    | none => none
  discoveredAt := clock

/-- The insert of `record_ingested_object` and its commit. -/
def recordIngestedObject (records : Records) (record : IngestedObject) :
    Except DatabaseError Records :=
  if record.storable then
    if Recorded records record.identity then .error .integrity else .ok (record :: records)
  else .error .data

variable {records next : Records} {record : IngestedObject} {identity : Identity}

theorem recorded_cons : Recorded (record :: records) identity ↔
    record.identity = identity ∨ Recorded records identity := by
  simp [Recorded]

/-- A successful insert adds one row for an object version that had none. -/
theorem recordIngestedObject_ok (inserted : recordIngestedObject records record = .ok next) :
    record.storable = true ∧ ¬ Recorded records record.identity ∧ next = record :: records := by
  unfold recordIngestedObject at inserted
  split at inserted
  · rename_i storable
    split at inserted
    · cases inserted
    · rename_i fresh
      cases inserted
      exact ⟨storable, fresh, rfl⟩
  · cases inserted

/-- The identities of the rows are distinct, as the unique constraint wants. -/
def DistinctRecords (records : Records) : Prop :=
  (records.map IngestedObject.identity).Nodup

/-- A row of a new object version keeps the identities distinct. -/
theorem distinctRecords_cons (distinct : DistinctRecords records)
    (fresh : ¬ Recorded records record.identity) : DistinctRecords (record :: records) := by
  rw [DistinctRecords, List.map_cons, List.nodup_cons]
  refine ⟨?_, distinct⟩
  intro member
  obtain ⟨other, stored, same⟩ := List.mem_map.mp member
  exact fresh ⟨other, stored, same⟩

end Ingest
end ConvoScore
