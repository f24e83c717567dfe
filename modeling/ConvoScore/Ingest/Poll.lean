import ConvoScore.Api.Submit
import ConvoScore.Ingest.Parse
import ConvoScore.Ingest.Records

namespace ConvoScore.Ingest
open Library

structure PollResult where
  discovered : Nat
  ingested : Nat
  skippedDuplicate : Nat
  invalid : Nat
  failed : Nat
  deriving DecidableEq, Repr

namespace PollResult

def zero : PollResult := ⟨0, 0, 0, 0, 0⟩

def add (first second : PollResult) : PollResult where
  discovered := first.discovered + second.discovered
  ingested := first.ingested + second.ingested
  skippedDuplicate := first.skippedDuplicate + second.skippedDuplicate
  invalid := first.invalid + second.invalid
  failed := first.failed + second.failed

/-- The objects that a pass handled in one way or another. -/
def handled (result : PollResult) : Nat :=
  result.ingested + result.skippedDuplicate + result.invalid + result.failed

end PollResult

/-- These exceptions leave `poll_once`. -/
inductive PollError
  | storageUnavailable (text : Text)
  | recursion
  | data
  deriving DecidableEq

/-- A pass works with the store, the publisher and the settings of its process.
`uuid4` yields a new id at each draw, and `stopping` tells whether a stop was requested
before the object at a position of the listing. -/
structure Services where
  store : ObjectStore
  readObject : Text → Except Text Bytes
  codec : Codec
  sha256 : Text → Text
  maxAttempts : Nat
  publish : Uuid → PublishResult
  uuid4 : Nat → Uuid
  stopping : Nat → Bool

/-- A pass changes the jobs, the queue, the records and the number of ids drawn so far. -/
structure World where
  shared : Shared
  records : Records
  drawn : Nat

/-- The outcome of a call keeps its committed effects even when it raises. -/
abbrev Outcome (Value : Type) := Except PollError Value × World

variable (services : Services)

abbrev identityOf (stored : StoredObject) : Identity := services.store.identity stored

/-- `_record_invalid` ignores a record of another replica. -/
def recordInvalid (world : World) (stored : StoredObject) (error : Text) : Outcome PollResult :=
  let record := newRecord (identityOf services stored) (some stored.sizeBytes) .invalid none
    (some error) world.shared.now
  match recordIngestedObject world.records record with
  | .ok records => (.ok {PollResult.zero with invalid := 1}, {world with records})
  | .error .integrity => (.ok {PollResult.zero with invalid := 1}, world)
  | .error .data => (.error .data, world)

/-- The rest of `_create_job` publishes the committed job and marks its row. -/
def publishJob (world : World) (job : Uuid) : Outcome PollResult :=
  let result := services.publish job
  let queue := result.enqueue world.shared.queue job
  match result with
  | .delivered =>
      (.ok {PollResult.zero with ingested := 1},
        {world with shared := {world.shared with
          queue, jobs := markEnqueued world.shared.now world.shared.jobs job}})
  | .replyLost error | .refused error =>
      (.ok {PollResult.zero with failed := 1},
        {world with shared := {world.shared with
          queue, jobs := markEnqueueFailed world.shared.now world.shared.jobs job error}})

/-- `_create_job` commits the job and its record together or not at all. -/
def createIngestedJob (world : World) (stored : StoredObject) (conversation : ConversationInput) :
    Outcome PollResult :=
  let job := services.uuid4 world.drawn
  let drawn := {world with drawn := world.drawn + 1}
  let row := createJob services.sha256 job world.shared.now conversation .s3 services.maxAttempts
    (some (services.store.uri stored.key))
  let record := newRecord (identityOf services stored) (some stored.sizeBytes) .ingested (some job)
    none world.shared.now
  if row.storable then
    match world.shared.jobs.insert job row, recordIngestedObject world.records record with
    | some jobs, .ok records =>
        publishJob services {drawn with shared := {world.shared with jobs}, records} job
    | some _, .error .data => (.error .data, drawn)
    | _, _ => (.ok {PollResult.zero with skippedDuplicate := 1}, drawn)
  else (.error .data, drawn)

/-- `_handle` turns one listed object into a job or a record, unless it has been seen. -/
def handle (world : World) (stored : StoredObject) : Outcome PollResult :=
  match objectAlreadySeen world.records (identityOf services stored) with
  | .error _ => (.error .data, world)
  | .ok true => (.ok {PollResult.zero with skippedDuplicate := 1}, world)
  | .ok false =>
      match services.readObject stored.key with
      | .error _ => (.ok {PollResult.zero with failed := 1}, world)
      | .ok raw =>
          match parse services.codec raw with
          | none => (.error .recursion, world)
          | some (.problem text) => recordInvalid services world stored text
          | some (.conversation conversation) =>
              createIngestedJob services world stored conversation

/-- The loop of `poll_once` ends at a stop request and at the first exception. -/
def handleAll (position : Nat) (result : PollResult) (world : World) :
    List StoredObject → Outcome PollResult
  | [] => (.ok result, world)
  | stored :: rest =>
      if services.stopping position then (.ok result, world)
      else
        match handle services world stored with
        | (.error error, next) => (.error error, next)
        | (.ok one, next) => handleAll (position + 1) (result.add one) next rest

/-- One pass lists the store and handles every listed object. -/
def pollOnce (world : World) : Outcome PollResult :=
  match services.store.listObjects maxListedKeys with
  | .error text => (.error (.storageUnavailable text), world)
  | .ok objects =>
      handleAll services 0 {PollResult.zero with discovered := objects.length} world objects

end ConvoScore.Ingest
