import ConvoScore.Worker.Endings
import ConvoScore.Worker.Recording

namespace ConvoScore
open Library

/-- A claimed row is accepted when the attempt that it counts fits its column. -/
theorem Conversation.withClaim_accepted {row : Conversation} {now expiry : Timestamp}
    (stored : row.accepted = true) (room : row.attemptCount + 1 < integerBound) :
    (row.withClaim now expiry).accepted = true := by
  obtain ⟨input, lifecycle, result⟩ := accepted_iff.mp stored
  refine accepted_iff.mpr ⟨input, ?_, result⟩
  have status := JobStatus.value_accepted .processing
  have counted : storableInteger ((row.attemptCount + 1 : Nat) : Int) = true := by
    simp only [storableInteger, Bool.and_eq_true, decide_eq_true_eq]
    omega
  have positive : decide (0 ≤ ((row.attemptCount + 1 : Nat) : Int)) = true :=
    decide_eq_true (Int.natCast_nonneg _)
  simp only [lifecycleAccepted, Bool.and_eq_true] at lifecycle ⊢
  obtain ⟨⟨_, type⟩, error⟩ := lifecycle
  exact ⟨⟨⟨⟨Bool.and_eq_true_iff.mp status, counted⟩, positive⟩, type⟩, error⟩

namespace Worker.Checked
open Worker.Sequential

/-- A claim raises when the attempt that it counts no longer fits its column. -/
def claimUpdate (now : Timestamp) (jobs : Jobs) (jobId : Uuid) (visibilityTimeoutSeconds : Nat) :
    Option (Jobs × Bool) :=
  jobs.updateChecked jobId (Conversation.claimable now)
    (Conversation.withClaim now (claimExpiry now visibilityTimeoutSeconds)) Conversation.accepted

def claimJob (now : Timestamp) (jobs : Jobs) (jobId : Uuid) (visibilityTimeoutSeconds : Nat) :
    Option (Jobs × ClaimOutcome) :=
  (claimUpdate now jobs jobId visibilityTimeoutSeconds).map fun result =>
    (result.1, if result.2 then .claimed else unclaimedOutcome result.1 jobId)

/-- What a delivery leaves behind; it has no outcome when it raises. -/
structure Left where
  jobs : Jobs
  deleted : Bool
  scored : Bool
  outcome : Option ProcessOutcome

/-- `process` in one go, on a database that checks what it stores. -/
def process (limits : Limits) (jobs : Jobs) (jobId : Option Uuid) (exchange : Exchange) : Left :=
  match jobId with
  | none => ⟨jobs, true, false, some .malformedMessage⟩
  | some jobId =>
      match claimJob exchange.claimedAt jobs jobId limits.visibilityTimeoutSeconds with
      | none => ⟨jobs, false, false, none⟩
      | some (jobs, .notFound) => ⟨jobs, true, false, some .unknownJob⟩
      | some (jobs, .alreadyFinished) => ⟨jobs, true, false, some .duplicateSkipped⟩
      | some (jobs, .heldByAnotherWorker) => ⟨jobs, false, false, some .heldByAnotherWorker⟩
      | some (jobs, .claimed) =>
          match scoreAndPersist limits jobs jobId exchange with
          | some ran => ⟨ran.jobs, ran.deleted, ran.scored, some ran.outcome⟩
          -- the claim was committed before the call, and nothing deletes the message
          | none => ⟨jobs, false, true, none⟩

/-- A delivery that raises keeps its message in the queue. -/
def next (limits : Limits) (jobId : Uuid) (exchanges : Nat → Exchange) (before : Progress) :
    Progress :=
  if before.queued then
    let left := process limits before.jobs (some jobId) (exchanges before.deliveries)
    ⟨left.jobs, !left.deleted, before.deliveries + 1, before.calls + if left.scored then 1 else 0⟩
  else before

/-- The queue delivers the message until it is deleted, at most so many times. -/
def redeliver (limits : Limits) (jobs : Jobs) (jobId : Uuid) (exchanges : Nat → Exchange) :
    Nat → Progress
  | 0 => ⟨jobs, true, 0, 0⟩
  | count + 1 => next limits jobId exchanges (redeliver limits jobs jobId exchanges count)

variable {limits : Limits} {jobs : Jobs} {job : Uuid} {exchange : Exchange} {ran : Ran}
  {row : Conversation} {exchanges : Nat → Exchange}

/-- The table accepts the row of the job. -/
def Stored (jobs : Jobs) (job : Uuid) : Prop := ∀ row, jobs job = some row → row.accepted = true

theorem stored_of_row (present : jobs job = some row) (accepted : row.accepted = true) :
    Stored jobs job := by
  intro other held
  rw [present, Option.some.injEq] at held
  exact held ▸ accepted

/-- On a live claim that the table accepts, an answer that can be recorded leaves what it leaves
without the checks. -/
theorem scoreAndPersist_stored (present : jobs job = some row) (claimed : row.status = .processing)
    (accepted : row.accepted = true) (recordable : exchange.reply.recordable = true) :
    let ran := Sequential.scoreAndPersist limits jobs job exchange
    scoreAndPersist limits jobs job exchange = some ran ∧ Stored ran.jobs job := by
  intro ran
  obtain ⟨recorded, final, persisted, written, kept, _⟩ :=
    @scoreAndPersist_recorded limits jobs job exchange row present claimed accepted recordable
  have same : ran = recorded := scoreAndPersist_refines persisted
  rw [same]
  exact ⟨persisted, stored_of_row written kept⟩

/-- A delivery of a waiting job whose answer can be recorded meets no check that fails. -/
theorem process_recorded {attempts : Nat} (waiting : Waiting jobs job attempts)
    (stored : Stored jobs job) (room : attempts + 1 < integerBound)
    (recordable : exchange.reply.recordable = true) :
    let ran := Sequential.process limits jobs (some job) exchange
    process limits jobs (some job) exchange =
        ⟨ran.jobs, ran.deleted, ran.scored, some ran.outcome⟩ ∧ Stored ran.jobs job := by
  intro ran
  obtain ⟨row, present, status, unlocked, rfl⟩ := waiting
  let claimed := row.withClaim exchange.claimedAt
    (claimExpiry exchange.claimedAt limits.visibilityTimeoutSeconds)
  let claimedJobs := Function.update jobs job (some claimed)
  have accepted : claimed.accepted = true :=
    Conversation.withClaim_accepted (stored row present) room
  have found : claimedJobs job = some claimed := Function.update_self ..
  have free : row.claimable exchange.claimedAt = true := by
    simp [Conversation.claimable, status, unlocked, JobStatus.unfinished]
  have claims : claimJob exchange.claimedAt jobs job limits.visibilityTimeoutSeconds =
      some (claimedJobs, .claimed) := by
    rw [claimJob, claimUpdate, Table.updateChecked_accepts present free, if_pos accepted]
    rfl
  obtain ⟨persisted, kept⟩ :=
    @scoreAndPersist_stored limits claimedJobs job exchange claimed found rfl accepted recordable
  have same : ran = Sequential.scoreAndPersist limits claimedJobs job exchange :=
    process_waiting present status unlocked
  rw [same, process]
  simp only [claims, persisted, true_and]
  exact kept

/-- As long as every answer can be recorded, the checks make no difference to the deliveries. -/
theorem redeliver_recorded (positive : 1 ≤ limits.maxAttempts)
    (capped : limits.maxAttempts < integerBound) (fresh : Waiting jobs job 0)
    (stored : Stored jobs job) {count : Nat}
    (recordable : ∀ index < count, (exchanges index).reply.recordable = true) :
    redeliver limits jobs job exchanges count =
        Sequential.redeliver limits jobs job exchanges count ∧
      Stored (Sequential.redeliver limits jobs job exchanges count).jobs job := by
  induction count with
  | zero => exact ⟨rfl, stored⟩
  | succ count ih =>
      obtain ⟨same, kept⟩ := ih fun index earlier => recordable index (Nat.lt_succ_of_lt earlier)
      rw [redeliver, same, Sequential.redeliver]
      cases redeliver_delivered positive fresh exchanges count with
      | waiting queued deliveries _ row below =>
          obtain ⟨plain, later⟩ := @process_recorded limits _ job (exchanges count) _ row kept
            (Nat.lt_of_le_of_lt (Nat.succ_le_of_lt below) capped)
            (recordable count (Nat.lt_succ_self count))
          simp only [next, Progress.next, queued, if_true, deliveries, plain, true_and]
          exact later
      | ended deleted =>
          simp only [next, Progress.next, deleted, Bool.false_eq_true, if_false, true_and]
          exact kept

/-- The new row of the sample is one that the table accepts. -/
theorem sampleJobs_stored : Stored sampleJobs 1 :=
  stored_of_row (Function.update_self ..) (by decide)

end Worker.Checked
end ConvoScore
