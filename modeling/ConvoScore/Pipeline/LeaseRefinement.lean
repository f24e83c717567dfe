import ConvoScore.Library.Lease
import ConvoScore.Pipeline.History

namespace ConvoScore.Pipeline
open Library

/-- The lease of a job reads the row of the job and the open claims of the run. -/
def leaseOf (job : Uuid) (run : History × State) : Lease WorkerId Timestamp where
  now := run.2.shared.now
  available := (run.2.shared.jobs job).any fun row => !row.status.terminal
  lock := (run.2.shared.jobs job).bind (·.lockedUntil)
  held := openClaim run.1 job

/-- A step of the pipeline does one of these things to the lease of a job. -/
inductive LeaseMove (job : Uuid) (run next : History × State) (action : Action) : Prop
  | same (equal : leaseOf job next = leaseOf job run)
  | quiet {event : Lease.Event WorkerId} (quiet : event.Quiet)
      (step : (leaseOf job run).Step event (leaseOf job next))
  | released {id : WorkerId} {attempt : Worker.Attempt} {decision : RetryDecision}
      {error : LLMError} {since start : Timestamp} {row : Conversation}
      (call : action = .worker id (.release start))
      (held : run.2.workers id = .releasing attempt decision error since)
      (target : attempt.job = job) (present : run.2.shared.jobs job = some row)
      (processing : row.status = .processing)
      (step : (leaseOf job run).Step (.release id) (leaseOf job next))
  | closed {id : WorkerId} {call : Worker.Action} {attempt : Worker.Attempt} {result : Jobs × Bool}
      (made : action = .worker id call)
      (finished : Worker.finishing run.2.shared.jobs (run.2.workers id) call =
        some (attempt, result))
      (target : attempt.job = job)
      (step : (leaseOf job run).Step (.close id) (leaseOf job next))
  | shut {start : Timestamp} (call : action = .ingest job (.markEnqueueFailed start))
      (step : (leaseOf job run).Step .shut (leaseOf job next))

variable {env : Environment} {state next : State} {action : Action} {history : History}
  {job : Uuid} {id : WorkerId} {attempt : Worker.Attempt} {expiry : Timestamp}

/-- The lease of a job depends only on its row, on the clock and on its open claims. -/
theorem leaseOf_congr {run later : History × State}
    (row : later.2.shared.jobs job = run.2.shared.jobs job)
    (now : later.2.shared.now = run.2.shared.now)
    (held : openClaim later.1 job = openClaim run.1 job) : leaseOf job later = leaseOf job run := by
  simp only [leaseOf, row, now, held]

/-- Only a worker opens and closes claims. -/
theorem openClaim_unworked (unworked : ∀ id call, action ≠ .worker id call) :
    openClaim (⟨state, action, next⟩ :: history) job = openClaim history job := by
  apply openClaim_kept
  · intro id attempt claimed
    unfold claimOf at claimed
    split at claimed
    · rename_i same
      exact absurd same (unworked _ _)
    · cases claimed
  · intro id attempt finished
    unfold finishOf at finished
    split at finished
    · rename_i same
      exact absurd same (unworked _ _)
    · cases finished

/-- A job that has no row has no open claim either. -/
def ClaimsStored (run : History × State) : Prop :=
  ∀ job id expiry, openClaim run.1 job id = some expiry → (run.2.shared.jobs job).isSome = true

theorem claimsStored_step (consistent : Consistent state) (stored : ClaimsStored (history, state))
    (step : Step env state action next) :
    ClaimsStored (⟨state, action, next⟩ :: history, next) := by
  intro job id expiry opened
  rcases openClaim_source opened with old | ⟨attempt, claimed, rfl, _⟩
  · exact (row_change step job).present (stored job id expiry old)
  · have held := claimOf_phase claimed
    exact (consistent_step consistent step).claimed id attempt (by rw [held]; rfl)

/-- The insertion of an unlocked row offers a lease that nobody holds. -/
theorem lease_inserted {row : Conversation} {run later : History × State}
    (stored : ClaimsStored run) (absent : run.2.shared.jobs job = none)
    (written : later.2.shared.jobs job = some row) (unlocked : row.lockedUntil = none)
    (now : later.2.shared.now = run.2.shared.now)
    (held : openClaim later.1 job = openClaim run.1 job) : LeaseMove job run later action := by
  have unheld : ∀ id, (leaseOf job run).held id = none := by
    intro id
    cases opened : openClaim run.1 job id with
    | none => exact opened
    | some expiry =>
        have present := stored job id expiry opened
        rw [absent] at present
        cases present
  cases ended : row.status.terminal with
  | true =>
      refine .same ?_
      simp [leaseOf, absent, written, unlocked, now, held, ended]
  | false =>
      apply LeaseMove.quiet (show Lease.Event.offer.Quiet from trivial)
      have offered : leaseOf job later =
          {leaseOf job run with available := true, lock := none} := by
        simp [leaseOf, written, unlocked, now, held, ended]
      rw [offered]
      exact .offer unheld

/-- The mark of a delivered message keeps the lease. -/
theorem lease_enqueued {row : Conversation} {start : Timestamp} {run later : History × State}
    (present : run.2.shared.jobs job = some row)
    (written : later.2.shared.jobs job = some (row.withEnqueued start))
    (now : later.2.shared.now = run.2.shared.now)
    (held : openClaim later.1 job = openClaim run.1 job) :
    leaseOf job later = leaseOf job run := by
  simp [leaseOf, present, written, now, held]

/-- The mark of a failed publish shuts the lease and leaves its lock as it is. -/
theorem lease_shut {row : Conversation} {start : Timestamp} {error : Text}
    {run later : History × State} (present : run.2.shared.jobs job = some row)
    (written : later.2.shared.jobs job = some (row.withEnqueueFailed start error))
    (now : later.2.shared.now = run.2.shared.now)
    (held : openClaim later.1 job = openClaim run.1 job) :
    (leaseOf job run).Step .shut (leaseOf job later) := by
  have shut : leaseOf job later = {leaseOf job run with available := false} := by
    simp [leaseOf, present, written, now, held]
  rw [shut]
  exact .shut

/-- A transition that neither claims nor finishes the job keeps its lease when it keeps its row. -/
theorem lease_kept (unclaimed : ∀ id attempt, claimOf ⟨state, action, next⟩ = some (id, attempt) →
      attempt.job ≠ job)
    (unfinished : ∀ id attempt, finishOf ⟨state, action, next⟩ = some (id, attempt) →
      attempt.job ≠ job)
    (row : next.shared.jobs job = state.shared.jobs job)
    (now : next.shared.now = state.shared.now) :
    LeaseMove job (history, state) (⟨state, action, next⟩ :: history, next) action :=
  .same (leaseOf_congr row now (openClaim_kept unclaimed unfinished))

/-- A successful claim acquires the lease of its job. -/
theorem lease_claimed {delivery : Worker.Delivery} {start : Timestamp} {row : Conversation}
    (claimed : claimOf ⟨state, action, next⟩ = some (id, ⟨delivery, expiry⟩))
    (past : start ≤ state.shared.now) (present : state.shared.jobs delivery.job = some row)
    (free : row.claimable start = true)
    (written : next.shared.jobs delivery.job = some (row.withClaim start expiry))
    (now : next.shared.now = state.shared.now) :
    LeaseMove delivery.job (history, state) (⟨state, action, next⟩ :: history, next) action := by
  obtain ⟨unfinished, unlocked⟩ := Conversation.claimable_iff.mp free
  have acquired : leaseOf delivery.job (⟨state, action, next⟩ :: history, next) =
      {leaseOf delivery.job (history, state) with
        lock := some expiry
        held := Function.update (openClaim history delivery.job) id (some expiry)} := by
    have opened : openClaim (⟨state, action, next⟩ :: history) delivery.job = _ :=
      openClaim_claimed claimed
    simp [leaseOf, written, present, unfinished, now, opened]
  apply LeaseMove.quiet (show (Lease.Event.acquire id).Quiet from trivial)
  rw [acquired]
  apply Lease.Step.acquire id start expiry
  · simp [leaseOf, present, unfinished]
  · exact past
  · intro stored locked
    apply unlocked stored
    simpa [leaseOf, present] using locked

/-- A finishing update that changes no row drops the claim of its worker. -/
theorem lease_dropped (unclaimed : claimOf ⟨state, action, next⟩ = none)
    (finished : finishOf ⟨state, action, next⟩ = some (id, attempt))
    (row : next.shared.jobs attempt.job = state.shared.jobs attempt.job)
    (now : next.shared.now = state.shared.now) :
    LeaseMove attempt.job (history, state) (⟨state, action, next⟩ :: history, next) action := by
  have dropped : leaseOf attempt.job (⟨state, action, next⟩ :: history, next) =
      {leaseOf attempt.job (history, state) with
        held := Function.update (openClaim history attempt.job) id none} := by
    simp [leaseOf, row, now, openClaim_finished unclaimed finished]
  apply LeaseMove.quiet (show (Lease.Event.drop id).Quiet from trivial)
  rw [dropped]
  exact .drop id

/-- A finishing update that ends the job closes its lease. -/
theorem lease_closed {row : Conversation} (unclaimed : claimOf ⟨state, action, next⟩ = none)
    (finished : finishOf ⟨state, action, next⟩ = some (id, attempt))
    (written : next.shared.jobs attempt.job = some row) (ended : row.status.terminal = true)
    (unlocked : row.lockedUntil = none) (now : next.shared.now = state.shared.now) :
    (leaseOf attempt.job (history, state)).Step (.close id)
      (leaseOf attempt.job (⟨state, action, next⟩ :: history, next)) := by
  have closed : leaseOf attempt.job (⟨state, action, next⟩ :: history, next) =
      {leaseOf attempt.job (history, state) with
        available := false
        lock := none
        held := Function.update (openClaim history attempt.job) id none} := by
    simp [leaseOf, written, ended, unlocked, now, openClaim_finished unclaimed finished]
  rw [closed]
  exact .close id

/-- A finishing update that releases the job for a retry releases its lease. -/
theorem lease_released {row later : Conversation}
    (unclaimed : claimOf ⟨state, action, next⟩ = none)
    (finished : finishOf ⟨state, action, next⟩ = some (id, attempt))
    (present : state.shared.jobs attempt.job = some row)
    (processing : row.status = .processing)
    (written : next.shared.jobs attempt.job = some later) (waiting : later.status = .pending)
    (unlocked : later.lockedUntil = none) (now : next.shared.now = state.shared.now) :
    (leaseOf attempt.job (history, state)).Step (.release id)
      (leaseOf attempt.job (⟨state, action, next⟩ :: history, next)) := by
  have released : leaseOf attempt.job (⟨state, action, next⟩ :: history, next) =
      {leaseOf attempt.job (history, state) with
        lock := none
        held := Function.update (openClaim history attempt.job) id none} := by
    simp [leaseOf, written, present, processing, waiting, unlocked, now,
      openClaim_finished unclaimed finished]
  rw [released]
  exact .release id

section Worker
variable {call : Worker.Action} {shared : Shared} {phase : Worker.Phase}

/-- A worker step outside a claim and a finishing update keeps every lease. -/
theorem lease_idle (different : ∀ attempt, phase ≠ .claimed attempt)
    (unfinished : Worker.finishing state.shared.jobs (state.workers id) call = none)
    (row : shared.jobs job = state.shared.jobs job) (now : shared.now = state.shared.now) :
    LeaseMove job (history, state)
      (⟨state, .worker id call, state.withWorker shared id phase⟩ :: history,
        state.withWorker shared id phase) (.worker id call) := by
  apply lease_kept
  · simp [claimOf_worker_none different]
  · simp [finishOf_worker_none unfinished]
  · exact row
  · exact now

/-- A finishing update keeps the lease of every job but its own. -/
theorem lease_other {result : Jobs × Bool} (different : ∀ attempt, phase ≠ .claimed attempt)
    (finished : Worker.finishing state.shared.jobs (state.workers id) call =
      some (attempt, result)) (target : attempt.job ≠ job)
    (row : shared.jobs job = state.shared.jobs job) (now : shared.now = state.shared.now) :
    LeaseMove job (history, state)
      (⟨state, .worker id call, state.withWorker shared id phase⟩ :: history,
        state.withWorker shared id phase) (.worker id call) := by
  apply lease_kept
  · simp [claimOf_worker_none different]
  · intro other ended found
    rw [finishOf_worker finished] at found
    cases found
    exact target
  · exact row
  · exact now

/-- A finishing update that changes no row drops one claim and keeps every other lease. -/
theorem lease_missed {result : Jobs × Bool} (different : ∀ attempt, phase ≠ .claimed attempt)
    (finished : Worker.finishing state.shared.jobs (state.workers id) call =
      some (attempt, result)) :
    LeaseMove job (history, state)
      (⟨state, .worker id call, state.withWorker state.shared id phase⟩ :: history,
        state.withWorker state.shared id phase) (.worker id call) := by
  by_cases target : attempt.job = job
  · subst target
    exact lease_dropped (claimOf_worker_none different) (finishOf_worker finished) rfl rfl
  · exact lease_other different finished target rfl rfl

/-- A finishing update that ends the job closes its lease and keeps every other one. -/
theorem lease_ended {result : Jobs × Bool} {row : Conversation}
    (different : ∀ attempt, phase ≠ .claimed attempt)
    (finished : Worker.finishing state.shared.jobs (state.workers id) call =
      some (attempt, result)) (ended : row.status.terminal = true)
    (unlocked : row.lockedUntil = none) :
    let later := state.withWorker (state.shared.write attempt.job row) id phase
    LeaseMove job (history, state) (⟨state, .worker id call, later⟩ :: history, later)
      (.worker id call) := by
  intro later
  by_cases target : attempt.job = job
  · subst target
    exact .closed rfl finished rfl (lease_closed (claimOf_worker_none different)
      (finishOf_worker finished) Shared.write_jobs_self ended unlocked rfl)
  · exact lease_other different finished target (Shared.write_jobs_of_ne (Ne.symm target)) rfl

/-- Every step of a worker refines the lease of every job. -/
theorem lease_worker
    (move : Worker.Move (env.settings id) state.shared (state.workers id) call shared phase) :
    LeaseMove job (history, state)
      (⟨state, .worker id call, state.withWorker shared id phase⟩ :: history,
        state.withWorker shared id phase) (.worker id call) := by
  generalize held : state.workers id = before at move
  cases move with
  | @claimed delivery since start row timed past present free =>
      by_cases target : delivery.job = job
      · subst target
        exact lease_claimed claimOf_worker past present free Shared.write_jobs_self rfl
      · refine lease_kept ?_ ?_ (Shared.write_jobs_of_ne (Ne.symm target)) rfl
        · intro other attempt found
          rw [claimOf_worker] at found
          cases found
          exact target
        · intro other attempt found
          rw [finishOf_worker_none (by rw [held]; rfl)] at found
          cases found
  | @completed attempt outcome since start row timed past present accepted =>
      have finished : Worker.finishing state.shared.jobs (state.workers id) (.complete start) =
          some (attempt, completeJob start state.shared.jobs attempt.job outcome) := by
        rw [held]
        rfl
      exact lease_ended (by simp) finished rfl rfl
  | @released attempt decision error since start row timed past present accepted =>
      have finished : Worker.finishing state.shared.jobs (state.workers id) (.release start) =
          some (attempt, releaseJobForRetry start state.shared.jobs attempt.job
            decision.errorType error.message) := by
        rw [held]
        rfl
      have processing := Conversation.isProcessing_iff.mp accepted
      by_cases target : attempt.job = job
      · subst target
        exact .released rfl held rfl present processing (lease_released
          (claimOf_worker_none (by simp)) (finishOf_worker finished) present processing
          Shared.write_jobs_self rfl rfl rfl)
      · exact lease_other (by simp) finished target
          (Shared.write_jobs_of_ne (Ne.symm target)) rfl
  | @failed attempt decision error since start row timed past present accepted =>
      have finished : Worker.finishing state.shared.jobs (state.workers id) (.fail start) =
          some (attempt, failJob start state.shared.jobs attempt.job
            decision.errorType error.message) := by
        rw [held]
        rfl
      exact lease_ended (by simp) finished rfl rfl
  | lost | releaseMissed | failMissed => exact lease_missed (by simp) (by rw [held]; rfl)
  | abandoned => exact lease_idle (by simp) (Worker.finishing_none (.inl rfl)) rfl rfl
  | crashed => exact lease_idle (by simp) (Worker.finishing_none (.inr rfl)) rfl rfl
  | _ => exact lease_idle (by simp) (by rw [held]; rfl) rfl rfl

end Worker

/-- Every step of the pipeline refines the lease of every job. -/
theorem lease_step (consistent : Consistent state) (stored : ClaimsStored (history, state))
    (step : Step env state action next) :
    LeaseMove job (history, state) (⟨state, action, next⟩ :: history, next) action := by
  cases step with
  | @tick elapsed =>
      apply LeaseMove.quiet (show Lease.Event.wait.Quiet from trivial)
      have waited : leaseOf job (⟨state, .tick elapsed, {state with
          shared := {state.shared with now := state.shared.now + elapsed}}⟩ :: history, {state with
          shared := {state.shared with now := state.shared.now + elapsed}}) =
          {leaseOf job (history, state) with now := state.shared.now + elapsed} := by
        simp only [leaseOf]
        rw [openClaim_unworked (by simp)]
      rw [waited]
      exact .wait _ (Nat.le_add_right _ _)
  | duplicate | foreign | submit =>
      exact .same (leaseOf_congr rfl rfl (openClaim_unworked (by simp)))
  | worker move => exact lease_worker move
  | @api target request after act shared origin move =>
      have held : openClaim (⟨state, .api target act, state.withOrigin shared target (.api after)⟩ ::
          history) job = openClaim history job := openClaim_unworked (by simp)
      by_cases same : job = target
      · subst same
        have unlocked := consistent.unlocked.opened job request
        cases move with
        | committed absent =>
            exact lease_inserted stored absent Shared.write_jobs_self (unlocked _ origin rfl) rfl held
        | rejected absent =>
            exact lease_inserted stored absent Shared.write_jobs_self (unlocked _ origin rfl) rfl held
        | _ => exact .same (leaseOf_congr rfl rfl held)
      · have now : shared.now = state.shared.now := by cases move <;> rfl
        exact .same (leaseOf_congr (api_other move same) now held)
  | @createJob target conversation maxAttempts sourceRef clock unused past absent =>
      by_cases same : job = target
      · subst same
        exact lease_inserted stored absent Shared.write_jobs_self rfl rfl
          (openClaim_unworked (by simp))
      · exact .same (leaseOf_congr (Shared.write_jobs_of_ne same) rfl
          (openClaim_unworked (by simp)))
  | @ingest target publication after act shared origin move =>
      have held : openClaim (⟨state, .ingest target act, state.withOrigin shared target (.s3 after)⟩ ::
          history) job = openClaim history job := openClaim_unworked (by simp)
      cases move with
      | @marked _ start =>
          rcases unguarded_cases state.shared.jobs target (Conversation.withEnqueued start) job with
            same | ⟨_, row, present, written⟩
          · exact .same (leaseOf_congr same rfl held)
          · exact .same (lease_enqueued present written rfl held)
      | @markedFailed error _ start =>
          rcases unguarded_cases state.shared.jobs target
              (Conversation.withEnqueueFailed start error) job with
            same | ⟨rfl, row, present, written⟩
          · exact .same (leaseOf_congr same rfl held)
          · exact .shut rfl (lease_shut present written rfl held)
      | _ => exact .same (leaseOf_congr rfl rfl held)

end ConvoScore.Pipeline
