import ConvoScore.Pipeline.Acknowledgement

namespace ConvoScore.Pipeline
open Library

/-- The committed row of the job is completed or failed. -/
def Finished (state : State) (job : Uuid) : Prop :=
  ∃ row, state.shared.jobs job = some row ∧ row.status.terminal = true

/-- A step that deletes a message of an ingested job finds the job finished,
and so does a step that takes the lost-claim branch. -/
def AcknowledgesFinished : System.Condition State Action :=
  fun before action after => ∀ id message exit job, message.jobId = some job →
    (before.origins job).ingested = true →
    (∀ removed raised, action = .worker id (.delete removed raised) →
      before.workers id = .acknowledging message exit → Finished before job) ∧
    (after.workers id = .acknowledging message .lostClaim → Finished after job)

/-- No `complete_job` finds the row of an ingested job pending again. -/
def CompletesIngested (job : Uuid) : System.Condition State Action :=
  fun before action after => (before.origins job).ingested = true →
    CompletesUnreleased job before action after

variable {env : Environment} {state next : State} {action : Action} {job : Uuid}

/-- A finished job stays finished. -/
theorem finished_step (finished : Finished state job) (step : Step env state action next) :
    Finished next job := by
  obtain ⟨row, present, ended⟩ := finished
  exact (row_change step job).terminal present ended

/-- An ingested job has no request that could have been abandoned. -/
theorem finished_of_settled (ingested : (state.origins job).ingested = true)
    (settled : Settled state job) : Finished state job := by
  rcases settled with finished | ⟨request, origin, _⟩
  · exact finished
  · rw [origin] at ingested
    cases ingested

/-- Workers acknowledge an ingested job only when it is finished. -/
theorem ingested_acknowledgesSettled
    (reached : (system env).Reached (CompletesIngested job) state) :
    (state.origins job).ingested = true → AcknowledgesSettled job state := by
  refine reached.invariantWithin (motive := fun state =>
    (state.origins job).ingested = true → AcknowledgesSettled job state) ?_ ?_
  · rintro _ ⟨now, rfl⟩ ingested
    cases ingested
  · intro before action after earlier settled stepped fine ingested
    have step := step_cases stepped
    have consistent := reached_consistent earlier
    rcases ingested_source step ingested with old | ⟨_, fresh⟩
    · apply acknowledgesSettled_step consistent (settled old) step (fine old)
      intro _ _ request _ _ _ origin
      rw [origin] at old
      cases old
    · intro id message exit held addressed
      have past := (consistent_step consistent step).sent.inHand id message
        (by rw [held]; rfl) job addressed
      rw [fresh] at past
      cases past

/-- A message of an ingested job is acknowledged only when the job is finished. -/
theorem ingested_finished (reached : (system env).Reached (CompletesIngested job) state)
    (ingested : (state.origins job).ingested = true) {id : WorkerId} {message : QueueMessage}
    {exit : Worker.ProcessOutcome} (held : state.workers id = .acknowledging message exit)
    (addressed : message.jobId = some job) : Finished state job :=
  finished_of_settled ingested
    (ingested_acknowledgesSettled reached ingested id message exit held addressed)

/-- A `complete_job` that finds the row pending enters the lost-claim branch. -/
theorem lostClaim_of_pending (stepped : step env state action = some next) {id : WorkerId}
    {attempt : Worker.Attempt} {outcome : ScoringOutcome} {since start : Timestamp}
    {row : Conversation} (call : action = .worker id (.complete start))
    (held : state.workers id = .persisting attempt outcome since)
    (present : state.shared.jobs attempt.job = some row) (waiting : row.status = .pending) :
    next.workers id = .acknowledging attempt.message .lostClaim ∧
      next.shared.jobs attempt.job = some row := by
  subst call
  cases step_cases stepped with
  | worker move =>
      rw [held] at move
      cases move with
      | completed _ _ found accepted =>
          rw [present, Option.some.injEq] at found
          subst found
          simp [waiting] at accepted
      | lost => exact ⟨by simp, present⟩

/-- In every run, the workers acknowledge only finished ingested jobs
exactly when no `complete_job` finds its row pending again. -/
theorem acknowledgesFinished_iff {run : List (System.Taken State Action) × State} :
    (system env).recorded.Reached (System.onStates AcknowledgesFinished) run ↔
      (system env).recorded.Reached
        (System.onStates fun before action after =>
          ∀ job, CompletesIngested job before action after) run := by
  constructor
  · intro reached
    apply reached.convert
    intro before action after _ stepped sound job ingested id attempt outcome since start row call
      held same present waiting
    subst same
    have step := System.recorded_step stepped
    obtain ⟨lost, kept⟩ := lostClaim_of_pending step call held present waiting
    obtain ⟨found, stored, ended⟩ :=
      (sound id attempt.message .lostClaim attempt.job attempt.addressed ingested).2 lost
    rw [kept, Option.some.injEq] at stored
    rw [← stored, waiting] at ended
    cases ended
  · intro reached
    apply reached.convert
    intro before action after earlier stepped fine id message exit job addressed ingested
    have earlier := System.recorded_reached earlier
    have step := System.recorded_step stepped
    have later := earlier.next action step fine
    have weaken : ∀ {state}, (system env).Reached (fun before action after =>
        ∀ job, CompletesIngested job before action after) state →
        (system env).Reached (CompletesIngested job) state :=
      fun reached => reached.weaken fun _ _ _ fine => fine job
    constructor
    · intro removed raised _ held
      exact ingested_finished (weaken earlier) ingested held addressed
    · intro lost
      have still := ingested_step (step_cases step) ingested
      exact ingested_finished (weaken later) still lost addressed

/-- The first worker outlives its claim, and the second one takes the job over and releases it. -/
def overtakenSchedule : List Action :=
  [.createJob 1 .smallest 3 "s3://incoming/a.json".toList 0, .ingest 1 (.publish .delivered),
    .worker 0 (.receive ⟨0, some 1⟩), .worker 0 (.claim 0), .worker 0 .readJob,
    .worker 0 (.score (.outcome .calm)), .tick 90000001,
    .worker 1 (.receive ⟨0, some 1⟩), .worker 1 (.claim 90000001), .worker 1 .readJob,
    .worker 1 (.score (.error (.transient "timeout".toList .timeout) 0)),
    .worker 1 (.release 90000001), .worker 0 (.complete 90000001)]

/-- A worker deletes the only message of an ingested job whose row is pending again. -/
theorem lostClaim_strands_job : ∃ state next id message,
    (system sampleEnvironment).Reached System.anyStep state ∧
    (state.origins 1).ingested = true ∧
    state.workers id = .acknowledging message .lostClaim ∧ message.jobId = some 1 ∧
    (state.shared.jobs 1).map (·.status) = some .pending ∧
    step sampleEnvironment state (.worker id (.delete true false)) = some next ∧
    ¬ next.shared.queue.Holds 1 := by
  have ran : ((system sampleEnvironment).run (initial 0) overtakenSchedule).map (fun state =>
      ((state.origins 1).ingested, (state.workers 0).acknowledged,
        (state.shared.jobs 1).map (·.status),
        state.shared.queue.messages)) =
      some (true, some (⟨0, some 1⟩, .lostClaim), some .pending, [⟨0, some 1⟩]) := by rfl
  obtain ⟨state, path, seen⟩ := System.run_observed System.anyStep ran (fun _ _ _ _ => trivial)
  simp only [Prod.mk.injEq, Worker.Phase.acknowledged_iff] at seen
  obtain ⟨ingested, held, status, messages⟩ := seen
  refine ⟨state, _, 0, _, ⟨_, ⟨0, rfl⟩, path⟩, ingested, held, rfl, status,
    by simp [step, held, Worker.step]; rfl, ?_⟩
  rintro ⟨message, member, _⟩
  simp [Queue.delete, messages] at member

end ConvoScore.Pipeline
