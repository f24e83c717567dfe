import ConvoScore.Pipeline.Ledger

namespace ConvoScore.Pipeline
open Library

/-- No `claim_job` takes the job over from an attempt that recorded nothing once the cap is used
up, and no `release_job_for_retry` of a worker that lost its claim finds the cap used up. -/
def CapGuarded (job : Uuid) : System.Condition (History × State) Action :=
  fun before action _ => ∀ row, before.2.shared.jobs job = some row → row.status = .processing →
    (∀ id start message since, action = .worker id (.claim start) →
      before.2.workers id = .received message since → message.jobId = some job →
      row.claimable start = true → row.attemptCount < row.maxAttempts) ∧
    (∀ id start attempt decision error since, action = .worker id (.release start) →
      before.2.workers id = .releasing attempt decision error since → attempt.job = job →
      latestClaimer before.1 job ≠ some id → row.attemptCount < row.maxAttempts)

/-- Below its cap a job may be attempted again; a pending row always is. -/
structure Capped (cap : Nat) (job : Uuid) (history : History) (state : State) : Prop where
  rows : ∀ row, state.shared.jobs job = some row → row.maxAttempts = cap →
    row.attemptCount ≤ cap ∧ (row.status = .pending → row.attemptCount < cap)
  scoring : ∀ id attempt read row, latestClaimer history job = some id →
    state.workers id = .scoring attempt read → attempt.job = job →
    state.shared.jobs job = some row → read.attemptCount = row.attemptCount
  releasing : ∀ id attempt decision error since row, latestClaimer history job = some id →
    state.workers id = .releasing attempt decision error since → attempt.job = job →
    state.shared.jobs job = some row → row.attemptCount < cap

variable {env : Environment} {state next : State} {action : Action} {job : Uuid} {cap : Nat}
  {history : History}

/-- A worker that has just claimed the job has not called its provider. -/
theorem claimerOf_phase {taken : System.Taken State Action} {id : WorkerId}
    (claimed : claimerOf job taken = some id) : Unscored job (taken.after.workers id) := by
  unfold claimerOf at claimed
  split at claimed
  · rename_i found
    split at claimed
    · rename_i same
      cases claimed
      exact ⟨_, claimOf_phase found, same⟩
    · cases claimed
  · cases claimed

/-- A step without a claim on the job keeps the number of its attempts. -/
theorem unclaimed_attempts (drafts : DraftRows env state) (step : Step env state action next)
    (unclaimed : claimerOf job ⟨state, action, next⟩ = none) {before row : Conversation}
    (found : state.shared.jobs job = some before) (present : next.shared.jobs job = some row) :
    row.attemptCount = before.attemptCount := by
  have change := unclaimed_change drafts step unclaimed
  rw [found, present, unclaimed] at change
  cases change with
  | kept same => exact same

/-- Where its latest claimer has gone on, the job was claimed before this transition. -/
theorem latestClaimer_earlier {id : WorkerId}
    (latest : latestClaimer (⟨state, action, next⟩ :: history) job = some id)
    (busy : ∀ attempt, next.workers id ≠ .claimed attempt) :
    claimerOf job ⟨state, action, next⟩ = none ∧ latestClaimer history job = some id := by
  cases claimer : claimerOf job ⟨state, action, next⟩ with
  | some claimer =>
      rw [latestClaimer_claimed claimer, Option.some.injEq] at latest
      subst latest
      obtain ⟨attempt, entered, _⟩ := claimerOf_phase claimer
      exact absurd entered (busy attempt)
  | none =>
      rw [latestClaimer_unclaimed claimer] at latest
      exact ⟨rfl, latest⟩

/-- A claim and a release leave the row within its cap. -/
theorem capped_rows (positive : 1 ≤ cap) (drafts : DraftRows env state)
    (capped : Capped cap job history state) (step : Step env state action next)
    (fine : CapGuarded job (history, state) action (⟨state, action, next⟩ :: history, next))
    {row : Conversation} (present : next.shared.jobs job = some row)
    (same : row.maxAttempts = cap) :
    row.attemptCount ≤ cap ∧ (row.status = .pending → row.attemptCount < cap) := by
  cases row_change step job with
  | kept equal => exact capped.rows row (equal ▸ present) same
  | @submitted _ draft origin opened _ written =>
      rw [written, Option.some.injEq] at present
      subst present
      rw [(drafts.submitted origin opened).attemptCount]
      exact ⟨Nat.zero_le _, fun _ => positive⟩
  | created _ _ written =>
      rw [written, Option.some.injEq] at present
      subst present
      exact ⟨Nat.zero_le _, fun _ => positive⟩
  | @claimed id delivery since start _ before phase target _ _ found free written =>
      rw [written, Option.some.injEq] at present
      subst present
      have cap_eq : before.maxAttempts = cap := same
      have below : before.attemptCount < cap := by
        cases status : before.status with
        | pending => exact (capped.rows before found cap_eq).2 status
        | processing =>
            have taken := (fine before found status).1 id start delivery.message since rfl phase
            rw [← cap_eq]
            exact taken (target ▸ delivery.addressed) free
        | completed | failed =>
            have unfinished := (Conversation.claimable_iff.mp free).1
            rw [status] at unfinished
            cases unfinished
      refine ⟨below, ?_⟩
      intro waiting
      cases waiting
  | @released id attempt decision error since start before phase target found accepted written =>
      rw [written, Option.some.injEq] at present
      subst present
      have cap_eq : before.maxAttempts = cap := same
      have below : before.attemptCount < cap := by
        by_cases latest : latestClaimer history job = some id
        · exact capped.releasing id attempt decision error since before latest phase target found
        · rw [← cap_eq]
          exact (fine before found accepted).2 id start attempt decision error since rfl phase
            target latest
      exact ⟨Nat.le_of_lt below, fun _ => below⟩
  | @completed _ _ _ _ _ before _ _ found _ written | @failed _ _ _ _ _ _ before _ _ found _ written
  | @enqueueFailed _ _ before found written =>
      rw [written, Option.some.injEq] at present
      subst present
      refine ⟨(capped.rows before found same).1, ?_⟩
      intro waiting
      cases waiting
  | @enqueued _ before found written =>
      rw [written, Option.some.injEq] at present
      subst present
      exact capped.rows before found same

/-- A worker without a takeover scores the row with its present number of attempts. -/
theorem capped_scoring (consistent : Consistent state) (drafts : DraftRows env state)
    (capped : Capped cap job history state) (step : Step env state action next) {id : WorkerId}
    {attempt : Worker.Attempt} {read row : Conversation}
    (latest : latestClaimer (⟨state, action, next⟩ :: history) job = some id)
    (held : next.workers id = .scoring attempt read) (same : attempt.job = job)
    (present : next.shared.jobs job = some row) : read.attemptCount = row.attemptCount := by
  obtain ⟨unclaimed, earlier⟩ := latestClaimer_earlier latest (by simp [held])
  rcases worker_source step id with unmoved | ⟨_, _, move⟩
  · rw [unmoved] at held
    obtain ⟨before, found⟩ := inWindow_row consistent (by rw [held]; rfl) same
    rw [unclaimed_attempts drafts step unclaimed found present]
    exact capped.scoring id attempt read before earlier held same found
  · have found := move.scoring_source held
    rw [same] at found
    exact (unclaimed_attempts drafts step unclaimed found present).symm

theorem capped_releasing (settings : ∀ id, (env.settings id).maxAttempts = cap)
    (consistent : Consistent state) (drafts : DraftRows env state)
    (capped : Capped cap job history state) (step : Step env state action next) {id : WorkerId}
    {attempt : Worker.Attempt} {decision : RetryDecision} {error : LLMError} {since : Timestamp}
    {row : Conversation} (latest : latestClaimer (⟨state, action, next⟩ :: history) job = some id)
    (held : next.workers id = .releasing attempt decision error since) (same : attempt.job = job)
    (present : next.shared.jobs job = some row) : row.attemptCount < cap := by
  obtain ⟨unclaimed, earlier⟩ := latestClaimer_earlier latest (by simp [held])
  rcases worker_source step id with unmoved | ⟨_, _, move⟩
  · rw [unmoved] at held
    obtain ⟨before, found⟩ := inWindow_row consistent (by rw [held]; rfl) same
    rw [unclaimed_attempts drafts step unclaimed found present]
    exact capped.releasing id attempt decision error since before earlier held same found
  · obtain ⟨read, _, scoring, _, below⟩ := move.releasing_source held
    obtain ⟨before, found⟩ := inWindow_row consistent (by rw [scoring]; rfl) same
    rw [unclaimed_attempts drafts step unclaimed found present,
      ← capped.scoring id attempt read before earlier scoring same found, ← settings id]
    exact below

theorem capped_step (positive : 1 ≤ cap) (settings : ∀ id, (env.settings id).maxAttempts = cap)
    (consistent : Consistent state) (drafts : DraftRows env state)
    (capped : Capped cap job history state) (step : Step env state action next)
    (fine : CapGuarded job (history, state) action (⟨state, action, next⟩ :: history, next)) :
    Capped cap job (⟨state, action, next⟩ :: history) next where
  rows _ := capped_rows positive drafts capped step fine
  scoring _ _ _ _ := capped_scoring consistent drafts capped step
  releasing _ _ _ _ _ _ := capped_releasing settings consistent drafts capped step

/-- In a run whose takeovers and stale releases respect the cap, a job is never attempted
nor scored more often than its row allows. -/
theorem capGuarded_bounds_spend (settings : ∀ id, (env.settings id).maxAttempts = cap)
    {run : History × State} (reached : (system env).recorded.Reached (CapGuarded job) run)
    {row : Conversation} (present : run.2.shared.jobs job = some row)
    (same : row.maxAttempts = cap) :
    row.attemptCount ≤ row.maxAttempts ∧ (starterOf job).total run.1 ≤ row.maxAttempts := by
  have positive : 1 ≤ cap := settings 0 ▸ (env.settings 0).maxAttemptsRange.1
  have capped : Capped cap job run.1 run.2 := by
    refine reached.historyInvariant (motive := Capped cap job) ?_ ?_
    · rintro _ ⟨now, rfl⟩
      refine ⟨?_, ?_, ?_⟩
      · intro row present
        cases present
      · intro id attempt read row latest
        cases latest
      · intro id attempt decision error since row latest
        cases latest
    · intro history before action after earlier capped stepped fine
      exact capped_step positive settings (run_consistent earlier) (run_drafts earlier) capped
        (step_cases stepped) fine
  have counted := run_counted reached job
  have bounded : row.attemptCount ≤ row.maxAttempts := same ▸ (capped.rows row present same).1
  refine ⟨bounded, ?_⟩
  calc (starterOf job).total run.1
      ≤ (claimerOf job).total run.1 := counted.covered.total_le
    _ = row.attemptCount := (counted.attempts row present).symm
    _ ≤ row.maxAttempts := bounded

/-- One delivery of the message to the worker, whose provider times out. -/
def timedOutAttempt : List Action :=
  [.worker 0 (.receive ⟨0, some 1⟩), .worker 0 (.claim 0), .worker 0 .readJob,
    .worker 0 (.score (.error (.transient "timeout".toList .timeout) 0))]

/-- Two attempts are released and the third one fails the job. -/
def spentSchedule : List Action :=
  [.createJob 1 .smallest 3 "s3://incoming/a.json".toList 0, .ingest 1 (.publish .delivered)] ++
    timedOutAttempt ++ [.worker 0 (.release 0), .worker 0 .changeVisibility] ++
    timedOutAttempt ++ [.worker 0 (.release 0), .worker 0 .changeVisibility] ++
    timedOutAttempt ++ [.worker 0 (.fail 0)]

/-- A claim or a release that finds the job below its cap, or not in processing, is guarded. -/
def checkCap (job : Uuid) (before : History × State) : Action → Bool
  | .worker _ (.claim _) | .worker _ (.release _) =>
      (before.2.shared.jobs job).all fun row =>
        row.status ≠ .processing || decide (row.attemptCount < row.maxAttempts)
  | _ => true

theorem checkCap_sound {before after : History × State}
    (checked : checkCap job before action = true) : CapGuarded job before action after := by
  intro row present processing
  refine ⟨?_, ?_⟩
  · rintro id start message since rfl _ _ _
    simpa [checkCap, present, processing] using checked
  · rintro id start attempt decision error since rfl _ _ _
    simpa [checkCap, present, processing] using checked

/-- The job that timed out three times was attempted and scored three times. -/
theorem capGuarded_bounds_spend_spent : ∃ run row,
    (system sampleEnvironment).recorded.Reached (CapGuarded 1) run ∧
    run.2.shared.jobs 1 = some row ∧ row.attemptCount = 3 ∧
    row.attemptCount ≤ row.maxAttempts ∧ (starterOf 1).total run.1 ≤ row.maxAttempts := by
  have ran : (((system sampleEnvironment).recorded.guarded (checkCap 1)).run ([], initial 0)
      spentSchedule).map (fun run =>
        (run.2.shared.jobs 1).map fun row => (row.attemptCount, row.maxAttempts)) =
      some (some (3, 3)) := by rfl
  obtain ⟨run, path, seen⟩ := System.guarded_observed ran fun _ _ _ => checkCap_sound
  obtain ⟨row, present, counts⟩ := Option.map_eq_some_iff.mp seen
  obtain ⟨attempts, cap⟩ := Prod.mk.inj counts
  have reached : (system sampleEnvironment).recorded.Reached (CapGuarded 1) run :=
    ⟨_, ⟨rfl, ⟨0, rfl⟩⟩, path⟩
  exact ⟨run, row, reached, present, attempts,
    capGuarded_bounds_spend (fun _ => rfl) reached present cap⟩

/-- The worker claims the job, calls its provider and dies before it records anything. -/
def unrecordedAttempt (start : Timestamp) : List Action :=
  [.worker 0 (.receive ⟨0, some 1⟩), .worker 0 (.claim start), .worker 0 .readJob,
    .worker 0 .abandon, .tick 90000001]

/-- Every redelivery takes the expired claim over. -/
def overspentSchedule : List Action :=
  [.createJob 1 .smallest 3 "s3://incoming/a.json".toList 0, .ingest 1 (.publish .delivered)] ++
    unrecordedAttempt 0 ++ unrecordedAttempt 90000001 ++ unrecordedAttempt 180000002 ++
    unrecordedAttempt 270000003

/-- A job with a cap of three attempts is attempted and scored four times. -/
theorem attemptCap_overspent : ∃ run row,
    (system sampleEnvironment).recorded.Reached System.anyStep run ∧
    run.2.shared.jobs 1 = some row ∧
    (∀ id, (sampleEnvironment.settings id).maxAttempts = row.maxAttempts) ∧
    row.maxAttempts < row.attemptCount ∧ row.maxAttempts < (starterOf 1).total run.1 := by
  have ran : ((system sampleEnvironment).recorded.run ([], initial 0) overspentSchedule).map
      (fun run => ((run.2.shared.jobs 1).map fun row => (row.attemptCount, row.maxAttempts),
        (starterOf 1).total run.1)) = some (some (4, 3), 4) := by rfl
  obtain ⟨run, path, seen⟩ := System.run_observed System.anyStep ran (fun _ _ _ _ => trivial)
  obtain ⟨stored, started⟩ := Prod.mk.inj seen
  obtain ⟨row, present, counts⟩ := Option.map_eq_some_iff.mp stored
  obtain ⟨attempts, cap⟩ := Prod.mk.inj counts
  refine ⟨run, row, ⟨_, ⟨rfl, ⟨0, rfl⟩⟩, path⟩, present, fun _ => cap.symm, ?_, ?_⟩
  · rw [attempts, cap]
    decide
  · rw [started, cap]
    decide

end ConvoScore.Pipeline
