import ConvoScore.Pipeline.Ledger

namespace ConvoScore.Pipeline
open Library

/-- The worker whose attempt on the job gets an invalid response in a transition. -/
def invalidOf (job : Uuid) : Mark (System.Taken State Action) WorkerId := fun taken =>
  match taken.action with
  | .worker id (.score (.error (.invalidResponse _) _)) =>
      match taken.before.workers id with
      | .scoring attempt _ => if attempt.job = job then some id else none
      | _ => none
  | _ => none

/-- The first invalid response of a job comes on its first attempt, or when the cap is reached. -/
def EarlyInvalid (env : Environment) : System.Condition (History × State) Action :=
  fun before action _ => ∀ id attempt read message jitter,
    action = .worker id (.score (.error (.invalidResponse message) jitter)) →
    before.2.workers id = .scoring attempt read → (invalidOf attempt.job).total before.1 = 0 →
    read.attemptCount ≤ 1 ∨ (env.settings id).maxAttempts ≤ read.attemptCount

/-- A first invalid response below the cap is retried, and a job is failed for an invalid response
only after two of them or at the cap. -/
structure SecondChance (env : Environment) (before : History × State) (action : Action)
    (after : History × State) : Prop where
  retried : ∀ id attempt read message jitter,
    action = .worker id (.score (.error (.invalidResponse message) jitter)) →
    before.2.workers id = .scoring attempt read → (invalidOf attempt.job).total before.1 = 0 →
    read.attemptCount < (env.settings id).maxAttempts →
    ∃ decision error since, after.2.workers id = .releasing attempt decision error since
  deserved : ∀ job row later, before.2.shared.jobs job = some row → row.status ≠ .failed →
    after.2.shared.jobs job = some later → later.status = .failed →
    later.lastErrorType = some .invalidLlmResponse →
    ∃ id start, action = .worker id (.fail start) ∧ (2 ≤ (invalidOf job).total before.1 ∨
      (env.settings id).maxAttempts ≤ row.attemptCount)

/-- A worker that fails its job for an invalid response is entitled to. -/
structure Entitled (env : Environment) (history : History) (state : State) : Prop where
  scoring : ∀ id attempt read row, state.workers id = .scoring attempt read →
    state.shared.jobs attempt.job = some row → read.attemptCount ≤ row.attemptCount
  failing : ∀ id attempt decision error since row,
    state.workers id = .failing attempt decision error since →
    decision.errorType = .invalidLlmResponse → state.shared.jobs attempt.job = some row →
    2 ≤ (invalidOf attempt.job).total history ∨
      (env.settings id).maxAttempts ≤ row.attemptCount

variable {env : Environment} {state next : State} {action : Action} {job : Uuid}
  {history : History}

theorem scoring_step (consistent : Consistent state) (drafts : DraftRows env state)
    (entitled : Entitled env history state) (step : Step env state action next) {id : WorkerId}
    {attempt : Worker.Attempt} {read row : Conversation}
    (held : next.workers id = .scoring attempt read)
    (written : next.shared.jobs attempt.job = some row) : read.attemptCount ≤ row.attemptCount := by
  rcases worker_source step id with unmoved | ⟨_, _, move⟩
  · rw [unmoved] at held
    obtain ⟨before, present⟩ := inWindow_row consistent (by rw [held]; rfl) rfl
    exact Nat.le_trans (entitled.scoring id attempt read before held present)
      (attempts_monotone drafts step present written)
  · exact attempts_monotone drafts step (move.scoring_source held) written

/-- A worker that gives up right after an invalid response saw the second one or the last attempt. -/
theorem failing_step (consistent : Consistent state) (drafts : DraftRows env state)
    (entitled : Entitled env history state) (step : Step env state action next)
    (fine : EarlyInvalid env (history, state) action (⟨state, action, next⟩ :: history, next))
    {id : WorkerId} {attempt : Worker.Attempt} {decision : RetryDecision} {error : LLMError}
    {since : Timestamp} {row : Conversation}
    (held : next.workers id = .failing attempt decision error since)
    (blamed : decision.errorType = .invalidLlmResponse)
    (written : next.shared.jobs attempt.job = some row) :
    2 ≤ (invalidOf attempt.job).total (⟨state, action, next⟩ :: history) ∨
      (env.settings id).maxAttempts ≤ row.attemptCount := by
  rcases worker_source step id with unmoved | ⟨call, rfl, move⟩
  · rw [unmoved] at held
    obtain ⟨before, present⟩ := inWindow_row consistent (by rw [held]; rfl) rfl
    have kept := attempts_monotone drafts step present written
    rcases entitled.failing id attempt decision error since before held blamed present with
      twice | reached
    · exact .inl (Nat.le_trans twice Mark.total_le_cons)
    · exact .inr (Nat.le_trans reached kept)
  · obtain ⟨read, jitter, scoring, rfl, rfl, last⟩ := move.failing_source held
    obtain ⟨⟨message, rfl⟩, used⟩ := decideRetry_invalid last blamed
    obtain ⟨before, present⟩ := inWindow_row consistent (by rw [scoring]; rfl) rfl
    have known : read.attemptCount ≤ row.attemptCount :=
      Nat.le_trans (entitled.scoring id attempt read before scoring present)
        (attempts_monotone drafts step present written)
    have marked : invalidOf attempt.job ⟨state, .worker id (.score
        (.error (.invalidResponse message) jitter)), next⟩ = some id := by
      simp [invalidOf, scoring]
    rw [Mark.total_cons_some marked]
    by_cases first : (invalidOf attempt.job).total history = 0
    · refine .inr ?_
      have early := fine id attempt read message jitter rfl scoring first
      omega
    · refine .inl ?_
      omega

/-- In a run whose first invalid responses come early, workers fail their jobs rightly. -/
theorem run_entitled {run : History × State}
    (reached : (system env).recorded.Reached (EarlyInvalid env) run) :
    Entitled env run.1 run.2 := by
  refine reached.historyInvariant (motive := Entitled env) ?_ ?_
  · rintro _ ⟨now, rfl⟩
    refine ⟨?_, ?_⟩
    · intro id attempt read row held
      cases held
    · intro id attempt decision error since row held
      cases held
  · intro history before action after earlier entitled stepped fine
    have step := step_cases stepped
    have consistent := run_consistent earlier
    have drafts := run_drafts earlier
    exact ⟨fun _ _ _ _ => scoring_step consistent drafts entitled step,
      fun _ _ _ _ _ _ => failing_step consistent drafts entitled step fine⟩

/-- A row that becomes failed for an invalid response was failed by a worker. -/
theorem deserved_step (entitled : Entitled env history state)
    (step : Step env state action next) {row later : Conversation}
    (present : state.shared.jobs job = some row) (unfailed : row.status ≠ .failed)
    (written : next.shared.jobs job = some later) (failed : later.status = .failed)
    (blamed : later.lastErrorType = some .invalidLlmResponse) :
    ∃ id start, action = .worker id (.fail start) ∧ (2 ≤ (invalidOf job).total history ∨
      (env.settings id).maxAttempts ≤ row.attemptCount) := by
  cases row_change step job with
  | kept same =>
      rw [same, present, Option.some.injEq] at written
      exact absurd (written ▸ failed) unfailed
  | submitted _ _ absent | created _ absent =>
      rw [absent] at present
      cases present
  | claimed _ _ _ _ _ _ stored | completed _ _ _ _ stored | released _ _ _ _ stored =>
      rw [stored, Option.some.injEq] at written
      subst written
      cases failed
  | failed held same found _ stored =>
      rw [stored, Option.some.injEq] at written
      subst written same
      rw [found, Option.some.injEq] at present
      subst present
      exact ⟨_, _, rfl, entitled.failing _ _ _ _ _ _ held (Option.some.inj blamed) found⟩
  | enqueued found stored =>
      rw [stored, Option.some.injEq] at written
      rw [found, Option.some.injEq] at present
      subst written present
      exact absurd failed unfailed
  | enqueueFailed _ stored =>
      rw [stored, Option.some.injEq] at written
      subst written
      cases blamed

/-- The retry of an invalid response depends only on the number of the attempt. -/
theorem invalid_retried {id : WorkerId} {attempt : Worker.Attempt} {read : Conversation}
    {message : Text} {jitter : Rat}
    (step : Step env state (.worker id (.score (.error (.invalidResponse message) jitter))) next)
    (held : state.workers id = .scoring attempt read) :
    (∃ decision error since, next.workers id = .releasing attempt decision error since) ↔
      read.attemptCount < min 2 (env.settings id).maxAttempts := by
  cases step with
  | worker move =>
      rw [held] at move
      rw [withWorker_workers, if_pos rfl]
      exact move.invalid_retried

/-- In every run, an invalid response gets exactly one more chance below the cap, exactly when
the first one of each job comes on its first attempt or at the cap. -/
theorem secondChance_iff {run : History × State} :
    (system env).recorded.Reached (SecondChance env) run ↔
      (system env).recorded.Reached (EarlyInvalid env) run := by
  constructor
  · intro reached
    apply reached.convert
    intro before action after _ stepped chance id attempt read message jitter call held first
    have step := step_cases (System.recorded_step stepped)
    subst call
    by_cases below : read.attemptCount < (env.settings id).maxAttempts
    · have retried := chance.retried id attempt read message jitter rfl held first below
      have early := (invalid_retried step held).mp retried
      omega
    · exact .inr (Nat.le_of_not_lt below)
  · intro reached
    apply reached.convert
    intro before action after earlier stepped early
    have step := step_cases (System.recorded_step stepped)
    refine ⟨?_, ?_⟩
    · rintro id attempt read message jitter rfl held first below
      have known := early id attempt read message jitter rfl held first
      exact (invalid_retried step held).mpr (by omega)
    · intro job row later present unfailed written failed blamed
      exact deserved_step (run_entitled earlier) step present unfailed written failed blamed

/-- A timeout on the first attempt is followed by the job's first invalid response. -/
def lateInvalidSchedule : List Action :=
  [.createJob 1 .smallest 3 "s3://incoming/a.json".toList 0, .ingest 1 (.publish .delivered),
    .worker 0 (.receive ⟨0, some 1⟩), .worker 0 (.claim 0), .worker 0 .readJob,
    .worker 0 (.score (.error (.transient "timeout".toList .timeout) 0)), .worker 0 (.release 0),
    .worker 0 .changeVisibility, .worker 0 (.receive ⟨0, some 1⟩), .worker 0 (.claim 0),
    .worker 0 .readJob, .worker 0 (.score (.error (.invalidResponse "risk_score was 250".toList) 0)),
    .worker 0 (.fail 0)]

/-- The job fails on its second attempt of three, after a single invalid response. -/
theorem lateInvalid_failed : ∃ run row,
    (system sampleEnvironment).recorded.Reached System.anyStep run ∧
    run.2.shared.jobs 1 = some row ∧ row.status = .failed ∧
    row.lastErrorType = some .invalidLlmResponse ∧ (invalidOf 1).total run.1 = 1 ∧
    row.attemptCount < row.maxAttempts ∧
    ∀ id, (sampleEnvironment.settings id).maxAttempts = row.maxAttempts := by
  have ran : ((system sampleEnvironment).recorded.run ([], initial 0) lateInvalidSchedule).map
      (fun run => ((run.2.shared.jobs 1).map fun row =>
        (row.status, row.lastErrorType, row.attemptCount, row.maxAttempts),
        (invalidOf 1).total run.1)) =
      some (some (.failed, some .invalidLlmResponse, 2, 3), 1) := by rfl
  obtain ⟨run, path, seen⟩ := System.run_observed System.anyStep ran (fun _ _ _ _ => trivial)
  obtain ⟨stored, responses⟩ := Prod.mk.inj seen
  obtain ⟨row, present, columns⟩ := Option.map_eq_some_iff.mp stored
  simp only [Prod.mk.injEq] at columns
  obtain ⟨failed, blamed, attempts, cap⟩ := columns
  exact ⟨run, row, ⟨_, ⟨rfl, ⟨0, rfl⟩⟩, path⟩, present, failed, blamed, responses,
    by rw [attempts, cap]; decide, fun _ => cap.symm⟩

end ConvoScore.Pipeline
