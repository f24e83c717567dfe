import ConvoScore.Pipeline.History

namespace ConvoScore

/-- The status that the guard of a finishing update accepts. -/
def Worker.Action.accepts : Worker.Action → JobStatus → Bool
  | .complete _, status | .release _, status => status = .processing
  | .fail _, status => !status.terminal
  | _, _ => false

namespace Pipeline
open Library

/-- Only the latest claimer changes a row with a finishing update;
anybody else's call returns false and leaves the whole row as it was. -/
def Fenced : System.Condition (History × State) Action :=
  fun before action after => ∀ id call attempt result, action = .worker id call →
    Worker.finishing before.2.shared.jobs (before.2.workers id) call = some (attempt, result) →
    (after.2.shared.jobs attempt.job ≠ before.2.shared.jobs attempt.job →
      latestClaimer before.1 attempt.job = some id) ∧
    (latestClaimer before.1 attempt.job ≠ some id → result.2 = false ∧
      after.2.shared.jobs attempt.job = before.2.shared.jobs attempt.job)

/-- A finishing call of a worker that is not the latest claimer
finds the row in a status that its guard rejects. -/
def StaleCallsRejected : System.Condition (History × State) Action :=
  fun before action _ => ∀ id call attempt result row, action = .worker id call →
    Worker.finishing before.2.shared.jobs (before.2.workers id) call = some (attempt, result) →
    latestClaimer before.1 attempt.job ≠ some id →
    before.2.shared.jobs attempt.job = some row → call.accepts row.status = false

variable {env : Environment} {state next : State} {jobs : Jobs} {phase : Worker.Phase}
  {call : Worker.Action} {attempt : Worker.Attempt} {result : Jobs × Bool} {id : WorkerId}

/-- A finishing call returns whether its guard accepts the status of the stored row. -/
theorem finishing_returns {row : Conversation}
    (finished : Worker.finishing jobs phase call = some (attempt, result))
    (present : jobs attempt.job = some row) : result.2 = call.accepts row.status := by
  unfold Worker.finishing at finished
  split at finished
  · cases finished
    exact Table.updateWhere_changed present
  · cases finished
    exact Table.updateWhere_changed present
  · cases finished
    refine (Table.updateWhere_changed present).trans ?_
    rw [Worker.Action.accepts, ← JobStatus.unfinished_eq_not_terminal, Conversation.isUnfinished]
  · cases finished

/-- A finishing call that returns false changes nothing. -/
theorem finishing_unchanged
    (finished : Worker.finishing jobs phase call = some (attempt, result))
    (rejected : ∀ row, jobs attempt.job = some row → call.accepts row.status = false) :
    result = (jobs, false) := by
  unfold Worker.finishing at finished
  split at finished
  · cases finished
    exact Table.updateWhere_rejects rejected
  · cases finished
    exact Table.updateWhere_rejects rejected
  · cases finished
    refine Table.updateWhere_rejects fun row present => ?_
    rw [Conversation.isUnfinished, JobStatus.unfinished_eq_not_terminal]
    exact rejected row present
  · cases finished

/-- The step of a finishing call commits the table that the call returns. -/
theorem finishing_commits (stepped : step env state (.worker id call) = some next)
    (finished : Worker.finishing state.shared.jobs (state.workers id) call =
      some (attempt, result)) : next.shared.jobs = result.1 := by
  simp only [step, Option.map_eq_some_iff] at stepped
  obtain ⟨⟨shared, after⟩, moved, rfl⟩ := stepped
  exact Worker.finishing_committed moved finished

/-- In every run, the finishing updates are fenced
exactly when every stale finishing call meets a status that its guard rejects. -/
theorem fenced_iff {run : History × State} :
    (system env).recorded.Reached Fenced run ↔
      (system env).recorded.Reached StaleCallsRejected run := by
  constructor
  · intro reached
    apply reached.convert
    intro before action after _ _ fenced id call attempt result row made finished stale present
    rw [← finishing_returns finished present]
    exact ((fenced id call attempt result made finished).2 stale).1
  · intro reached
    apply reached.convert
    intro before action after _ stepped rejected id call attempt result made finished
    subst made
    have step : step env before.2 (.worker id call) = some after.2 :=
      System.recorded_step stepped
    have kept : latestClaimer before.1 attempt.job ≠ some id → result.2 = false ∧
        after.2.shared.jobs attempt.job = before.2.shared.jobs attempt.job := by
      intro stale
      have unchanged := finishing_unchanged finished fun row present =>
        rejected id call attempt result row rfl finished stale present
      rw [finishing_commits step finished, unchanged]
      exact ⟨rfl, rfl⟩
    refine ⟨?_, kept⟩
    intro written
    by_contra stale
    exact written (kept stale).2

/-- The second worker takes the job over while the first one is still scoring it. -/
def takeoverSchedule : List Action :=
  [.createJob 1 .smallest 3 "s3://incoming/a.json".toList 0, .ingest 1 (.publish .delivered),
    .worker 0 (.receive ⟨0, some 1⟩), .worker 0 (.claim 0), .worker 0 .readJob,
    .worker 0 (.score (.outcome .calm)), .tick 90000001,
    .worker 1 (.receive ⟨0, some 1⟩), .worker 1 (.claim 90000001)]

/-- A worker that lost its claim completes a job that the next owner is still processing. -/
theorem staleWorker_completes : ∃ run next row later,
    (system sampleEnvironment).recorded.Reached System.anyStep run ∧
    latestClaimer run.1 1 = some 1 ∧ run.2.shared.jobs 1 = some row ∧
    (system sampleEnvironment).recorded.step run (.worker 0 (.complete 90000001)) = some next ∧
    next.2.shared.jobs 1 = some later ∧ row.status = .processing ∧ later.status = .completed := by
  have ran : ((system sampleEnvironment).recorded.run ([], initial 0) takeoverSchedule).map
      (fun run => (latestClaimer run.1 1, (run.2.shared.jobs 1).map (·.status),
        ((system sampleEnvironment).recorded.step run (.worker 0 (.complete 90000001))).map
          fun next => (next.2.shared.jobs 1).map (·.status))) =
      some (some 1, some .processing, some (some .completed)) := by rfl
  obtain ⟨run, path, seen⟩ := System.run_observed System.anyStep ran (fun _ _ _ _ => trivial)
  simp only [Prod.mk.injEq, Option.map_eq_some_iff] at seen
  obtain ⟨latest, ⟨row, present, processing⟩, next, stepped, later, written, completed⟩ := seen
  exact ⟨run, next, row, later, ⟨_, ⟨rfl, ⟨0, rfl⟩⟩, path⟩, latest, present, stepped, written,
    processing, completed⟩

end Pipeline
end ConvoScore
