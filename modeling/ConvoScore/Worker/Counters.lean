import ConvoScore.Worker.Attempts

namespace ConvoScore.Worker
open Library

/-- The counters of workers that say what became of a job:
`jobs_completed_total`, `jobs_failed_total` and `job_attempts_total` with the outcome `retried`. -/
inductive Counter
  | jobsCompleted
  | jobsFailed
  | attemptsRetried
  deriving DecidableEq, Repr

/-- The status that a row has when the counter counts it. -/
def Counter.status : Counter → JobStatus
  | .jobsCompleted => .completed
  | .jobsFailed => .failed
  | .attemptsRetried => .pending

/-- The counter that the rest of `process` is going to increment. -/
def Phase.owes : Phase → Option Counter
  | .acknowledging _ .completed => some .jobsCompleted
  | .acknowledging _ .failed => some .jobsFailed
  | .extending _ _ => some .attemptsRetried
  | _ => none

def statusOf (jobs : Jobs) (job : Uuid) : Option JobStatus := (jobs job).map (·.status)

/-- The worker comes back to its loop after everything but the increments is done;
every other exception of `process` comes before the finishing update. -/
def Uncrashed (phase : Phase) (action : Action) : Prop :=
  action ≠ .crash ∧ (action = .abandon → phase.owes = none)

/-- No deletion raises for a job that was just completed or failed,
and every release and every failure finds a row to change. -/
structure Accounted (jobs : Jobs) (phase : Phase) (action : Action) : Prop where
  deleted : ∀ message exit, phase = .acknowledging message exit →
    exit = .completed ∨ exit = .failed → ∀ removed, action ≠ .delete removed true
  released : ∀ attempt decision error since start,
    phase = .releasing attempt decision error since → action = .release start →
    statusOf jobs attempt.job = some .processing
  failed : ∀ attempt decision error since start,
    phase = .failing attempt decision error since → action = .fail start →
    ∃ status, statusOf jobs attempt.job = some status ∧ status.terminal = false

variable {settings : Settings} {shared next : Shared} {phase after : Phase} {action : Action}

end ConvoScore.Worker
