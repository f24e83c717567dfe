import ConvoScore.Pipeline.Ledger
import ConvoScore.Worker.Counters

namespace ConvoScore.Pipeline
open Library

/-- A worker that has committed its finishing update owes one increment. -/
def owed (counter : Worker.Counter) (state : State) (id : WorkerId) : Nat :=
  if (state.workers id).owes = some counter then 1 else 0

/-- No worker crashes in the step. -/
def Uncrashed : System.Condition State Action :=
  fun before action _ => ∀ id call, action = .worker id call →
    Worker.Uncrashed (before.workers id) call

/-- No worker crashes in the step, no deletion raises for a job that was just completed or failed,
and every release and every failure finds a row to change. -/
def Accounted : System.Condition State Action :=
  fun before action after => Uncrashed before action after ∧ ∀ id call, action = .worker id call →
    Worker.Accounted before.shared.jobs (before.workers id) call

variable {env : Environment} {state next : State} {action : Action} {counter : Worker.Counter}

/-- Only workers below the bound step. -/
def OnlyBelow (bound : WorkerId) : System.Condition State Action :=
  fun _ action _ => ∀ id call, action = .worker id call → id < bound

theorem onlyBelow_idle {bound : WorkerId} {first last : List (System.Taken State Action) × State}
    (path : (system env).recorded.Path (System.onStates (OnlyBelow bound)) first last)
    (idle : ∀ id, bound ≤ id → first.2.workers id = .idle) :
    ∀ id, bound ≤ id → last.2.workers id = .idle := by
  refine path.keeps (motive := fun run => ∀ id, bound ≤ id → run.2.workers id = .idle) idle ?_
  intro before action after unmoved stepped only id above
  rcases worker_source (step_cases (System.recorded_step stepped)) id with same | ⟨call, acts, _⟩
  · exact same.trans (unmoved id above)
  · exact absurd (only id call acts) (Nat.not_lt.mpr above)

/-- Only jobs of the list are ever created or submitted. -/
def OnlyJobs (jobs : List Uuid) : System.Condition State Action :=
  fun _ action _ => ∀ job conversation maxAttempts,
    (∀ sourceRef clock, action = .createJob job conversation maxAttempts sourceRef clock →
      job ∈ jobs) ∧
    ∀ start, action = .submit job conversation maxAttempts start → job ∈ jobs

/-- Every other job stays unused. -/
theorem onlyJobs_unused {jobs : List Uuid} {first last : List (System.Taken State Action) × State}
    {other : Uuid} (path : (system env).recorded.Path (System.onStates (OnlyJobs jobs)) first last)
    (fresh : first.2.shared.jobs other = none ∧ first.2.origins other = .unused)
    (different : other ∉ jobs) :
    last.2.shared.jobs other = none ∧ last.2.origins other = .unused := by
  refine path.keeps (motive := fun run => run.2.shared.jobs other = none ∧
    run.2.origins other = .unused) fresh ?_
  rintro before action after ⟨absent, unused⟩ stepped only
  have step := step_cases (System.recorded_step stepped)
  refine ⟨?_, ?_⟩
  · by_contra stored
    obtain ⟨row, present⟩ := Option.ne_none_iff_exists'.mp stored
    rcases (row_change step other).appeared absent present with
      ⟨request, origin, _⟩ | ⟨_, conversation, maxAttempts, sourceRef, clock, acts, _⟩
    · rw [unused] at origin
      cases origin
    · exact different ((only other conversation maxAttempts).1 sourceRef clock acts)
  · cases origin_change step other with
    | kept same => exact same.trans unused
    | submitted _ _ => exact absurd ((only other _ _).2 _ rfl) different
    | created _ _ => exact absurd ((only other _ _).1 _ _ rfl) different
    | requested origin _ _ _ | published origin _ _ _ =>
        rw [unused] at origin
        cases origin

end ConvoScore.Pipeline
