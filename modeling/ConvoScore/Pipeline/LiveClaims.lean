import ConvoScore.Pipeline.LeaseRefinement

namespace ConvoScore.Pipeline
open Library

/-- A worker holds a live claim when its `claim_job` succeeded, the expiry that it wrote
has not passed, and it has not committed a finishing update since. -/
def LiveClaim (run : History × State) (job : Uuid) (id : WorkerId) : Prop :=
  ∃ expiry, openClaim run.1 job id = some expiry ∧ run.2.shared.now ≤ expiry

/-- No `release_job_for_retry` resets the row while another worker holds a live claim on it. -/
def ReleasesAlone (job : Uuid) : System.Condition (History × State) Action :=
  fun before action _ => ∀ id attempt decision error since start row other,
    action = .worker id (.release start) →
    before.2.workers id = .releasing attempt decision error since → attempt.job = job →
    before.2.shared.jobs job = some row → row.status = .processing →
    LiveClaim before job other → other = id

variable {env : Environment} {run : History × State} {job : Uuid}
  {allowed : System.Condition (History × State) Action}

/-- In every run, only jobs with a row have open claims. -/
theorem run_claimsStored (reached : (system env).recorded.Reached allowed run) :
    ClaimsStored run := by
  refine reached.invariantWithin ?_ ?_
  · rintro ⟨_, _⟩ ⟨rfl, _⟩ job id expiry opened
    cases opened
  · intro before action after earlier stored stepped _
    obtain ⟨state, step, rfl⟩ := System.recorded_next stepped
    exact claimsStored_step (run_consistent earlier) stored (step_cases step)

/-- Each step of a run refines the lease of the job. -/
theorem run_lease {before after : History × State} {action : Action}
    (earlier : (system env).recorded.Reached allowed before)
    (stepped : (system env).recorded.step before action = some after) :
    LeaseMove job before after action := by
  obtain ⟨state, step, rfl⟩ := System.recorded_next stepped
  exact lease_step (run_consistent earlier) (run_claimsStored earlier) (step_cases step)

theorem lease_initial {origin : History × State} (started : (system env).recorded.start origin) :
    (leaseOf job origin).Secured := by
  obtain ⟨history, state⟩ := origin
  obtain ⟨rfl, _⟩ := started
  exact Lease.Secured.of_unheld fun _ => rfl

/-- In a run whose releases are alone, the lease of the job stays exclusive. -/
theorem run_exclusive (reached : (system env).recorded.Reached (ReleasesAlone job) run) :
    (leaseOf job run).Exclusive := by
  refine reached.invariantWithin (motive := fun run => (leaseOf job run).Exclusive) ?_ ?_
  · intro origin started
    exact (lease_initial started).toExclusive
  · intro before action after earlier exclusive stepped fine
    cases run_lease earlier stepped with
    | same equal =>
        rw [equal]
        exact exclusive
    | quiet quiet step => exact Lease.exclusive_step exclusive step quiet.safe
    | released call held target present processing step =>
        apply Lease.exclusive_step exclusive step
        intro other live
        exact fine _ _ _ _ _ _ _ other call held target present processing live
    | closed _ _ _ step => exact Lease.exclusive_step exclusive step trivial
    | shut _ step => exact Lease.exclusive_step exclusive step trivial

/-- At most one worker holds a live claim on the job in every state of a run
in which no release resets the row under another live claim. -/
theorem liveClaims_exclusive (reached : (system env).recorded.Reached (ReleasesAlone job) run)
    {first second : WorkerId} (held : LiveClaim run job first) (other : LiveClaim run job second) :
    first = second :=
  (run_exclusive reached).single first second held other

/-- One worker claims the job, and another one has only received its message. -/
def contendedSchedule : List Action :=
  [.createJob 1 .smallest 3 "s3://incoming/a.json".toList 0, .ingest 1 (.publish .delivered),
    .worker 0 (.receive ⟨0, some 1⟩), .worker 1 (.receive ⟨0, some 1⟩), .worker 0 (.claim 0),
    .worker 1 (.claim 0)]

/-- Only the worker whose claim came first holds a live claim. -/
theorem liveClaims_exclusive_contended : ∃ run,
    (system sampleEnvironment).recorded.Reached (ReleasesAlone 1) run ∧ LiveClaim run 1 0 ∧
    ∀ id, LiveClaim run 1 id → id = 0 := by
  have ran : ((system sampleEnvironment).recorded.run ([], initial 0) contendedSchedule).map
      (fun run => (openClaim run.1 1 0, run.2.shared.now)) = some (some 90000000, 0) := by rfl
  have fine : ∀ action ∈ contendedSchedule, ∀ before after, ReleasesAlone 1 before action after := by
    intro action member before after
    simp only [contendedSchedule, List.mem_cons, List.not_mem_nil, or_false] at member
    rcases member with rfl | rfl | rfl | rfl | rfl | rfl <;> simp [ReleasesAlone]
  obtain ⟨run, path, seen⟩ := System.run_observed (ReleasesAlone 1) ran fine
  simp only [Prod.mk.injEq] at seen
  obtain ⟨opened, now⟩ := seen
  have reached : (system sampleEnvironment).recorded.Reached (ReleasesAlone 1) run :=
    ⟨_, ⟨rfl, ⟨0, rfl⟩⟩, path⟩
  have live : LiveClaim run 1 0 := ⟨_, opened, by rw [now]; decide⟩
  exact ⟨run, reached, live, fun id other => liveClaims_exclusive reached other live⟩

/-- The first worker releases the job that the second one took over, and the third one claims it. -/
def staleReleaseSchedule : List Action :=
  [.createJob 1 .smallest 3 "s3://incoming/a.json".toList 0, .ingest 1 (.publish .delivered),
    .worker 0 (.receive ⟨0, some 1⟩), .worker 0 (.claim 0), .worker 0 .readJob, .tick 90000001,
    .worker 1 (.receive ⟨0, some 1⟩), .worker 1 (.claim 90000001),
    .worker 0 (.score (.error (.transient "timeout".toList .timeout) 0)),
    .worker 0 (.release 90000001),
    .worker 2 (.receive ⟨0, some 1⟩), .worker 2 (.claim 90000001)]

/-- Two workers score the same job under live claims. -/
theorem liveClaims_overlap : ∃ run,
    (system sampleEnvironment).recorded.Reached System.anyStep run ∧
    LiveClaim run 1 1 ∧ LiveClaim run 1 2 := by
  have ran : ((system sampleEnvironment).recorded.run ([], initial 0) staleReleaseSchedule).map
      (fun run => (openClaim run.1 1 1, openClaim run.1 1 2, run.2.shared.now)) =
      some (some 180000001, some 180000001, 90000001) := by rfl
  obtain ⟨run, path, seen⟩ := System.run_observed System.anyStep ran (fun _ _ _ _ => trivial)
  simp only [Prod.mk.injEq] at seen
  obtain ⟨first, second, now⟩ := seen
  exact ⟨run, ⟨_, ⟨rfl, ⟨0, rfl⟩⟩, path⟩, ⟨_, first, by rw [now]; decide⟩,
    ⟨_, second, by rw [now]; decide⟩⟩

end ConvoScore.Pipeline
