import ConvoScore.Pipeline.Fencing
import ConvoScore.Pipeline.LiveClaims
import ConvoScore.Pipeline.Stranding

namespace ConvoScore.Pipeline
open Library

/-- Every finishing update of the job commits no later than the expiry that its own claim wrote,
and the publish of the job succeeds. -/
def Timely (job : Uuid) : System.Condition State Action :=
  fun before action _ =>
    (∀ id call attempt result, action = .worker id call →
      Worker.finishing before.shared.jobs (before.workers id) call = some (attempt, result) →
      attempt.job = job → before.shared.now ≤ attempt.expiry) ∧
    ∀ result, action = .ingest job (.publish result) → result = .delivered

/-- The claim of every attempt in its window is open with the expiry that it remembers. -/
def WindowsOpen (run : History × State) : Prop :=
  ∀ id attempt, (run.2.workers id).attempt = some attempt →
    openClaim run.1 attempt.job id = some attempt.expiry

/-- No publication of the job is about to record a failure. -/
def Delivering (job : Uuid) (state : State) : Prop :=
  ∀ error since, state.origins job ≠ .s3 (.failing error since)

variable {env : Environment} {state next : State} {action : Action} {history : History}
  {run : History × State} {job : Uuid} {id : WorkerId}

/-- A worker that stays in its window keeps its claim open. -/
theorem windowsOpen_worker {call : Worker.Action} {shared : Shared} {phase : Worker.Phase}
    {attempt : Worker.Attempt} (opened : WindowsOpen (history, state))
    (move : Worker.Move (env.settings id) state.shared (state.workers id) call shared phase)
    (window : phase.attempt = some attempt) :
    openClaim (⟨state, .worker id call, state.withWorker shared id phase⟩ :: history)
      attempt.job id = some attempt.expiry := by
  have earlier := opened id attempt
  have kept : (∀ attempt, phase ≠ .claimed attempt) →
      Worker.finishing state.shared.jobs (state.workers id) call = none →
      openClaim (⟨state, .worker id call, state.withWorker shared id phase⟩ :: history)
        attempt.job = openClaim history attempt.job := by
    intro different unfinished
    apply openClaim_kept
    · simp [claimOf_worker_none different]
    · simp [finishOf_worker_none unfinished]
  generalize held : state.workers id = before at move
  cases move with
  | claimed =>
      cases window
      rw [openClaim_claimed claimOf_worker, Function.update_self]
  | read | scored | retry | giveUp =>
      rw [kept (by simp) (by rw [held]; rfl)]
      exact earlier (by rw [held]; exact window)
  | _ => cases window

theorem windowsOpen_step (opened : WindowsOpen (history, state))
    (step : Step env state action next) :
    WindowsOpen (⟨state, action, next⟩ :: history, next) := by
  intro id attempt window
  have bystander : (∀ call, action ≠ .worker id call) →
      (state.workers id).attempt = some attempt →
      openClaim (⟨state, action, next⟩ :: history) attempt.job id = some attempt.expiry := by
    intro idle window
    rw [openClaim_bystander idle]
    exact opened id attempt window
  cases step with
  | @worker target call shared phase move =>
      simp only [withWorker_workers] at window
      split at window
      · rename_i same
        subst same
        exact windowsOpen_worker opened move window
      · rename_i different
        apply bystander _ window
        intro call same
        cases same
        exact different rfl
  | _ => exact bystander (by simp) window

theorem run_windowsOpen {allowed : System.Condition (History × State) Action}
    (reached : (system env).recorded.Reached allowed run) : WindowsOpen run := by
  refine reached.invariant ?_ ?_
  · rintro ⟨_, _⟩ ⟨_, now, rfl⟩ id attempt window
    cases window
  · intro before action after opened stepped _
    obtain ⟨state, step, rfl⟩ := System.recorded_next stepped
    exact windowsOpen_step opened (step_cases step)

/-- A job whose publish is delivered never records an enqueue failure. -/
theorem delivering_step (delivering : Delivering job state) (step : Step env state action next)
    (timely : Timely job state action next) : Delivering job next := by
  intro error since origin
  rcases published_source step origin with old | ⟨_, opened⟩ | ⟨_, _, rfl, _, move⟩
  · exact delivering error since old
  · cases opened
  · generalize next.shared = shared at move
    cases move with
    | raised text =>
        have delivered := timely.2 _ rfl
        rw [delivered] at text
        rcases text with text | text
        · cases text
        · cases text

/-- In a timely run, the lease of the job stays secured. -/
theorem timely_secured (reached : (system env).recorded.Reached (System.onStates (Timely job)) run) :
    (leaseOf job run).Secured ∧ Delivering job run.2 := by
  refine reached.invariantWithin (motive := fun run =>
    (leaseOf job run).Secured ∧ Delivering job run.2) ?_ ?_
  · rintro origin started
    refine ⟨lease_initial started, ?_⟩
    obtain ⟨_, now, same⟩ := started
    intro error since
    rw [same]
    simp [initial]
  · rintro before action after earlier ⟨secured, delivering⟩ stepped timely
    have step := step_cases (System.recorded_step stepped)
    refine ⟨?_, delivering_step delivering step timely⟩
    have live : ∀ {id call attempt result}, action = .worker id call →
        Worker.finishing before.2.shared.jobs (before.2.workers id) call =
          some (attempt, result) → attempt.job = job → (leaseOf job before).Live id := by
      rintro id call attempt result made finished rfl
      have opened := run_windowsOpen earlier id attempt (Worker.finishing_attempt finished)
      exact ⟨attempt.expiry, opened, timely.1 id call attempt result made finished rfl⟩
    cases run_lease earlier stepped with
    | same equal =>
        rw [equal]
        exact secured
    | quiet quiet step => exact Lease.secured_step secured step quiet.timely
    | released call held target _ _ step =>
        apply Lease.secured_step secured step
        exact live call (by rw [held]; rfl) target
    | closed made finished target step =>
        exact Lease.secured_step secured step (live made finished target)
    | @shut start call =>
        subst call
        obtain ⟨error, since, failing⟩ := markEnqueueFailed_origin step
        exact absurd failing (delivering error since)

/-- A live attempt of a timely run finds its row processing and locked until its own expiry. -/
theorem timely_processing
    (reached : (system env).recorded.Reached (System.onStates (Timely job)) run)
    {attempt : Worker.Attempt} (window : (run.2.workers id).attempt = some attempt)
    (target : attempt.job = job) (intime : run.2.shared.now ≤ attempt.expiry) :
    ∃ row, run.2.shared.jobs job = some row ∧ row.status = .processing ∧
      row.lockedUntil = some attempt.expiry := by
  subst target
  have secured := (timely_secured reached).1
  have opened := run_windowsOpen reached id attempt window
  have locked := secured.lock_eq opened intime
  have available := secured.kept id ⟨attempt.expiry, opened, intime⟩
  obtain ⟨row, present⟩ := Option.isSome_iff_exists.mp
    ((run_consistent reached).claimed id attempt window)
  have lock : row.lockedUntil = some attempt.expiry := by
    simpa [leaseOf, present] using locked
  have unfinished : row.status.terminal = false := by
    simpa [leaseOf, present] using available
  refine ⟨row, present, ?_, lock⟩
  cases status : row.status with
  | processing => rfl
  | pending =>
      have unlocked := (run_consistent reached).unlocked.pending _ row present status
      rw [unlocked] at lock
      cases lock
  | completed | failed =>
      rw [status] at unfinished
      cases unfinished

/-- A finishing update of a processing row changes that row and no other. -/
theorem finishing_writes {jobs : Jobs} {phase : Worker.Phase} {call : Worker.Action}
    {attempt : Worker.Attempt} {result : Jobs × Bool} {row : Conversation}
    (finished : Worker.finishing jobs phase call = some (attempt, result))
    (present : jobs attempt.job = some row) (processing : row.status = .processing) :
    ∃ later, result = (Function.update jobs attempt.job (some later), true) ∧
      later.status ≠ .processing := by
  unfold Worker.finishing at finished
  split at finished
  · cases finished
    exact ⟨_, Table.updateWhere_accepts present (Conversation.isProcessing_iff.mpr processing),
      by simp⟩
  · cases finished
    exact ⟨_, Table.updateWhere_accepts present (Conversation.isProcessing_iff.mpr processing),
      by simp⟩
  · cases finished
    refine ⟨_, Table.updateWhere_accepts present (Conversation.isUnfinished_iff.mpr ?_), by simp⟩
    rw [processing]
    rfl
  · cases finished

/-- The worker is between its claim on the job and its finishing update, and not yet late. -/
def LiveAttempt (job : Uuid) (state : State) (id : WorkerId) : Prop :=
  ∃ attempt, (state.workers id).attempt = some attempt ∧ attempt.job = job ∧
    state.shared.now ≤ attempt.expiry

/-- The worker neither crashes nor abandons its attempt on the job: it goes on to commit the
finishing update, in time. -/
def WillFinish (env : Environment) (job : Uuid) (state : State) (id : WorkerId) : Prop :=
  ∃ attempt later call result, (state.workers id).attempt = some attempt ∧ attempt.job = job ∧
    (system env).Path (Timely job) state later ∧
    Worker.finishing later.shared.jobs (later.workers id) call = some (attempt, result) ∧
    later.shared.now ≤ attempt.expiry

/-- The step changes exactly the row of the job. -/
def ChangesOnly (job : Uuid) (state next : State) : Prop :=
  next.shared.jobs job ≠ state.shared.jobs job ∧
    ∀ other, other ≠ job → next.shared.jobs other = state.shared.jobs other

/-- The id of the job was published in the run. -/
def Published (run : History × State) (job : Uuid) : Prop :=
  ∃ taken ∈ run.1, taken.action = .ingest job (.publish .delivered)

/-- The clock never goes back. -/
theorem now_monotone {allowed : System.Condition State Action} {later : State}
    (path : (system env).Path allowed state later) : state.shared.now ≤ later.shared.now := by
  refine path.keeps (motive := fun later => state.shared.now ≤ later.shared.now) le_rfl ?_
  intro before action after earlier stepped _
  exact earlier.trans (step_now_le (step_cases stepped))

/-- At most one worker of a timely run is live on the job. -/
theorem timely_single
    (reached : (system env).recorded.Reached (System.onStates (Timely job)) run)
    {first second : WorkerId} (one : LiveAttempt job run.2 first)
    (other : LiveAttempt job run.2 second) : first = second := by
  have live : ∀ {id}, LiveAttempt job run.2 id → (leaseOf job run).Live id := by
    rintro id ⟨attempt, window, rfl, intime⟩
    exact ⟨attempt.expiry, run_windowsOpen reached id attempt window, intime⟩
  exact (timely_secured reached).1.single first second (live one) (live other)

/-- A worker that will finish in time is not late now. -/
theorem willFinish_live {state : State} (finishes : WillFinish env job state id) :
    LiveAttempt job state id := by
  obtain ⟨attempt, later, call, result, window, target, path, _, intime⟩ := finishes
  exact ⟨attempt, window, target, (now_monotone path).trans intime⟩

/-- A finishing update of a timely run changes exactly the row of its job. -/
theorem timely_changes
    (reached : (system env).recorded.Reached (System.onStates (Timely job)) run)
    {call : Worker.Action} {attempt : Worker.Attempt} {result : Jobs × Bool}
    (finished : Worker.finishing run.2.shared.jobs (run.2.workers id) call =
      some (attempt, result))
    (target : attempt.job = job) (stepped : step env run.2 (.worker id call) = some next)
    (timely : Timely job run.2 (.worker id call) next) :
    result.2 = true ∧ ChangesOnly job run.2 next := by
  have intime := timely.1 id call attempt result rfl finished target
  obtain ⟨row, present, processing, _⟩ :=
    timely_processing reached (Worker.finishing_attempt finished) target intime
  subst target
  obtain ⟨later, rfl, changed⟩ := finishing_writes finished present processing
  have written : next.shared.jobs = Function.update run.2.shared.jobs attempt.job (some later) :=
    finishing_commits stepped finished
  refine ⟨rfl, ?_, ?_⟩
  · rw [written, present, Function.update_self]
    intro same
    rw [Option.some.inj same] at changed
    exact changed processing
  · intro other different
    rw [written, Function.update_of_ne different]

/-- A timely run never completes a job whose row is pending. -/
theorem timely_completes
    (reached : (system env).recorded.Reached (System.onStates (Timely job)) run) :
    (system env).Reached (CompletesIngested job) run.2 := by
  apply System.recorded_reached
  apply reached.convert
  intro before action after earlier _ timely _ id attempt outcome since start row call held target
    present
  have finished : Worker.finishing before.2.shared.jobs (before.2.workers id) (.complete start) =
      some (attempt, completeJob start before.2.shared.jobs attempt.job outcome) := by
    rw [held]
    rfl
  have intime := timely.1 id _ attempt _ call finished target
  obtain ⟨found, same, processing, _⟩ :=
    timely_processing earlier (Worker.finishing_attempt finished) target intime
  rw [present, Option.some.injEq] at same
  rw [same, processing]
  simp

/-- No worker of a timely run loses a claim on the job or finds the ingested job unknown. -/
def NoStrayExit (job : Uuid) (state : State) : Prop :=
  ∀ id message, message.jobId = some job →
    state.workers id ≠ .acknowledging message .lostClaim ∧
      ((state.origins job).ingested = true →
        state.workers id ≠ .acknowledging message .unknownJob)

/-- The worker that steps takes neither of the two stray exits. -/
theorem noStrayExit_worker
    (reached : (system env).recorded.Reached (System.onStates (Timely job)) run)
    {call : Worker.Action} {shared : Shared} {message : QueueMessage}
    {exit : Worker.ProcessOutcome}
    (move : Worker.Move (env.settings id) run.2.shared (run.2.workers id) call shared
      (.acknowledging message exit))
    (timely : Timely job run.2 (.worker id call) next) (addressed : message.jobId = some job) :
    exit ≠ .lostClaim ∧ ((run.2.origins job).ingested = true → exit ≠ .unknownJob) := by
  have consistent := run_consistent reached
  generalize held : run.2.workers id = before at move
  cases move with
  | @lost attempt outcome since start timed past rejected =>
      have target : attempt.job = job := Option.some.inj (attempt.addressed.symm.trans addressed)
      have finished : Worker.finishing run.2.shared.jobs (run.2.workers id) (.complete start) =
          some (attempt, completeJob start run.2.shared.jobs attempt.job outcome) := by
        rw [held]
        rfl
      have intime := timely.1 id _ attempt _ rfl finished target
      obtain ⟨row, present, processing, _⟩ :=
        timely_processing reached (Worker.finishing_attempt finished) target intime
      have rejected := rejected row (by rw [target]; exact present)
      rw [Conversation.isProcessing_iff.mpr processing] at rejected
      cases rejected
  | @unknown delivery absent =>
      have target : delivery.job = job := Option.some.inj (delivery.addressed.symm.trans addressed)
      refine ⟨by simp, ?_⟩
      intro ingested
      have stored := consistent.stored job
      rw [← target, absent, target] at stored
      cases origin : run.2.origins job <;> simp_all [Origin.ingested, Origin.stored]
  | @vanished attempt absent =>
      have present := consistent.claimed id attempt (by rw [held]; rfl)
      rw [absent] at present
      cases present
  | _ => exact ⟨by simp, by simp⟩

theorem timely_noStrayExit
    (reached : (system env).recorded.Reached (System.onStates (Timely job)) run) :
    NoStrayExit job run.2 := by
  refine reached.invariantWithin (motive := fun run => NoStrayExit job run.2) ?_ ?_
  · rintro origin ⟨_, now, same⟩ id message _
    rw [same]
    simp [initial]
  · intro before action after earlier clean stepped timely id message addressed
    have step := step_cases (System.recorded_step stepped)
    have later := consistent_step (run_consistent earlier) step
    have kept : before.2.workers id = after.2.workers id →
        after.2.workers id ≠ .acknowledging message .lostClaim ∧
          ((after.2.origins job).ingested = true →
            after.2.workers id ≠ .acknowledging message .unknownJob) := by
      intro same
      rw [← same]
      refine ⟨(clean id message addressed).1, ?_⟩
      intro ingested held
      rcases ingested_source step ingested with old | ⟨_, fresh⟩
      · exact (clean id message addressed).2 old held
      · have past := later.sent.inHand id message (by rw [← same, held]; rfl) job addressed
        rw [fresh] at past
        cases past
    generalize after.2 = next at step timely kept
    cases step with
    | @worker target call shared phase move =>
        by_cases same : id = target
        · subst same
          rw [withWorker_workers, if_pos rfl, withWorker_origins]
          constructor
          · rintro rfl
            exact (noStrayExit_worker earlier move timely addressed).1 rfl
          · rintro ingested rfl
            exact (noStrayExit_worker earlier move timely addressed).2 ingested rfl
        · exact kept (by rw [withWorker_workers, if_neg same])
    | _ => exact kept rfl

/-- A published job of a timely run is finished or still has a message. -/
theorem timely_served
    (reached : (system env).recorded.Reached (System.onStates (Timely job)) run) :
    Published run job → (run.2.origins job).ingested = true ∧ Served run.2 job := by
  refine reached.invariantWithin (motive := fun run =>
    Published run job → (run.2.origins job).ingested = true ∧ Served run.2 job) ?_ ?_
  · rintro ⟨_, _⟩ ⟨rfl, _⟩ ⟨taken, member, _⟩
    cases member
  · intro before action after earlier served stepped timely published
    obtain ⟨state, moved, rfl⟩ := System.recorded_next stepped
    have step := step_cases moved
    obtain ⟨taken, member, call⟩ := published
    rcases List.mem_cons.mp member with rfl | member
    · simp only at call
      subst call
      cases step with
      | ingest origin move =>
          cases move with
          | delivered => exact ⟨by simp [Origin.ingested], .inr (Queue.holds_send _ _)⟩
          | raised text => simp at text
    · obtain ⟨ingested, served⟩ := served ⟨taken, member, call⟩
      refine ⟨ingested_step step ingested, ?_⟩
      rcases served with ⟨row, present, ended⟩ | holds
      · exact .inl ((row_change step job).terminal present ended)
      · rcases holds_step step holds with holds | ⟨id, message, exit, held, addressed⟩
        · exact .inr holds
        · obtain ⟨row, present, ended⟩ :=
            ingested_finished (timely_completes earlier) ingested held addressed
          exact .inl ((row_change step job).terminal present ended)

/-- In every timely run, at most one worker is live on an ingested job, and so is every worker that
does not give up; each finishing update changes exactly its row; every worker that acknowledges a
message of the job found it finished; and a published, unfinished job still has a message. -/
theorem timely_pipeline
    (reached : (system env).recorded.Reached (System.onStates (Timely job)) run)
    (ingested : (run.2.origins job).ingested = true) :
    (∀ first second, LiveAttempt job run.2 first → LiveAttempt job run.2 second →
      first = second) ∧
    (∀ id, WillFinish env job run.2 id → LiveAttempt job run.2 id) ∧
    (∀ id call attempt result next,
      Worker.finishing run.2.shared.jobs (run.2.workers id) call = some (attempt, result) →
      attempt.job = job → step env run.2 (.worker id call) = some next →
      Timely job run.2 (.worker id call) next → result.2 = true ∧ ChangesOnly job run.2 next) ∧
    (∀ id message exit, run.2.workers id = .acknowledging message exit →
      message.jobId = some job →
      exit ≠ .lostClaim ∧ exit ≠ .unknownJob ∧ Finished run.2 job) ∧
    (Published run job → Finished run.2 job ∨ run.2.shared.queue.Holds job) := by
  refine ⟨?_, ?_, ?_, ?_, ?_⟩
  · exact fun first second => timely_single reached
  · exact fun id => willFinish_live
  · intro id call attempt result next
    exact timely_changes reached
  · intro id message exit held addressed
    have clean := timely_noStrayExit reached id message addressed
    refine ⟨?_, ?_, ingested_finished (timely_completes reached) ingested held addressed⟩
    · rintro rfl
      exact clean.1 held
    · rintro rfl
      exact clean.2 ingested held
  · exact fun published => (timely_served reached published).2

/-- A worker claims an ingested job right after its publish. -/
def promptSchedule : List Action :=
  [.createJob 1 .smallest 3 "s3://incoming/a.json".toList 0, .ingest 1 (.publish .delivered),
    .worker 0 (.receive ⟨0, some 1⟩), .worker 0 (.claim 0)]

/-- The worker that claimed the job is the only live one, and the queue keeps the message. -/
theorem timely_pipeline_prompt : ∃ run,
    (system sampleEnvironment).recorded.Reached (System.onStates (Timely 1)) run ∧
    LiveAttempt 1 run.2 0 ∧ (∀ id, LiveAttempt 1 run.2 id → id = 0) ∧
    run.2.shared.queue.Holds 1 := by
  have ran : ((system sampleEnvironment).recorded.run ([], initial 0) promptSchedule).map
      (fun run => (run.1.map (·.action), (run.2.origins 1).ingested,
        (run.2.shared.jobs 1).map (·.status), (run.2.workers 0).attempt, run.2.shared.now)) =
      some (promptSchedule.reverse, true, some .processing,
        some ⟨⟨⟨0, some 1⟩, 1, rfl⟩, 90000000⟩, 0) := by rfl
  have timely : ∀ action ∈ promptSchedule, ∀ before after, Timely 1 before action after := by
    intro action member before after
    simp only [promptSchedule, List.mem_cons, List.not_mem_nil, or_false] at member
    rcases member with rfl | rfl | rfl | rfl
    · exact ⟨by simp, by simp⟩
    · exact ⟨by simp, by simp⟩
    · refine ⟨?_, by simp⟩
      intro id call attempt result same finished
      cases same
      cases phase : before.workers 0 <;> simp [phase, Worker.finishing] at finished
    · refine ⟨?_, by simp⟩
      intro id call attempt result same finished
      cases same
      cases phase : before.workers 0 <;> simp [phase, Worker.finishing] at finished
  obtain ⟨run, path, seen⟩ := System.run_observed (System.onStates (Timely 1)) ran
    (fun action member before after => timely action member before.2 after.2)
  simp only [Prod.mk.injEq] at seen
  obtain ⟨actions, ingested, status, window, now⟩ := seen
  have reached : (system sampleEnvironment).recorded.Reached (System.onStates (Timely 1)) run :=
    ⟨_, ⟨rfl, ⟨0, rfl⟩⟩, path⟩
  have live : LiveAttempt 1 run.2 0 := ⟨_, window, rfl, by rw [now]; decide⟩
  have published : Published run 1 := by
    have member : Action.ingest 1 (.publish .delivered) ∈ run.1.map (·.action) := by
      rw [actions]
      simp [promptSchedule]
    obtain ⟨taken, member, same⟩ := List.mem_map.mp member
    exact ⟨taken, member, same⟩
  obtain ⟨single, _, _, _, served⟩ := timely_pipeline reached ingested
  refine ⟨run, reached, live, fun id other => single id 0 other live, ?_⟩
  rcases served published with ⟨row, present, ended⟩ | holds
  · rw [present, Option.map_some, Option.some.injEq] at status
    rw [status] at ended
    cases ended
  · exact holds

end ConvoScore.Pipeline
