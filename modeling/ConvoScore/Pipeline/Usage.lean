import ConvoScore.Library.Book
import ConvoScore.Pipeline.Metrics
import ConvoScore.Worker.Usage
import Mathlib.Algebra.Order.BigOperators.Group.Finset

namespace ConvoScore.Pipeline
open Library

/-- A worker whose metrics raised does nothing more than leave `process`. -/
def Recorded : System.Condition State Action :=
  fun before action _ => ∀ id call attempt outcome since, action = .worker id call →
    before.workers id = .persisting attempt outcome since →
    (Worker.recordSuccessMetrics outcome).2 = true → call = .abandon ∨ call = .crash

/-- What each worker counts. -/
def spentBy (usage : Worker.Usage) : Book (System.Taken State Action) WorkerId Int := fun taken =>
  match taken.action with
  | .worker id call => some (id, usage.spent call)
  | _ => none

/-- What each worker has counted for the answers that it stores. -/
def savedBy (usage : Worker.Usage) : Book (System.Taken State Action) WorkerId Int := fun taken =>
  match taken.action with
  | .worker id call =>
      some (id, usage.saved taken.before.shared.jobs (taken.before.workers id) call)
  | _ => none

/-- What each worker has counted for the answers that it gives up. -/
def droppedBy (usage : Worker.Usage) : Book (System.Taken State Action) WorkerId Int := fun taken =>
  match taken.action with
  | .worker id call =>
      some (id, usage.dropped taken.before.shared.jobs (taken.before.workers id) call)
  | _ => none

/-- What has been counted for the answers that each job stores. -/
def savedFor (usage : Worker.Usage) : Book (System.Taken State Action) Uuid Int := fun taken =>
  match taken.action with
  | .worker id call =>
      (Worker.Usage.saving taken.before.shared.jobs (taken.before.workers id) call).map
        fun found => (found.1.job, usage.counted found.2)
  | _ => none

/-- What a worker has counted for an answer that it still holds. -/
def pending (usage : Worker.Usage) (state : State) (id : WorkerId) : Int :=
  usage.pending (state.workers id)

/-- What the row of a job adds to the statistics. -/
def stored (usage : Worker.Usage) (row : Option Conversation) : Int :=
  (row.bind usage.column).getD 0

/-- An unfinished row adds nothing to the statistics. -/
def Blank (usage : Worker.Usage) (state : State) : Prop :=
  ∀ job row, state.shared.jobs job = some row → row.status.terminal = false →
    usage.column row = none

variable {env : Environment} {state next : State} {action : Action} {usage : Worker.Usage}
  {history : History} {job : Uuid} {rows : List Conversation}

/-- What a worker counts is pending until it is stored or given up. -/
theorem pending_step (usage : Worker.Usage) (step : Step env state action next) (id : WorkerId) :
    (spentBy usage).entry ⟨state, action, next⟩ id + pending usage state id =
      (savedBy usage).entry ⟨state, action, next⟩ id +
        (droppedBy usage).entry ⟨state, action, next⟩ id + pending usage next id := by
  cases step with
  | @worker target call shared phase move =>
      have spent : spentBy usage ⟨state, .worker target call,
          state.withWorker shared target phase⟩ = some (target, usage.spent call) := rfl
      have saved : savedBy usage ⟨state, .worker target call,
          state.withWorker shared target phase⟩ =
          some (target, usage.saved state.shared.jobs (state.workers target) call) := rfl
      have dropped : droppedBy usage ⟨state, .worker target call,
          state.withWorker shared target phase⟩ =
          some (target, usage.dropped state.shared.jobs (state.workers target) call) := rfl
      by_cases same : target = id
      · subst same
        rw [Book.entry_self spent, Book.entry_self saved, Book.entry_self dropped, pending, pending,
          withWorker_workers, if_pos rfl]
        exact Worker.Usage.pending_step move
      · rw [Book.entry_other spent same, Book.entry_other saved same,
          Book.entry_other dropped same, pending, pending, withWorker_workers,
          if_neg (Ne.symm same)]
        rfl
  | _ => rfl

/-- Every worker has stored or given up what it counted, or still holds it. -/
def PaidUp (usage : Worker.Usage) (history : History) (state : State) : Prop :=
  ∀ id, (spentBy usage).share history id = (savedBy usage).share history id +
    (droppedBy usage).share history id + pending usage state id

theorem paidUp_step (paid : PaidUp usage history state) (step : Step env state action next) :
    PaidUp usage (⟨state, action, next⟩ :: history) next := by
  intro id
  have before := paid id
  have change := pending_step usage step id
  simp only [Book.share_cons]
  omega

/-- The row of an open request adds nothing to the statistics. -/
theorem Draft.blank {sha256 : Text → Text} {row : Conversation} (draft : Draft sha256 row) :
    usage.column row = none := by
  induction draft with
  | created => exact Worker.Usage.column_createJob
  | enqueued _ ih => rw [Worker.Usage.column_withEnqueued, ih]
  | enqueueFailed _ ih => rw [Worker.Usage.column_withEnqueueFailed, ih]

/-- A step stores an answer in the row of the job, or the row adds what it added before. -/
theorem stored_change (drafts : DraftRows env state) (change : RowChange env state next job action) :
    stored usage (next.shared.jobs job) = stored usage (state.shared.jobs job) ∨
      ∃ id start attempt outcome since, action = .worker id (.complete start) ∧
        state.workers id = .persisting attempt outcome since ∧ attempt.job = job ∧
        ∃ row, state.shared.jobs job = some row ∧ row.status = .processing := by
  cases change with
  | kept same => exact .inl (congrArg _ same)
  | submitted origin opened absent written =>
      refine .inl ?_
      rw [written, absent, stored, Option.bind_some, (drafts.submitted origin opened).blank]
      rfl
  | created _ absent written =>
      refine .inl ?_
      rw [written, absent, stored, Option.bind_some, Worker.Usage.column_createJob]
      rfl
  | completed phase same present accepted =>
      exact .inr ⟨_, _, _, _, _, rfl, phase, same, _, present, accepted⟩
  | claimed _ _ _ _ present _ written =>
      refine .inl ?_
      rw [written, present, stored, stored, Option.bind_some, Option.bind_some,
        Worker.Usage.column_withClaim]
  | released _ _ present _ written =>
      refine .inl ?_
      rw [written, present, stored, stored, Option.bind_some, Option.bind_some,
        Worker.Usage.column_withRelease]
  | failed _ _ present _ written =>
      refine .inl ?_
      rw [written, present, stored, stored, Option.bind_some, Option.bind_some,
        Worker.Usage.column_withFailure]
  | enqueued present written =>
      refine .inl ?_
      rw [written, present, stored, stored, Option.bind_some, Option.bind_some,
        Worker.Usage.column_withEnqueued]
  | enqueueFailed present written =>
      refine .inl ?_
      rw [written, present, stored, stored, Option.bind_some, Option.bind_some,
        Worker.Usage.column_withEnqueueFailed]

/-- An unfinished row of the next state adds nothing to the statistics. -/
theorem blank_step (drafts : DraftRows env state) (blank : Blank usage state)
    (step : Step env state action next) : Blank usage next := by
  intro job row present unfinished
  cases row_change step job with
  | kept same => exact blank job row (same ▸ present) unfinished
  | submitted origin opened _ written =>
      rw [written, Option.some.injEq] at present
      exact present ▸ (drafts.submitted origin opened).blank
  | created _ _ written =>
      rw [written, Option.some.injEq] at present
      exact present ▸ Worker.Usage.column_createJob
  | claimed _ _ _ _ found free written =>
      rw [written, Option.some.injEq] at present
      subst present
      rw [Worker.Usage.column_withClaim]
      exact blank job _ found (Conversation.claimable_iff.mp free).1
  | released _ _ found accepted written =>
      rw [written, Option.some.injEq] at present
      subst present
      rw [Worker.Usage.column_withRelease]
      exact blank job _ found (by rw [accepted]; rfl)
  | enqueued found written =>
      rw [written, Option.some.injEq] at present
      subst present
      rw [Worker.Usage.column_withEnqueued]
      exact blank job _ found unfinished
  | completed _ _ _ _ written | failed _ _ _ _ written | enqueueFailed _ written =>
      rw [written, Option.some.injEq] at present
      subst present
      cases unfinished

/-- The books enter under a job what its row adds to the statistics. -/
def Posted (usage : Worker.Usage) (history : History) (state : State) : Prop :=
  ∀ job, (savedFor usage).share history job = stored usage (state.shared.jobs job)

/-- A worker that stores an answer completes the row of its job. -/
theorem savedFor_written {found : Uuid × Int} (step : Step env state action next)
    (booked : savedFor usage ⟨state, action, next⟩ = some found) :
    ∃ id start attempt outcome since row, action = .worker id (.complete start) ∧
      state.workers id = .persisting attempt outcome since ∧
      found = (attempt.job, usage.counted outcome) ∧
      state.shared.jobs attempt.job = some row ∧ row.status = .processing ∧
      next.shared = state.shared.write attempt.job (row.withResult start outcome) := by
  cases step with
  | @worker id call shared phase move =>
      obtain ⟨answer, saving, rfl⟩ := Option.map_eq_some_iff.mp booked
      obtain ⟨since, start, row, held, rfl, present, accepted, rfl⟩ :=
        Worker.Usage.saving_written move saving
      exact ⟨id, start, answer.1, answer.2, since, row, rfl, held, rfl, present, accepted, rfl⟩
  | _ => cases booked

/-- A worker that completes a processing row stores its answer. -/
theorem savedFor_completes {id : WorkerId} {start since : Timestamp} {attempt : Worker.Attempt}
    {outcome : ScoringOutcome} {row : Conversation}
    (held : state.workers id = .persisting attempt outcome since)
    (present : state.shared.jobs attempt.job = some row) (accepted : row.status = .processing) :
    savedFor usage ⟨state, .worker id (.complete start), next⟩ =
      some (attempt.job, usage.counted outcome) := by
  have changed : (completeJob start state.shared.jobs attempt.job outcome).2 = true := by
    rw [completeJob, Table.updateWhere_changed present]
    exact Conversation.isProcessing_iff.mpr accepted
  simp [savedFor, held, Worker.Usage.saving, changed]

theorem posted_step (drafts : DraftRows env state) (blank : Blank usage state)
    (posted : Posted usage history state) (step : Step env state action next)
    (recorded : Recorded state action next) :
    Posted usage (⟨state, action, next⟩ :: history) next := by
  intro job
  rw [Book.share_cons, posted job]
  cases booked : savedFor usage ⟨state, action, next⟩ with
  | none =>
      rw [Book.entry_none booked, zero_add]
      rcases stored_change drafts (row_change step job) with
        same | ⟨id, start, attempt, outcome, since, rfl, held, rfl, row, present, accepted⟩
      · exact same.symm
      · rw [savedFor_completes held present accepted] at booked
        cases booked
  | some found =>
      obtain ⟨id, start, attempt, outcome, since, row, rfl, held, rfl, present, accepted, written⟩ :=
        savedFor_written step booked
      by_cases same : attempt.job = job
      · subst same
        have before : usage.column row = none := blank _ row present (by rw [accepted]; rfl)
        have fine : (Worker.recordSuccessMetrics outcome).2 = false := by
          by_contra raised
          rcases recorded id _ attempt outcome since rfl held (by simpa using raised) with
            left | left <;> cases left
        rw [Book.entry_self booked, written, Shared.write_jobs_self, stored, present,
          Option.bind_some, before, stored, Option.bind_some,
          Worker.Usage.counted_of_recorded fine]
        exact add_zero _
      · rw [Book.entry_other booked same, zero_add, written,
          Shared.write_jobs_of_ne (Ne.symm same)]

/-- The jobs and the workers book the same answers. -/
theorem savedFor_total : (savedFor usage).total history = (savedBy usage).total history := by
  refine congrArg List.sum (List.map_congr_left ?_)
  intro taken _
  cases acts : taken.action with
  | worker id call =>
      cases found : Worker.Usage.saving taken.before.shared.jobs (taken.before.workers id) call <;>
        simp [savedFor, savedBy, acts, found, Worker.Usage.saved]
  | _ => simp [savedFor, savedBy, acts]

/-- What the statistics of a scan report is what the jobs have booked. -/
theorem reported_eq (posted : Posted usage history state)
    (scan : Scan state.shared.jobs rows) :
    usage.reported (stats rows) = (savedFor usage).total history := by
  have nothing : ∀ job, job ∉ rowIds rows → (savedFor usage).share history job = 0 := by
    intro job unlisted
    rw [posted job, scan.absent unlisted]
    rfl
  rw [Worker.Usage.reported_stats, ← scan.sum_eq, Book.total_eq_sum_of_zero nothing]
  exact Finset.sum_congr rfl fun job _ => (posted job).symm

/-- The books of every run are paid and posted. -/
theorem run_booked {run : History × State}
    (reached : (system env).recorded.Reached (System.onStates Recorded) run)
    (usage : Worker.Usage) :
    PaidUp usage run.1 run.2 ∧ Posted usage run.1 run.2 ∧ Blank usage run.2 := by
  refine reached.historyInvariant (motive := fun history state =>
    PaidUp usage history state ∧ Posted usage history state ∧ Blank usage state) ?_ ?_
  · rintro _ ⟨now, rfl⟩
    refine ⟨fun id => rfl, fun job => rfl, ?_⟩
    intro job row present
    cases present
  · rintro history before action after earlier ⟨paid, posted, blank⟩ stepped recorded
    have step := step_cases stepped
    have drafts := run_drafts earlier
    exact ⟨paidUp_step paid step, posted_step drafts blank posted step recorded,
      blank_step drafts blank step⟩

/-- What workers have given up is never negative. -/
theorem droppedBy_total_nonneg : 0 ≤ (droppedBy usage).total history := by
  refine List.sum_nonneg ?_
  intro amount member
  obtain ⟨taken, _, rfl⟩ := List.mem_map.mp member
  cases acts : taken.action with
  | worker id call => simpa [droppedBy, acts] using Worker.Usage.dropped_nonneg
  | _ => simp [droppedBy, acts]

/-- What the counter has counted is what the statistics report, what was given up with an attempt,
and what workers are about to store; so the statistics never report more than was counted. -/
theorem usage_accounted {run : History × State}
    (reached : (system env).recorded.Reached (System.onStates Recorded) run)
    (usage : Worker.Usage) (scan : Scan run.2.shared.jobs rows) (pods : Finset WorkerId)
    (others : ∀ id, id ∉ pods → pending usage run.2 id = 0) :
    (spentBy usage).total run.1 = usage.reported (stats rows) + (droppedBy usage).total run.1 +
      ∑ id ∈ pods, pending usage run.2 id ∧
    usage.reported (stats rows) ≤ (spentBy usage).total run.1 := by
  obtain ⟨paid, posted, _⟩ := run_booked reached usage
  have equal : (spentBy usage).total run.1 = usage.reported (stats rows) +
      (droppedBy usage).total run.1 + ∑ id ∈ pods, pending usage run.2 id := by
    rw [reported_eq posted scan, savedFor_total]
    have totals := @Book.totals_eq _ _ _ _ _ run.1 [spentBy usage] [savedBy usage, droppedBy usage]
      (pending usage run.2) pods others fun id => by simpa using paid id
    simpa using totals
  have dropped : 0 ≤ (droppedBy usage).total run.1 := droppedBy_total_nonneg
  have held : 0 ≤ ∑ id ∈ pods, pending usage run.2 id :=
    Finset.sum_nonneg fun id _ => Worker.Usage.pending_nonneg
  refine ⟨equal, ?_⟩
  omega

/-- The answer names this many tokens of the prompt. -/
def pricedOutcome (tokens : Int) : ScoringOutcome :=
  {ScoringOutcome.calm with promptTokens := some tokens}

/-- Three workers score one job one after the other; one stores its answer, one finds the job
completed, and one still holds its answer. -/
def threefoldSchedule : List Action :=
  [.createJob 1 .smallest 3 "s3://incoming/a.json".toList 0, .ingest 1 (.publish .delivered),
    .worker 0 (.receive ⟨0, some 1⟩), .worker 0 (.claim 0), .worker 0 .readJob, .tick 90000001,
    .worker 1 (.receive ⟨0, some 1⟩), .worker 1 (.claim 90000001), .worker 1 .readJob,
    .tick 90000001, .worker 2 (.receive ⟨0, some 1⟩), .worker 2 (.claim 180000002),
    .worker 2 .readJob, .worker 0 (.score (.outcome (pricedOutcome 80))),
    .worker 1 (.score (.outcome (pricedOutcome 100))),
    .worker 2 (.score (.outcome (pricedOutcome 7))), .worker 1 (.complete 180000002),
    .worker 0 (.complete 180000002)]

/-- The check that the conditions on the schedule amount to. -/
def checkThreefold (before : History × State) : Action → Bool
  | .worker id _ => decide (id < 3) &&
      match before.2.workers id with
      | .persisting _ outcome _ => !(Worker.recordSuccessMetrics outcome).2
      | _ => true
  | .createJob job _ _ _ _ => decide (job = 1)
  | .submit _ _ _ _ => false
  | _ => true

theorem checkThreefold_sound {before after : History × State}
    (checked : checkThreefold before action = true) :
    System.onStates Recorded before action after ∧
      System.onStates (OnlyBelow 3) before action after ∧
      System.onStates (OnlyJobs [1]) before action after := by
  refine ⟨?_, ?_, ?_⟩
  · rintro id call attempt outcome since rfl held raised
    simp [checkThreefold, held, raised] at checked
  · rintro id call rfl
    exact of_decide_eq_true (Bool.and_eq_true_iff.mp checked).1
  · intro other conversation maxAttempts
    refine ⟨?_, ?_⟩
    · rintro sourceRef clock rfl
      exact List.mem_singleton.mpr (of_decide_eq_true checked)
    · rintro start rfl
      cases checked

/-- Of the 187 tokens that were counted, the statistics report 100; 80 were given up and 7 are
about to be stored. -/
theorem usage_accounted_threefold : ∃ run row,
    (system sampleEnvironment).recorded.Reached (System.onStates Recorded) run ∧
    Scan run.2.shared.jobs [row] ∧ (spentBy .promptTokens).total run.1 = 187 ∧
    Worker.Usage.promptTokens.reported (stats [row]) = 100 ∧
    (droppedBy .promptTokens).total run.1 = 80 ∧
    (spentBy .promptTokens).total run.1 = Worker.Usage.promptTokens.reported (stats [row]) +
      (droppedBy .promptTokens).total run.1 +
      ∑ id ∈ Finset.range 3, pending .promptTokens run.2 id := by
  have ran : (((system sampleEnvironment).recorded.guarded checkThreefold).run ([], initial 0)
      threefoldSchedule).map (fun run => ((run.2.shared.jobs 1).map fun row =>
        (row.id, row.promptTokens), (spentBy .promptTokens).total run.1,
        (droppedBy .promptTokens).total run.1)) = some (some (1, some 100), 187, 80) := by rfl
  obtain ⟨run, path, seen⟩ := System.guarded_observed ran fun _ _ _ => checkThreefold_sound
  simp only [Prod.mk.injEq] at seen
  obtain ⟨found, spent, dropped⟩ := seen
  obtain ⟨row, present, columns⟩ := Option.map_eq_some_iff.mp found
  obtain ⟨key, tokens⟩ := Prod.mk.inj columns
  have reached : (system sampleEnvironment).recorded.Reached (System.onStates Recorded) run :=
    ⟨_, ⟨rfl, ⟨0, rfl⟩⟩, path.weaken fun _ _ _ both => both.1⟩
  have idle := onlyBelow_idle (path.weaken fun _ _ _ both => both.2.1) fun _ _ => rfl
  have absent : ∀ other, other ≠ 1 → run.2.shared.jobs other = none := fun _ different =>
    (onlyJobs_unused (path.weaken fun _ _ _ both => both.2.2) ⟨rfl, rfl⟩
      (by simpa using different)).1
  have scan : Scan run.2.shared.jobs [row] := by
    refine .of_rows (List.nodup_singleton _) (List.forall_mem_singleton.mpr (key ▸ present)) ?_
    intro job unlisted
    exact absent job (by simpa [key] using unlisted)
  have reported : Worker.Usage.promptTokens.reported (stats [row]) = 100 := by
    rw [Worker.Usage.reported_stats, Query.sum_cons, Worker.Usage.column, tokens]
    rfl
  have others : ∀ id, id ∉ Finset.range 3 → pending .promptTokens run.2 id = 0 := by
    intro id outside
    rw [pending, idle id (Nat.not_lt.mp fun below => outside (Finset.mem_range.mpr below))]
    rfl
  exact ⟨run, row, reached, scan, spent, reported, dropped,
    (usage_accounted reached .promptTokens scan (Finset.range 3) others).1⟩

end ConvoScore.Pipeline
