import ConvoScore.Pipeline.Metrics
import ConvoScore.Pipeline.Sources
import ConvoScore.Repository.Totals
import Mathlib.Algebra.Order.BigOperators.Group.Finset
import Mathlib.Algebra.Order.BigOperators.Group.List
import Mathlib.Algebra.Order.Ring.Int

namespace ConvoScore.Pipeline
open Library

/-- What a step adds to `jobs_created_total` and to `enqueue_failures_total` of its source
(`jobs_failed_total` for a failed enqueue goes up with the latter), and the jobs that it counted
and then lost. -/
structure Account where
  created : Int
  failures : Int
  lost : Int
  deriving DecidableEq

/-- `submit_conversation` counts a job before its transaction commits, and a failed one after.
The counters take every increment. -/
def submitAccount : Api.Phase → Api.Action → Account
  | .marking _ _, .markEnqueued => ⟨1, 0, 0⟩
  | .rejecting _, .commit => ⟨0, 1, 0⟩
  | .returning _, .rollback | .committing _, .rollback => ⟨0, 0, 1⟩
  | _, _ => ⟨0, 0, 0⟩

/-- `_create_job` counts after the transaction that marks the row. -/
def publicationAccount : Ingest.Publication.Action → Account
  | .markEnqueued _ => ⟨1, 0, 0⟩
  | .markEnqueueFailed _ => ⟨0, 1, 0⟩
  | .publish _ | .stop => ⟨0, 0, 0⟩

/-- The job and the source that a transition counts for. -/
def accountOf (taken : System.Taken State Action) : Option (Uuid × JobSource × Account) :=
  match taken.action with
  | .api job action =>
      match taken.before.origins job with
      | .api request => some (job, .api, submitAccount request.phase action)
      | _ => none
  | .ingest job action => some (job, .s3, publicationAccount action)
  | _ => none

/-- The book of one counter of a source. -/
def doorBook (counter : Account → Int) (source : JobSource) :
    Book (System.Taken State Action) Uuid Int := fun taken =>
  match accountOf taken with
  | some (job, door, account) => if door = source then some (job, counter account) else none
  | none => none

/-- A publisher has committed the row of its job. -/
def entered (source : JobSource) : Origin → Int
  | .api request => if source = .api ∧ request.phase.stored = true then 1 else 0
  | .s3 _ => if source = .s3 then 1 else 0
  | .unused => 0

/-- A request may be counted before its row is committed. -/
def countedEarly : Api.Phase → Bool
  | .returning _ | .committing _ => true
  | _ => false

/-- What the counters of a source are ahead of its rows: requests are counted too early, and
publications are counted late or never. -/
def ahead (source : JobSource) : Origin → Int
  | .api request => if source = .api ∧ countedEarly request.phase = true then 1 else 0
  | .s3 publication =>
      if source = .s3 ∧ publication ≠ .marked ∧ publication ≠ .markedFailed then -1 else 0
  | .unused => 0

variable {env : Environment} {state next : State} {action : Action} {source : JobSource}
  {history : History} {job : Uuid} {rows : List Conversation}

/-- A request is ahead of its row from the count to the commit or to the rollback. -/
theorem submit_balanced {shared later : Shared} {request after : Api.Request} {call : Api.Action}
    (move : Api.Move shared job request call later after) :
    (submitAccount request.phase call).created + (submitAccount request.phase call).failures +
        (entered .api (.api request) + ahead .api (.api request)) =
      (submitAccount request.phase call).lost +
        (entered .api (.api after) + ahead .api (.api after)) := by
  cases move with
  | refused ended => rcases ended with ⟨rfl, _⟩ | ⟨rfl, _⟩ <;> rfl
  | @rolledBack phase row sent received opened => cases phase <;> first | rfl | cases opened
  | @received phase => cases phase <;> rfl
  | _ => rfl

/-- A publication is behind its row until it has marked it. -/
theorem publication_balanced {shared later : Shared} {publication after : Ingest.Publication}
    {call : Ingest.Publication.Action}
    (move : Ingest.Publication.Move shared job publication call later after) :
    (publicationAccount call).created + (publicationAccount call).failures +
        (entered .s3 (.s3 publication) + ahead .s3 (.s3 publication)) =
      (publicationAccount call).lost + (entered .s3 (.s3 after) + ahead .s3 (.s3 after)) := by
  cases move with
  | @stopped publication unmarked unfailed =>
      cases publication <;> first | rfl | exact absurd rfl unmarked | exact absurd rfl unfailed
  | _ => rfl

/-- The counters of a source are balanced for a job. -/
def BalancedDoor (source : JobSource) (history : History) (state : State) : Prop :=
  ∀ job, (doorBook Account.created source).share history job +
      (doorBook Account.failures source).share history job =
    (doorBook Account.lost source).share history job +
      (entered source (state.origins job) + ahead source (state.origins job))

/-- Every step keeps the counters of each source balanced. -/
theorem door_step (step : Step env state action next) (source : JobSource) (job : Uuid) :
    (doorBook Account.created source).entry ⟨state, action, next⟩ job +
        (doorBook Account.failures source).entry ⟨state, action, next⟩ job +
        (entered source (state.origins job) + ahead source (state.origins job)) =
      (doorBook Account.lost source).entry ⟨state, action, next⟩ job +
        (entered source (next.origins job) + ahead source (next.origins job)) := by
  cases step with
  | tick | duplicate | foreign | worker => simp [Book.entry, doorBook, accountOf]
  | @submit target _ _ _ unused =>
      rw [withOrigin_origins]
      split
      · rename_i same
        rw [same, unused]
        cases source <;> simp [Book.entry, doorBook, accountOf, entered, ahead, countedEarly,
          Api.Phase.stored]
      · simp [Book.entry, doorBook, accountOf]
  | @createJob target _ _ _ _ unused =>
      rw [withOrigin_origins]
      split
      · rename_i same
        rw [same, unused]
        cases source <;> simp [Book.entry, doorBook, accountOf, entered, ahead]
      · simp [Book.entry, doorBook, accountOf]
  | @api target request after call shared origin move =>
      have account : accountOf ⟨state, .api target call, state.withOrigin shared target (.api after)⟩ =
          some (target, .api, submitAccount request.phase call) := by
        simp only [accountOf, origin]
      rw [withOrigin_origins]
      split
      · rename_i same
        rw [same, origin]
        have balanced := submit_balanced move
        cases source with
        | api => simpa [Book.entry, doorBook, account] using balanced
        | s3 => simp [Book.entry, doorBook, account, entered, ahead]
      · rename_i different
        have other : target ≠ job := Ne.symm different
        cases source <;> simp [Book.entry, doorBook, account, other]
  | @ingest target publication after call shared origin move =>
      have account : accountOf ⟨state, .ingest target call,
          state.withOrigin shared target (.s3 after)⟩ =
          some (target, .s3, publicationAccount call) := rfl
      rw [withOrigin_origins]
      split
      · rename_i same
        rw [same, origin]
        have balanced := publication_balanced move
        cases source with
        | s3 => simpa [Book.entry, doorBook, account] using balanced
        | api => simp [Book.entry, doorBook, account, entered, ahead]
      · rename_i different
        have other : target ≠ job := Ne.symm different
        cases source <;> simp [Book.entry, doorBook, account, other]

/-- The counters of every run are balanced, and its rows have the sources of their publishers. -/
theorem run_balancedDoor {allowed : System.Condition (History × State) Action}
    {run : History × State} (reached : (system env).recorded.Reached allowed run)
    (source : JobSource) : BalancedDoor source run.1 run.2 ∧ SourcedRows run.2 := by
  refine reached.historyInvariant (motive := fun history state =>
    BalancedDoor source history state ∧ SourcedRows state) ?_ ?_
  · rintro _ ⟨now, rfl⟩
    exact ⟨fun job => rfl, sourcedRows_initial now⟩
  · rintro history before action after earlier ⟨balanced, sourced⟩ stepped _
    have step := step_cases stepped
    refine ⟨?_, sourcedRows_step (run_consistent earlier) sourced step⟩
    intro job
    have held := balanced job
    have change := door_step step source job
    simp only [Book.share_cons]
    omega

/-- A row counts for its source. -/
def sourceColumn (source : JobSource) (row : Conversation) : Option Int :=
  if row.source = source then some 1 else none

/-- The rows of a source are the committed jobs of its publishers. -/
theorem entered_eq (consistent : Consistent state) (sourced : SourcedRows state)
    (source : JobSource) (job : Uuid) :
    entered source (state.origins job) =
      ((state.shared.jobs job).bind (sourceColumn source)).getD 0 := by
  have stored := consistent.stored job
  cases present : state.shared.jobs job with
  | none =>
      rw [present] at stored
      cases origin : state.origins job with
      | unused => rfl
      | api request =>
          rw [origin] at stored
          have unstored : request.phase.stored = false := stored.symm
          simp [entered, unstored]
      | s3 publication =>
          rw [origin] at stored
          cases stored
  | some row =>
      rw [present] at stored
      have same := sourced.stored job row present
      cases origin : state.origins job with
      | unused =>
          rw [origin] at stored
          cases stored
      | api request =>
          rw [origin] at stored same
          have committed : request.phase.stored = true := stored.symm
          have door : row.source = .api := by
            cases found : row.source with
            | api => rfl
            | s3 => cases same.mp found
          cases source <;> simp [entered, committed, sourceColumn, door]
      | s3 publication =>
          rw [origin] at same
          have door : row.source = .s3 := same.mpr rfl
          cases source <;> simp [entered, sourceColumn, door]

/-- Only requests lose a job that they have counted. -/
theorem accountOf_lost {taken : System.Taken State Action} {account : Account}
    (counted : accountOf taken = some (job, source, account)) :
    0 ≤ account.lost ∧ (source = .s3 → account.lost = 0) := by
  unfold accountOf at counted
  split at counted
  · split at counted
    · cases counted
      refine ⟨?_, by simp⟩
      unfold submitAccount
      split <;> decide
    · cases counted
  · rename_i call _
    cases counted
    cases call <;> exact ⟨le_rfl, fun _ => rfl⟩
  · cases counted

theorem lost_sign (source : JobSource) (taken : System.Taken State Action) :
    0 ≤ ((doorBook Account.lost source taken).map (·.2)).getD 0 ∧
      (source = .s3 → ((doorBook Account.lost source taken).map (·.2)).getD 0 = 0) := by
  unfold doorBook
  split
  · rename_i counted
    obtain ⟨positive, never⟩ := accountOf_lost counted
    split
    · rename_i same
      exact ⟨positive, fun ingested => never (same.trans ingested)⟩
    · exact ⟨le_rfl, fun _ => rfl⟩
  · exact ⟨le_rfl, fun _ => rfl⟩

theorem lost_total_sign (source : JobSource) :
    0 ≤ (doorBook Account.lost source).total history ∧
      (source = .s3 → (doorBook Account.lost source).total history = 0) := by
  refine ⟨?_, ?_⟩
  · refine List.sum_nonneg ?_
    intro amount member
    obtain ⟨taken, _, rfl⟩ := List.mem_map.mp member
    exact (lost_sign source taken).1
  · intro ingested
    refine List.sum_eq_zero ?_
    intro amount member
    obtain ⟨taken, _, rfl⟩ := List.mem_map.mp member
    exact (lost_sign source taken).2 ingested

/-- The counters of the API are never behind its rows, and those of the ingestor never ahead. -/
theorem ahead_sign (origin : Origin) : 0 ≤ ahead .api origin ∧ ahead .s3 origin ≤ 0 := by
  cases origin with
  | unused => exact ⟨le_rfl, le_rfl⟩
  | api request =>
      refine ⟨?_, by simp [ahead]⟩
      simp only [ahead]
      split <;> decide
  | s3 publication =>
      refine ⟨by simp [ahead], ?_⟩
      simp only [ahead]
      split <;> decide

/-- As long as no counter raises, what the doors count as created or failed is what the statistics
report for their source, with the jobs that were counted and then rolled back, and those whose
count is early, late or missing: the API counts no job too few, and the ingestor counts none too
many. -/
theorem doors_accounted {allowed : System.Condition (History × State) Action}
    {run : History × State} (reached : (system env).recorded.Reached allowed run)
    (source : JobSource) (scan : Scan run.2.shared.jobs rows) (open_ : Finset Uuid)
    (others : ∀ job, job ∉ open_ → ahead source (run.2.origins job) = 0) :
    let counted := (doorBook Account.created source).total run.1 +
      (doorBook Account.failures source).total run.1
    let reported : Int := (((stats rows).bySource source).getD 0 : Nat)
    counted = reported + (doorBook Account.lost source).total run.1 +
      ∑ job ∈ open_, ahead source (run.2.origins job) ∧
    (source = .api → reported ≤ counted) ∧ (source = .s3 → counted ≤ reported) := by
  intro counted reported
  obtain ⟨balanced, sourced⟩ := run_balancedDoor reached source
  have consistent := run_consistent reached
  let rest : Uuid → Int := fun job =>
    entered source (run.2.origins job) + ahead source (run.2.origins job)
  have nothing : ∀ job, job ∉ rowIds rows ∪ open_ → rest job = 0 := by
    intro job outside
    rw [Finset.notMem_union] at outside
    show entered source (run.2.origins job) + ahead source (run.2.origins job) = 0
    rw [entered_eq consistent sourced, scan.absent outside.1, others job outside.2]
    rfl
  have totals := @Book.totals_eq _ _ _ _ _ run.1
    [doorBook Account.created source, doorBook Account.failures source]
    [doorBook Account.lost source] rest (rowIds rows ∪ open_) nothing
    fun job => by simpa using balanced job
  have rowsSum : ∑ job ∈ rowIds rows ∪ open_, entered source (run.2.origins job) = reported := by
    have ones : reported = Query.sum (sourceColumn source) rows := by
      refine (countBy_sum (fun row => some row.source) rows source).trans ?_
      simp only [Option.some.injEq]
      rfl
    rw [ones, ← scan.sum_eq]
    refine (Finset.sum_subset Finset.subset_union_left ?_).symm.trans ?_
    · intro job _ unlisted
      rw [entered_eq consistent sourced, scan.absent unlisted]
      rfl
    · exact Finset.sum_congr rfl fun job _ => entered_eq consistent sourced source job
  have openSum : ∑ job ∈ rowIds rows ∪ open_, ahead source (run.2.origins job) =
      ∑ job ∈ open_, ahead source (run.2.origins job) :=
    (Finset.sum_subset Finset.subset_union_right fun job _ outside => others job outside).symm
  simp only [rest, Finset.sum_add_distrib, rowsSum, openSum, List.map_cons, List.map_nil,
    List.sum_cons, List.sum_nil, add_zero] at totals
  have equal : counted = reported + (doorBook Account.lost source).total run.1 +
      ∑ job ∈ open_, ahead source (run.2.origins job) := by
    show _ + _ = _
    omega
  obtain ⟨positive, never⟩ : 0 ≤ (doorBook Account.lost source).total run.1 ∧ (source = .s3 →
      (doorBook Account.lost source).total run.1 = 0) := lost_total_sign source
  refine ⟨equal, ?_, ?_⟩
  · rintro rfl
    have early : 0 ≤ ∑ job ∈ open_, ahead .api (run.2.origins job) :=
      Finset.sum_nonneg fun job _ => (ahead_sign _).1
    omega
  · rintro rfl
    have late : ∑ job ∈ open_, ahead .s3 (run.2.origins job) ≤ 0 :=
      Finset.sum_nonpos fun job _ => (ahead_sign _).2
    have nothingLost := never rfl
    omega

/-- One accepted request is rolled back, one is refused, one is committed, and one has answered
without its commit. -/
def doorSchedule : List Action :=
  [.submit 1 .smallest 3 0, .api 1 (.publish .delivered), .api 1 .markEnqueued, .api 1 .rollback,
    .submit 2 .smallest 3 0, .api 2 (.publish (.refused "queue down".toList)),
    .api 2 .markEnqueueFailed, .api 2 .commit,
    .submit 3 .smallest 3 0, .api 3 (.publish .delivered), .api 3 .markEnqueued, .api 3 .respond,
    .api 3 .commit,
    .submit 4 .smallest 3 0, .api 4 (.publish .delivered), .api 4 .markEnqueued, .api 4 .respond]

/-- The API has counted three created jobs and one failure, and stored two rows. -/
theorem doors_accounted_sample : ∃ run first second,
    (system sampleEnvironment).recorded.Reached System.anyStep run ∧
    Scan run.2.shared.jobs [first, second] ∧
    (doorBook Account.created .api).total run.1 = 3 ∧
    (doorBook Account.failures .api).total run.1 = 1 ∧
    (doorBook Account.created .api).total run.1 + (doorBook Account.failures .api).total run.1 =
      (((stats [first, second]).bySource .api).getD 0 : Nat) +
        (doorBook Account.lost .api).total run.1 +
        ∑ job ∈ {4}, ahead .api (run.2.origins job) := by
  have ran : ((system sampleEnvironment).recorded.run ([], initial 0) doorSchedule).map (fun run =>
      ((run.2.shared.jobs 2).map (·.id), (run.2.shared.jobs 3).map (·.id), run.2.shared.jobs 1,
        run.2.shared.jobs 4, (doorBook Account.created .api).total run.1,
        (doorBook Account.failures .api).total run.1, ahead .api (run.2.origins 1),
        ahead .api (run.2.origins 2), ahead .api (run.2.origins 3))) =
      some (some 2, some 3, none, none, 3, 1, 0, 0, 0) := by rfl
  have fine : ∀ action ∈ doorSchedule, ∀ before after,
      System.onStates (OnlyJobs [1, 2, 3, 4]) before action after := by
    intro action member before after job conversation maxAttempts
    refine ⟨?_, ?_⟩
    · rintro sourceRef clock rfl
      simp [doorSchedule] at member
    · rintro start rfl
      simp only [doorSchedule, List.mem_cons, List.not_mem_nil, Action.submit.injEq, or_false,
        reduceCtorEq, false_or] at member
      rcases member with ⟨rfl, _⟩ | ⟨rfl, _⟩ | ⟨rfl, _⟩ | ⟨rfl, _⟩ <;> simp
  obtain ⟨run, path, seen⟩ := System.run_observed (System.onStates (OnlyJobs [1, 2, 3, 4])) ran fine
  simp only [Prod.mk.injEq] at seen
  obtain ⟨second, third, lost, late, created, failures, settled⟩ := seen
  obtain ⟨refused, present, refusedId⟩ := Option.map_eq_some_iff.mp second
  obtain ⟨stored, found, storedId⟩ := Option.map_eq_some_iff.mp third
  have reached : (system sampleEnvironment).recorded.Reached System.anyStep run :=
    ⟨_, ⟨rfl, ⟨0, rfl⟩⟩, path.weaken fun _ _ _ _ => trivial⟩
  have unused : ∀ job, job ∉ [1, 2, 3, 4] →
      run.2.shared.jobs job = none ∧ run.2.origins job = .unused :=
    fun _ different => onlyJobs_unused path ⟨rfl, rfl⟩ different
  have scan : Scan run.2.shared.jobs [refused, stored] := by
    refine .of_rows (by simp [refusedId, storedId]) ?_ ?_
    · intro row listed
      rcases List.mem_pair.mp listed with rfl | rfl
      · exact refusedId ▸ present
      · exact storedId ▸ found
    · intro job unlisted
      have different : job ≠ 2 ∧ job ≠ 3 := by simpa [refusedId, storedId] using unlisted
      by_cases one : job = 1
      · exact one ▸ lost
      · by_cases four : job = 4
        · exact four ▸ late
        · exact (unused job (by simp [one, different, four])).1
  have others : ∀ job, job ∉ ({4} : Finset Uuid) → ahead .api (run.2.origins job) = 0 := by
    intro job outside
    rw [Finset.mem_singleton] at outside
    by_cases listed : job ∈ [1, 2, 3]
    · simp only [List.mem_cons, List.not_mem_nil, or_false] at listed
      rcases listed with rfl | rfl | rfl
      · exact settled.1
      · exact settled.2.1
      · exact settled.2.2
    · rw [(unused job (by simpa [outside] using listed)).2]
      rfl
  exact ⟨run, refused, stored, reached, scan, created, failures,
    (doors_accounted reached .api scan {4} others).1⟩

end ConvoScore.Pipeline
