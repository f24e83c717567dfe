import ConvoScore.Pipeline.History
import ConvoScore.Pipeline.Sources
import ConvoScore.Pipeline.Verdict

namespace ConvoScore

/-- Two time stamps are in turn unless both are set and the first one is the later one. -/
def InTurn (first second : Option Timestamp) : Prop :=
  ∀ earlier later, first = some earlier → second = some later → earlier ≤ later

theorem InTurn.none_left {second : Option Timestamp} : InTurn none second := nofun

theorem InTurn.none_right {first : Option Timestamp} : InTurn first none := nofun

@[simp] theorem inTurn_some {earlier later : Timestamp} :
    InTurn (some earlier) (some later) ↔ earlier ≤ later := by
  simp [InTurn]

/-- The timeline of a row is what the detail page shows: created, queued, started, completed. -/
structure Conversation.Ordered (row : Conversation) : Prop where
  created : InTurn (some row.createdAt) row.enqueuedAt
  enqueued : InTurn row.enqueuedAt row.startedAt
  started : InTurn row.startedAt row.completedAt

/-- A fresh row was created by now, and nobody has started it. -/
structure Conversation.Fresh (now : Timestamp) (row : Conversation) : Prop where
  created : row.createdAt ≤ now
  unstarted : row.startedAt = none
  unended : row.status.terminal = false → row.completedAt = none

/-- The attempt whose finishing update a worker is about to make, and the time of its result. -/
def Worker.Phase.concluding : Worker.Phase → Option (Worker.Attempt × Timestamp)
  | .persisting attempt _ since | .releasing attempt _ _ since | .failing attempt _ _ since =>
      some (attempt, since)
  | .idle | .received _ _ | .unclaimed _ | .claimed _ | .scoring _ _ | .extending _ _
  | .acknowledging _ _ | .stopped => none

theorem Worker.Phase.attempt_of_concluding {phase : Worker.Phase} {attempt : Worker.Attempt}
    {since : Timestamp} (held : phase.concluding = some (attempt, since)) :
    phase.attempt = some attempt := by
  cases phase <;> cases held <;> rfl

/-- A result arrives now, in the window of its attempt. -/
theorem Worker.Move.concluding_source {settings : Settings} {shared next : Shared}
    {phase after : Worker.Phase} {action : Worker.Action} {attempt : Worker.Attempt}
    {since : Timestamp} (move : Worker.Move settings shared phase action next after)
    (held : after.concluding = some (attempt, since)) :
    phase.attempt = some attempt ∧ next = shared ∧ since = shared.now := by
  cases move with
  | scored | retry | giveUp =>
      cases held
      exact ⟨rfl, rfl, rfl⟩
  | _ => cases held

namespace Pipeline
open Library

/-- No time stamp of a row lies in the future, and the rows follow their publishers and workers. -/
structure Clocked (state : State) : Prop where
  created : ∀ job row, state.shared.jobs job = some row → row.createdAt ≤ state.shared.now
  started : ∀ job row start, state.shared.jobs job = some row → row.startedAt = some start →
    start ≤ state.shared.now
  unended : ∀ job row, state.shared.jobs job = some row → row.status.terminal = false →
    row.completedAt = none
  opened : ∀ job request row, state.origins job = .api request → request.phase.openRow = some row →
    row.Fresh state.shared.now
  marking : ∀ job since row, state.origins job = .s3 (.marking since) →
    state.shared.jobs job = some row → row.createdAt ≤ since
  claimed : ∀ id attempt row, (state.workers id).attempt = some attempt →
    state.shared.jobs attempt.job = some row → row.startedAt ≠ none
  concluding : ∀ id attempt since row start, (state.workers id).concluding = some (attempt, since) →
    state.shared.jobs attempt.job = some row → row.startedAt = some start → start ≤ since

variable {env : Environment} {state next : State} {action : Action} {job : Uuid}
  {row later : Conversation}

/-- The first claim of a job sets its start, and nothing changes it afterwards. -/
theorem RowChange.startedAt (change : RowChange env state next job action)
    (present : state.shared.jobs job = some row) (found : next.shared.jobs job = some later) :
    later.startedAt = row.startedAt ∨
      row.startedAt = none ∧ ∃ start, start ≤ state.shared.now ∧ later.startedAt = some start := by
  cases change with
  | kept same =>
      rw [same, present, Option.some.injEq] at found
      exact .inl (by rw [found])
  | submitted _ _ absent | created _ absent =>
      rw [absent] at present
      cases present
  | claimed _ _ past _ held _ written =>
      rw [present, Option.some.injEq] at held
      subst held
      rw [written, Option.some.injEq] at found
      subst found
      cases before : row.startedAt with
      | none => exact .inr ⟨rfl, _, past, by simp [Conversation.withClaim, before]⟩
      | some start => exact .inl (by simp [Conversation.withClaim, before])
  | completed _ _ held _ written | released _ _ held _ written | failed _ _ held _ written
  | enqueued held written | enqueueFailed held written =>
      rw [present, Option.some.injEq] at held
      subst held
      rw [written, Option.some.injEq] at found
      subst found
      exact .inl rfl

/-- A row is fresh when it appears. -/
theorem appeared_fresh (clocked : Clocked state) (step : Step env state action next)
    (absent : state.shared.jobs job = none) (found : next.shared.jobs job = some row) :
    row.Fresh state.shared.now := by
  rcases (row_change step job).appeared absent found with ⟨request, origin, opened, _⟩ |
    ⟨_, _, _, _, _, rfl, rfl⟩
  · exact clocked.opened job request row origin (Api.Phase.openRow_of_opened opened)
  · cases step with
    | createJob _ past => exact ⟨past, rfl, fun _ => rfl⟩

theorem created_step (clocked : Clocked state) (step : Step env state action next)
    (found : next.shared.jobs job = some row) : row.createdAt ≤ state.shared.now := by
  cases before : state.shared.jobs job with
  | none => exact (appeared_fresh clocked step before found).created
  | some earlier =>
      rw [((row_change step job).sameRequest before found).createdAt]
      exact clocked.created job earlier before

theorem started_step (clocked : Clocked state) (step : Step env state action next)
    {start : Timestamp} (found : next.shared.jobs job = some row)
    (started : row.startedAt = some start) : start ≤ state.shared.now := by
  cases before : state.shared.jobs job with
  | none =>
      rw [(appeared_fresh clocked step before found).unstarted] at started
      cases started
  | some earlier =>
      rcases (row_change step job).startedAt before found with same | ⟨_, claim, past, set⟩
      · exact clocked.started job earlier start before (same ▸ started)
      · rw [set, Option.some.injEq] at started
        exact started ▸ past

/-- Only finished rows have ended. -/
theorem unended_step (clocked : Clocked state) (step : Step env state action next)
    (found : next.shared.jobs job = some row) (unfinished : row.status.terminal = false) :
    row.completedAt = none := by
  cases row_change step job with
  | kept same => exact clocked.unended job row (same ▸ found) unfinished
  | submitted origin opened _ written =>
      rw [written, Option.some.injEq] at found
      subst found
      exact (clocked.opened job _ _ origin (Api.Phase.openRow_of_opened opened)).unended unfinished
  | created _ _ written =>
      rw [written, Option.some.injEq] at found
      exact found ▸ rfl
  | claimed _ _ _ _ held free written =>
      have ended := clocked.unended job _ held (Conversation.claimable_iff.mp free).1
      rw [written, Option.some.injEq] at found
      exact found ▸ ended
  | released _ _ held accepted written =>
      have ended := clocked.unended job _ held (by rw [accepted]; rfl)
      rw [written, Option.some.injEq] at found
      exact found ▸ ended
  | enqueued held written =>
      rw [written, Option.some.injEq] at found
      subst found
      have ended := clocked.unended job _ held unfinished
      exact ended
  | completed _ _ _ _ written | failed _ _ _ _ written | enqueueFailed _ written =>
      rw [written, Option.some.injEq] at found
      subst found
      cases unfinished

theorem marking_step (clocked : Clocked state) (step : Step env state action next)
    {since : Timestamp} (origin : next.origins job = .s3 (.marking since))
    (found : next.shared.jobs job = some row) : row.createdAt ≤ since := by
  have created := created_step clocked step found
  rcases published_source step origin with old | ⟨_, opened⟩ | ⟨_, _, _, _, move⟩
  · cases before : state.shared.jobs job with
    | none =>
        rcases (row_change step job).appeared before found with ⟨_, other, _⟩ | ⟨other, _⟩ <;>
          rw [other] at old <;> cases old
    | some earlier =>
        rw [((row_change step job).sameRequest before found).createdAt]
        exact clocked.marking job since earlier old before
  · cases opened
  · generalize next.shared = shared at move
    cases move with
    | delivered => exact created

/-- An attempt in its window has started its row. -/
theorem claimed_step (clocked : Clocked state) (consistent : Consistent state)
    (step : Step env state action next) {id : WorkerId} {attempt : Worker.Attempt}
    (held : (next.workers id).attempt = some attempt)
    (found : next.shared.jobs attempt.job = some row) : row.startedAt ≠ none := by
  have kept (held : (state.workers id).attempt = some attempt) : row.startedAt ≠ none := by
    obtain ⟨earlier, before⟩ := inWindow_row consistent held rfl
    have started := clocked.claimed id attempt earlier held before
    rcases (row_change step attempt.job).startedAt before found with same | ⟨unstarted, _⟩
    · rw [same]
      exact started
    · exact absurd unstarted started
  rcases worker_source step id with same | ⟨call, rfl, move⟩
  · exact kept (same ▸ held)
  · rcases move.attempt_source held with earlier | ⟨start, rfl, entered, _⟩
    · exact kept earlier
    · obtain ⟨_, _, _, _, _, _, written⟩ := claim_entered step entered
      rw [written, Option.some.injEq] at found
      subst found
      exact nofun

/-- A result never arrives before the start of its job. -/
theorem concluding_step (clocked : Clocked state) (consistent : Consistent state)
    (step : Step env state action next) {id : WorkerId} {attempt : Worker.Attempt}
    {since start : Timestamp} (held : (next.workers id).concluding = some (attempt, since))
    (found : next.shared.jobs attempt.job = some row) (started : row.startedAt = some start) :
    start ≤ since := by
  rcases worker_source step id with same | ⟨call, rfl, move⟩
  · rw [same] at held
    have window := Worker.Phase.attempt_of_concluding held
    obtain ⟨earlier, before⟩ := inWindow_row consistent window rfl
    rcases (row_change step attempt.job).startedAt before found with kept | ⟨unstarted, _⟩
    · exact clocked.concluding id attempt since earlier start held before (kept ▸ started)
    · exact absurd unstarted (clocked.claimed id attempt earlier window before)
  · obtain ⟨_, unmoved, rfl⟩ := move.concluding_source held
    rw [unmoved] at found
    exact clocked.started attempt.job row start found started

/-- The row of an open request stays fresh. -/
theorem opened_step (clocked : Clocked state) (step : Step env state action next)
    {request : Api.Request} (origin : next.origins job = .api request)
    (opened : request.phase.openRow = some row) : row.Fresh next.shared.now := by
  refine openRow_preserves ?_ ?_ ?_ ?_ step origin opened
  · rintro _ _ _ rfl
    exact ⟨step_now_le step, rfl, fun _ => rfl⟩
  · intro row start fresh
    exact ⟨fresh.created, fresh.unstarted, fresh.unended⟩
  · intro row start error fresh
    exact ⟨fresh.created, fresh.unstarted, nofun⟩
  · intro request row origin opened
    have fresh := clocked.opened job request row origin opened
    exact ⟨fresh.created.trans (step_now_le step), fresh.unstarted, fresh.unended⟩

theorem clocked_step (consistent : Consistent state) (clocked : Clocked state)
    (step : Step env state action next) : Clocked next where
  created _ _ found := (created_step clocked step found).trans (step_now_le step)
  started _ _ _ found started := (started_step clocked step found started).trans (step_now_le step)
  unended _ _ := unended_step clocked step
  opened _ _ _ := opened_step clocked step
  marking _ _ _ := marking_step clocked step
  claimed _ _ _ := claimed_step clocked consistent step
  concluding _ _ _ _ _ := concluding_step clocked consistent step

theorem clocked_initial (now : Timestamp) : Clocked (initial now) where
  created _ _ found := by cases found
  started _ _ _ found := by cases found
  unended _ _ found := by cases found
  opened _ _ _ origin := by cases origin
  marking _ _ _ origin := by cases origin
  claimed _ _ _ held := by cases held
  concluding _ _ _ _ _ held := by cases held

/-- Every reached state is clocked. -/
theorem reached_clocked {allowed : System.Condition State Action}
    (reached : (system env).Reached allowed state) : Clocked state := by
  refine reached.invariantWithin ?_ ?_
  · rintro _ ⟨now, rfl⟩
    exact clocked_initial now
  · intro before action after earlier clocked stepped _
    exact clocked_step (reached_consistent earlier) clocked (step_cases stepped)

theorem run_clocked {allowed : System.Condition (History × State) Action} {run : History × State}
    (reached : (system env).recorded.Reached allowed run) : Clocked run.2 :=
  reached_clocked (System.recorded_reachable reached)

/-- A submission is known by the start of its transaction and by the clock at its insert. -/
structure Submission where
  start : Timestamp
  clock : Timestamp

/-- The submission of the job in a transition. -/
def submissionIn (job : Uuid) (taken : System.Taken State Action) : Option Submission :=
  match taken.action with
  | .submit target _ _ start =>
      if target = job then some ⟨start, taken.before.shared.now⟩ else none
  | _ => none

/-- The submission of the job in a history. -/
def submission (job : Uuid) (history : History) : Option Submission :=
  history.findSome? (submissionIn job)

/-- The open transaction of a request writes `clock_timestamp()` first and `now()` later. -/
def Submission.Writes (submission : Submission) : Api.Phase → Prop
  | .publishing row start | .marking row start | .failing row start _ =>
      start = submission.start ∧ row.createdAt = submission.clock ∧ row.enqueuedAt = none
  | .returning row | .committing row =>
      row.createdAt = submission.clock ∧ row.enqueuedAt = some submission.start
  | .rejecting row => row.enqueuedAt = none
  | .committed | .rejected | .rolledBack => True

theorem Submission.Writes.move {submission : Submission} {request after : Api.Request}
    {call : Api.Action} {shared result : Shared} (writes : submission.Writes request.phase)
    (move : Api.Move shared job request call result after) : submission.Writes after.phase := by
  cases move with
  | marked =>
      obtain ⟨rfl, created, _⟩ := writes
      exact ⟨created, rfl⟩
  | markedFailed => exact writes.2.2
  | committed | rejected | rolledBack => trivial
  | _ => exact writes

/-- Only an unused id is submitted. -/
theorem submissionIn_used (step : Step env state action next) (used : state.origins job ≠ .unused) :
    submissionIn job ⟨state, action, next⟩ = none := by
  cases step with
  | submit unused =>
      simp only [submissionIn, ite_eq_right_iff, reduceCtorEq, imp_false]
      rintro rfl
      exact used unused
  | _ => rfl

/-- Every open request writes the clocks of its own submission. -/
theorem run_submitted {allowed : System.Condition (History × State) Action}
    {run : History × State} (reached : (system env).recorded.Reached allowed run)
    {request : Api.Request} (origin : run.2.origins job = .api request) :
    ∃ submitted, submission job run.1 = some submitted ∧ submitted.Writes request.phase := by
  refine reached.historyInvariant (motive := fun history state => ∀ request,
    state.origins job = .api request →
      ∃ submitted, submission job history = some submitted ∧ submitted.Writes request.phase)
    ?_ ?_ request origin
  · rintro _ ⟨now, rfl⟩ request origin
    cases origin
  · intro history before action after _ submitted stepped _ request origin
    have step := step_cases stepped
    rcases request_source step origin with
      old | ⟨conversation, maxAttempts, start, rfl, rfl⟩ | ⟨earlier, call, rfl, held, move⟩
    · obtain ⟨found, known, writes⟩ := submitted request old
      refine ⟨found, ?_, writes⟩
      rw [submission, List.findSome?_cons, submissionIn_used step (by rw [old]; nofun)]
      exact known
    · exact ⟨⟨start, before.shared.now⟩, by simp [submission, submissionIn], rfl, rfl, rfl⟩
    · obtain ⟨found, known, writes⟩ := submitted earlier held
      exact ⟨found, known, writes.move move⟩

/-- The row of the job has its time stamps in order after the step. -/
def KeepsOrder (job : Uuid) : System.Condition (History × State) Action :=
  fun _ _ after => ∀ row, after.2.shared.jobs job = some row → row.Ordered

/-- Each of the four steps that may break the order finds the other time in turn. -/
structure StampsInTurn (job : Uuid) (before : History × State) (action : Action)
    (after : History × State) : Prop where
  accepted : action = .api job .commit → ∀ request row submitted,
    before.2.origins job = .api request → request.phase = .committing row →
    submission job before.1 = some submitted → submitted.clock ≤ submitted.start
  claimed : ∀ id start message since row, action = .worker id (.claim start) →
    before.2.workers id = .received message since → message.jobId = some job →
    before.2.shared.jobs job = some row → row.claimable start = true → row.startedAt = none →
    InTurn row.enqueuedAt (some start)
  marked : ∀ start row, action = .ingest job (.markEnqueued start) →
    before.2.shared.jobs job = some row → InTurn (some start) row.startedAt
  markedFailed : ∀ start row, action = .ingest job (.markEnqueueFailed start) →
    before.2.shared.jobs job = some row → InTurn row.startedAt (some start)

/-- `mark_enqueued` of an ingested job starts after the job was created and marks its row. -/
theorem markEnqueued_writes (clocked : Clocked state) {start : Timestamp}
    (step : Step env state (.ingest job (.markEnqueued start)) next)
    (present : state.shared.jobs job = some row) :
    row.createdAt ≤ start ∧ next.shared.jobs job = some (row.withEnqueued start) := by
  cases step with
  | ingest origin move =>
      cases move with
      | marked timed =>
          refine ⟨(clocked.marking job _ row origin present).trans timed, ?_⟩
          rw [withOrigin_shared, markEnqueued, Table.updateWhere_accepts present rfl]
          simp

/-- `claim_job` takes a free row. -/
theorem claim_writes {id : WorkerId} {message : QueueMessage} {since start : Timestamp}
    (step : Step env state (.worker id (.claim start)) next)
    (held : state.workers id = .received message since) (addressed : message.jobId = some job)
    (present : state.shared.jobs job = some row) (free : row.claimable start = true) :
    ∃ expiry, next.shared.jobs job = some (row.withClaim start expiry) := by
  cases step with
  | worker move =>
      generalize state.workers id = before at move held
      cases move with
      | @claimed delivery _ _ found _ _ stored =>
          cases held
          obtain rfl : delivery.job = job := Option.some.inj (delivery.addressed.symm.trans addressed)
          rw [present, Option.some.injEq] at stored
          subst stored
          exact ⟨_, Shared.write_jobs_self⟩
      | unclaimed delivery _ _ taken =>
          cases held
          obtain rfl : delivery.job = job := Option.some.inj (delivery.addressed.symm.trans addressed)
          rw [taken row present] at free
          cases free

/-- The commit of an accepted request stores its row. -/
theorem commit_writes {request : Api.Request} (step : Step env state (.api job .commit) next)
    (origin : state.origins job = .api request) (phase : request.phase = .committing row) :
    next.shared.jobs job = some row := by
  cases step with
  | api held move =>
      rw [held, Origin.api.injEq] at origin
      subst origin
      cases move with
      | committed => cases phase; exact Shared.write_jobs_self
      | rejected => cases phase

/-- A finishing update starts after its result arrived. -/
theorem concluded_after {id : WorkerId} {attempt : Worker.Attempt} {since start : Timestamp}
    {call : Worker.Action} (step : Step env state (.worker id call) next)
    (held : (state.workers id).concluding = some (attempt, since))
    (finishes : call = .complete start ∨ call = .fail start) : since ≤ start := by
  cases step with
  | worker move =>
      generalize state.workers id = before at move held
      cases move with
      | completed timed | lost timed =>
          cases held
          rcases finishes with same | same
          · cases same
            exact timed
          · cases same
      | failed timed | failMissed timed =>
          cases held
          rcases finishes with same | same
          · cases same
          · cases same
            exact timed
      | _ =>
          rcases finishes with same | same
          · cases same
          · cases same

/-- A step whose stamps are in turn keeps the timeline of the job ordered. -/
theorem ordered_step {history : History} (clocked : Clocked state)
    (submitted : ∀ request, state.origins job = .api request →
      ∃ found, submission job history = some found ∧ found.Writes request.phase)
    (ordered : ∀ row, state.shared.jobs job = some row → row.Ordered)
    (step : Step env state action next) {after : History × State}
    (fine : StampsInTurn job (history, state) action after)
    (found : next.shared.jobs job = some row) : row.Ordered := by
  -- a finishing update writes the end of a row whose start is older than the result
  have concluded : ∀ {id attempt since start call held}, action = .worker id call →
      (state.workers id).concluding = some (attempt, since) → attempt.job = job →
      call = .complete start ∨ call = .fail start → state.shared.jobs job = some held →
      InTurn held.startedAt (some start) := by
    rintro id attempt since start call held rfl window rfl finishes present first last started ended
    have result := clocked.concluding id attempt since held first window present started
    exact Option.some.inj ended ▸ result.trans (concluded_after step window finishes)
  cases row_change step job with
  | kept same => exact ordered row (same ▸ found)
  | @submitted request _ origin opened _ written =>
      rw [written, Option.some.injEq] at found
      subst found
      have unstarted := (clocked.opened job request _ origin
        (Api.Phase.openRow_of_opened opened)).unstarted
      obtain ⟨submission, known, writes⟩ := submitted request origin
      refine ⟨?_, by rw [unstarted]; exact .none_right, by rw [unstarted]; exact .none_left⟩
      rcases opened with phase | phase
      · rw [phase] at writes
        obtain ⟨created, enqueued⟩ := writes
        rw [created, enqueued, inTurn_some]
        exact fine.accepted rfl request _ submission origin phase known
      · rw [phase] at writes
        have unmarked : _ = none := writes
        rw [unmarked]
        exact .none_right
  | created _ _ written =>
      rw [written, Option.some.injEq] at found
      exact found ▸ ⟨.none_right, .none_right, .none_left⟩
  | @claimed id delivery since start expiry held phase same _ _ present free written =>
      rw [written, Option.some.injEq] at found
      subst found same
      have earlier := ordered held present
      have unended : held.completedAt = none :=
        clocked.unended _ held present (Conversation.claimable_iff.mp free).1
      refine ⟨earlier.created, ?_, ?_⟩
      · cases started : held.startedAt with
        | none =>
            have turn := fine.claimed id start delivery.message since held rfl phase
              delivery.addressed present free started
            simpa [Conversation.withClaim, started] using turn
        | some first =>
            have turn := earlier.enqueued
            simpa [Conversation.withClaim, started] using turn
      · have still : (held.withClaim start expiry).completedAt = none := unended
        rw [still]
        exact .none_right
  | @completed _ _ _ _ _ held phase same present _ written =>
      have earlier := ordered held present
      have ended := concluded rfl (by rw [phase]; rfl) same (.inl rfl) present
      rw [written, Option.some.injEq] at found
      exact found ▸ ⟨earlier.created, earlier.enqueued, ended⟩
  | @released _ _ _ _ _ _ held _ _ present _ written =>
      have earlier := ordered held present
      rw [written, Option.some.injEq] at found
      exact found ▸ ⟨earlier.created, earlier.enqueued, earlier.started⟩
  | @failed _ _ _ _ _ _ held phase same present _ written =>
      have earlier := ordered held present
      have ended := concluded rfl (by rw [phase]; rfl) same (.inr rfl) present
      rw [written, Option.some.injEq] at found
      exact found ▸ ⟨earlier.created, earlier.enqueued, ended⟩
  | @enqueued start held present written =>
      have earlier := ordered held present
      have created := (markEnqueued_writes clocked step present).1
      have started := fine.marked start held rfl present
      rw [written, Option.some.injEq] at found
      exact found ▸ ⟨inTurn_some.mpr created, started, earlier.started⟩
  | @enqueueFailed _ start held present written =>
      have earlier := ordered held present
      have ended := fine.markedFailed start held rfl present
      rw [written, Option.some.injEq] at found
      exact found ▸ ⟨earlier.created, earlier.enqueued, ended⟩

/-- In every run, the timeline of a job stays ordered exactly when its stamps are in turn. -/
theorem timeline_ordered_iff {run : History × State} :
    (system env).recorded.Reached (KeepsOrder job) run ↔
      (system env).recorded.Reached (StampsInTurn job) run := by
  constructor
  · intro reached
    apply reached.convert
    intro before action after earlier stepped kept
    have taken : Pipeline.step env before.2 action = some after.2 := System.recorded_step stepped
    have step := step_cases taken
    refine ⟨?_, ?_, ?_, ?_⟩
    · rintro rfl request row submitted origin phase known
      obtain ⟨found, same, writes⟩ := run_submitted earlier origin
      rw [known, Option.some.injEq] at same
      subst same
      rw [phase] at writes
      have created := (kept row (commit_writes step origin phase)).created
      rwa [writes.1, writes.2, inTurn_some] at created
    · rintro id start message since row rfl held addressed present free unstarted
      obtain ⟨expiry, written⟩ := claim_writes step held addressed present free
      have enqueued := (kept _ written).enqueued
      simpa [Conversation.withClaim, unstarted] using enqueued
    · rintro start row rfl present
      exact (kept _ (markEnqueued_writes (run_clocked earlier) step present).2).enqueued
    · rintro start row rfl present
      obtain ⟨_, _, _, written⟩ := markEnqueueFailed_writes taken present
      exact (kept _ written).started
  · intro reached
    have ordered : ∀ {run : History × State},
        (system env).recorded.Reached (StampsInTurn job) run →
        ∀ row, run.2.shared.jobs job = some row → row.Ordered := by
      intro run reached
      refine reached.historyInvariant (motive := fun _ state =>
        ∀ row, state.shared.jobs job = some row → row.Ordered) ?_ ?_
      · rintro _ ⟨now, rfl⟩ row present
        cases present
      · intro history before action after earlier ordered stepped fine row present
        exact ordered_step (run_clocked earlier) (fun _ => run_submitted earlier) ordered
          (step_cases stepped) fine present
    apply reached.convert
    intro before action after earlier stepped fine
    exact ordered (earlier.next action stepped fine)

/-- The transaction of the request starts one microsecond before its insert. -/
def acceptedSchedule : List Action :=
  [.tick 1, .submit 1 .smallest 3 0, .api 1 (.publish .delivered), .api 1 .markEnqueued,
    .api 1 .respond, .api 1 .commit]

/-- A worker claims the ingested job before its publisher marks it. -/
def overtakenMarkSchedule : List Action :=
  [.createJob 1 .smallest 3 "s3://incoming/a.json".toList 0, .ingest 1 (.publish .delivered),
    .worker 0 (.receive ⟨0, some 1⟩), .worker 0 (.claim 0), .tick 1, .ingest 1 (.markEnqueued 1)]

/-- The reply to the publish is lost, and a worker claims the job before it is marked as failed. -/
def overtakenFailureSchedule : List Action :=
  [.createJob 1 .smallest 3 "s3://incoming/a.json".toList 0,
    .ingest 1 (.publish (.replyLost "timeout".toList)), .worker 0 (.receive ⟨0, some 1⟩), .tick 1,
    .worker 0 (.claim 1), .ingest 1 (.markEnqueueFailed 0)]

/-- The first job of a run, with the times that its timeline shows. -/
theorem timeline_shown {schedule : List Action} {created : Timestamp}
    {enqueued started completed : Option Timestamp}
    (ran : ((system sampleEnvironment).run (initial 0) schedule).map (fun state =>
      (state.shared.jobs 1).map fun row =>
        (row.createdAt, row.enqueuedAt, row.startedAt, row.completedAt)) =
      some (some (created, enqueued, started, completed))) :
    ∃ state row, (system sampleEnvironment).Reached System.anyStep state ∧
      state.shared.jobs 1 = some row ∧ row.createdAt = created ∧ row.enqueuedAt = enqueued ∧
      row.startedAt = started ∧ row.completedAt = completed := by
  obtain ⟨state, path, seen⟩ := System.run_observed System.anyStep ran (fun _ _ _ _ => trivial)
  obtain ⟨row, present, times⟩ := Option.map_eq_some_iff.mp seen
  simp only [Prod.mk.injEq] at times
  exact ⟨state, row, ⟨_, ⟨0, rfl⟩, path⟩, present, times⟩

/-- Each of the three pairs of stamps is out of order in some run without a crash. -/
theorem timeline_unordered :
    (∃ state row, (system sampleEnvironment).Reached System.anyStep state ∧
      state.shared.jobs 1 = some row ∧ ¬ InTurn (some row.createdAt) row.enqueuedAt) ∧
    (∃ state row, (system sampleEnvironment).Reached System.anyStep state ∧
      state.shared.jobs 1 = some row ∧ ¬ InTurn row.enqueuedAt row.startedAt) ∧
    (∃ state row, (system sampleEnvironment).Reached System.anyStep state ∧
      state.shared.jobs 1 = some row ∧ ¬ InTurn row.startedAt row.completedAt) := by
  have accepted : ((system sampleEnvironment).run (initial 0) acceptedSchedule).map (fun state =>
      (state.shared.jobs 1).map fun row =>
        (row.createdAt, row.enqueuedAt, row.startedAt, row.completedAt)) =
      some (some (1, some 0, none, none)) := by rfl
  have overtaken : ((system sampleEnvironment).run (initial 0) overtakenMarkSchedule).map
      (fun state => (state.shared.jobs 1).map fun row =>
        (row.createdAt, row.enqueuedAt, row.startedAt, row.completedAt)) =
      some (some (0, some 1, some 0, none)) := by rfl
  have failed : ((system sampleEnvironment).run (initial 0) overtakenFailureSchedule).map
      (fun state => (state.shared.jobs 1).map fun row =>
        (row.createdAt, row.enqueuedAt, row.startedAt, row.completedAt)) =
      some (some (0, none, some 1, some 0)) := by rfl
  refine ⟨?_, ?_, ?_⟩
  · obtain ⟨state, row, reached, present, created, enqueued, _⟩ := timeline_shown accepted
    exact ⟨state, row, reached, present, by simp [created, enqueued]⟩
  · obtain ⟨state, row, reached, present, _, enqueued, started, _⟩ := timeline_shown overtaken
    exact ⟨state, row, reached, present, by simp [enqueued, started]⟩
  · obtain ⟨state, row, reached, present, _, _, started, completed⟩ := timeline_shown failed
    exact ⟨state, row, reached, present, by simp [started, completed]⟩

end Pipeline
end ConvoScore
