import ConvoScore.Pipeline.Consistency

namespace ConvoScore.Pipeline
open Library

/-- Two rows show the same status and the same verdict to every reader. -/
structure SameVerdict (row later : Conversation) : Prop where
  status : later.status = row.status
  sentiment : later.sentiment = row.sentiment
  riskScore : later.riskScore = row.riskScore
  rationale : later.rationale = row.rationale
  lastErrorType : later.lastErrorType = row.lastErrorType
  completedAt : later.completedAt = row.completedAt

/-- Every `mark_enqueue_failed` of the ingestor finds its row pending. -/
def MarksPending : System.Condition State Action :=
  fun before action _ => ∀ job start row, action = .ingest job (.markEnqueueFailed start) →
    before.shared.jobs job = some row → row.status = .pending

variable {env : Environment} {state next : State} {action : Action} {job : Uuid}

theorem SameVerdict.refl (row : Conversation) : SameVerdict row row :=
  ⟨rfl, rfl, rfl, rfl, rfl, rfl⟩

theorem SameVerdict.trans {first second third : Conversation} (before : SameVerdict first second)
    (after : SameVerdict second third) : SameVerdict first third where
  status := after.status.trans before.status
  sentiment := after.sentiment.trans before.sentiment
  riskScore := after.riskScore.trans before.riskScore
  rationale := after.rationale.trans before.rationale
  lastErrorType := after.lastErrorType.trans before.lastErrorType
  completedAt := after.completedAt.trans before.completedAt

/-- A finished row keeps its verdict over every step except an enqueue failure. -/
theorem sameVerdict_step (step : Step env state action next)
    (fine : MarksPending state action next) {row : Conversation}
    (present : state.shared.jobs job = some row) (ended : row.status.terminal = true) :
    ∃ later, next.shared.jobs job = some later ∧ SameVerdict row later := by
  have unfinished : ∀ {found : Conversation}, state.shared.jobs job = some found →
      found.status.terminal = true := by
    intro found same
    rw [present, Option.some.injEq] at same
    exact same ▸ ended
  have change := row_change step job
  cases change with
  | kept same => exact ⟨row, same.trans present, .refl row⟩
  | submitted _ _ absent | created _ absent =>
      rw [absent] at present
      cases present
  | claimed _ _ _ _ found free =>
      have open_ := (Conversation.claimable_iff.mp free).1
      rw [unfinished found] at open_
      cases open_
  | completed _ _ found accepted =>
      have finished := unfinished found
      rw [accepted] at finished
      cases finished
  | released _ _ found accepted =>
      have finished := unfinished found
      rw [accepted] at finished
      cases finished
  | failed _ _ found accepted =>
      rw [unfinished found] at accepted
      cases accepted
  | @enqueued _ held found written =>
      rw [present, Option.some.injEq] at found
      subst found
      exact ⟨_, written, ⟨rfl, rfl, rfl, rfl, rfl, rfl⟩⟩
  | enqueueFailed found =>
      have waiting := fine job _ _ rfl found
      have finished := unfinished found
      rw [waiting] at finished
      cases finished

/-- A worker that gives up never blames the publisher. -/
def BlamelessFailures (state : State) : Prop :=
  ∀ id attempt decision error since, state.workers id = .failing attempt decision error since →
    decision.errorType ≠ .enqueueFailed

/-- Only its own publisher records an enqueue failure for an ingested job. -/
def BlamelessRows (state : State) : Prop :=
  ∀ job publication row, state.origins job = .s3 publication → publication ≠ .markedFailed →
    state.shared.jobs job = some row → row.lastErrorType = some .enqueueFailed →
    row.status ≠ .failed

theorem blamelessFailures_step (blameless : BlamelessFailures state)
    (step : Step env state action next) : BlamelessFailures next := by
  intro id attempt decision error since held
  cases step with
  | @worker target _ shared phase move =>
      rw [withWorker_workers] at held
      split at held
      · subst held
        generalize state.workers target = before at move
        cases move with
        | giveUp decided last =>
            subst decided
            exact decideRetry_blame last
      · exact blameless id attempt decision error since held
  | _ => exact blameless id attempt decision error since held

/-- `mark_enqueue_failed` ends the publication of its job. -/
theorem markEnqueueFailed_marks {start : Timestamp}
    (step : Step env state (.ingest job (.markEnqueueFailed start)) next) :
    next.origins job = .s3 .markedFailed := by
  cases step with
  | ingest _ move =>
      cases move with
      | markedFailed => rw [withOrigin_origins, if_pos rfl]

/-- A publication that has not recorded a failure had not recorded one before. -/
theorem publication_source (step : Step env state action next) {after : Ingest.Publication}
    (origin : next.origins job = .s3 after) (unmarked : after ≠ .markedFailed) :
    state.origins job = .unused ∨
      (∃ publication, state.origins job = .s3 publication ∧ publication ≠ .markedFailed) ∧
        ∀ start, action ≠ .ingest job (.markEnqueueFailed start) := by
  have unfailed : ∀ start, action ≠ .ingest job (.markEnqueueFailed start) := by
    rintro start rfl
    rw [markEnqueueFailed_marks step] at origin
    cases origin
    exact unmarked rfl
  rcases published_source step origin with old | ⟨unused, _⟩ | ⟨publication, _, _, before, move⟩
  · exact .inr ⟨⟨after, old, unmarked⟩, unfailed⟩
  · exact .inl unused
  · refine .inr ⟨⟨publication, before, ?_⟩, unfailed⟩
    rintro rfl
    generalize next.shared = shared at move
    cases move with
    | stopped _ unmarkedFailed => exact unmarkedFailed rfl

theorem blamelessRows_step (consistent : Consistent state) (failures : BlamelessFailures state)
    (blameless : BlamelessRows state) (step : Step env state action next) :
    BlamelessRows next := by
  intro job after row origin unmarked present blamed failed
  rcases publication_source step origin unmarked with unused |
    ⟨⟨publication, found, earlier⟩, notMarking⟩
  · have absent : state.shared.jobs job = none := by
      have stored := consistent.stored job
      rw [unused] at stored
      exact Option.isNone_iff_eq_none.mp (Option.isSome_eq_false_iff.mp stored)
    rcases (row_change step job).appeared absent present with
      ⟨request, requested, _⟩ | ⟨_, _, _, _, _, _, rfl⟩
    · rw [unused] at requested
      cases requested
    · cases failed
  · cases row_change step job with
    | kept same => exact blameless job publication row found earlier (same ▸ present) blamed failed
    | submitted old | created old =>
        rw [found] at old
        cases old
    | claimed _ _ _ _ _ _ written | completed _ _ _ _ written | released _ _ _ _ written =>
        rw [written, Option.some.injEq] at present
        subst present
        cases failed
    | failed held _ _ _ written =>
        rw [written, Option.some.injEq] at present
        subst present
        exact failures _ _ _ _ _ held (Option.some.inj blamed)
    | enqueued old written =>
        rw [written, Option.some.injEq] at present
        subst present
        exact blameless job publication _ found earlier old blamed failed
    | enqueueFailed => exact notMarking _ rfl

/-- In every reached state, only its publisher blames an ingested job on the queue. -/
theorem reached_blamelessRows {allowed : System.Condition State Action}
    (reached : (system env).Reached allowed state) : BlamelessRows state := by
  have both := reached.invariantWithin
    (motive := fun state => BlamelessFailures state ∧ BlamelessRows state) ?_ ?_
  · exact both.2
  · rintro _ ⟨now, rfl⟩
    refine ⟨?_, ?_⟩
    · intro id attempt decision error since held
      cases held
    · intro job publication row origin
      cases origin
  · intro before action after earlier blameless stepped _
    have step := step_cases stepped
    exact ⟨blamelessFailures_step blameless.1 step,
      blamelessRows_step (reached_consistent earlier) blameless.1 blameless.2 step⟩

/-- `mark_enqueue_failed` fails whatever row it finds. -/
theorem markEnqueueFailed_writes {start : Timestamp} {row : Conversation}
    (stepped : step env state (.ingest job (.markEnqueueFailed start)) = some next)
    (present : state.shared.jobs job = some row) :
    ∃ error since, state.origins job = .s3 (.failing error since) ∧
      next.shared.jobs job = some (row.withEnqueueFailed start error) := by
  cases step_cases stepped with
  | ingest origin move =>
      cases move with
      | @markedFailed error since =>
          refine ⟨error, since, origin, ?_⟩
          rw [withOrigin_shared, markEnqueueFailed, Table.updateWhere_accepts present rfl]
          simp

/-- A step keeps the verdict of every finished job,
and `mark_enqueue_failed` leaves no job that was being processed failed. -/
def KeepsVerdict : System.Condition State Action :=
  fun before action after => ∀ job row, before.shared.jobs job = some row →
    (row.status.terminal = true →
      ∃ later, after.shared.jobs job = some later ∧ SameVerdict row later) ∧
    (∀ start later, action = .ingest job (.markEnqueueFailed start) → row.status = .processing →
      after.shared.jobs job = some later → later.status ≠ .failed)

/-- In every run, finished jobs stay finished with the same verdict and no job that is being
processed is failed by its publisher, exactly when each enqueue failure finds its row pending. -/
theorem keepsVerdict_iff {run : List (System.Taken State Action) × State} :
    (system env).recorded.Reached (System.onStates KeepsVerdict) run ↔
      (system env).recorded.Reached (System.onStates MarksPending) run := by
  constructor
  · intro reached
    apply reached.convert
    intro before action after earlier stepped kept job start row call present
    have step : step env before.2 action = some after.2 := System.recorded_step stepped
    subst call
    obtain ⟨error, since, origin, written⟩ := markEnqueueFailed_writes step present
    obtain ⟨same, processing⟩ := kept job row present
    have notProcessing : row.status ≠ .processing :=
      fun running => processing start _ rfl running written rfl
    have unfinished : row.status.terminal = false := by
      rw [← Bool.not_eq_true]
      intro ended
      obtain ⟨later, stored, verdict⟩ := same ended
      rw [written, Option.some.injEq] at stored
      subst stored
      exact reached_blamelessRows (System.recorded_reached earlier) job _ row origin (by simp)
        present verdict.lastErrorType.symm verdict.status.symm
    cases status : row.status <;> simp_all [JobStatus.terminal]
  · intro reached
    apply reached.convert
    intro before action after earlier stepped fine job row present
    have step := step_cases (System.recorded_step stepped)
    refine ⟨sameVerdict_step step fine present, ?_⟩
    intro start later call running
    rw [fine job start row call present] at running
    cases running

/-- The reply to the publish is lost, and a worker completes the job meanwhile. -/
def lostReplySchedule : List Action :=
  [.createJob 1 .smallest 3 "s3://incoming/a.json".toList 0,
    .ingest 1 (.publish (.replyLost "timeout".toList)),
    .worker 0 (.receive ⟨0, some 1⟩), .worker 0 (.claim 0), .worker 0 .readJob,
    .worker 0 (.score (.outcome .calm)), .worker 0 (.complete 0)]

/-- The publisher turns a completed job into a failed one. -/
theorem completedJob_failed : ∃ state next row later,
    (system sampleEnvironment).Reached System.anyStep state ∧
    state.shared.jobs 1 = some row ∧ row.status = .completed ∧
    step sampleEnvironment state (.ingest 1 (.markEnqueueFailed 0)) = some next ∧
    next.shared.jobs 1 = some later ∧ later.status = .failed ∧
    later.lastErrorType = some .enqueueFailed := by
  have ran : ((system sampleEnvironment).run (initial 0) lostReplySchedule).map (fun state =>
      ((state.shared.jobs 1).map (·.status),
        (step sampleEnvironment state (.ingest 1 (.markEnqueueFailed 0))).isSome)) =
      some (some .completed, true) := by rfl
  obtain ⟨state, path, seen⟩ := System.run_observed System.anyStep ran (fun _ _ _ _ => trivial)
  simp only [Prod.mk.injEq, Option.map_eq_some_iff, Option.isSome_iff_exists] at seen
  obtain ⟨⟨row, present, completed⟩, next, stepped⟩ := seen
  obtain ⟨error, since, _, written⟩ := markEnqueueFailed_writes stepped present
  exact ⟨state, next, row, _, ⟨_, ⟨0, rfl⟩, path⟩, present, completed, stepped, written, rfl, rfl⟩

end ConvoScore.Pipeline
