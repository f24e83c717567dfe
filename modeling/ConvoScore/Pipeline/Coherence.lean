import ConvoScore.Api.Serializers
import ConvoScore.Pipeline.Callers
import ConvoScore.Repository.Shape

namespace ConvoScore

/-- A response shows a result exactly for a completed job, an error for every failed one,
and never both. -/
structure Coherent (status : JobStatus) (result : Option ScoreResult) (error : Option JobError) :
    Prop where
  scored : result ≠ none ↔ status = .completed
  blamed : status = .failed → error ≠ none
  single : result = none ∨ error = none

namespace Conversation.Shaped
variable {row : Conversation}

/-- A completed row has a result, and every other row has none; the assertion never fires. -/
theorem toResult (shaped : row.Shaped) :
    ∃ result, ConvoScore.toResult row = .ok result ∧ (result ≠ none ↔ row.status = .completed) := by
  by_cases completed : row.status = .completed
  · obtain ⟨sentiment, hasSentiment⟩ :=
      Option.ne_none_iff_exists'.mp (shaped.sentiment.mpr completed)
    obtain ⟨score, hasScore⟩ := Option.ne_none_iff_exists'.mp (shaped.riskScore.mpr completed)
    obtain ⟨rationale, hasRationale⟩ :=
      Option.ne_none_iff_exists'.mp (shaped.rationale.mpr completed)
    obtain ⟨floor, ceiling⟩ := shaped.ranged score hasScore
    obtain ⟨band, banded⟩ := riskBand_of_valid floor ceiling
    refine ⟨some ⟨sentiment, score, band, band.label, rationale⟩, ?_, ?_⟩
    · simp only [ConvoScore.toResult, hasSentiment, hasScore, hasRationale, banded]
    · simp [completed]
  · have noSentiment : row.sentiment = none := by
      by_contra present
      exact completed (shaped.sentiment.mp present)
    refine ⟨none, ?_, ?_⟩
    · simp only [ConvoScore.toResult, noSentiment]
    · simp [completed]

/-- What the serializers make of a shaped row is coherent. -/
theorem coherent (shaped : row.Shaped) {result : Option ScoreResult}
    (scored : result ≠ none ↔ row.status = .completed) :
    Coherent row.status result (toError row) where
  scored := scored
  blamed failed := by simpa [toError] using shaped.blamed failed
  single := by
    by_cases present : result = none
    · exact .inl present
    · refine .inr ?_
      simp [toError, shaped.errorless (scored.mp present)]

end Conversation.Shaped

namespace Pipeline
open Library

/-- The row of an open request has the shape of a row that nobody has claimed. -/
theorem Draft.shaped {sha256 : Text → Text} {row : Conversation} (draft : Draft sha256 row) :
    row.Shaped := by
  induction draft with
  | created => exact .createJob
  | enqueued _ ih => exact ih.withEnqueued
  | enqueueFailed draft ih => exact ih.withEnqueueFailed draft.attemptCount

namespace Callers

/-- Every `mark_enqueue_failed` is for a job that was never claimed,
and every `complete_job` of another caller passes a valid score. -/
structure WellCalled (before : History × State) (action : Action) (after : History × State) :
    Prop where
  ingestor : ∀ job start, action = .pipeline (.ingest job (.markEnqueueFailed start)) →
    (claimerOf job).total before.1 = 0
  caller : ∀ job start error, action = .call job start (.markEnqueueFailed error) →
    (claimerOf job).total before.1 = 0
  valid : ∀ job start columns, action = .call job start (.completeJob columns) →
    0 ≤ columns.riskScore ∧ columns.riskScore ≤ 100

/-- Every stored row has the shape that its status asks for. -/
def ShapedRows (state : State) : Prop :=
  ∀ job row, state.shared.jobs job = some row → row.Shaped

variable {env : Environment} {state next : State} {job : Uuid} {run : History × State}

/-- A step of the pipeline keeps every row shaped. -/
theorem shapedRows_step {action : Pipeline.Action} (drafts : DraftRows env state)
    (shaped : ShapedRows state) (step : Pipeline.Step env state action next)
    (unclaimed : ∀ job start row, action = .ingest job (.markEnqueueFailed start) →
      state.shared.jobs job = some row → row.attemptCount = 0) : ShapedRows next := by
  intro job later present
  cases row_change step job with
  | kept same => exact shaped job later (same ▸ present)
  | @submitted _ row origin opened _ written =>
      rw [written, Option.some.injEq] at present
      subst present
      exact (drafts.submitted origin opened).shaped
  | created _ _ written =>
      rw [written, Option.some.injEq] at present
      exact present ▸ .createJob
  | claimed _ _ _ _ found free written =>
      rw [written, Option.some.injEq] at present
      exact present ▸ (shaped job _ found).withClaim free
  | @completed _ _ outcome _ _ _ _ _ found accepted written =>
      rw [written, Option.some.injEq] at present
      have valid : 0 ≤ outcome.columns.riskScore ∧ outcome.columns.riskScore ≤ 100 :=
        ⟨outcome.result.riskFloor, outcome.result.riskCeiling⟩
      exact present ▸ (shaped job _ found).withColumns accepted valid
  | released _ _ found accepted written =>
      rw [written, Option.some.injEq] at present
      exact present ▸ (shaped job _ found).withRelease accepted
  | failed _ _ found accepted written =>
      rw [written, Option.some.injEq] at present
      exact present ▸ (shaped job _ found).withFailure accepted
  | enqueued found written =>
      rw [written, Option.some.injEq] at present
      exact present ▸ (shaped job _ found).withEnqueued
  | enqueueFailed found written =>
      rw [written, Option.some.injEq] at present
      exact present ▸ (shaped job _ found).withEnqueueFailed (unclaimed job _ _ rfl found)

/-- In a run whose calls are right, every row has the shape that its status asks for. -/
theorem run_shaped (reached : (system env).recorded.Reached WellCalled run) :
    ShapedRows run.2 := by
  refine reached.historyInvariant (motive := fun _ state => ShapedRows state) ?_ ?_
  · rintro _ ⟨now, rfl⟩ job row present
    cases present
  · intro history before action after earlier shaped stepped fine
    have fresh : ∀ job row, (claimerOf job).total history = 0 →
        before.shared.jobs job = some row → row.attemptCount = 0 := by
      intro job row unclaimed present
      exact ((run_counted earlier job).attempts row present).trans unclaimed
    cases step_cases stepped with
    | pipeline step =>
        refine shapedRows_step (run_drafts earlier) shaped step ?_
        rintro job start row rfl present
        exact fresh job row (fine.ingestor job start rfl) present
    | @call target start call =>
        intro job row present
        by_cases same : target = job
        · subst same
          refine (Call.run_effect call).shaped (shaped target) ?_ ?_ row present
          · rintro columns rfl
            exact fine.valid target start columns rfl
          · rintro error held rfl found
            exact fresh target held (fine.caller target start error rfl) found
        · exact shaped job row ((Call.run_other call (Ne.symm same)).symm.trans present)

/-- In a run whose calls are right, every row has the shape that its status asks for,
and both endpoints report it coherently. -/
theorem rows_coherent (reached : (system env).recorded.Reached WellCalled run)
    {row : Conversation} (present : run.2.shared.jobs job = some row) :
    row.Shaped ∧ ∃ status detail, toJobStatus row = .ok status ∧ toDetail row = .ok detail ∧
      Coherent row.status status.result status.error ∧
      Coherent row.status detail.result detail.error := by
  have shaped := run_shaped reached job row present
  obtain ⟨result, rendered, scored⟩ := shaped.toResult
  have coherent := shaped.coherent scored
  have status : ∃ status, toJobStatus row = .ok status ∧
      Coherent row.status status.result status.error := by
    rw [toJobStatus, rendered]
    exact ⟨_, rfl, coherent⟩
  have detail : ∃ detail, toDetail row = .ok detail ∧
      Coherent row.status detail.result detail.error := by
    rw [toDetail, rendered]
    exact ⟨_, rfl, coherent⟩
  obtain ⟨status, reported, statusCoherent⟩ := status
  obtain ⟨detail, detailed, detailCoherent⟩ := detail
  exact ⟨shaped, status, detail, reported, detailed, statusCoherent, detailCoherent⟩

/-- The checks that the two conditions on a call amount to. -/
def checkCalls (before : History × State) : Action → Bool
  | .pipeline (.ingest job (.markEnqueueFailed _)) | .call job _ (.markEnqueueFailed _) =>
      decide ((claimerOf job).total before.1 = 0)
  | .call _ _ (.completeJob columns) =>
      decide (0 ≤ columns.riskScore) && decide (columns.riskScore ≤ 100)
  | _ => true

theorem checkCalls_sound {before after : History × State} {action : Action}
    (checked : checkCalls before action = true) : WellCalled before action after := by
  refine ⟨?_, ?_, ?_⟩
  · rintro job start rfl
    simpa [checkCalls] using checked
  · rintro job start error rfl
    simpa [checkCalls] using checked
  · rintro job start columns rfl
    simpa [checkCalls] using checked

/-- One job is refused by the queue, and another one is claimed and completed. -/
def mixedSchedule : List Action :=
  [.pipeline (.createJob 1 .smallest 3 "s3://incoming/a.json".toList 0),
    .pipeline (.ingest 1 (.publish (.refused "queue down".toList))),
    .pipeline (.ingest 1 (.markEnqueueFailed 0)), .call 2 0 (.createJob .smallest .api 3 none),
    .call 2 0 (.claimJob 90), .call 2 0 (.completeJob ScoringOutcome.calm.columns)]

/-- The refused job shows an error, and the completed one shows a result. -/
theorem rows_coherent_mixed : ∃ run refused scored,
    (system sampleEnvironment).recorded.Reached WellCalled run ∧
    run.2.shared.jobs 1 = some refused ∧ refused.status = .failed ∧ refused.Shaped ∧
    run.2.shared.jobs 2 = some scored ∧ scored.status = .completed ∧
    ∃ status detail, toJobStatus scored = .ok status ∧ toDetail scored = .ok detail ∧
      Coherent scored.status status.result status.error ∧
      Coherent scored.status detail.result detail.error := by
  have ran : (((system sampleEnvironment).recorded.guarded checkCalls).run ([], initial 0)
      mixedSchedule).map (fun run => ((run.2.shared.jobs 1).map (·.status),
        (run.2.shared.jobs 2).map (·.status))) = some (some .failed, some .completed) := by rfl
  obtain ⟨run, path, seen⟩ := System.guarded_observed ran fun _ _ _ => checkCalls_sound
  obtain ⟨first, second⟩ := Prod.mk.inj seen
  obtain ⟨refused, present, failed⟩ := Option.map_eq_some_iff.mp first
  obtain ⟨scored, stored, completed⟩ := Option.map_eq_some_iff.mp second
  have reached : (system sampleEnvironment).recorded.Reached WellCalled run :=
    ⟨_, ⟨rfl, ⟨0, rfl⟩⟩, path⟩
  exact ⟨run, refused, scored, reached, present, failed, (rows_coherent reached present).1, stored,
    completed, (rows_coherent reached stored).2⟩

end Callers
end Pipeline
end ConvoScore
