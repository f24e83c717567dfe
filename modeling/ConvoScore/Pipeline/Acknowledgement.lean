import ConvoScore.Pipeline.Consistency

namespace ConvoScore

/-- In these phases the message of a request is delivered and its COMMIT is still to come. -/
def Api.Phase.promised : Api.Phase → Bool
  | .marking _ _ | .returning _ | .committing _ => true
  | _ => false

/-- A request in these phases never commits a pending row. -/
def Api.Phase.abandoned : Api.Phase → Bool
  | .failing _ _ _ | .rejecting _ | .rejected | .rolledBack => true
  | _ => false

namespace Pipeline
open Library

/-- Nothing remains to be done for a job that is finished or whose request was abandoned. -/
def Settled (state : State) (job : Uuid) : Prop :=
  (∃ row, state.shared.jobs job = some row ∧ row.status.terminal = true) ∨
    ∃ request, state.origins job = .api request ∧ request.phase.abandoned = true

/-- Every worker that acknowledges a message of the job has a reason to. -/
def AcknowledgesSettled (job : Uuid) (state : State) : Prop :=
  ∀ id message exit, state.workers id = .acknowledging message exit →
    message.jobId = some job → Settled state job

/-- No `complete_job` of the job finds its row pending again. -/
def CompletesUnreleased (job : Uuid) : System.Condition State Action :=
  fun before action _ => ∀ id attempt outcome since start row,
    action = .worker id (.complete start) →
    before.workers id = .persisting attempt outcome since → attempt.job = job →
    before.shared.jobs job = some row → row.status ≠ .pending

/-- No worker reads a failed claim back between the publish and the COMMIT of its request. -/
def ClassifiesCommitted (job : Uuid) : System.Condition State Action :=
  fun before action _ => ∀ id delivery request, action = .worker id .classify →
    before.workers id = .unclaimed delivery → delivery.job = job →
    before.origins job = .api request → request.phase.promised = false

variable {env : Environment} {state next : State} {action : Action} {job : Uuid}

/-- A settled job stays settled. -/
theorem settled_step (step : Step env state action next) (settled : Settled state job) :
    Settled next job := by
  rcases settled with ⟨row, present, ended⟩ | ⟨request, origin, abandoned⟩
  · exact .inl ((row_change step job).terminal present ended)
  · refine .inr ?_
    cases origin_change step job with
    | kept same => exact ⟨request, same.trans origin, abandoned⟩
    | submitted before | created before | published before =>
        rw [before] at origin
        cases origin
    | requested before move new =>
        rw [before] at origin
        cases origin
        refine ⟨_, new, ?_⟩
        cases move with
        | delivered | marked | accepted | committed => cases abandoned
        | refused | received => exact abandoned
        | _ => rfl

/-- A job without a row is settled when its message is known and its COMMIT cannot come. -/
theorem settled_of_absent (consistent : Consistent state) {message : QueueMessage} {id : WorkerId}
    (held : (state.workers id).message = some message) (addressed : message.jobId = some job)
    (absent : state.shared.jobs job = none)
    (ended : ∀ request, state.origins job = .api request → request.phase.promised = false) :
    Settled state job := by
  have unstored : (state.origins job).stored = false := by
    rw [← consistent.stored job, absent]
    rfl
  have past := consistent.sent.inHand id message held job addressed
  cases origin : state.origins job with
  | unused => simp [origin, Origin.pastPublish] at past
  | s3 publication => simp [origin, Origin.stored] at unstored
  | api request =>
      have closed := ended request origin
      rw [origin] at past unstored
      refine .inr ⟨request, origin, ?_⟩
      cases phase : request.phase <;>
        simp_all [Origin.pastPublish, Origin.stored, Api.Phase.stored, Api.Phase.pastPublish,
          Api.Phase.promised, Api.Phase.abandoned]

/-- Each worker step that starts an acknowledgement leaves the job settled. -/
theorem acknowledgement_settled (consistent : Consistent state) {id : WorkerId}
    {action : Worker.Action} {shared : Shared} {message : QueueMessage}
    {exit : Worker.ProcessOutcome}
    (move : Worker.Move (env.settings id) state.shared (state.workers id) action shared
      (.acknowledging message exit))
    (addressed : message.jobId = some job)
    (unreleased : CompletesUnreleased job state (.worker id action) next)
    (classified : ClassifiesCommitted job state (.worker id action) next) :
    Settled (state.withWorker shared id (.acknowledging message exit)) job := by
  generalize held : state.workers id = before at move
  have rowOf : ∀ attempt : Worker.Attempt, before.attempt = some attempt →
      attempt.message.jobId = some job →
      attempt.job = job ∧ ∃ row, state.shared.jobs job = some row := by
    intro attempt window addressed
    have same : attempt.job = job := Option.some.inj (attempt.addressed.symm.trans addressed)
    have present := consistent.claimed id attempt (by rw [held]; exact window)
    rw [same] at present
    exact ⟨same, Option.isSome_iff_exists.mp present⟩
  cases move with
  | discard bodyless =>
      rw [bodyless] at addressed
      cases addressed
  | @unknown delivery absent =>
      have same : delivery.job = job := Option.some.inj (delivery.addressed.symm.trans addressed)
      rw [same] at absent
      have settled : Settled state job := by
        apply settled_of_absent consistent (by rw [held]; rfl) addressed absent
        intro request origin
        exact classified id delivery request rfl held same origin
      exact settled
  | @duplicate delivery row present ended =>
      have same : delivery.job = job := Option.some.inj (delivery.addressed.symm.trans addressed)
      exact .inl ⟨row, same ▸ present, ended⟩
  | @vanished attempt absent =>
      obtain ⟨same, row, present⟩ := rowOf attempt rfl addressed
      rw [same, present] at absent
      cases absent
  | @completed attempt _ _ _ _ _ _ present accepted =>
      obtain ⟨rfl, _⟩ := rowOf attempt rfl addressed
      exact .inl ⟨_, Shared.write_jobs_self, rfl⟩
  | @lost attempt outcome since start timed past rejected =>
      obtain ⟨same, row, present⟩ := rowOf attempt rfl addressed
      have waiting := unreleased id attempt outcome since start row rfl held same present
      have idle : row.isProcessing = false := rejected row (by rw [same]; exact present)
      refine .inl ⟨row, present, ?_⟩
      cases status : row.status <;>
        simp_all [Conversation.isProcessing, JobStatus.terminal]
  | @failed attempt _ _ _ _ _ _ _ present accepted =>
      obtain ⟨rfl, _⟩ := rowOf attempt rfl addressed
      exact .inl ⟨_, Shared.write_jobs_self, rfl⟩
  | @failMissed attempt _ _ _ _ _ _ rejected =>
      obtain ⟨same, row, present⟩ := rowOf attempt rfl addressed
      have ended : row.isUnfinished = false := rejected row (by rw [same]; exact present)
      refine .inl ⟨row, present, ?_⟩
      simpa [Conversation.isUnfinished] using ended

theorem acknowledgesSettled_step (consistent : Consistent state)
    (settled : AcknowledgesSettled job state) (step : Step env state action next)
    (unreleased : CompletesUnreleased job state action next)
    (classified : ClassifiesCommitted job state action next) :
    AcknowledgesSettled job next := by
  intro id message exit held addressed
  have kept : state.workers id = .acknowledging message exit → Settled next job :=
    fun held => settled_step step (settled id message exit held addressed)
  cases step with
  | @worker target action shared phase move =>
      rw [withWorker_workers] at held
      split at held
      · subst held
        exact acknowledgement_settled consistent move addressed unreleased classified
      · exact kept held
  | _ => exact kept held

/-- Workers acknowledge only settled jobs as long as both conditions hold. -/
theorem reached_acknowledgesSettled
    (reached : (system env).Reached (fun before action after =>
      CompletesUnreleased job before action after ∧ ClassifiesCommitted job before action after)
      state) : AcknowledgesSettled job state := by
  refine reached.invariantWithin ?_ ?_
  · rintro _ ⟨now, rfl⟩ id message exit held
    cases held
  · intro before action after earlier settled step fine
    exact acknowledgesSettled_step (reached_consistent earlier) settled (step_cases step)
      fine.1 fine.2

end Pipeline
end ConvoScore
