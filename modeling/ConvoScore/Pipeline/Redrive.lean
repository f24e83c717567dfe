import ConvoScore.Pipeline.LostClaim
import ConvoScore.Pipeline.Releases

namespace ConvoScore

/-- The message whose delivery has recorded nothing yet. -/
def Worker.Phase.undecided : Worker.Phase → Option QueueMessage
  | .received message _ => some message
  | .unclaimed delivery => some delivery.message
  | .claimed attempt | .scoring attempt _ | .persisting attempt _ _ | .releasing attempt _ _ _
  | .failing attempt _ _ _ => some attempt.message
  | _ => none

/-- A finished row tells why: a completed one has a result and a failed one has an error. -/
structure Conversation.Reasoned (row : Conversation) : Prop where
  result : row.status = .completed →
    row.sentiment ≠ none ∧ row.riskScore ≠ none ∧ row.rationale ≠ none
  error : row.status = .failed → row.lastErrorType ≠ none

namespace Pipeline
open Library

/-- The worker that receives the message in a transition. -/
def receiverOf (message : QueueMessage) : Mark (System.Taken State Action) WorkerId := fun taken =>
  match taken.action with
  | .worker id (.receive received) => if received = message then some id else none
  | _ => none

/-- The row of the message's job has ended in this state. -/
def endedRow (message : QueueMessage) (state : State) : Bool :=
  (message.jobId.bind state.shared.jobs).any fun row => row.status.terminal

/-- The transition commits a release that finds the row of the message's job in processing. -/
def commitsRelease (message : QueueMessage) (state : State) : Worker.Action → Bool
  | .release _ => (message.jobId.bind state.shared.jobs).any Conversation.isProcessing
  | _ => false

/-- The worker whose delivery of the message records an outcome in a transition:
it commits a release, or it leaves the job finished. -/
def outcomeOf (message : QueueMessage) : Mark (System.Taken State Action) WorkerId := fun taken =>
  match taken.action with
  | .worker id call =>
      if (taken.before.workers id).undecided = some message ∧
          (taken.after.workers id).undecided = none ∧
          (commitsRelease message taken.before call || endedRow message taken.after) then some id
      else none
  | _ => none

/-- The worker that receives the message when its job has already ended. -/
def lateReceiverOf (message : QueueMessage) : Mark (System.Taken State Action) WorkerId := fun taken =>
  if endedRow message taken.before then receiverOf message taken else none

/-- The deliveries of the message that have recorded an outcome or had none left to record. -/
def recorded (message : QueueMessage) (history : History) : Nat :=
  (outcomeOf message).total history + (lateReceiverOf message).total history

variable {env : Environment} {state next : State} {action : Action} {job : Uuid} {id : WorkerId}
  {message : QueueMessage}

theorem finished_iff (addressed : message.jobId = some job) :
    endedRow message state = true ↔ Finished state job := by
  simp [endedRow, Finished, addressed, Option.any_eq_true]

/-- An outcome that leaves the job unfinished is a release. -/
theorem outcome_released (step : Step env state action next)
    (outcome : outcomeOf message ⟨state, action, next⟩ = some id)
    (addressed : message.jobId = some job) (unfinished : ¬ Finished next job) :
    releaserOf job ⟨state, action, next⟩ = some id := by
  rw [← finished_iff addressed] at unfinished
  unfold outcomeOf at outcome
  split at outcome
  · rename_i actor call same
    simp only at same
    subst same
    split at outcome
    · rename_i recorded
      cases outcome
      obtain ⟨held, _, release⟩ := recorded
      have committed : commitsRelease message state call = true := by
        simpa [unfinished] using release
      cases step with
      | worker move =>
          cases call with
          | release start =>
              simp only at held
              generalize phase : state.workers id = before at move held
              cases move with
              | @released attempt | @releaseMissed attempt =>
                  cases held
                  have own : attempt.job = job :=
                    Option.some.inj (attempt.addressed.symm.trans addressed)
                  simp [releaserOf, phase, own]
          | _ => cases committed
    · cases outcome
  · cases outcome

/-- While the job is unfinished, no delivery of a message is late, and every outcome of one is a
release of the job. -/
theorem outcomes_step {history : History} (step : Step env state action next)
    (addressed : message.jobId = some job)
    (counted : Finished state job ∨ (lateReceiverOf message).total history = 0 ∧
      (outcomeOf message).total history ≤ (releaserOf job).total history) :
    Finished next job ∨ (lateReceiverOf message).total (⟨state, action, next⟩ :: history) = 0 ∧
      (outcomeOf message).total (⟨state, action, next⟩ :: history) ≤
        (releaserOf job).total (⟨state, action, next⟩ :: history) := by
  by_cases finished : Finished next job
  · exact .inl finished
  · have unfinished : ¬ Finished state job := fun ended => finished (finished_step ended step)
    obtain ⟨none, counted⟩ := counted.resolve_left unfinished
    refine .inr ⟨?_, ?_⟩
    · have early : lateReceiverOf message ⟨state, action, next⟩ = .none :=
        if_neg fun ended => unfinished ((finished_iff addressed).mp ended)
      rw [Mark.total_cons_none early, none]
    · cases outcome : outcomeOf message ⟨state, action, next⟩ with
      | none =>
          rw [Mark.total_cons_none outcome]
          exact Nat.le_trans counted Mark.total_le_cons
      | some id =>
          rw [Mark.total_cons_some outcome,
            Mark.total_cons_some (outcome_released step outcome addressed finished)]
          exact Nat.succ_le_succ counted

/-- The row of an open request tells why it is finished. -/
theorem Draft.reasoned {sha256 : Text → Text} {row : Conversation} (draft : Draft sha256 row) :
    row.Reasoned := by
  induction draft with
  | created => exact ⟨nofun, nofun⟩
  | enqueued _ ih => exact ⟨ih.result, ih.error⟩
  | enqueueFailed => exact ⟨nofun, fun _ => nofun⟩

theorem reasoned_step (drafts : DraftRows env state) (step : Step env state action next)
    (reasoned : ∀ job row, state.shared.jobs job = some row → row.Reasoned) :
    ∀ job row, next.shared.jobs job = some row → row.Reasoned := by
  intro job later present
  cases row_change step job with
  | kept same => exact reasoned job later (same ▸ present)
  | @submitted _ row origin opened _ written =>
      rw [written, Option.some.injEq] at present
      subst present
      exact (drafts.submitted origin opened).reasoned
  | created _ _ written | claimed _ _ _ _ _ _ written | released _ _ _ _ written =>
      rw [written, Option.some.injEq] at present
      subst present
      exact ⟨nofun, nofun⟩
  | completed _ _ _ _ written =>
      rw [written, Option.some.injEq] at present
      subst present
      exact ⟨fun _ => ⟨nofun, nofun, nofun⟩, nofun⟩
  | failed _ _ _ _ written | enqueueFailed _ written =>
      rw [written, Option.some.injEq] at present
      subst present
      exact ⟨nofun, fun _ => nofun⟩
  | enqueued found written =>
      rw [written, Option.some.injEq] at present
      subst present
      have old := reasoned job _ found
      exact ⟨old.result, old.error⟩

/-- In every run, finished rows tell why. -/
theorem run_reasoned {allowed : System.Condition (History × State) Action} {run : History × State}
    (reached : (system env).recorded.Reached allowed run) :
    ∀ job row, run.2.shared.jobs job = some row → row.Reasoned := by
  refine reached.historyInvariant (motive := fun _ state =>
    ∀ job row, state.shared.jobs job = some row → row.Reasoned) ?_ ?_
  · rintro _ ⟨now, rfl⟩ job row present
    cases present
  · intro history before action after earlier reasoned stepped _
    exact reasoned_step (run_drafts earlier) (step_cases stepped) reasoned

/-- In every run, the outcomes of a message of an unfinished job are releases. -/
theorem run_outcomes {allowed : System.Condition (History × State) Action} {run : History × State}
    (reached : (system env).recorded.Reached allowed run) (addressed : message.jobId = some job) :
    Finished run.2 job ∨ (lateReceiverOf message).total run.1 = 0 ∧
      (outcomeOf message).total run.1 ≤ (releaserOf job).total run.1 := by
  refine reached.historyInvariant (motive := fun history state => Finished state job ∨
    (lateReceiverOf message).total history = 0 ∧
      (outcomeOf message).total history ≤ (releaserOf job).total history) ?_ ?_
  · rintro _ ⟨now, rfl⟩
    exact .inr ⟨rfl, Nat.le_refl _⟩
  · intro history before action after _ counted stepped _
    exact outcomes_step (step_cases stepped) addressed counted

namespace Redrive

/-- `max_receive_count` of the shipped queue. -/
def maxReceiveCount : Nat := 5

/-- The messages of the pipeline are in the scoring queue or, when they are dead, in the
dead-letter queue. -/
structure State where
  run : History × Pipeline.State
  dead : List QueueMessage

inductive Action
  | pipeline (action : Pipeline.Action)
  | redrive (message : QueueMessage)

/-- Nobody reads the dead-letter queue, and a message has only so many receives. -/
def permitted (state : State) : Pipeline.Action → Bool
  | .worker _ (.receive message) =>
      decide (message ∉ state.dead) &&
        decide ((receiverOf message).total state.run.1 < maxReceiveCount)
  | .duplicate message => decide (message ∉ state.dead)
  | _ => true

/-- A message that was received often enough without being deleted moves over. -/
def step (env : Environment) (state : State) : Action → Option State
  | .pipeline action =>
      if permitted state action then
        ((Pipeline.system env).recorded.step state.run action).map fun run => {state with run}
      else none
  | .redrive message =>
      if message ∈ state.run.2.shared.queue.messages ∧ message ∉ state.dead ∧
          (receiverOf message).total state.run.1 = maxReceiveCount then
        some {state with dead := message :: state.dead}
      else none

def system (env : Environment) : System State Action where
  start state := ∃ now, state = ⟨([], initial now), []⟩
  step := step env

/-- A message of the job moves over only after one of its deliveries, and as many as any worker that
has claimed the job may attempt, have recorded an outcome or came when the job had ended. -/
def EnoughOutcomes (env : Environment) (job : Uuid) : System.Condition State Action :=
  fun before action _ => ∀ message, action = .redrive message → message.jobId = some job →
    1 ≤ recorded message before.run.1 ∧ ∀ id, Claimed job before.run.1 id →
      (env.settings id).maxAttempts ≤ recorded message before.run.1

/-- A dead message of the job leaves a finished row that tells why. -/
def Accounted (job : Uuid) (state : State) : Prop :=
  ∀ message ∈ state.dead, message.jobId = some job →
    ∃ row, state.run.2.shared.jobs job = some row ∧ row.status.terminal = true ∧ row.Reasoned

variable {env : Environment} {state next : State} {job : Uuid} {message : QueueMessage}

theorem pipeline_step {call : Pipeline.Action}
    (stepped : (system env).step state (.pipeline call) = some next) :
    ∃ run, (Pipeline.system env).recorded.step state.run call = some run ∧
      next = {state with run} := by
  simp only [system, step] at stepped
  split at stepped
  · obtain ⟨run, moved, rfl⟩ := Option.map_eq_some_iff.mp stepped
    exact ⟨run, moved, rfl⟩
  · cases stepped

theorem redrive_step (stepped : (system env).step state (.redrive message) = some next) :
    next = {state with dead := message :: state.dead} := by
  simp only [system, step] at stepped
  split at stepped
  · exact (Option.some.inj stepped).symm
  · cases stepped

/-- Messages that move over change nothing in the pipeline. -/
theorem run_reached {allowed : System.Condition State Action}
    (reached : (system env).Reached allowed state) :
    (Pipeline.system env).recorded.Reached System.anyStep state.run := by
  refine reached.invariant (motive := fun state =>
    (Pipeline.system env).recorded.Reached System.anyStep state.run) ?_ ?_
  · rintro _ ⟨now, rfl⟩
    exact ⟨_, ⟨rfl, now, rfl⟩, .refl⟩
  · intro before action after earlier stepped _
    cases action with
    | pipeline call =>
        obtain ⟨run, moved, rfl⟩ := pipeline_step stepped
        exact earlier.next call moved trivial
    | redrive message =>
        rw [redrive_step stepped]
        exact earlier

/-- A job with enough recorded outcomes is finished, since all but the last can be releases. -/
theorem finished_of_outcomes {run : History × Pipeline.State}
    (reached : (Pipeline.system env).recorded.Reached System.anyStep run)
    (addressed : message.jobId = some job) (positive : 1 ≤ recorded message run.1)
    (enough : ∀ id, Claimed job run.1 id → (env.settings id).maxAttempts ≤ recorded message run.1) :
    Finished run.2 job := by
  rcases run_outcomes reached addressed with finished | ⟨late, counted⟩
  · exact finished
  · rw [recorded, late, Nat.add_zero] at positive enough
    exact absurd counted (Nat.not_le_of_lt (releases_below reached positive enough))

/-- In a run whose messages move over only after enough outcomes, every dead message leaves a
finished row that tells why. -/
theorem enoughOutcomes_accounted (reached : (system env).Reached (EnoughOutcomes env job) state) :
    Accounted job state := by
  have finished : ∀ message ∈ state.dead, message.jobId = some job →
      Finished state.run.2 job := by
    refine reached.invariantWithin (motive := fun state => ∀ message ∈ state.dead,
      message.jobId = some job → Finished state.run.2 job) ?_ ?_
    · rintro _ ⟨now, rfl⟩ message member
      cases member
    · intro before action after earlier finished stepped fine message member addressed
      cases action with
      | pipeline call =>
          obtain ⟨run, moved, rfl⟩ := pipeline_step stepped
          exact finished_step (finished message member addressed)
            (step_cases (System.recorded_step moved))
      | redrive moved =>
          rw [redrive_step stepped] at member ⊢
          rcases List.mem_cons.mp member with rfl | old
          · obtain ⟨positive, enough⟩ := fine message rfl addressed
            have ended : Finished before.run.2 job :=
              finished_of_outcomes (run_reached earlier) addressed positive enough
            exact ended
          · exact finished message old addressed
  intro message member addressed
  obtain ⟨row, present, ended⟩ := finished message member addressed
  exact ⟨row, present, ended, run_reasoned (run_reached reached) job row present⟩

/-- One delivery of the only message to the first worker. -/
def deliverySteps (calls : List Worker.Action) : List Action :=
  (.receive ⟨0, some 1⟩ :: .claim 0 :: calls).map fun call => .pipeline (.worker 0 call)

/-- The score of this delivery times out. -/
def timedOutSteps (ending : List Worker.Action) : List Action :=
  deliverySteps (.readJob :: .score (.error (.transient "timeout".toList .timeout) 0) :: ending)

def publishedSteps : List Action :=
  [.pipeline (.createJob 1 .smallest 3 "s3://incoming/a.json".toList 0),
    .pipeline (.ingest 1 (.publish .delivered)), .pipeline (.ingest 1 (.markEnqueued 0))]

/-- Two attempts are released and the third one fails the job; no delete goes through. -/
def recordedSchedule : List Action :=
  publishedSteps ++ timedOutSteps [.release 0, .changeVisibility] ++
    timedOutSteps [.release 0, .changeVisibility] ++ timedOutSteps [.fail 0, .delete false true] ++
    deliverySteps [.classify, .delete false true] ++
    deliverySteps [.classify, .delete false true] ++ [.redrive ⟨0, some 1⟩]

/-- Three outcomes are enough for the default settings. -/
def countsOutcomes (state : State) : Action → Bool
  | .redrive message => decide (3 ≤ recorded message state.run.1)
  | .pipeline _ => true

theorem countsOutcomes_sound {before after : State} {action : Action}
    (counted : countsOutcomes before action = true) :
    EnoughOutcomes sampleEnvironment job before action after := by
  rintro message rfl _
  have three : 3 ≤ recorded message before.run.1 := of_decide_eq_true counted
  exact ⟨by omega, fun _ _ => three⟩

/-- The job that timed out three times is dead and failed, and its row tells why. -/
theorem enoughOutcomes_accounted_recorded : ∃ state,
    state.dead = [⟨0, some 1⟩] ∧
    (state.run.2.shared.jobs 1).map (·.lastErrorType) = some (some .maxAttemptsExhausted) ∧
    Accounted 1 state := by
  have ran : (((system sampleEnvironment).guarded countsOutcomes).run ⟨([], initial 0), []⟩
      recordedSchedule).map (fun state =>
        (state.dead, (state.run.2.shared.jobs 1).map (·.lastErrorType))) =
      some ([⟨0, some 1⟩], some (some .maxAttemptsExhausted)) := by rfl
  have sound : ∀ before action after, countsOutcomes before action = true →
      EnoughOutcomes sampleEnvironment 1 before action after := fun _ _ _ => countsOutcomes_sound
  obtain ⟨state, path, seen⟩ := System.guarded_observed ran sound
  obtain ⟨dead, blamed⟩ := Prod.mk.inj seen
  exact ⟨state, dead, blamed, enoughOutcomes_accounted ⟨_, ⟨0, rfl⟩, path⟩⟩

/-- Times are in microseconds. -/
def second : Nat := 1000000

/-- A worker receives the message, claims its job a second later and dies. -/
def crashedSteps (id : WorkerId) (start : Timestamp) : List Action :=
  [.pipeline (.worker id (.receive ⟨0, some 1⟩)), .pipeline (.tick second),
    .pipeline (.worker id (.claim start)), .pipeline (.worker id .crash)]

/-- The message is visible again a second before the claim of the dead worker expires. -/
def heldSteps (id : WorkerId) (start : Timestamp) : List Action :=
  [.pipeline (.tick (89 * second)), .pipeline (.worker id (.receive ⟨0, some 1⟩)),
    .pipeline (.worker id (.claim start)), .pipeline (.worker id .classify),
    .pipeline (.tick (90 * second))]

/-- Three workers die, and two deliveries meet the live claim of a dead worker. -/
def crashedSchedule : List Action :=
  publishedSteps ++ crashedSteps 0 (1 * second) ++ heldSteps 1 (90 * second) ++
    crashedSteps 1 (181 * second) ++ heldSteps 2 (270 * second) ++
    crashedSteps 2 (361 * second) ++ [.pipeline (.tick (89 * second)), .redrive ⟨0, some 1⟩]

/-- The only message of a published job is dead, and its row stays in processing without a reason. -/
theorem deadMessage_stranded : ∃ state row,
    (system sampleEnvironment).Reached System.anyStep state ∧
    state.run.2.origins 1 = .s3 .marked ∧
    state.run.2.shared.queue.messages = [⟨0, some 1⟩] ∧ state.dead = [⟨0, some 1⟩] ∧
    state.run.2.shared.jobs 1 = some row ∧ row.status = .processing ∧ row.lastErrorType = none ∧
    ∀ id ∈ [0, 1, 2], (state.run.2.workers id).message = none := by
  have ran : ((system sampleEnvironment).run ⟨([], initial 0), []⟩ crashedSchedule).map
      (fun state => (state.run.2.origins 1, state.run.2.shared.queue.messages, state.dead,
        (state.run.2.shared.jobs 1).map fun row => (row.status, row.lastErrorType),
        [0, 1, 2].map fun id => (state.run.2.workers id).message)) =
      some (.s3 .marked, [⟨0, some 1⟩], [⟨0, some 1⟩], some (.processing, none),
        [none, none, none]) := by rfl
  obtain ⟨state, path, seen⟩ := System.run_observed System.anyStep ran (fun _ _ _ _ => trivial)
  simp only [Prod.mk.injEq, Option.map_eq_some_iff] at seen
  obtain ⟨origin, messages, dead, ⟨row, present, waiting, unexplained⟩, idle⟩ := seen
  refine ⟨state, row, ⟨_, ⟨0, rfl⟩, path⟩, origin, messages, dead, present, waiting, unexplained, ?_⟩
  simpa using idle

end Redrive
end Pipeline
end ConvoScore
