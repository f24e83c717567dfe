import ConvoScore.Pipeline.Shipped

namespace ConvoScore.Worker.Sequential
open Library

variable {limits : Limits} {jobs : Jobs} {job : Uuid} {settings : Settings} {shared : Shared}

/-- An attempt on a processing row leaves it waiting below the cap, or it ends the job. -/
inductive Attempted (limits : Limits) (job : Uuid) (row : Conversation) (reply : ScoreReply)
    (ran : Ran) : Prop
  | waiting (kept : ran.deleted = false) (again : Waiting ran.jobs job row.attemptCount)
      (below : row.attemptCount < limits.maxAttempts)
      (raised : ∃ error jitter, reply = .error error jitter)
  | ended {final : Conversation} (deleted : ran.deleted = true)
      (present : ran.jobs job = some final) (attempts : final.attemptCount = row.attemptCount)
      (terminal : final.status.terminal = true)
      (completed : final.status = .completed ↔ ∃ outcome, reply = .outcome outcome)

/-- Every answer of the provider leads to one of the two ends, also above the cap. -/
theorem scoreAndPersist_attempted (limits : Limits) {row : Conversation}
    (present : jobs job = some row) (status : row.status = .processing) (exchange : Exchange) :
    Attempted limits job row exchange.reply (scoreAndPersist limits jobs job exchange) := by
  have accepted : row.isProcessing = true := Conversation.isProcessing_iff.mpr status
  have unfinished : row.isUnfinished = true := by
    rw [Conversation.isUnfinished_iff, status]
    rfl
  simp only [scoreAndPersist, getJob, present]
  cases reply : exchange.reply with
  | outcome outcome =>
      simp only [completeJob, Table.updateWhere_accepts present accepted]
      exact .ended rfl (Function.update_self ..) rfl rfl ⟨fun _ => ⟨outcome, rfl⟩, fun _ => rfl⟩
  | error error jitter =>
      by_cases again : (decideRetry error row.attemptCount limits.maxAttempts
          limits.retryBaseBackoffSeconds limits.retryMaxBackoffSeconds jitter).retry = true
      · simp only [handleFailure, again, if_true, releaseJobForRetry,
          Table.updateWhere_accepts present accepted]
        exact .waiting rfl ⟨_, Function.update_self .., rfl, rfl, rfl⟩ (decideRetry_below again)
          ⟨error, jitter, rfl⟩
      · simp only [handleFailure, Bool.eq_false_iff.mpr again, failJob,
          Table.updateWhere_accepts present unfinished]
        refine .ended rfl (Function.update_self ..) rfl rfl ⟨fun completed => ?_, ?_⟩
        · cases completed
        · rintro ⟨outcome, same⟩
          cases same

/-- An attempt concerns no other job. -/
theorem scoreAndPersist_others {other : Uuid} (different : other ≠ job) (exchange : Exchange) :
    (scoreAndPersist limits jobs job exchange).jobs other = jobs other := by
  unfold scoreAndPersist
  split
  · rfl
  · split
    · unfold handleFailure
      dsimp only
      split
      · exact Table.updateWhere_other different
      · exact Table.updateWhere_other different
    · rename_i outcome _
      have kept : (completeJob exchange.recordedAt jobs job outcome).1 other = jobs other :=
        Table.updateWhere_other different
      split
      · rename_i written
        rwa [written] at kept
      · rename_i written
        rwa [written] at kept

/-- The row as the claim of a delivery leaves it. -/
def claimedRow (settings : Settings) (shared : Shared) (row : Conversation) : Conversation :=
  row.withClaim shared.now (claimExpiry shared.now settings.visibilityTimeoutSeconds)

/-- The steps of one delivery whose claim succeeds. -/
def delivery (settings : Settings) (shared : Shared) (message : QueueMessage) (job : Uuid)
    (row : Conversation) (reply : ScoreReply) : List Action :=
  .receive message :: .claim shared.now :: .readJob :: .score reply ::
    finish settings (shared.write job (claimedRow settings shared row))
      (claimedRow settings shared row) reply

/-- A delivery of a free job claims it and does what `_score_and_persist` does. -/
theorem delivery_run (settings : Settings) {message : QueueMessage} {row : Conversation}
    (member : message ∈ shared.queue.messages) (addressed : message.jobId = some job)
    (present : shared.jobs job = some row) (free : row.claimable shared.now = true)
    (reply : ScoreReply) :
    (system settings).run (shared, .idle) (delivery settings shared message job row reply) =
      some ((scoreAndPersist settings.limits
        (shared.write job (claimedRow settings shared row)).jobs job
        ⟨shared.now, reply, shared.now⟩).shared shared message, .idle) := by
  obtain ⟨messageId, body⟩ := message
  cases addressed
  let claimed := claimedRow settings shared row
  let attempt : Attempt := ⟨⟨⟨messageId, some job⟩, job, rfl⟩,
    claimExpiry shared.now settings.visibilityTimeoutSeconds⟩
  have stored : (shared.write job claimed).jobs attempt.job = some claimed :=
    Shared.write_jobs_self
  have claims : (system settings).step (shared, .received ⟨messageId, some job⟩ shared.now)
      (.claim shared.now) = some (shared.write job claimed, .claimed attempt) := by
    rw [step_claim, claimUpdate, Table.updateWhere_accepts present free]
    rfl
  have scored := scoreAndPersist_steps settings ⟨shared.now, reply, shared.now⟩ stored rfl
  rw [delivery, System.run, step_receive member, Option.bind_some, System.run, claims,
    Option.bind_some]
  exact scored

end ConvoScore.Worker.Sequential

namespace ConvoScore.Pipeline
open Library

variable {env : Environment} {state : State} {id : WorkerId}

/-- A schedule of one worker runs in the pipeline as it runs alone. -/
theorem worker_run (schedule : List Worker.Action) {shared : Shared} {phase : Worker.Phase}
    (ran : (Worker.Sequential.system (env.settings id)).run (state.shared, state.workers id)
      schedule = some (shared, phase)) :
    (system env).run state (schedule.map (.worker id)) =
      some (state.withWorker shared id phase) := by
  induction schedule generalizing state with
  | nil =>
      cases ran
      simp only [List.map_nil, System.run, State.withWorker, Function.update_eq_self]
  | cons action rest ih =>
      simp only [System.run, Option.bind_eq_some_iff] at ran
      obtain ⟨⟨middle, between⟩, step, ran⟩ := ran
      have taken : (system env).step state (.worker id action) =
          some (state.withWorker middle id between) := by
        have moved : Worker.step (env.settings id) state.shared (state.workers id) action =
            some (middle, between) := step
        simp only [system, Pipeline.step, moved, Option.map_some]
      have later : (state.withWorker middle id between).workers id = between := by
        rw [withWorker_workers, if_pos rfl]
      have settled : (state.withWorker middle id between).withWorker shared id phase =
          state.withWorker shared id phase := by
        simp only [State.withWorker, Function.update_idem]
      rw [List.map_cons, System.run, taken, Option.bind_some, ih (by rw [later]; exact ran), settled]

namespace Shipped
open Visibility (Deployment sampleDeployment)

/-- A fault-free schedule of one worker and the clock handles a delivery of the message. -/
structure Delivers (deployment : Deployment) (state : State) (id : WorkerId)
    (message : QueueMessage) (reply : Worker.ScoreReply) (ran : Worker.Sequential.Ran)
    (schedule : List Action) (later : State) : Prop where
  run : (system deployment).run state schedule = some later
  faultFree : ∀ action ∈ schedule, FaultFree id action
  answers : schedule.filterMap answerOf = [reply]
  workers : later.workers = state.workers
  jobs : later.shared.jobs = ran.jobs
  queue : later.shared.queue =
    if ran.deleted then state.shared.queue.delete message else state.shared.queue
  receives : later.receives = Function.update state.receives message (state.receives message + 1)
  dead : later.dead = state.dead

/-- The row can be claimed once more, and the table accepts it. -/
structure Attemptable (row : Conversation) : Prop where
  accepted : row.accepted = true
  room : row.attemptCount + 1 < integerBound

variable {deployment : Deployment} {state : State} {id : WorkerId} {job : Uuid}
  {message : QueueMessage} {row : Conversation} {reply : Worker.ScoreReply}

/-- The calls after the claim of a delivery. -/
def afterClaim (settings : Settings) (shared : Shared) (job : Uuid) (row : Conversation)
    (reply : Worker.ScoreReply) : List Worker.Action :=
  .readJob :: .score reply :: Worker.Sequential.finish settings
    (shared.write job (Worker.Sequential.claimedRow settings shared row))
    (Worker.Sequential.claimedRow settings shared row) reply

theorem afterClaim_plain {settings : Settings} {shared : Shared}
    (recordable : reply.recordable = true) :
    ∀ call ∈ afterClaim settings shared job row reply, Plain call ∧ call.faultless = true := by
  have finished : ∀ later found, ∀ call ∈ Worker.Sequential.finish settings later found reply,
      Plain call ∧ call.faultless = true := by
    intro later found call member
    cases reply with
    | outcome =>
        simp only [Worker.Sequential.finish, List.mem_cons, List.not_mem_nil, or_false] at member
        rcases member with rfl | rfl <;> exact ⟨trivial, rfl⟩
    | error error jitter =>
        rw [Worker.Sequential.finish] at member
        split at member
        · simp only [List.mem_cons, List.not_mem_nil, or_false] at member
          rcases member with rfl | rfl <;> exact ⟨trivial, rfl⟩
        · simp only [List.mem_cons, List.not_mem_nil, or_false] at member
          rcases member with rfl | rfl <;> exact ⟨trivial, rfl⟩
  intro call member
  rcases List.mem_cons.mp member with rfl | member
  · exact ⟨trivial, rfl⟩
  · rcases List.mem_cons.mp member with rfl | member
    · exact ⟨recordable, rfl⟩
    · exact finished _ _ call member

/-- A delivery asks the provider once. -/
theorem delivery_answers {settings : Settings} {shared : Shared} (message : QueueMessage)
    (reply : Worker.ScoreReply) :
    ((Worker.Sequential.delivery settings shared message job row reply).map
      (act id)).filterMap answerOf = [reply] := by
  have finished : ∀ later found, ((Worker.Sequential.finish settings later found reply).map
      (act id)).filterMap answerOf = [] := by
    intro later found
    cases reply with
    | outcome => rfl
    | error error jitter =>
        rw [Worker.Sequential.finish]
        split <;> rfl
  simp only [Worker.Sequential.delivery, List.map_cons, List.filterMap_cons, finished, act, answerOf]

/-- Every call of a delivery is free of faults. -/
theorem delivery_faultFree {settings : Settings} {shared : Shared}
    (recordable : reply.recordable = true) :
    ∀ action ∈ (Worker.Sequential.delivery settings shared message job row reply).map (act id),
      FaultFree id action := by
  intro action member
  obtain ⟨call, called, rfl⟩ := List.mem_map.mp member
  refine ⟨rfl, ?_⟩
  rcases List.mem_cons.mp called with rfl | called
  · rfl
  · rcases List.mem_cons.mp called with rfl | called
    · rfl
    · exact (afterClaim_plain recordable call called).2

/-- The claim of an attemptable row is one that the table accepts. -/
theorem Attemptable.claimAccepted (attemptable : Attemptable row) {jobs : Jobs} {start : Timestamp}
    (addressed : message.jobId = some job) (present : jobs job = some row) :
    Shipped.claimAccepted deployment jobs message start = true := by
  rw [Shipped.claimAccepted, addressed, Option.bind_some, present, Option.all_some,
    Conversation.withClaim_accepted attemptable.accepted attemptable.room, Bool.or_true]

/-- The answer to an attemptable row is recorded, and its row stays one that the table accepts. -/
theorem Attemptable.recorded (attemptable : Attemptable row) (limits : Limits) {jobs : Jobs}
    {now expiry : Timestamp} (present : jobs job = some (row.withClaim now expiry))
    (recordable : reply.recordable = true) (recordedAt : Timestamp) :
    Worker.Checked.Stored
      (Worker.Sequential.scoreAndPersist limits jobs job ⟨now, reply, recordedAt⟩).jobs job := by
  have accepted : (row.withClaim now expiry).accepted = true :=
    Conversation.withClaim_accepted attemptable.accepted attemptable.room
  exact (Worker.Checked.scoreAndPersist_stored present rfl accepted recordable).2

/-- A delivery that a worker handles alone, with a claim that the table accepts or with none, runs
on the shipped queue. -/
theorem handle_run {calls rest : List Worker.Action} {result : Shared}
    (idle : state.workers id = .idle) (queued : message ∈ state.shared.queue.messages)
    (alive : message ∉ state.dead) (visible : state.queue.visibleAt message ≤ state.shared.now)
    (receivable : state.receives message < Redrive.maxReceiveCount)
    (alone : (Worker.Sequential.system (deployment.env.settings id)).run (state.shared, .idle)
      (.receive message :: calls) = some (result, .idle))
    (split : calls = rest ∨ calls = .claim state.shared.now :: rest ∧
      claimAccepted deployment state.shared.jobs message state.shared.now = true)
    (plain : ∀ call ∈ rest, Plain call) :
    ∃ visibleAt, (system deployment).run state ((.receive message :: calls).map (act id)) =
      some ⟨⟨state.queue.pipeline.withWorker result id .idle, visibleAt⟩,
        Function.update state.receives message (state.receives message + 1), state.dead⟩ := by
  let received := state.queue.pipeline.withWorker state.shared id
    (.received message state.shared.now)
  let taken : State := ⟨⟨received, Visibility.hidden deployment state.queue
    (.worker id (.receive message))⟩, Function.update state.receives message
      (state.receives message + 1), state.dead⟩
  have holds : received.workers id = .received message state.shared.now := by
    rw [withWorker_workers, if_pos rfl]
  have first : (system deployment).step state (act id (.receive message)) = some taken := by
    refine act_step ?_ (decide_eq_true visible)
      (Bool.and_eq_true_iff.mpr ⟨decide_eq_true alive, decide_eq_true receivable⟩)
    have stepped : Worker.step (deployment.env.settings id) state.shared (state.workers id)
        (.receive message) = some (state.shared, .received message state.shared.now) := by
      rw [idle]
      exact if_pos queued
    simp only [Pipeline.step, stepped, Option.map_some, received]
  rw [System.run, Worker.Sequential.step_receive queued, Option.bind_some] at alone
  have pipeline := @worker_run deployment.env received id calls result .idle
    (by rw [holds]; exact alone)
  rw [show received.withWorker result id .idle = state.queue.pipeline.withWorker result id .idle by
    simp only [received, State.withWorker, Function.update_idem]] at pipeline
  rw [List.map_cons, System.run, first, Option.bind_some]
  rcases split with rfl | ⟨rfl, accepted⟩
  · exact @plain_run deployment taken id calls plain _ pipeline
  · rw [List.map_cons, System.run, Option.bind_eq_some_iff] at pipeline
    obtain ⟨holding, claims, pipeline⟩ := pipeline
    have fine : permitted deployment taken (.pipeline (.worker id (.claim state.shared.now))) =
        true := by
      rw [permitted, show taken.workers id = .received message state.shared.now from holds]
      exact accepted
    have second := @act_step deployment taken id _ _ claims rfl fine
    rw [List.map_cons, System.run, second, Option.bind_some]
    exact @plain_run deployment ⟨⟨holding, Visibility.hidden deployment taken.queue
      (.worker id (.claim state.shared.now))⟩, taken.receives, state.dead⟩ id rest plain _ pipeline

/-- An idle worker delivers a message of an unfinished job, once it is visible and the job free. -/
theorem deliver (idle : state.workers id = .idle) (queued : message ∈ state.shared.queue.messages)
    (alive : message ∉ state.dead) (receivable : state.receives message < Redrive.maxReceiveCount)
    (addressed : message.jobId = some job) (present : state.shared.jobs job = some row)
    (unfinished : row.status.terminal = false) (attemptable : Attemptable row)
    (recordable : reply.recordable = true) :
    ∃ schedule later ran, Delivers deployment state id message reply ran schedule later ∧
      (∀ other, other ≠ job → ran.jobs other = state.shared.jobs other) ∧
      Worker.Checked.Stored ran.jobs job ∧ ∃ claimed : Conversation,
        claimed.attemptCount = row.attemptCount + 1 ∧
        Worker.Sequential.Attempted (deployment.env.settings id).limits job claimed reply ran := by
  let settings := deployment.env.settings id
  -- The clock first passes the end of the claim that a dead or slow worker may have left.
  let elapsed := state.queue.visibleAt message + (row.lockedUntil.getD 0 + 1)
  let waited := state.wait elapsed
  have visible : waited.queue.visibleAt message ≤ waited.shared.now :=
    Nat.le_trans (Nat.le_add_right _ _) (Nat.le_add_left elapsed state.shared.now)
  have free : row.claimable waited.shared.now = true := by
    refine Conversation.claimable_iff.mpr ⟨unfinished, fun stored locked => ?_⟩
    have past : row.lockedUntil.getD 0 + 1 ≤ waited.shared.now :=
      Nat.le_trans (Nat.le_add_left _ _) (Nat.le_add_left elapsed state.shared.now)
    rw [locked, Option.getD_some] at past
    exact past
  let ran := Worker.Sequential.scoreAndPersist settings.limits
    (waited.shared.write job (Worker.Sequential.claimedRow settings waited.shared row)).jobs job
    ⟨waited.shared.now, reply, waited.shared.now⟩
  have alone := @Worker.Sequential.delivery_run job waited.shared settings message row queued
    addressed present free reply
  obtain ⟨visibleAt, run⟩ := @handle_run deployment waited id message _
    (afterClaim settings waited.shared job row reply) _ idle queued alive visible receivable alone
    (.inr ⟨rfl, attemptable.claimAccepted addressed present⟩)
    fun call member => (afterClaim_plain recordable call member).1
  refine ⟨_, _, ran, ⟨wait_run run, ?_, delivery_answers message reply, ?_, rfl, rfl, rfl, rfl⟩, ?_, ?_,
    Worker.Sequential.claimedRow settings waited.shared row, rfl, ?_⟩
  · intro action member
    rcases List.mem_cons.mp member with rfl | member
    · trivial
    · exact delivery_faultFree recordable action member
  · rw [State.workers, State.withWorker, ← idle]
    exact Function.update_eq_self ..
  · intro other different
    rw [Worker.Sequential.scoreAndPersist_others different]
    exact Shared.write_jobs_of_ne different
  · exact attemptable.recorded settings.limits Shared.write_jobs_self recordable waited.shared.now
  · exact Worker.Sequential.scoreAndPersist_attempted settings.limits Shared.write_jobs_self rfl
      ⟨waited.shared.now, reply, waited.shared.now⟩

/-- A fault-free schedule of one worker and the clock ends the job and deletes the message, and it
leaves everything else alone; each further attempt asks the provider once and takes one receive. -/
structure Finishes (deployment : Deployment) (state : State) (id : WorkerId) (job : Uuid)
    (message : QueueMessage) (attempts : Nat) (replies : Nat → Worker.ScoreReply)
    (schedule : List Action) (later : State) (last : Nat) : Prop where
  ran : (system deployment).run state schedule = some later
  faultFree : ∀ action ∈ schedule, FaultFree id action
  answers : schedule.filterMap answerOf = (List.range (last + 1)).map replies
  workers : later.workers = state.workers
  queue : later.shared.queue = state.shared.queue.delete message
  receives : later.receives =
    Function.update state.receives message (state.receives message + (last + 1))
  dead : later.dead = state.dead
  others : ∀ other, other ≠ job → later.shared.jobs other = state.shared.jobs other
  ended : ∃ final, later.shared.jobs job = some final ∧ final.status.terminal = true ∧
    final.attemptCount = attempts + (last + 1) ∧
    (final.status = .completed ↔ ∃ outcome, replies last = .outcome outcome)

variable {later middle : State} {attempts last : Nat} {replies : Nat → Worker.ScoreReply}
  {first schedule : List Action} {ran : Worker.Sequential.Ran}

/-- A delivery that is retried before a schedule that finishes the job makes a longer one. -/
theorem Finishes.after (finishes : Finishes deployment middle id job message (attempts + 1)
      (fun index => replies (index + 1)) schedule later last)
    (delivers : Delivers deployment state id message (replies 0) ran first middle)
    (kept : ran.deleted = false)
    (others : ∀ other, other ≠ job → ran.jobs other = state.shared.jobs other) :
    Finishes deployment state id job message attempts replies (first ++ schedule) later (last + 1)
    where
  ran := by rw [System.run_append, delivers.run, Option.bind_some, finishes.ran]
  faultFree action member :=
    (List.mem_append.mp member).elim (delivers.faultFree action) (finishes.faultFree action)
  answers := by
    rw [List.filterMap_append, delivers.answers, finishes.answers,
      @List.range_succ_eq_map (last + 1), List.map_cons, List.map_map]
    rfl
  workers := finishes.workers.trans delivers.workers
  queue := by
    rw [finishes.queue, delivers.queue, kept]
    rfl
  receives := by
    rw [finishes.receives, delivers.receives, Function.update_self, Function.update_idem,
      Nat.add_assoc, Nat.add_comm 1]
  dead := finishes.dead.trans delivers.dead
  others other different := by
    rw [finishes.others other different, delivers.jobs, others other different]
  ended := by
    obtain ⟨final, present, terminal, counted, completed⟩ := finishes.ended
    exact ⟨final, present, terminal, by omega, completed⟩

/-- A delivery that ends the job finishes it with one answer. -/
theorem Delivers.finishes {final : Conversation}
    (delivers : Delivers deployment state id message (replies 0) ran schedule later)
    (others : ∀ other, other ≠ job → ran.jobs other = state.shared.jobs other)
    (deleted : ran.deleted = true) (found : ran.jobs job = some final)
    (counted : final.attemptCount = attempts + 1) (terminal : final.status.terminal = true)
    (completed : final.status = .completed ↔ ∃ outcome, replies 0 = .outcome outcome) :
    Finishes deployment state id job message attempts replies schedule later 0 where
  ran := delivers.run
  faultFree := delivers.faultFree
  answers := delivers.answers
  workers := delivers.workers
  queue := by
    rw [delivers.queue, deleted]
    rfl
  receives := delivers.receives
  dead := delivers.dead
  others other different := by rw [delivers.jobs, others other different]
  ended := ⟨final, by rw [delivers.jobs, found], terminal, counted, completed⟩

/-- While receives are left, each delivery ends the job or uses up one attempt. -/
theorem unfinished_finishes (room : Nat) (idle : state.workers id = .idle)
    (queued : message ∈ state.shared.queue.messages) (alive : message ∉ state.dead)
    (addressed : message.jobId = some job) (present : state.shared.jobs job = some row)
    (unfinished : row.status.terminal = false) (attemptable : Attemptable row)
    (enough : state.receives message +
      max 1 ((deployment.env.settings id).maxAttempts - row.attemptCount) ≤ Redrive.maxReceiveCount)
    (within : (deployment.env.settings id).maxAttempts - row.attemptCount ≤ room)
    (recordable : ∀ index, (replies index).recordable = true) :
    ∃ schedule later last, Finishes deployment state id job message row.attemptCount replies
      schedule later last ∧
      last + 1 ≤ max 1 ((deployment.env.settings id).maxAttempts - row.attemptCount) := by
  induction room generalizing state row replies with
  | zero =>
      obtain ⟨schedule, later, ran, delivers, others, stored, claimed, counted, attempted⟩ :=
        @deliver deployment state id job message row (replies 0) idle queued alive (by omega)
          addressed present unfinished attemptable (recordable 0)
      cases attempted with
      | waiting _ _ below =>
          have bounded : claimed.attemptCount < (deployment.env.settings id).maxAttempts := below
          omega
      | ended deleted found attempts terminal completed =>
          exact ⟨schedule, later, 0, delivers.finishes others deleted found
            (attempts.trans counted) terminal completed, Nat.le_max_left _ _⟩
  | succ room ih =>
      obtain ⟨schedule, middle, ran, delivers, others, stored, claimed, counted, attempted⟩ :=
        @deliver deployment state id job message row (replies 0) idle queued alive (by omega)
          addressed present unfinished attemptable (recordable 0)
      cases attempted with
      | waiting kept again below =>
          obtain ⟨waiting, found, pending, unlocked, same⟩ := again
          have bounded : claimed.attemptCount < (deployment.env.settings id).maxAttempts := below
          have capped := (deployment.env.settings id).maxAttemptsRange.2
          have used : middle.receives message = state.receives message + 1 := by
            rw [delivers.receives, Function.update_self]
          have still : message ∈ middle.shared.queue.messages := by
            rw [delivers.queue, kept]
            exact queued
          have open_ : waiting.status.terminal = false := by
            rw [pending]
            rfl
          have large : integerBound = 2 ^ 31 := rfl
          obtain ⟨rest, later, last, finishes, few⟩ := @ih middle waiting
            (fun index => replies (index + 1)) (by rw [delivers.workers]; exact idle) still
            (by rw [delivers.dead]; exact alive) (by rw [delivers.jobs]; exact found) open_
            ⟨stored waiting found, by omega⟩ (by omega) (by omega) fun index => recordable (index + 1)
          rw [same.trans counted] at finishes
          exact ⟨schedule ++ rest, later, last + 1, finishes.after delivers kept others, by omega⟩
      | ended deleted found attempts terminal completed =>
          exact ⟨schedule, middle, 0, delivers.finishes others deleted found
            (attempts.trans counted) terminal completed, Nat.le_max_left _ _⟩

/-- Whatever has happened to a job, while one of its messages has enough receives left and the
answers can be recorded, an idle worker that is left alone for long enough and meets no fault ends
the job and deletes the message, with at most as many calls of its provider as attempts are left
below the cap, or with one call. -/
theorem queued_job_finishes (deployment : Deployment) (state : State) (id : WorkerId)
    (idle : state.workers id = .idle) (queued : message ∈ state.shared.queue.messages)
    (alive : message ∉ state.dead) (addressed : message.jobId = some job)
    (present : state.shared.jobs job = some row) (unfinished : row.status.terminal = false)
    (attemptable : Attemptable row)
    (enough : state.receives message +
      max 1 ((deployment.env.settings id).maxAttempts - row.attemptCount) ≤ Redrive.maxReceiveCount)
    (recordable : ∀ index, (replies index).recordable = true) :
    ∃ schedule later last, Finishes deployment state id job message row.attemptCount replies
      schedule later last ∧
      last + 1 ≤ max 1 ((deployment.env.settings id).maxAttempts - row.attemptCount) :=
  unfinished_finishes _ idle queued alive addressed present unfinished attemptable enough
    (Nat.le_refl _) recordable

theorem sampleExchanges_recordable :
    ∀ index, (Worker.Sequential.sampleExchanges index).reply.recordable = true
  | 0 => by decide
  | 1 => by decide
  | _ + 2 => rfl

/-- A worker claims the job and dies. -/
def deserted : List Action :=
  [.createJob 1 .smallest 3 "s3://incoming/a.json".toList 0, .ingest 1 (.publish .delivered),
    .worker 0 (.receive ⟨0, some 1⟩), .worker 0 (.claim 0), .worker 0 .crash].map fun action =>
      .handle (.pipeline action)

/-- Another worker finishes the job of the dead one with at most two calls. -/
theorem queued_job_finishes_deserted : ∃ state row,
    (system sampleDeployment).Reached System.anyStep state ∧ state.workers 0 = .stopped ∧
    state.shared.jobs 1 = some row ∧ row.status = .processing ∧
    state.receives ⟨0, some 1⟩ = 1 ∧
    ∃ schedule later last, Finishes sampleDeployment state 1 1 ⟨0, some 1⟩ row.attemptCount
      (fun index => (Worker.Sequential.sampleExchanges index).reply) schedule later last ∧
      last + 1 ≤ 2 := by
  have ran : ((system sampleDeployment).run ⟨⟨initial 0, fun _ => 0⟩, fun _ => 0, []⟩ deserted).map
      (fun state => (state.workers 0, state.workers 1, state.shared.queue.messages,
        (state.receives ⟨0, some 1⟩, state.dead),
        (state.shared.jobs 1).map fun row => (row.status, row.attemptCount, row.accepted))) =
      some (.stopped, .idle, [⟨0, some 1⟩], (1, []), some (.processing, 1, true)) := by rfl
  obtain ⟨state, path, seen⟩ := System.run_observed System.anyStep ran fun _ _ _ _ => trivial
  simp only [Prod.mk.injEq] at seen
  obtain ⟨crashed, idle, messages, ⟨receives, dead⟩, found⟩ := seen
  obtain ⟨row, present, columns⟩ := Option.map_eq_some_iff.mp found
  simp only [Prod.mk.injEq] at columns
  obtain ⟨processing, attempts, accepted⟩ := columns
  have queued : ⟨0, some 1⟩ ∈ state.shared.queue.messages := by
    rw [messages]
    exact List.mem_cons_self
  obtain ⟨schedule, later, last, finishes, few⟩ := queued_job_finishes sampleDeployment state 1 idle
    queued (by rw [dead]; exact List.not_mem_nil) rfl present (by rw [processing]; rfl)
    ⟨accepted, by rw [attempts]; decide⟩ (by rw [receives, attempts]; decide)
    sampleExchanges_recordable
  rw [attempts] at few
  exact ⟨state, row, ⟨_, ⟨0, rfl⟩, path⟩, crashed, present, processing, receives, schedule, later,
    last, finishes, few⟩

end Shipped
end ConvoScore.Pipeline
