import ConvoScore.Pipeline.Ledger

namespace ConvoScore.Pipeline.Visibility
open Library

/-- The queue and every worker are configured with one visibility timeout. -/
structure Deployment where
  env : Environment
  timeoutSeconds : Nat
  configured : ∀ id, (env.settings id).visibilityTimeoutSeconds = timeoutSeconds

/-- The queue hides each message until a time of its own. -/
structure State where
  pipeline : Pipeline.State
  visibleAt : QueueMessage → Timestamp

/-- `unextended` is a `change_visibility` that raises, which the worker only logs. -/
inductive Action
  | pipeline (action : Pipeline.Action)
  | unextended (id : WorkerId)

/-- A message is delivered only while it is visible. -/
def permitted (state : State) : Pipeline.Action → Bool
  | .worker _ (.receive message) =>
      decide (state.visibleAt message ≤ state.pipeline.shared.now)
  | _ => true

/-- A delivery hides its message for the timeout of the queue, and `change_visibility` replaces
what is left of that. -/
def hidden (deployment : Deployment) (state : State) :
    Pipeline.Action → QueueMessage → Timestamp
  | .worker _ (.receive message) =>
      Function.update state.visibleAt message
        (state.pipeline.shared.now + deployment.timeoutSeconds * microsecondsPerSecond)
  | .worker id .changeVisibility =>
      match state.pipeline.workers id with
      | .extending message backoffSeconds =>
          Function.update state.visibleAt message
            (state.pipeline.shared.now + backoffSeconds * microsecondsPerSecond)
      | _ => state.visibleAt
  | _ => state.visibleAt

def step (deployment : Deployment) (state : State) : Action → Option State
  | .pipeline action =>
      if permitted state action then
        (Pipeline.step deployment.env state.pipeline action).map fun next =>
          ⟨next, hidden deployment state action⟩
      else none
  | .unextended id =>
      (Pipeline.step deployment.env state.pipeline (.worker id .changeVisibility)).map fun next =>
        {state with pipeline := next}

def system (deployment : Deployment) : System State Action where
  start state := ∃ now, state = ⟨initial now, fun _ => now⟩
  step := step deployment

abbrev History := List (System.Taken State Action)

/-- The step of the pipeline that an action takes. -/
def Action.call : Action → Pipeline.Action
  | .pipeline action => action
  | .unextended id => .worker id .changeVisibility

/-- A claim belongs to a delivery, and its transaction starts after it. -/
structure Claim where
  message : QueueMessage
  since : Timestamp
  start : Timestamp

/-- The successful claim on the job in a transition. -/
def claimIn (job : Uuid) (taken : System.Taken State Action) : Option Claim :=
  match taken.action with
  | .pipeline (.worker id (.claim start)) =>
      match taken.before.pipeline.workers id, taken.after.pipeline.workers id with
      | .received message since, .claimed attempt =>
          if attempt.job = job then some ⟨message, since, start⟩ else none
      | _, _ => none
  | _ => none

/-- The latest successful claim on the job. -/
def lastClaim (job : Uuid) (history : History) : Option Claim := history.findSome? (claimIn job)

/-- What a transition does to the visibility of a message. -/
inductive Handling
  | delivered (time : Timestamp)
  | changed

def handling (message : QueueMessage) (taken : System.Taken State Action) : Option Handling :=
  match taken.action with
  | .pipeline (.worker _ (.receive received)) =>
      if received = message then some (.delivered taken.before.pipeline.shared.now) else none
  | .pipeline (.worker id .changeVisibility) =>
      match taken.before.pipeline.workers id with
      | .extending extended _ => if extended = message then some .changed else none
      | _ => none
  | _ => none

/-- The deliveries of the message since its visibility was last changed, the latest one first. -/
def deliveries (message : QueueMessage) : History → List Timestamp
  | [] => []
  | taken :: earlier =>
      match handling message taken with
      | some (.delivered time) => time :: deliveries message earlier
      | some .changed => []
      | none => deliveries message earlier

/-- A claim took the job and recorded nothing, and the worker that made it is gone. -/
structure Abandoned (job : Uuid) (state : Pipeline.State) : Prop where
  processing : ∃ row, state.shared.jobs job = some row ∧ row.status = .processing
  unattended : ∀ id attempt, (state.workers id).attempt = some attempt → attempt.job ≠ job

/-- The worker of the claim is gone, nobody has changed the visibility of its message, and another
delivery of the message came later. -/
structure Redelivered (job : Uuid) (run : History × State) (id : WorkerId) (claim : Claim)
    (since : Timestamp) : Prop where
  abandoned : Abandoned job run.2.pipeline
  latest : lastClaim job run.1 = some claim
  held : run.2.pipeline.workers id = .received claim.message since
  addressed : claim.message.jobId = some job
  ordered : [since, claim.since].Sublist (deliveries claim.message run.1)

/-- Each redelivery of an abandoned job comes a visibility timeout after the delivery of the worker
that is gone, and its claim succeeds. -/
def PickedUp (deployment : Deployment) (job : Uuid) : System.Condition (History × State) Action :=
  fun before action after => ∀ id start claim since,
    action = .pipeline (.worker id (.claim start)) → Redelivered job before id claim since →
    claim.since + deployment.timeoutSeconds * microsecondsPerSecond ≤ since ∧
      ∃ attempt, after.2.pipeline.workers id = .claimed attempt ∧ attempt.job = job

/-- The claim at each redelivery of an abandoned job starts more than a visibility timeout after
the claim of the worker that is gone. -/
def ClaimsSpaced (deployment : Deployment) (job : Uuid) :
    System.Condition (History × State) Action :=
  fun before action _ => ∀ id start claim since,
    action = .pipeline (.worker id (.claim start)) → Redelivered job before id claim since →
    claim.start + deployment.timeoutSeconds * microsecondsPerSecond < start

/-- A job in processing is locked by its latest claim. -/
def Locked (deployment : Deployment) (job : Uuid) (history : History) (state : State) : Prop :=
  ∀ row, state.pipeline.shared.jobs job = some row → row.status = .processing →
    ∃ claim, lastClaim job history = some claim ∧
      row.lockedUntil = some (claimExpiry claim.start deployment.timeoutSeconds)

/-- A message stays hidden for the timeout after each of its deliveries. -/
structure Spaced (deployment : Deployment) (message : QueueMessage) (history : History)
    (state : State) : Prop where
  apart : (deliveries message history).Pairwise fun later earlier =>
    earlier + deployment.timeoutSeconds * microsecondsPerSecond ≤ later
  hidden : ∀ time ∈ deliveries message history,
    time + deployment.timeoutSeconds * microsecondsPerSecond ≤ state.visibleAt message

variable {deployment : Deployment} {state next : State} {action : Action} {job : Uuid}
  {history : History} {run : History × State} {message : QueueMessage}

/-- Hidden messages only take steps away from the pipeline. -/
theorem pipeline_step (stepped : (system deployment).step state action = some next) :
    Pipeline.step deployment.env state.pipeline action.call = some next.pipeline := by
  cases action with
  | pipeline action =>
      simp only [system, step] at stepped
      split at stepped
      · obtain ⟨reached, moved, rfl⟩ := Option.map_eq_some_iff.mp stepped
        exact moved
      · cases stepped
  | unextended id =>
      obtain ⟨reached, moved, rfl⟩ := Option.map_eq_some_iff.mp stepped
      exact moved

/-- Every run with hidden messages is a run of the pipeline. -/
theorem run_reached {allowed : System.Condition (History × State) Action}
    (reached : (system deployment).recorded.Reached allowed run) :
    (Pipeline.system deployment.env).Reached System.anyStep run.2.pipeline := by
  refine reached.historyInvariant (motive := fun _ state =>
    (Pipeline.system deployment.env).Reached System.anyStep state.pipeline) ?_ ?_
  · rintro _ ⟨now, rfl⟩
    exact ⟨_, ⟨now, rfl⟩, .refl⟩
  · intro history before action after _ earlier stepped _
    exact earlier.next action.call (pipeline_step stepped) trivial

/-- A delivery finds its message visible and hides it. -/
theorem delivered_step (stepped : (system deployment).step state action = some next)
    {time : Timestamp}
    (delivered : handling message ⟨state, action, next⟩ = some (.delivered time)) :
    state.visibleAt message ≤ time ∧
      next.visibleAt message = time + deployment.timeoutSeconds * microsecondsPerSecond := by
  unfold handling at delivered
  split at delivered
  · rename_i id received call
    subst call
    split at delivered
    · rename_i same
      cases delivered
      subst same
      simp only [system, step] at stepped
      split at stepped
      · rename_i visible
        obtain ⟨reached, moved, rfl⟩ := Option.map_eq_some_iff.mp stepped
        exact ⟨of_decide_eq_true visible, Function.update_self ..⟩
      · cases stepped
    · cases delivered
  · split at delivered
    · split at delivered <;> cases delivered
    · cases delivered
  · cases delivered

theorem hidden_unhandled {call : Pipeline.Action}
    (unhandled : handling message ⟨state, .pipeline call, next⟩ = none) :
    hidden deployment state call message = state.visibleAt message := by
  cases call with
  | worker id call =>
      cases call with
      | receive received =>
          have different : message ≠ received := by
            intro same
            simp [handling, same] at unhandled
          exact Function.update_of_ne different ..
      | changeVisibility =>
          cases held : state.pipeline.workers id with
          | extending extended backoffSeconds =>
              have different : message ≠ extended := by
                intro same
                simp [handling, held, same] at unhandled
              simp only [hidden, held, Function.update_of_ne different]
          | _ => simp only [hidden, held]
      | _ => rfl
  | _ => rfl

/-- A step that neither delivers the message nor changes its visibility keeps it as it is. -/
theorem unhandled_step (stepped : (system deployment).step state action = some next)
    (unhandled : handling message ⟨state, action, next⟩ = none) :
    next.visibleAt message = state.visibleAt message := by
  cases action with
  | unextended id =>
      obtain ⟨reached, moved, rfl⟩ := Option.map_eq_some_iff.mp stepped
      rfl
  | pipeline call =>
      simp only [system, step] at stepped
      split at stepped
      · obtain ⟨reached, moved, rfl⟩ := Option.map_eq_some_iff.mp stepped
        exact hidden_unhandled unhandled
      · cases stepped

/-- Every step keeps the deliveries of a message apart. -/
theorem spaced_step (spaced : Spaced deployment message history state)
    (stepped : (system deployment).step state action = some next) :
    Spaced deployment message (⟨state, action, next⟩ :: history) next := by
  cases handled : handling message ⟨state, action, next⟩ with
  | none =>
      have same : deliveries message (⟨state, action, next⟩ :: history) =
          deliveries message history := by
        rw [deliveries, handled]
      refine ⟨same ▸ spaced.apart, ?_⟩
      rw [same, unhandled_step stepped handled]
      exact spaced.hidden
  | some change =>
      cases change with
      | changed =>
          have none_left : deliveries message (⟨state, action, next⟩ :: history) = [] := by
            rw [deliveries, handled]
          refine ⟨?_, ?_⟩
          · rw [none_left]
            exact .nil
          · rw [none_left]
            intro time member
            cases member
      | delivered time =>
          obtain ⟨visible, hides⟩ := delivered_step stepped handled
          have grown : deliveries message (⟨state, action, next⟩ :: history) =
              time :: deliveries message history := by
            rw [deliveries, handled]
          have earlier : ∀ before ∈ deliveries message history,
              before + deployment.timeoutSeconds * microsecondsPerSecond ≤ time :=
            fun before member => Nat.le_trans (spaced.hidden before member) visible
          refine ⟨?_, ?_⟩
          · rw [grown]
            exact List.pairwise_cons.mpr ⟨earlier, spaced.apart⟩
          · rw [grown, hides]
            intro before member
            rcases List.mem_cons.mp member with rfl | old
            · exact Nat.le_refl _
            · exact Nat.le_trans (earlier before old) (Nat.le_add_right _ _)

/-- In every run, the deliveries of a message are a visibility timeout apart. -/
theorem run_spaced {allowed : System.Condition (History × State) Action}
    (reached : (system deployment).recorded.Reached allowed run) (message : QueueMessage) :
    Spaced deployment message run.1 run.2 := by
  refine reached.historyInvariant (motive := Spaced deployment message) ?_ ?_
  · rintro _ ⟨now, rfl⟩
    refine ⟨.nil, ?_⟩
    intro time member
    cases member
  · intro history before action after _ spaced stepped _
    exact spaced_step spaced stepped

/-- A claim in a transition takes a free row of the job. -/
theorem claimIn_claimed {claim : Claim}
    (stepped : (system deployment).step state action = some next)
    (claimed : claimIn job ⟨state, action, next⟩ = some claim) :
    ∃ row : Conversation, next.pipeline.shared.jobs job =
      some (row.withClaim claim.start (claimExpiry claim.start deployment.timeoutSeconds)) := by
  have step := step_cases (pipeline_step stepped)
  unfold claimIn at claimed
  split at claimed
  · rename_i id start call
    subst call
    split at claimed
    · rename_i message since attempt held entered
      split at claimed
      · rename_i same
        cases claimed
        subst same
        obtain ⟨_, before, _, _, _, expires, written⟩ := claim_entered step entered
        rw [expires, deployment.configured] at written
        exact ⟨before, written⟩
      · cases claimed
    · cases claimed
  · cases claimed

/-- Without a claim a job stays in processing under the lock that it had. -/
theorem unclaimed_locked (drafts : DraftRows deployment.env state.pipeline)
    (locked : Locked deployment job history state)
    (stepped : (system deployment).step state action = some next)
    (unclaimed : claimIn job ⟨state, action, next⟩ = none) {row : Conversation}
    (present : next.pipeline.shared.jobs job = some row) (processing : row.status = .processing) :
    ∃ claim, lastClaim job history = some claim ∧
      row.lockedUntil = some (claimExpiry claim.start deployment.timeoutSeconds) := by
  have change := row_change (step_cases (pipeline_step stepped)) job
  generalize called : action.call = call at change
  cases change with
  | kept same => exact locked row (same ▸ present) processing
  | @submitted request draft origin opened _ written =>
      rw [written, Option.some.injEq] at present
      subst present
      exact absurd processing (drafts.submitted origin opened).unclaimed
  | claimed phase same _ _ _ _ _ entered =>
      cases action with
      | unextended => cases called
      | pipeline =>
          subst called
          simp [claimIn, phase, entered, same] at unclaimed
  | @enqueued _ before found written =>
      rw [written, Option.some.injEq] at present
      subst present
      obtain ⟨claim, latest, lock⟩ := locked before found processing
      exact ⟨claim, latest, lock⟩
  | created _ _ written | completed _ _ _ _ written | released _ _ _ _ written
  | failed _ _ _ _ written | enqueueFailed _ written =>
      rw [written, Option.some.injEq] at present
      subst present
      cases processing

theorem locked_step (drafts : DraftRows deployment.env state.pipeline)
    (locked : Locked deployment job history state)
    (stepped : (system deployment).step state action = some next) :
    Locked deployment job (⟨state, action, next⟩ :: history) next := by
  intro row present processing
  cases claimed : claimIn job ⟨state, action, next⟩ with
  | none =>
      rw [lastClaim, List.findSome?_cons, claimed]
      exact unclaimed_locked drafts locked stepped claimed present processing
  | some claim =>
      obtain ⟨before, written⟩ := claimIn_claimed stepped claimed
      rw [written, Option.some.injEq] at present
      subst present
      refine ⟨claim, ?_, rfl⟩
      rw [lastClaim, List.findSome?_cons, claimed]

/-- In every run, a job in processing is locked by its latest claim. -/
theorem run_locked {allowed : System.Condition (History × State) Action}
    (reached : (system deployment).recorded.Reached allowed run) (job : Uuid) :
    Locked deployment job run.1 run.2 := by
  refine reached.historyInvariant (motive := Locked deployment job) ?_ ?_
  · rintro _ ⟨now, rfl⟩ row present
    cases present
  · intro history before action after earlier locked stepped _
    exact locked_step (reached_drafts (run_reached earlier)) locked stepped

/-- A claim on a job in processing succeeds exactly when it starts after the lock. -/
theorem claim_succeeds_iff {env : Environment} {before after : Pipeline.State} {id : WorkerId}
    {start since expiry : Timestamp} {row : Conversation}
    (step : Step env before (.worker id (.claim start)) after)
    (held : before.workers id = .received message since) (addressed : message.jobId = some job)
    (present : before.shared.jobs job = some row) (processing : row.status = .processing)
    (lock : row.lockedUntil = some expiry) :
    (∃ attempt, after.workers id = .claimed attempt ∧ attempt.job = job) ↔ expiry < start := by
  cases step with
  | worker move =>
      rw [withWorker_workers, if_pos rfl]
      rw [held] at move
      cases move with
      | claimed delivery _ _ found free =>
          obtain rfl : delivery.job = job := Option.some.inj (delivery.addressed.symm.trans addressed)
          rw [present, Option.some.injEq] at found
          subst found
          have expired := (Conversation.claimable_iff.mp free).2 expiry lock
          exact ⟨fun _ => expired, fun _ => ⟨_, rfl, rfl⟩⟩
      | unclaimed delivery _ _ taken =>
          obtain rfl : delivery.job = job := Option.some.inj (delivery.addressed.symm.trans addressed)
          constructor
          · rintro ⟨attempt, entered, _⟩
            cases entered
          · intro expired
            have free : row.claimable start = true := by
              simp [Conversation.claimable, processing, lock, expired]
            rw [taken row present] at free
            cases free

/-- The claim at a redelivery succeeds exactly when the lock of the worker that is gone is over. -/
theorem redelivery_claimed_iff {allowed : System.Condition (History × State) Action}
    {before after : History × State} {id : WorkerId} {start since : Timestamp} {claim : Claim}
    (reached : (system deployment).recorded.Reached allowed before)
    (stepped : (system deployment).recorded.step before (.pipeline (.worker id (.claim start))) =
      some after) (redelivered : Redelivered job before id claim since) :
    (∃ attempt, after.2.pipeline.workers id = .claimed attempt ∧ attempt.job = job) ↔
      claim.start + deployment.timeoutSeconds * microsecondsPerSecond < start := by
  obtain ⟨row, present, processing⟩ := redelivered.abandoned.processing
  obtain ⟨latest, found, lock⟩ := run_locked reached job row present processing
  rw [redelivered.latest, Option.some.injEq] at found
  subst found
  exact claim_succeeds_iff (step_cases (pipeline_step (System.recorded_step stepped)))
    redelivered.held redelivered.addressed present processing lock

/-- A redelivery comes a visibility timeout after the delivery of the worker that is gone. -/
theorem redelivery_spaced {allowed : System.Condition (History × State) Action} {id : WorkerId}
    {since : Timestamp} {claim : Claim} (reached : (system deployment).recorded.Reached allowed run)
    (redelivered : Redelivered job run id claim since) :
    claim.since + deployment.timeoutSeconds * microsecondsPerSecond ≤ since := by
  have apart := (run_spaced reached claim.message).apart.sublist redelivered.ordered
  exact (List.pairwise_cons.mp apart).1 claim.since List.mem_cons_self

/-- In every run, each redelivery of an abandoned job comes a visibility timeout after the delivery
of the worker that is gone and its claim succeeds, exactly when each of these claims starts more
than a visibility timeout after the claim of that worker. -/
theorem pickedUp_iff :
    (system deployment).recorded.Reached (PickedUp deployment job) run ↔
      (system deployment).recorded.Reached (ClaimsSpaced deployment job) run := by
  constructor
  · intro reached
    apply reached.convert
    rintro before action after earlier stepped picked id start claim since rfl redelivered
    exact (redelivery_claimed_iff earlier stepped redelivered).mp
      (picked id start claim since rfl redelivered).2
  · intro reached
    apply reached.convert
    rintro before action after earlier stepped spaced id start claim since rfl redelivered
    refine ⟨redelivery_spaced earlier redelivered, ?_⟩
    exact (redelivery_claimed_iff earlier stepped redelivered).mpr
      (spaced id start claim since rfl redelivered)

def sampleDeployment : Deployment where
  env := sampleEnvironment
  timeoutSeconds := 90
  configured _ := rfl

/-- Times are in microseconds: the first worker claims the job a second after its delivery and
dies, and the message is delivered again half a second after its timeout. -/
def crashSchedule : List Action :=
  [.pipeline (.createJob 1 .smallest 3 "s3://incoming/a.json".toList 0),
    .pipeline (.ingest 1 (.publish .delivered)), .pipeline (.worker 0 (.receive ⟨0, some 1⟩)),
    .pipeline (.tick 1000000), .pipeline (.worker 0 (.claim 1000000)),
    .pipeline (.worker 0 .readJob), .pipeline (.worker 0 .crash), .pipeline (.tick 89500000),
    .pipeline (.worker 1 (.receive ⟨0, some 1⟩))]

/-- The surviving worker finds the job held by the dead one. -/
theorem redelivery_held : ∃ before after claim,
    (system sampleDeployment).recorded.Reached System.anyStep before ∧
    (system sampleDeployment).recorded.step before
      (.pipeline (.worker 1 (.claim 90500000))) = some after ∧
    Redelivered 1 before 1 claim 90500000 ∧ claim.since = 0 ∧
    after.2.pipeline.workers 1 = .unclaimed ⟨⟨0, some 1⟩, 1, rfl⟩ ∧
    unclaimedOutcome after.2.pipeline.shared.jobs 1 = .heldByAnotherWorker := by
  have ran : ((system sampleDeployment).recorded.run ([], ⟨initial 0, fun _ => 0⟩)
      crashSchedule).map (fun run => ((run.2.pipeline.workers 0, run.2.pipeline.workers 1,
        fun id => run.2.pipeline.workers (id + 2)), (run.2.pipeline.shared.jobs 1).map (·.status),
        lastClaim 1 run.1, deliveries ⟨0, some 1⟩ run.1,
        ((system sampleDeployment).recorded.step run (.pipeline (.worker 1 (.claim 90500000)))).map
          fun after => (after.2.pipeline.workers 1,
            unclaimedOutcome after.2.pipeline.shared.jobs 1))) =
      some ((.stopped, .received ⟨0, some 1⟩ 90500000, fun _ => .idle), some .processing,
        some ⟨⟨0, some 1⟩, 0, 1000000⟩, [90500000, 0],
        some (.unclaimed ⟨⟨0, some 1⟩, 1, rfl⟩, .heldByAnotherWorker)) := by rfl
  obtain ⟨before, path, seen⟩ := System.run_observed System.anyStep ran (fun _ _ _ _ => trivial)
  simp only [Prod.mk.injEq, Option.map_eq_some_iff] at seen
  obtain ⟨⟨dead, received, others⟩, ⟨row, present, processing⟩, latest, delivered,
    ⟨after, stepped, unclaimed, held⟩⟩ := seen
  have unattended : ∀ id attempt, (before.2.pipeline.workers id).attempt = some attempt →
      attempt.job ≠ 1 := by
    intro id attempt busy
    rcases id with _ | _ | id
    · rw [dead] at busy
      cases busy
    · rw [received] at busy
      cases busy
    · have idle : before.2.pipeline.workers (id + 2) = .idle := congrFun others id
      rw [idle] at busy
      cases busy
  refine ⟨before, after, ⟨⟨0, some 1⟩, 0, 1000000⟩, ⟨_, ⟨rfl, ⟨0, rfl⟩⟩, path⟩, stepped, ?_, rfl,
    unclaimed, held⟩
  refine ⟨⟨⟨row, present, processing⟩, unattended⟩, latest, received, rfl, ?_⟩
  rw [delivered]

end ConvoScore.Pipeline.Visibility
