import ConvoScore.Pipeline.LostClaim

namespace ConvoScore

/-- The message of a request was delivered, and its row is committed or soon will be. -/
def Api.Phase.accepted : Api.Phase → Bool
  | .committed => true
  | phase => phase.promised

namespace Pipeline
open Library

/-- A step without faults has no crash, no failed call and no lost reply. -/
def Action.faultless : Action → Bool
  | .worker _ .abandon | .worker _ .crash | .worker _ (.delete false _)
  | .worker _ (.delete _ true) => false
  | .api _ (.publish result) => result = .delivered
  | .api _ .rollback => false
  | .ingest _ (.publish result) => result = .delivered
  | .ingest _ .stop => false
  | _ => true

/-- A job is served when it is finished or the queue still holds a message of it. -/
def Served (state : State) (job : Uuid) : Prop :=
  Finished state job ∨ state.shared.queue.Holds job

/-- No worker deletes the message of the job before the job is durably finished. -/
def Unstranded (job : Uuid) : System.Condition State Action :=
  fun before action after =>
    CompletesUnreleased job before action after ∧ ClassifiesCommitted job before action after

variable {env : Environment} {state next : State} {action : Action} {job : Uuid}

/-- A queue loses a message of the job only when a worker acknowledges that message. -/
theorem holds_step (step : Step env state action next) (holds : state.shared.queue.Holds job) :
    next.shared.queue.Holds job ∨ ∃ id message exit,
      state.workers id = .acknowledging message exit ∧ message.jobId = some job := by
  cases step with
  | tick | submit | createJob => exact .inl holds
  | duplicate | foreign => exact .inl (Queue.holds_push _ holds)
  | @worker id _ _ _ move =>
      rcases move.queue_cases with same | ⟨message, exit, _, held, _, deleted⟩
      · exact .inl (by rw [withWorker_shared, same]; exact holds)
      · by_cases addressed : message.jobId = some job
        · exact .inr ⟨id, message, exit, held, addressed⟩
        · exact .inl (by rw [withWorker_shared, deleted]; exact Queue.holds_delete holds addressed)
  | api origin move | ingest origin move =>
      cases move with
      | delivered => exact .inl (Queue.holds_push _ holds)
      | raised => exact .inl (PublishResult.holds_enqueue _ _ holds)
      | _ => exact .inl holds

/-- An accepted request was accepted before or has just delivered its message. -/
theorem accepted_source (step : Step env state action next) {after : Api.Request}
    (origin : next.origins job = .api after) (accepted : after.phase.accepted = true) :
    (∃ request, state.origins job = .api request ∧ request.phase.accepted = true) ∨
      next.shared.queue.Holds job := by
  rcases request_source step origin with old | ⟨_, _, _, _, rfl⟩ | ⟨request, call, _, before, move⟩
  · exact .inl ⟨after, old, accepted⟩
  · cases accepted
  · generalize next.shared = shared at move ⊢
    cases move with
    | delivered => exact .inr (Queue.holds_send _ _)
    | raised | markedFailed | rejected | rolledBack => cases accepted
    | refused | received => exact .inl ⟨_, before, accepted⟩
    | _ => exact .inl ⟨_, before, rfl⟩

/-- An accepted request is served from the delivery of its message on. -/
theorem accepted_served (reached : (system env).Reached (Unstranded job) state) :
    ∀ request, state.origins job = .api request → request.phase.accepted = true →
      Served state job := by
  refine reached.invariantWithin (motive := fun state => ∀ request,
    state.origins job = .api request → request.phase.accepted = true → Served state job) ?_ ?_
  · rintro _ ⟨now, rfl⟩ request origin
    cases origin
  · intro before action after earlier served stepped fine request origin accepted
    have step := step_cases stepped
    rcases accepted_source step origin accepted with ⟨old, found, earlierAccepted⟩ | holds
    · rcases served old found earlierAccepted with ⟨row, present, ended⟩ | holds
      · exact .inl ((row_change step job).terminal present ended)
      · rcases holds_step step holds with holds | ⟨id, message, exit, held, addressed⟩
        · exact .inr holds
        · rcases reached_acknowledgesSettled earlier id message exit held addressed with
            ⟨row, present, ended⟩ | ⟨same, found', abandoned⟩
          · exact .inl ((row_change step job).terminal present ended)
          · rw [found, Origin.api.injEq] at found'
            subst found'
            cases phase : old.phase <;>
              simp_all [Api.Phase.accepted, Api.Phase.promised, Api.Phase.abandoned]
    · exact .inr holds

/-- The transaction of the request that submitted the job has committed. -/
def Origin.committed : Origin → Bool
  | .api ⟨.committed, _, _⟩ => true
  | _ => false

theorem Origin.committed_iff {origin : Origin} : origin.committed = true ↔
    ∃ request, origin = .api request ∧ request.phase = .committed := by
  constructor
  · intro committed
    unfold Origin.committed at committed
    split at committed
    · exact ⟨_, rfl, rfl⟩
    · cases committed
  · rintro ⟨⟨_, _, _⟩, rfl, rfl⟩
    rfl

/-- A committed request that published its job is never stranded, whatever else fails,
when no worker gives its message up early. -/
theorem committedRequest_served {request : Api.Request}
    (reached : (system env).Reached (Unstranded job) state)
    (origin : state.origins job = .api request) (committed : request.phase = .committed) :
    ∃ row, state.shared.jobs job = some row ∧
      (row.status.terminal = true ∨ state.shared.queue.Holds job) := by
  have stored := (reached_consistent reached).stored job
  rw [origin, Origin.stored, committed] at stored
  obtain ⟨row, present⟩ := Option.isSome_iff_exists.mp stored
  refine ⟨row, present, ?_⟩
  rcases accepted_served reached request origin (by rw [committed]; rfl) with
    ⟨found, same, ended⟩ | holds
  · rw [present, Option.some.injEq] at same
    exact .inl (same ▸ ended)
  · exact .inr holds

/-- A check that no step of a worker strands the job. -/
def strandsNothing (job : Uuid) (before : State) : Action → Bool
  | .worker id (.complete _) =>
      match before.workers id with
      | .persisting attempt _ _ => decide (attempt.job ≠ job) ||
          (before.shared.jobs job).all fun row => decide (row.status ≠ .pending)
      | _ => true
  | .worker id .classify =>
      match before.workers id with
      | .unclaimed delivery => decide (delivery.job ≠ job) ||
          match before.origins job with
          | .api request => !request.phase.promised
          | _ => true
      | _ => true
  | _ => true

theorem strandsNothing_sound {before after : State}
    (checked : strandsNothing job before action = true) : Unstranded job before action after := by
  refine ⟨?_, ?_⟩
  · rintro id attempt outcome since start row rfl held rfl present
    simpa [strandsNothing, held, present] using checked
  · rintro id delivery request rfl held rfl origin
    simpa [strandsNothing, held, origin] using checked

/-- A worker releases the job while another one finds it held, and that one completes it later. -/
def releasedSchedule : List Action :=
  [.submit 1 .smallest 3 0, .api 1 (.publish .delivered), .worker 1 (.receive ⟨0, some 1⟩),
    .api 1 .markEnqueued, .api 1 .respond, .api 1 .commit,
    .worker 0 (.receive ⟨0, some 1⟩), .worker 0 (.claim 0), .worker 1 (.claim 0),
    .worker 1 .classify, .worker 0 .readJob,
    .worker 0 (.score (.error (.transient "timeout".toList .timeout) 0)), .worker 0 (.release 0),
    .worker 0 .changeVisibility,
    .worker 1 (.receive ⟨0, some 1⟩), .worker 1 (.claim 0), .worker 1 .readJob,
    .worker 1 (.score (.outcome .calm)), .worker 1 (.complete 0), .worker 1 (.delete true false)]

/-- The job of a committed request is released once, completed and then deleted from the queue. -/
theorem committedRequest_served_released : ∃ state row,
    (system sampleEnvironment).Reached (Unstranded 1) state ∧
    state.shared.queue.messages = [] ∧ state.shared.jobs 1 = some row ∧ row.attemptCount = 2 ∧
    row.status.terminal = true := by
  have ran : (((system sampleEnvironment).guarded (strandsNothing 1)).run (initial 0)
      releasedSchedule).map (fun state => ((state.origins 1).committed, state.shared.queue.messages,
        (state.shared.jobs 1).map (·.attemptCount))) = some (true, [], some 2) := by rfl
  obtain ⟨state, path, seen⟩ := System.guarded_observed ran fun _ _ _ => strandsNothing_sound
  simp only [Prod.mk.injEq, Origin.committed_iff] at seen
  obtain ⟨⟨request, origin, committed⟩, messages, attempts⟩ := seen
  have reached : (system sampleEnvironment).Reached (Unstranded 1) state := ⟨_, ⟨0, rfl⟩, path⟩
  obtain ⟨row, present, served⟩ := committedRequest_served reached origin committed
  rw [present, Option.map_some, Option.some.injEq] at attempts
  refine ⟨state, row, reached, messages, present, attempts, ?_⟩
  rcases served with ended | ⟨message, member, _⟩
  · exact ended
  · rw [messages] at member
    cases member

/-- The worker receives the message and gives it up before the request commits. -/
def overtakenCommitSchedule : List Action :=
  [.submit 1 .smallest 3 0, .api 1 (.publish .delivered), .worker 0 (.receive ⟨0, some 1⟩),
    .worker 0 (.claim 0), .worker 0 .classify, .worker 0 (.delete true false),
    .api 1 .markEnqueued, .api 1 .respond, .api 1 .commit]

/-- Even without a fault, a committed request can end with a pending row and an empty queue. -/
theorem committedRequest_stranded : ¬ ∀ env job state request,
    (system env).Reached (fun _ action _ => action.faultless = true) state →
    state.origins job = .api request → request.phase = .committed →
    ∃ row, state.shared.jobs job = some row ∧
      (row.status.terminal = true ∨ state.shared.queue.Holds job) := by
  intro claim
  have ran : ((system sampleEnvironment).run (initial 0) overtakenCommitSchedule).map
      (fun state => ((state.origins 1).committed, (state.shared.jobs 1).map (·.status),
        state.shared.queue.messages)) = some (true, some .pending, []) := by rfl
  have faultless : ∀ action ∈ overtakenCommitSchedule, action.faultless = true := by
    intro action member
    simp only [overtakenCommitSchedule, List.mem_cons, List.not_mem_nil, or_false] at member
    rcases member with rfl | rfl | rfl | rfl | rfl | rfl | rfl | rfl | rfl <;> rfl
  obtain ⟨state, path, seen⟩ := System.run_observed (fun _ action _ => action.faultless = true) ran
    (fun action member _ _ => faultless action member)
  simp only [Prod.mk.injEq, Origin.committed_iff, Option.map_eq_some_iff] at seen
  obtain ⟨⟨request, origin, committed⟩, ⟨row, present, waiting⟩, messages⟩ := seen
  obtain ⟨found, same, served⟩ :=
    claim sampleEnvironment 1 state request ⟨_, ⟨0, rfl⟩, path⟩ origin committed
  rw [present, Option.some.injEq] at same
  subst same
  rcases served with ended | ⟨message, member, _⟩
  · rw [waiting] at ended
    cases ended
  · rw [messages] at member
    cases member

end Pipeline
end ConvoScore
