import ConvoScore.Api.Serializers
import ConvoScore.Pipeline.Consistency

namespace ConvoScore

/-- A 202 is sent right before the COMMIT, which may still fail. -/
def Api.Phase.answered : Api.Phase → Bool
  | .committing _ | .committed | .rolledBack => true
  | _ => false

namespace Pipeline
open Library

/-- The row of the job is committed, so a status request does not answer 404. -/
def Findable (state : State) (job : Uuid) : Prop :=
  (state.shared.jobs job).isSome = true ∧
    ∀ detail, getJobStatus state.shared.jobs job ≠ .error (.notFound detail)

/-- Every client that received a 202 finds its job. -/
def PromisesKept (state : State) : Prop :=
  ∀ job request, state.origins job = .api request → request.received = some .accepted →
    Findable state job

/-- Each 202 reaches its client after the COMMIT of its request. -/
def DeliversCommitted : System.Condition State Action :=
  fun before action _ => ∀ job request, action = .api job .deliver →
    before.origins job = .api request → request.sent = some .accepted →
    request.phase = .committed

/-- Every request that sent a 202 is in one of the last phases of the accepting path. -/
def AnsweredRequests (state : State) : Prop :=
  ∀ job request, state.origins job = .api request → request.sent = some .accepted →
    request.phase.answered = true

/-- Every client that received a 202 belongs to a committed request. -/
def ReceivedCommitted (state : State) : Prop :=
  ∀ job request, state.origins job = .api request → request.received = some .accepted →
    request.phase = .committed

variable {env : Environment} {state next : State} {action : Action} {job : Uuid}

theorem answeredRequests_step (answered : AnsweredRequests state)
    (step : Step env state action next) : AnsweredRequests next := by
  intro job after origin sent
  rcases request_source step origin with old | ⟨_, _, _, _, rfl⟩ | ⟨request, act, _, found, move⟩
  · exact answered job after old sent
  · cases sent
  · have earlier := answered job request found
    generalize next.shared = shared at move
    cases move with
    | accepted | committed | rolledBack => rfl
    | refused ended =>
        rcases ended with ⟨_, rfl⟩ | ⟨_, rfl⟩
        · cases sent
        · cases sent
    | received => exact earlier sent
    | _ => cases earlier sent

theorem reached_answeredRequests {allowed : System.Condition State Action}
    (reached : (system env).Reached allowed state) : AnsweredRequests state := by
  refine reached.invariant ?_ ?_
  · rintro _ ⟨now, rfl⟩ job request origin
    cases origin
  · intro before action after answered step _
    exact answeredRequests_step answered (step_cases step)

/-- A received 202 stays with a committed request when it is delivered after the COMMIT. -/
theorem receivedCommitted_step (committed : ReceivedCommitted state)
    (step : Step env state action next) (fine : DeliversCommitted state action next) :
    ReceivedCommitted next := by
  intro job after origin got
  rcases request_source step origin with old | ⟨_, _, _, _, rfl⟩ | ⟨request, act, call, found, move⟩
  · exact committed job after old got
  · cases got
  · have earlier := committed job request found
    generalize next.shared = shared at move
    cases move with
    | @received phase response =>
        have committing : phase = .committed :=
          fine job ⟨phase, some response, none⟩ call found got
        exact committing
    | refused ended =>
        rcases ended with ⟨rfl, _⟩ | ⟨rfl, _⟩
        · cases earlier got
        · cases earlier got
    | rolledBack opened =>
        have same := earlier got
        simp only at same
        rw [same] at opened
        cases opened
    | _ => cases earlier got

theorem reached_receivedCommitted (reached : (system env).Reached DeliversCommitted state) :
    ReceivedCommitted state := by
  refine reached.invariant ?_ ?_
  · rintro _ ⟨now, rfl⟩ job request origin
    cases origin
  · intro before action after committed step fine
    exact receivedCommitted_step committed (step_cases step) fine

/-- A job can be found exactly when its row is committed. -/
theorem findable_iff : Findable state job ↔ (state.shared.jobs job).isSome = true := by
  constructor
  · exact fun found => found.1
  · intro present
    refine ⟨present, ?_⟩
    intro detail missing
    have absent := (getJobStatus_notFound_iff _ _).mp ⟨detail, missing⟩
    rw [absent] at present
    cases present

/-- A delivery hands the sent response to the client and changes nothing else. -/
theorem deliver_step {request : Api.Request}
    (stepped : step env state (.api job .deliver) = some next)
    (origin : state.origins job = .api request) :
    next.origins job = .api {request with received := request.sent} ∧
      next.shared = state.shared := by
  simp only [step, origin, Api.step, Option.map_eq_some_iff] at stepped
  obtain ⟨⟨shared, after⟩, moved, rfl⟩ := stepped
  split at moved
  · cases moved
    simp
  · cases moved

/-- In every run, each client that received a 202 always finds its job
exactly when each 202 is delivered after the COMMIT of its request. -/
theorem promisesKept_iff {run : List (System.Taken State Action) × State} :
    (system env).recorded.Reached (System.onStates fun _ _ after => PromisesKept after) run ↔
      (system env).recorded.Reached (System.onStates DeliversCommitted) run := by
  constructor
  · intro reached
    apply reached.convert
    intro before action after earlier stepped kept job request call origin sent
    have step : step env before.2 action = some after.2 := System.recorded_step stepped
    have earlier := System.recorded_reached earlier
    have answered := reached_answeredRequests earlier job request origin sent
    subst call
    obtain ⟨delivered, same⟩ := deliver_step step origin
    have found := (kept job _ delivered sent).1
    rw [same, (reached_consistent earlier).stored job, origin] at found
    cases phase : request.phase <;>
      simp_all [Origin.stored, Api.Phase.stored, Api.Phase.answered]
  · intro reached
    apply reached.convert
    intro before action after earlier stepped fine job request origin got
    have step := System.recorded_step stepped
    have later := (System.recorded_reached earlier).next action step fine
    have committed := reached_receivedCommitted later job request origin got
    have stored := (reached_consistent later).stored job
    rw [origin, Origin.stored, committed] at stored
    exact findable_iff.mpr stored

/-- The COMMIT fails after the client received its 202. -/
def brokenPromiseSchedule : List Action :=
  [.submit 1 .smallest 3 0, .api 1 (.publish .delivered), .api 1 .markEnqueued, .api 1 .respond,
    .api 1 .deliver, .api 1 .rollback]

/-- What the client of the request that submitted the job has received. -/
def Origin.received : Origin → Option Api.Response
  | .api request => request.received
  | _ => none

theorem Origin.received_eq {origin : Origin} {response : Api.Response}
    (received : origin.received = some response) :
    ∃ request, origin = .api request ∧ request.received = some response := by
  cases origin with
  | api request => exact ⟨request, rfl, received⟩
  | unused | s3 => cases received

/-- A client that received a 202 is told that its job does not exist. -/
theorem promise_broken : ∃ state request,
    (system sampleEnvironment).Reached System.anyStep state ∧
    state.origins 1 = .api request ∧ request.received = some .accepted ∧
    getJobStatus state.shared.jobs 1 = .error (.notFound "job not found".toList) := by
  have ran : ((system sampleEnvironment).run (initial 0) brokenPromiseSchedule).map
      (fun state => ((state.origins 1).received, state.shared.jobs 1)) =
      some (some .accepted, none) := by rfl
  obtain ⟨state, path, seen⟩ := System.run_observed System.anyStep ran (fun _ _ _ _ => trivial)
  simp only [Prod.mk.injEq] at seen
  obtain ⟨received, absent⟩ := seen
  obtain ⟨request, origin, got⟩ := Origin.received_eq received
  exact ⟨state, request, ⟨_, ⟨0, rfl⟩, path⟩, origin, got, by simp [getJobStatus, getJob, absent]⟩

end Pipeline
end ConvoScore
