import ConvoScore.Pipeline.Redrive
import ConvoScore.Pipeline.Visibility
import ConvoScore.Worker.Redelivery

namespace ConvoScore

/-- A call that meets no fault. -/
def Worker.Action.faultless : Worker.Action → Bool
  | .abandon | .crash => false
  | .delete removed raised => removed && !raised
  | _ => true

namespace Pipeline.Shipped
open Library
open Visibility (Deployment)

/-- The shipped queue hides its messages, counts their receives and has a dead-letter queue. -/
structure State where
  queue : Visibility.State
  receives : QueueMessage → Nat
  dead : List QueueMessage

abbrev State.shared (state : State) : Shared := state.queue.pipeline.shared

abbrev State.workers (state : State) : WorkerId → Worker.Phase := state.queue.pipeline.workers

inductive Action
  | handle (action : Visibility.Action)
  | redrive (message : QueueMessage)

/-- The table accepts the row that a claim of the message writes. -/
def claimAccepted (deployment : Deployment) (jobs : Jobs) (message : QueueMessage)
    (start : Timestamp) : Bool :=
  (message.jobId.bind jobs).all fun row => !row.claimable start ||
    (row.withClaim start (claimExpiry start deployment.timeoutSeconds)).accepted

/-- Nobody reads the dead-letter queue, and a message has only so many receives. A claim that the
table rejects and an answer that cannot be recorded raise, so that their delivery is abandoned. -/
def permitted (deployment : Deployment) (state : State) : Visibility.Action → Bool
  | .pipeline (.worker _ (.receive message)) =>
      decide (message ∉ state.dead) &&
        decide (state.receives message < Redrive.maxReceiveCount)
  | .pipeline (.worker id (.claim start)) =>
      match state.workers id with
      | .received message _ => claimAccepted deployment state.shared.jobs message start
      | _ => true
  | .pipeline (.worker _ (.score reply)) => reply.recordable
  | _ => true

/-- Each delivery of a message counts one more receive. -/
def counted (receives : QueueMessage → Nat) : Visibility.Action → QueueMessage → Nat
  | .pipeline (.worker _ (.receive message)) =>
      Function.update receives message (receives message + 1)
  | _ => receives

/-- A visible message that was received often enough without being deleted moves over. -/
def step (deployment : Deployment) (state : State) : Action → Option State
  | .handle action =>
      if permitted deployment state action then
        (Visibility.step deployment state.queue action).map fun queue =>
          {state with queue, receives := counted state.receives action}
      else none
  | .redrive message =>
      if message ∈ state.shared.queue.messages ∧ message ∉ state.dead ∧
          state.receives message = Redrive.maxReceiveCount ∧
          state.queue.visibleAt message ≤ state.shared.now then
        some {state with dead := message :: state.dead}
      else none

def system (deployment : Deployment) : System State Action where
  start state := ∃ now, state = ⟨⟨initial now, fun _ => now⟩, fun _ => 0, []⟩
  step := step deployment

/-- A step of a worker. -/
def act (id : WorkerId) (call : Worker.Action) : Action := .handle (.pipeline (.worker id call))

/-- Only the clock and this worker step, and nothing fails. -/
def FaultFree (id : WorkerId) : Action → Prop
  | .handle (.pipeline (.tick _)) => True
  | .handle (.pipeline (.worker other call)) => other = id ∧ call.faultless = true
  | _ => False

/-- The answer that the provider gives in a step. -/
def answerOf : Action → Option Worker.ScoreReply
  | .handle (.pipeline (.worker _ (.score reply))) => some reply
  | _ => none

/-- A call that every queue and every table permits. -/
def Plain : Worker.Action → Prop
  | .receive _ | .claim _ => False
  | .score reply => reply.recordable = true
  | _ => True

variable {deployment : Deployment} {state next later : State} {id : WorkerId} {job : Uuid}
  {message : QueueMessage} {reply : Worker.ScoreReply} {row : Conversation}

/-- Every run of the shipped queue is a run with hidden messages, and so one of the pipeline. -/
theorem run_reached (reached : (system deployment).Reached System.anyStep state) :
    (Visibility.system deployment).Reached System.anyStep state.queue := by
  refine reached.invariant (motive := fun state =>
    (Visibility.system deployment).Reached System.anyStep state.queue) ?_ ?_
  · rintro _ ⟨now, rfl⟩
    exact ⟨_, ⟨now, rfl⟩, .refl⟩
  · intro before action after earlier stepped _
    cases action with
    | handle action =>
        simp only [system, step] at stepped
        rw [Option.ite_none_right_eq_some] at stepped
        obtain ⟨queue, moved, rfl⟩ := Option.map_eq_some_iff.mp stepped.2
        exact earlier.next action moved trivial
    | redrive message =>
        simp only [system, step] at stepped
        rw [Option.ite_none_right_eq_some, Option.some.injEq] at stepped
        obtain ⟨_, rfl⟩ := stepped
        exact earlier

/-- A permitted call of a worker does in the pipeline what it does on the shipped queue. -/
theorem act_step {call : Worker.Action} {pipeline : Pipeline.State}
    (moved : Pipeline.step deployment.env state.queue.pipeline (.worker id call) = some pipeline)
    (visible : Visibility.permitted state.queue (.worker id call) = true)
    (fine : permitted deployment state (.pipeline (.worker id call)) = true) :
    (system deployment).step state (act id call) =
      some ⟨⟨pipeline, Visibility.hidden deployment state.queue (.worker id call)⟩,
        counted state.receives (.pipeline (.worker id call)), state.dead⟩ := by
  simp only [system, step, act, fine, if_true, Visibility.step, visible, moved, Option.map_some]

/-- A schedule of plain calls runs on the shipped queue as it runs in the pipeline. -/
theorem plain_run (calls : List Worker.Action) (plain : ∀ call ∈ calls, Plain call)
    {pipeline : Pipeline.State}
    (ran : (Pipeline.system deployment.env).run state.queue.pipeline
      (calls.map (Pipeline.Action.worker id)) = some pipeline) :
    ∃ visibleAt, (system deployment).run state (calls.map (act id)) =
      some {state with queue := ⟨pipeline, visibleAt⟩} := by
  induction calls generalizing state with
  | nil =>
      cases ran
      exact ⟨state.queue.visibleAt, rfl⟩
  | cons call rest ih =>
      rw [List.map_cons, System.run, Option.bind_eq_some_iff] at ran
      obtain ⟨middle, moved, ran⟩ := ran
      have permits : Visibility.permitted state.queue (.worker id call) = true ∧
          permitted deployment state (.pipeline (.worker id call)) = true ∧
          counted state.receives (.pipeline (.worker id call)) = state.receives := by
        have allowed := plain call List.mem_cons_self
        cases call with
        | receive | claim => exact allowed.elim
        | score reply => exact ⟨rfl, allowed, rfl⟩
        | _ => exact ⟨rfl, rfl, rfl⟩
      obtain ⟨visible, fine, same⟩ := permits
      have stepped := act_step moved visible fine
      rw [same] at stepped
      obtain ⟨visibleAt, run⟩ := @ih
        ⟨⟨middle, Visibility.hidden deployment state.queue (.worker id call)⟩, state.receives,
          state.dead⟩ (fun call member => plain call (List.mem_cons_of_mem _ member)) ran
      refine ⟨visibleAt, ?_⟩
      rw [List.map_cons, System.run, stepped, Option.bind_some, run]

/-- The state after some time in which nobody steps. -/
def State.wait (state : State) (elapsed : Nat) : State :=
  {state with queue := {state.queue with pipeline := {state.queue.pipeline with
    shared := {state.shared with now := state.shared.now + elapsed}}}}

/-- A schedule may first let some time pass. -/
theorem wait_run {elapsed : Nat} {schedule : List Action}
    (ran : (system deployment).run (state.wait elapsed) schedule = some later) :
    (system deployment).run state (.handle (.pipeline (.tick elapsed)) :: schedule) =
      some later := ran

end Pipeline.Shipped
end ConvoScore
