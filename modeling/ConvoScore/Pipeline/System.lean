import ConvoScore.Library.System
import ConvoScore.Worker.Attempts
import ConvoScore.Ingest.Publication

namespace ConvoScore.Pipeline
open Library

abbrev WorkerId := Nat

/-- Each job id comes from one request, from one ingested object, or is still unused. -/
inductive Origin
  | unused
  | api (request : Api.Request)
  | s3 (publication : Ingest.Publication)

/-- A state holds what the processes share and the place that each process has reached. -/
structure State where
  shared : Shared
  workers : WorkerId → Worker.Phase
  origins : Uuid → Origin

/-- Each worker pod has its own settings. -/
structure Environment where
  settings : WorkerId → Settings
  sha256 : Text → Text

/-- An action names the process that steps and the outcome that the environment picks. -/
inductive Action
  | tick (elapsed : Nat)
  | duplicate (message : QueueMessage)
  | foreign
  | worker (id : WorkerId) (action : Worker.Action)
  | submit (job : Uuid) (conversation : ConversationInput) (maxAttempts : Nat)
      (start : Timestamp)
  | api (job : Uuid) (action : Api.Action)
  | createJob (job : Uuid) (conversation : ConversationInput) (maxAttempts : Nat)
      (sourceRef : Text) (clock : Timestamp)
  | ingest (job : Uuid) (action : Ingest.Publication.Action)

def State.withWorker (state : State) (shared : Shared) (id : WorkerId) (phase : Worker.Phase) :
    State :=
  {state with shared, workers := Function.update state.workers id phase}

def State.withOrigin (state : State) (shared : Shared) (job : Uuid) (origin : Origin) : State :=
  {state with shared, origins := Function.update state.origins job origin}

/-- One step of the whole pipeline.
`submit` flushes the insert of `create_job` into an open transaction; `createJob` commits it. -/
def step (env : Environment) (state : State) : Action → Option State
  | .tick elapsed => some {state with
      shared := {state.shared with now := state.shared.now + elapsed}}
  | .duplicate message =>
      if message ∈ state.shared.queue.messages then
        some {state with
          shared := {state.shared with queue := state.shared.queue.push message.jobId}}
      else none
  | .foreign => some {state with
      shared := {state.shared with queue := state.shared.queue.push none}}
  | .worker id action =>
      (Worker.step (env.settings id) state.shared (state.workers id) action).map fun next =>
        state.withWorker next.1 id next.2
  | .submit job conversation maxAttempts start =>
      match state.origins job with
      | .unused =>
          if start ≤ state.shared.now then
            let row := ConvoScore.createJob env.sha256 job state.shared.now conversation .api
              maxAttempts none
            some (state.withOrigin state.shared job (.api ⟨.publishing row start, none, none⟩))
          else none
      | _ => none
  | .api job action =>
      match state.origins job with
      | .api request => (Api.step state.shared job request action).map fun next =>
          state.withOrigin next.1 job (.api next.2)
      | _ => none
  | .createJob job conversation maxAttempts sourceRef clock =>
      match state.origins job with
      | .unused =>
          if clock ≤ state.shared.now then
            let row := ConvoScore.createJob env.sha256 job clock conversation .s3 maxAttempts
              (some sourceRef)
            (state.shared.jobs.insert job row).map fun jobs =>
              state.withOrigin {state.shared with jobs} job (.s3 .publishing)
          else none
      | _ => none
  | .ingest job action =>
      match state.origins job with
      | .s3 publication => (publication.step state.shared job action).map fun next =>
          state.withOrigin next.1 job (.s3 next.2)
      | _ => none

/-- A start state has no job, no message and no busy worker. -/
def initial (now : Timestamp) : State where
  shared := ⟨now, Table.empty, Queue.empty⟩
  workers _ := .idle
  origins _ := .unused

def system (env : Environment) : System State Action where
  start state := ∃ now, state = initial now
  step := step env

/-- Every worker has the default settings; the digest is the one of the smallest conversation. -/
def sampleEnvironment : Environment where
  settings _ := .default
  sha256 _ := "5187cee8ed7155b526c9ea25aa640cf54482da5ef346644ed843116a8654fc32".toList

/-- A pipeline step is one of these, with the move of the process that steps. -/
inductive Step (env : Environment) (state : State) : Action → State → Prop
  | tick (elapsed : Nat) :
      Step env state (.tick elapsed) {state with
        shared := {state.shared with now := state.shared.now + elapsed}}
  | duplicate {message : QueueMessage} (member : message ∈ state.shared.queue.messages) :
      Step env state (.duplicate message) {state with
        shared := {state.shared with queue := state.shared.queue.push message.jobId}}
  | foreign :
      Step env state .foreign {state with
        shared := {state.shared with queue := state.shared.queue.push none}}
  | worker {id : WorkerId} {action : Worker.Action} {next : Shared} {phase : Worker.Phase}
      (move : Worker.Move (env.settings id) state.shared (state.workers id) action next phase) :
      Step env state (.worker id action) (state.withWorker next id phase)
  | submit {job : Uuid} {conversation : ConversationInput} {maxAttempts : Nat}
      {start : Timestamp} (unused : state.origins job = .unused) (past : start ≤ state.shared.now) :
      Step env state (.submit job conversation maxAttempts start)
        (state.withOrigin state.shared job (.api ⟨.publishing (ConvoScore.createJob env.sha256 job
          state.shared.now conversation .api maxAttempts none) start, none, none⟩))
  | api {job : Uuid} {request after : Api.Request} {action : Api.Action} {next : Shared}
      (origin : state.origins job = .api request)
      (move : Api.Move state.shared job request action next after) :
      Step env state (.api job action) (state.withOrigin next job (.api after))
  | createJob {job : Uuid} {conversation : ConversationInput} {maxAttempts : Nat}
      {sourceRef : Text} {clock : Timestamp} (unused : state.origins job = .unused)
      (past : clock ≤ state.shared.now) (absent : state.shared.jobs job = none) :
      Step env state (.createJob job conversation maxAttempts sourceRef clock)
        (state.withOrigin (state.shared.write job (ConvoScore.createJob env.sha256 job clock
          conversation .s3 maxAttempts (some sourceRef))) job (.s3 .publishing))
  | ingest {job : Uuid} {publication after : Ingest.Publication}
      {action : Ingest.Publication.Action} {next : Shared}
      (origin : state.origins job = .s3 publication)
      (move : Ingest.Publication.Move state.shared job publication action next after) :
      Step env state (.ingest job action) (state.withOrigin next job (.s3 after))

/-- Every step of the pipeline has one of these forms. -/
theorem step_cases {env : Environment} {state next : State} {action : Action}
    (stepped : step env state action = some next) : Step env state action next := by
  cases action with
  | tick elapsed =>
      cases stepped
      exact .tick elapsed
  | duplicate message =>
      simp only [step] at stepped
      split at stepped
      · rename_i member
        cases stepped
        exact .duplicate member
      · cases stepped
  | foreign =>
      cases stepped
      exact .foreign
  | worker id action =>
      simp only [step, Option.map_eq_some_iff] at stepped
      obtain ⟨⟨shared, phase⟩, moved, rfl⟩ := stepped
      exact .worker (Worker.step_move moved)
  | submit job conversation maxAttempts start =>
      simp only [step] at stepped
      split at stepped
      · rename_i unused
        split at stepped
        · rename_i past
          cases stepped
          exact .submit unused past
        · cases stepped
      · cases stepped
  | api job action =>
      simp only [step] at stepped
      split at stepped
      · rename_i request origin
        obtain ⟨⟨shared, after⟩, moved, rfl⟩ := Option.map_eq_some_iff.mp stepped
        exact .api origin (Api.step_move moved)
      · cases stepped
  | createJob job conversation maxAttempts sourceRef clock =>
      simp only [step] at stepped
      split at stepped
      · rename_i unused
        split at stepped
        · rename_i past
          obtain ⟨jobs, inserted, rfl⟩ := Option.map_eq_some_iff.mp stepped
          obtain ⟨absent, rfl⟩ := Table.insert_eq inserted
          exact .createJob unused past absent
        · cases stepped
      · cases stepped
  | ingest job action =>
      simp only [step] at stepped
      split at stepped
      · rename_i publication origin
        obtain ⟨⟨shared, after⟩, moved, rfl⟩ := Option.map_eq_some_iff.mp stepped
        exact .ingest origin (Ingest.Publication.step_move moved)
      · cases stepped

end ConvoScore.Pipeline
