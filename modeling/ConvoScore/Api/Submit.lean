import ConvoScore.Queue.Messages

namespace ConvoScore
open Library

/-- A publish delivers the message, loses the reply after delivery, or is refused.
The last two raise `QueuePublishError` with a text. -/
inductive PublishResult
  | delivered
  | replyLost (error : Text)
  | refused (error : Text)
  deriving DecidableEq

/-- The queue after `publish` stores the message unless the send was refused. -/
def PublishResult.enqueue (result : PublishResult) (queue : Queue) (jobId : Uuid) : Queue :=
  match result with
  | .delivered | .replyLost _ => queue.send jobId
  | .refused _ => queue

/-- A publish adds at most a message with its own id. -/
theorem PublishResult.mem_enqueue {result : PublishResult} {queue : Queue} {jobId : Uuid}
    {message : QueueMessage} (member : message ∈ (result.enqueue queue jobId).messages) :
    message.jobId = some jobId ∨ message ∈ queue.messages := by
  cases result with
  | delivered | replyLost => exact Queue.mem_send member
  | refused => exact .inr member

/-- A publish keeps the messages of every job. -/
theorem PublishResult.holds_enqueue {queue : Queue} {jobId : Uuid} (result : PublishResult)
    (published : Uuid) (holds : queue.Holds jobId) :
    (result.enqueue queue published).Holds jobId := by
  cases result with
  | delivered | replyLost => exact Queue.holds_push _ holds
  | refused => exact holds

namespace Api

inductive Response
  | accepted
  | unavailable
  | serverError
  deriving DecidableEq, Repr

/-- A phase is a place in `submit_conversation` or in the teardown of `get_db`.
The row is still private to the open transaction, whose start is its `now()`. -/
inductive Phase
  | publishing (row : Conversation) (start : Timestamp)
  | marking (row : Conversation) (start : Timestamp)
  | failing (row : Conversation) (start : Timestamp) (error : Text)
  | returning (row : Conversation)
  | committing (row : Conversation)
  | rejecting (row : Conversation)
  | committed
  | rejected
  | rolledBack

/-- A request also keeps the response that was sent and the one the client received. -/
structure Request where
  phase : Phase
  sent : Option Response
  received : Option Response

inductive Action
  | publish (result : PublishResult)
  | markEnqueued
  | markEnqueueFailed
  | respond
  | commit
  | rollback
  | deliver

/-- The row of the open transaction, if it has not ended. -/
def Phase.openRow : Phase → Option Conversation
  | .publishing row _ | .marking row _ | .failing row _ _ | .returning row | .committing row
  | .rejecting row => some row
  | .committed | .rejected | .rolledBack => none

/-- A transaction that is about to commit is open. -/
theorem Phase.openRow_of_opened {phase : Phase} {row : Conversation}
    (opened : phase = .committing row ∨ phase = .rejecting row) : phase.openRow = some row := by
  rcases opened with rfl | rfl <;> rfl

/-- One step of a request.
The accepting path returns its response first and commits in the teardown of `get_db`;
the failing path commits first. -/
def step (shared : Shared) (jobId : Uuid) (request : Request) :
    Action → Option (Shared × Request)
  | .publish result =>
      match request.phase with
      | .publishing row start =>
          let shared := {shared with queue := result.enqueue shared.queue jobId}
          match result with
          | .delivered => some (shared, {request with phase := .marking row start})
          | .replyLost error | .refused error =>
              some (shared, {request with phase := .failing row start error})
      | _ => none
  | .markEnqueued =>
      match request.phase with
      | .marking row start =>
          some (shared, {request with phase := .returning (row.withEnqueued start)})
      | _ => none
  | .markEnqueueFailed =>
      match request.phase with
      | .failing row start error =>
          some (shared, {request with phase := .rejecting (row.withEnqueueFailed start error)})
      | _ => none
  | .respond =>
      match request.phase with
      | .returning row =>
          some (shared, {request with phase := .committing row, sent := some .accepted})
      | .rejected =>
          if request.sent.isNone then some (shared, {request with sent := some .unavailable})
          else none
      | .rolledBack =>
          if request.sent.isNone then some (shared, {request with sent := some .serverError})
          else none
      | _ => none
  | .commit =>
      match request.phase with
      | .committing row =>
          (shared.jobs.insert jobId row).map fun jobs =>
            ({shared with jobs}, {request with phase := .committed})
      | .rejecting row =>
          (shared.jobs.insert jobId row).map fun jobs =>
            ({shared with jobs}, {request with phase := .rejected})
      | _ => none
  | .rollback =>
      if request.phase.openRow.isSome then some (shared, {request with phase := .rolledBack})
      else none
  | .deliver =>
      if request.received.isNone && request.sent.isSome then
        some (shared, {request with received := request.sent})
      else none

/-- A move is what one step of a request does, with the fact that made it possible. -/
inductive Move (shared : Shared) (jobId : Uuid) : Request → Action → Shared → Request → Prop
  | delivered {row : Conversation} {start : Timestamp} {sent received : Option Response} :
      Move shared jobId ⟨.publishing row start, sent, received⟩ (.publish .delivered)
        {shared with queue := shared.queue.send jobId} ⟨.marking row start, sent, received⟩
  | raised {row : Conversation} {start : Timestamp} {sent received : Option Response}
      {result : PublishResult} {error : Text}
      (text : result = .replyLost error ∨ result = .refused error) :
      Move shared jobId ⟨.publishing row start, sent, received⟩ (.publish result)
        {shared with queue := result.enqueue shared.queue jobId}
        ⟨.failing row start error, sent, received⟩
  | marked {row : Conversation} {start : Timestamp} {sent received : Option Response} :
      Move shared jobId ⟨.marking row start, sent, received⟩ .markEnqueued shared
        ⟨.returning (row.withEnqueued start), sent, received⟩
  | markedFailed {row : Conversation} {start : Timestamp} {error : Text}
      {sent received : Option Response} :
      Move shared jobId ⟨.failing row start error, sent, received⟩ .markEnqueueFailed shared
        ⟨.rejecting (row.withEnqueueFailed start error), sent, received⟩
  | accepted {row : Conversation} {sent received : Option Response} :
      Move shared jobId ⟨.returning row, sent, received⟩ .respond shared
        ⟨.committing row, some .accepted, received⟩
  | refused {phase : Phase} {received : Option Response} {response : Response}
      (ended : phase = .rejected ∧ response = .unavailable ∨
        phase = .rolledBack ∧ response = .serverError) :
      Move shared jobId ⟨phase, none, received⟩ .respond shared ⟨phase, some response, received⟩
  | committed {row : Conversation} {sent received : Option Response}
      (absent : shared.jobs jobId = none) :
      Move shared jobId ⟨.committing row, sent, received⟩ .commit (shared.write jobId row)
        ⟨.committed, sent, received⟩
  | rejected {row : Conversation} {sent received : Option Response}
      (absent : shared.jobs jobId = none) :
      Move shared jobId ⟨.rejecting row, sent, received⟩ .commit (shared.write jobId row)
        ⟨.rejected, sent, received⟩
  | rolledBack {phase : Phase} {row : Conversation} {sent received : Option Response}
      (opened : phase.openRow = some row) :
      Move shared jobId ⟨phase, sent, received⟩ .rollback shared ⟨.rolledBack, sent, received⟩
  | received {phase : Phase} {response : Response} :
      Move shared jobId ⟨phase, some response, none⟩ .deliver shared
        ⟨phase, some response, some response⟩

/-- Every step of a request is one of the moves. -/
theorem step_move {shared next : Shared} {jobId : Uuid} {request after : Request}
    {action : Action} (stepped : step shared jobId request action = some (next, after)) :
    Move shared jobId request action next after := by
  rcases request with ⟨phase, sent, received⟩
  cases action with
  | publish result =>
      cases phase <;> simp only [step, reduceCtorEq] at stepped
      cases result <;> cases stepped
      · exact .delivered
      · exact .raised (.inl rfl)
      · exact .raised (.inr rfl)
  | markEnqueued =>
      cases phase <;> simp only [step, reduceCtorEq] at stepped
      cases stepped
      exact .marked
  | markEnqueueFailed =>
      cases phase <;> simp only [step, reduceCtorEq] at stepped
      cases stepped
      exact .markedFailed
  | respond =>
      cases phase <;> simp only [step, reduceCtorEq] at stepped
      · cases stepped
        exact .accepted
      · cases sent <;> cases stepped
        exact .refused (.inl ⟨rfl, rfl⟩)
      · cases sent <;> cases stepped
        exact .refused (.inr ⟨rfl, rfl⟩)
  | commit =>
      cases phase <;> simp only [step, reduceCtorEq, Option.map_eq_some_iff] at stepped
      · obtain ⟨jobs, inserted, equal⟩ := stepped
        obtain ⟨absent, rfl⟩ := Table.insert_eq inserted
        cases equal
        exact .committed absent
      · obtain ⟨jobs, inserted, equal⟩ := stepped
        obtain ⟨absent, rfl⟩ := Table.insert_eq inserted
        cases equal
        exact .rejected absent
  | rollback =>
      simp only [step] at stepped
      split at stepped
      · rename_i opened
        obtain ⟨row, opened⟩ := Option.isSome_iff_exists.mp opened
        cases stepped
        exact .rolledBack opened
      · cases stepped
  | deliver =>
      cases sent <;> cases received <;> simp [step] at stepped
      obtain ⟨rfl, rfl⟩ := stepped
      exact .received

end Api
end ConvoScore
