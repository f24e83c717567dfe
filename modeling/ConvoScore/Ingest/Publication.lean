import ConvoScore.Api.Submit

namespace ConvoScore.Ingest

/-- A publication is the part of `_create_job` that follows the commit of the job. -/
inductive Publication
  | publishing
  | marking (since : Timestamp)
  | failing (error : Text) (since : Timestamp)
  | marked
  | markedFailed
  | stopped
  deriving DecidableEq

inductive Publication.Action
  | publish (result : PublishResult)
  | markEnqueued (start : Timestamp)
  | markEnqueueFailed (start : Timestamp)
  | stop

/-- One step of a publication; `stop` is an exception or a crash. -/
def Publication.step (shared : Shared) (jobId : Uuid) :
    Publication → Publication.Action → Option (Shared × Publication)
  | .publishing, .publish result =>
      let sent := {shared with queue := result.enqueue shared.queue jobId}
      match result with
      | .delivered => some (sent, .marking shared.now)
      | .replyLost error | .refused error => some (sent, .failing error shared.now)
  | .marking since, .markEnqueued start =>
      if shared.txStart since start then
        some ({shared with jobs := markEnqueued start shared.jobs jobId}, .marked)
      else none
  | .failing error since, .markEnqueueFailed start =>
      if shared.txStart since start then
        some ({shared with jobs := markEnqueueFailed start shared.jobs jobId error}, .markedFailed)
      else none
  | .publishing, .stop => some (shared, .stopped)
  | .marking _, .stop => some (shared, .stopped)
  | .failing _ _, .stop => some (shared, .stopped)
  | _, _ => none

/-- A move is what one step of a publication does, with the fact that made it possible. -/
inductive Publication.Move (shared : Shared) (jobId : Uuid) :
    Publication → Publication.Action → Shared → Publication → Prop
  | delivered :
      Move shared jobId .publishing (.publish .delivered)
        {shared with queue := shared.queue.send jobId} (.marking shared.now)
  | raised {result : PublishResult} {error : Text}
      (text : result = .replyLost error ∨ result = .refused error) :
      Move shared jobId .publishing (.publish result)
        {shared with queue := result.enqueue shared.queue jobId} (.failing error shared.now)
  | marked {since start : Timestamp} (timed : since ≤ start) (past : start ≤ shared.now) :
      Move shared jobId (.marking since) (.markEnqueued start)
        {shared with jobs := ConvoScore.markEnqueued start shared.jobs jobId} .marked
  | markedFailed {error : Text} {since start : Timestamp} (timed : since ≤ start)
      (past : start ≤ shared.now) :
      Move shared jobId (.failing error since) (.markEnqueueFailed start)
        {shared with jobs := ConvoScore.markEnqueueFailed start shared.jobs jobId error}
        .markedFailed
  | stopped {publication : Publication} (unmarked : publication ≠ .marked)
      (unfailed : publication ≠ .markedFailed) :
      Move shared jobId publication .stop shared .stopped

/-- Every step of a publication is one of the moves. -/
theorem Publication.step_move {shared next : Shared} {jobId : Uuid}
    {publication after : Publication} {action : Publication.Action}
    (stepped : publication.step shared jobId action = some (next, after)) :
    Publication.Move shared jobId publication action next after := by
  unfold Publication.step at stepped
  split at stepped
  · rename_i result
    cases result <;> cases stepped
    · exact .delivered
    · exact .raised (.inl rfl)
    · exact .raised (.inr rfl)
  · split at stepped
    · rename_i timed
      obtain ⟨timed, past⟩ := Shared.txStart_iff.mp timed
      cases stepped
      exact .marked timed past
    · cases stepped
  · split at stepped
    · rename_i timed
      obtain ⟨timed, past⟩ := Shared.txStart_iff.mp timed
      cases stepped
      exact .markedFailed timed past
    · cases stepped
  · cases stepped
    exact .stopped (by simp) (by simp)
  · cases stepped
    exact .stopped (by simp) (by simp)
  · cases stepped
    exact .stopped (by simp) (by simp)
  · cases stepped

end ConvoScore.Ingest
