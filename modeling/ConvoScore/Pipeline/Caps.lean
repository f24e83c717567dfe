import ConvoScore.Api.Serializers
import ConvoScore.Pipeline.Sources
import ConvoScore.Pipeline.Spending

namespace ConvoScore

namespace Pipeline
open Library

variable {env : Environment} {state next : State} {action : Action} {job : Uuid} {id : WorkerId}
  {history : History}

/-- A job with a cap of three attempts, and the first of its timeouts. -/
def firstTimeout : List Action :=
  [.createJob 1 .smallest 3 "s3://incoming/a.json".toList 0, .ingest 1 (.publish .delivered)] ++
    timedOutAttempt

/-- Two workers take the job over from the first one, which then records its timeout after all;
the job is released and times out once more. -/
def slowSchedule : List Action :=
  firstTimeout ++
    [.tick 90000001, .worker 1 (.receive ⟨0, some 1⟩), .worker 1 (.claim 90000001),
      .tick 90000001, .worker 2 (.receive ⟨0, some 1⟩), .worker 2 (.claim 180000002),
      .worker 0 (.release 180000002), .worker 3 (.receive ⟨0, some 1⟩),
      .worker 3 (.claim 180000002), .worker 3 .readJob,
      .worker 3 (.score (.error (.transient "timeout".toList .timeout) 0)),
      .worker 3 (.fail 180000002)]

end Pipeline
end ConvoScore
