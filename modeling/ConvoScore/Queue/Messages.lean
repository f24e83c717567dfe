import ConvoScore.Repository.Jobs

namespace ConvoScore

/-- A message carries a job id, or none when the body is not something the publishers wrote. -/
structure QueueMessage where
  messageId : Nat
  jobId : Option Uuid
  deriving DecidableEq

/-- The queue keeps every message until it is deleted and numbers each new one. -/
structure Queue where
  messages : List QueueMessage
  issued : Nat

namespace Queue

def empty : Queue := ⟨[], 0⟩

/-- The queue stores one more message under the next number. -/
def push (queue : Queue) (jobId : Option Uuid) : Queue :=
  ⟨⟨queue.issued, jobId⟩ :: queue.messages, queue.issued + 1⟩

/-- `SqsQueue.send` puts the job id into a new message. -/
def send (queue : Queue) (jobId : Uuid) : Queue := queue.push (some jobId)

/-- `SqsQueue.delete` removes the received message. -/
def delete (queue : Queue) (message : QueueMessage) : Queue :=
  {queue with messages := queue.messages.filter fun kept => decide (kept ≠ message)}

/-- The queue still holds an undeleted message of the job. -/
def Holds (queue : Queue) (jobId : Uuid) : Prop :=
  ∃ message ∈ queue.messages, message.jobId = some jobId

theorem holds_push {queue : Queue} {jobId : Uuid} (body : Option Uuid)
    (holds : queue.Holds jobId) : (queue.push body).Holds jobId := by
  obtain ⟨message, member, same⟩ := holds
  exact ⟨message, List.mem_cons_of_mem _ member, same⟩

theorem holds_send (queue : Queue) (jobId : Uuid) : (queue.send jobId).Holds jobId :=
  ⟨⟨queue.issued, some jobId⟩, List.mem_cons_self, rfl⟩

theorem mem_send {queue : Queue} {jobId : Uuid} {message : QueueMessage}
    (member : message ∈ (queue.send jobId).messages) :
    message.jobId = some jobId ∨ message ∈ queue.messages := by
  rcases List.mem_cons.mp member with rfl | old
  · exact .inl rfl
  · exact .inr old

/-- Deleting another job's message keeps the messages of this one. -/
theorem holds_delete {queue : Queue} {jobId : Uuid} {message : QueueMessage}
    (holds : queue.Holds jobId) (other : message.jobId ≠ some jobId) :
    (queue.delete message).Holds jobId := by
  obtain ⟨kept, member, same⟩ := holds
  refine ⟨kept, List.mem_filter.mpr ⟨member, ?_⟩, same⟩
  have different : kept ≠ message := by
    intro equal
    exact other (equal ▸ same)
  simpa using different

theorem mem_of_mem_delete {queue : Queue} {message kept : QueueMessage}
    (member : kept ∈ (queue.delete message).messages) : kept ∈ queue.messages :=
  (List.mem_filter.mp member).1

end Queue

/-- Every process reads and writes the clock, the committed rows and the queue. -/
structure Shared where
  now : Timestamp
  jobs : Jobs
  queue : Queue

/-- A transaction that starts after `since` and commits now takes its `now()` in between. -/
def Shared.txStart (shared : Shared) (since start : Timestamp) : Bool :=
  decide (since ≤ start) && decide (start ≤ shared.now)

/-- A committed transaction replaces one row. -/
def Shared.write (shared : Shared) (job : Uuid) (row : Conversation) : Shared :=
  {shared with jobs := Function.update shared.jobs job (some row)}

namespace Shared
variable {shared : Shared} {job other : Uuid} {row : Conversation}

@[simp] theorem write_now : (shared.write job row).now = shared.now := rfl

@[simp] theorem write_queue : (shared.write job row).queue = shared.queue := rfl

@[simp] theorem write_jobs_self : (shared.write job row).jobs job = some row := by simp [write]

theorem write_jobs_of_ne (different : other ≠ job) :
    (shared.write job row).jobs other = shared.jobs other := by
  simp only [write, Function.update_of_ne different]

theorem txStart_iff {since start : Timestamp} :
    shared.txStart since start = true ↔ since ≤ start ∧ start ≤ shared.now := by
  simp [txStart]

end Shared

end ConvoScore
