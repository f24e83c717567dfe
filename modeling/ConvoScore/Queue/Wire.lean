import ConvoScore.Library.System
import ConvoScore.Queue.Messages
import ConvoScore.Queue.Uuids

namespace ConvoScore.Wire
open Library Json

/-- `SqsQueue.send` writes this body. -/
def sentBody (jobId : Uuid) : Codes :=
  dumps asciiStyle (.object [(codesOf "job_id".toList, .string (Uuids.text jobId))])

/-- The receiver recurses up to a depth and knows the Unicode tables. -/
structure Receiver where
  depth : Nat
  table : Uuids.UnicodeTable

/-- `QueueMessage.job_id` of a body. -/
def jobIdOf (table : Uuids.UnicodeTable) : Value → Option Uuid
  | .object fields =>
      match fields.lookup (codesOf "job_id".toList) with
      | some (.string raw) => Uuids.parse table raw
      | _ => none
  | _ => none

/-- A body that is not JSON counts as an empty one; a recursion error leaves `receive`. -/
def receiveBody (receiver : Receiver) (body : Codes) : Except Failure (Option Uuid) :=
  match loads receiver.depth body with
  | .ok value => .ok (jobIdOf receiver.table value)
  | .error .invalid => .ok none
  | .error .tooDeep => .error .tooDeep

structure Message where
  messageId : Nat
  body : Codes
  deriving DecidableEq

/-- The queue as it is on the wire, with the texts of the bodies. -/
structure State where
  messages : List Message
  issued : Nat

def State.put (state : State) (body : Codes) : State :=
  ⟨⟨state.issued, body⟩ :: state.messages, state.issued + 1⟩

def State.delete (state : State) (message : Message) : State :=
  {state with messages := state.messages.filter fun kept => decide (kept ≠ message)}

/-- A message is in the queue, or it has been deleted. -/
def State.Known (state : State) (message : Message) : Prop :=
  message ∈ state.messages ∨ ∀ kept ∈ state.messages, kept.messageId ≠ message.messageId

instance (state : State) (message : Message) : Decidable (state.Known message) :=
  inferInstanceAs (Decidable (_ ∨ _))

/-- Other writers put any body, and the queue may duplicate a message. -/
inductive Action
  | send (jobId : Uuid)
  | put (body : Codes)
  | duplicate (message : Message)
  | receive (message : Message)
  | delete (message : Message)

/-- A UUID that is sent has 128 bits, and a message that is received can be read. -/
def step (receiver : Receiver) (state : State) : Action → Option State
  | .send jobId => if jobId < Uuids.bound then some (state.put (sentBody jobId)) else none
  | .put body => some (state.put body)
  | .duplicate message =>
      if message ∈ state.messages then some (state.put message.body) else none
  | .receive message =>
      if message ∈ state.messages ∧ (receiveBody receiver message.body).toOption.isSome then
        some state
      else none
  | .delete message => if state.Known message then some (state.delete message) else none

def system (receiver : Receiver) : System State Action where
  start state := state = ⟨[], 0⟩
  step := step receiver

/-- What the processes do with the queue. -/
inductive Operation
  | send (jobId : Uuid)
  | put (body : Option Uuid)
  | duplicate (message : QueueMessage)
  | receive (message : QueueMessage)
  | delete (message : QueueMessage)

def operate (queue : Queue) : Operation → Option Queue
  | .send jobId => some (queue.send jobId)
  | .put body => some (queue.push body)
  | .duplicate message =>
      if message ∈ queue.messages then some (queue.push message.jobId) else none
  | .receive message => if message ∈ queue.messages then some queue else none
  | .delete message => some (queue.delete message)

def queueSystem : System Queue Operation where
  start queue := queue = Queue.empty
  step := operate

/-- The job id of a message that can be read. -/
def seen (receiver : Receiver) (body : Codes) : Option Uuid :=
  match receiveBody receiver body with
  | .ok jobId => jobId
  | .error _ => none

def Message.view (receiver : Receiver) (message : Message) : QueueMessage :=
  ⟨message.messageId, seen receiver message.body⟩

def State.view (receiver : Receiver) (state : State) : Queue :=
  ⟨state.messages.map (Message.view receiver), state.issued⟩

def Action.view (receiver : Receiver) : Action → Operation
  | .send jobId => .send jobId
  | .put body => .put (seen receiver body)
  | .duplicate message => .duplicate (message.view receiver)
  | .receive message => .receive (message.view receiver)
  | .delete message => .delete (message.view receiver)

variable {receiver : Receiver} {state next : State} {action : Action} {jobId : Uuid}

theorem text_valid : ∀ code ∈ Uuids.text jobId, code.isValidChar := by
  intro code member
  have small : code < 0xd800 := by
    rcases Uuids.text_codes code member with hex | rfl
    · have range := hex.cases
      omega
    · decide
  exact .inl small

/-- A body that was sent for a job is received for that job. -/
theorem receiveBody_sent (deep : 1 ≤ receiver.depth) (bounded : jobId < Uuids.bound) :
    receiveBody receiver (sentBody jobId) = .ok (some jobId) := by
  obtain ⟨depth, deeper⟩ := Nat.exists_eq_add_one_of_ne_zero (Nat.ne_of_gt deep)
  have writable : Writable receiver.depth
      (.object [(codesOf "job_id".toList, .string (Uuids.text jobId))]) := by
    rw [deeper]
    refine .object ?_ ?_ ?_
    · intro field member
      have valid : ∀ code ∈ codesOf "job_id".toList, code.isValidChar := by decide
      rw [List.mem_singleton.mp member]
      exact valid
    · exact List.nodup_singleton _
    · intro field member
      rw [List.mem_singleton.mp member]
      exact .string text_valid
  have read := loads_dumps asciiStyle_readable writable
  rw [receiveBody, sentBody, read]
  simp only [jobIdOf, List.lookup_cons_self, Uuids.parse_text bounded]

/-- Only UUIDs are received. -/
theorem receiveBody_bounded {body : Codes} (received : receiveBody receiver body = .ok (some jobId)) :
    jobId < Uuids.bound := by
  unfold receiveBody at received
  split at received
  · rename_i value loaded
    rw [Except.ok.injEq] at received
    unfold jobIdOf at received
    split at received
    · split at received
      · exact Uuids.parse_bounded received
      · cases received
    · cases received
  · cases received
  · cases received

theorem view_put (body : Codes) :
    (state.put body).view receiver = (state.view receiver).push (seen receiver body) := rfl

/-- Every message has a number of its own, below the next one. -/
structure Numbered (state : State) : Prop where
  distinct : (state.messages.map Message.messageId).Nodup
  below : ∀ message ∈ state.messages, message.messageId < state.issued

theorem Numbered.put (numbered : Numbered state) (body : Codes) : Numbered (state.put body) where
  distinct := by
    refine List.nodup_cons.mpr ⟨?_, numbered.distinct⟩
    intro member
    obtain ⟨message, inside, same⟩ := List.mem_map.mp member
    exact absurd same (Nat.ne_of_lt (numbered.below message inside))
  below := by
    intro message member
    rcases List.mem_cons.mp member with rfl | earlier
    · exact Nat.lt_succ_self _
    · exact Nat.lt_succ_of_lt (numbered.below message earlier)

theorem Numbered.delete (numbered : Numbered state) (message : Message) :
    Numbered (state.delete message) where
  distinct := numbered.distinct.sublist (List.filter_sublist.map _)
  below kept member := numbered.below kept (List.mem_filter.mp member).1

/-- A step has one of these forms. -/
inductive Step (receiver : Receiver) (state : State) : Action → State → Prop
  | send {jobId : Uuid} (bounded : jobId < Uuids.bound) :
      Step receiver state (.send jobId) (state.put (sentBody jobId))
  | put {body : Codes} : Step receiver state (.put body) (state.put body)
  | duplicate {message : Message} (member : message ∈ state.messages) :
      Step receiver state (.duplicate message) (state.put message.body)
  | receive {message : Message} (member : message ∈ state.messages) :
      Step receiver state (.receive message) state
  | delete {message : Message} (known : state.Known message) :
      Step receiver state (.delete message) (state.delete message)

theorem step_cases (stepped : step receiver state action = some next) :
    Step receiver state action next := by
  cases action with
  | send jobId =>
      simp only [step] at stepped
      split at stepped
      · rename_i bounded
        cases stepped
        exact .send bounded
      · cases stepped
  | put body =>
      cases stepped
      exact .put
  | duplicate message =>
      simp only [step] at stepped
      split at stepped
      · rename_i member
        cases stepped
        exact .duplicate member
      · cases stepped
  | receive message =>
      simp only [step] at stepped
      split at stepped
      · rename_i member
        cases stepped
        exact .receive member.1
      · cases stepped
  | delete message =>
      simp only [step] at stepped
      split at stepped
      · rename_i known
        cases stepped
        exact .delete known
      · cases stepped

theorem numbered_step (numbered : Numbered state) (step : Step receiver state action next) :
    Numbered next := by
  cases step with
  | send | put | duplicate => exact numbered.put _
  | receive => exact numbered
  | delete => exact numbered.delete _

/-- A deleted message is the only one with its number. -/
theorem view_delete (numbered : Numbered state) {message : Message} (known : state.Known message) :
    (state.delete message).view receiver = (state.view receiver).delete (message.view receiver) := by
  have same : ∀ kept ∈ state.messages,
      (kept ≠ message ↔ kept.view receiver ≠ message.view receiver) := by
    intro kept member
    constructor
    · intro different equal
      have number : kept.messageId = message.messageId := congrArg QueueMessage.messageId equal
      rcases known with present | gone
      · exact different (List.inj_on_of_nodup_map numbered.distinct member present number)
      · exact gone kept member number
    · rintro different rfl
      exact different rfl
  have filtered : (state.messages.filter fun kept => decide (kept ≠ message)).map
      (Message.view receiver) = (state.messages.map (Message.view receiver)).filter
        fun kept => decide (kept ≠ message.view receiver) := by
    rw [List.filter_map]
    refine congrArg _ (List.filter_congr fun kept member => ?_)
    exact decide_eq_decide.mpr (same kept member)
  rw [State.view, State.delete, filtered]
  rfl

/-- A step on the wire is the step of the queue that the processes see. -/
theorem operate_view (deep : 1 ≤ receiver.depth) (numbered : Numbered state)
    (step : Step receiver state action next) :
    operate (state.view receiver) (action.view receiver) = some (next.view receiver) := by
  cases step with
  | send bounded =>
      rw [view_put, seen, receiveBody_sent deep bounded]
      rfl
  | put => rfl
  | duplicate member | receive member => exact if_pos (List.mem_map_of_mem member)
  | delete known => exact congrArg some (view_delete numbered known).symm

/-- The body of every message was sent for a job or put by another writer. -/
def Sourced (history : List (System.Taken State Action)) (state : State) : Prop :=
  ∀ message ∈ state.messages, ∃ taken ∈ history,
    taken.action = .put message.body ∨
      ∃ jobId < Uuids.bound, taken.action = .send jobId ∧ message.body = sentBody jobId

theorem sourced_step {history : List (System.Taken State Action)} (sourced : Sourced history state)
    (step : Step receiver state action next) :
    Sourced (⟨state, action, next⟩ :: history) next := by
  have earlier : ∀ message ∈ state.messages, ∃ taken ∈ (⟨state, action, next⟩ :: history :
      List (System.Taken State Action)), taken.action = .put message.body ∨
        ∃ jobId < Uuids.bound, taken.action = .send jobId ∧ message.body = sentBody jobId := by
    intro message member
    obtain ⟨taken, recorded, origin⟩ := sourced message member
    exact ⟨taken, List.mem_cons_of_mem _ recorded, origin⟩
  intro message member
  cases step with
  | send bounded =>
      rcases List.mem_cons.mp member with rfl | old
      · exact ⟨_, List.mem_cons_self, .inr ⟨_, bounded, rfl, rfl⟩⟩
      · exact earlier message old
  | put =>
      rcases List.mem_cons.mp member with rfl | old
      · exact ⟨_, List.mem_cons_self, .inl rfl⟩
      · exact earlier message old
  | duplicate original =>
      rcases List.mem_cons.mp member with rfl | old
      · obtain ⟨taken, recorded, origin⟩ := earlier _ original
        exact ⟨taken, recorded, origin⟩
      · exact earlier message old
  | receive => exact earlier message member
  | delete => exact earlier message (List.mem_filter.mp member).1

variable {run : List (System.Taken State Action) × State}

theorem run_sourced (reached : (system receiver).recorded.Reached System.anyStep run) :
    Numbered run.2 ∧ Sourced run.1 run.2 := by
  refine reached.historyInvariant
    (motive := fun history state => Numbered state ∧ Sourced history state) ?_ ?_
  · rintro _ rfl
    exact ⟨⟨List.nodup_nil, fun _ member => absurd member List.not_mem_nil⟩,
      fun _ member => absurd member List.not_mem_nil⟩
  · intro history before action after _ ⟨numbered, sourced⟩ stepped _
    have step := step_cases stepped
    exact ⟨numbered_step numbered step, sourced_step sourced step⟩

/-- In every run the processes see the queue that their own operations make. A job id that is
received is a UUID, and it was sent, or another writer has put a body that names it. -/
theorem wire_refines (deep : 1 ≤ receiver.depth)
    (reached : (system receiver).recorded.Reached System.anyStep run) :
    (∃ queueRun, queueSystem.recorded.Reached System.anyStep queueRun ∧
      queueRun.2 = run.2.view receiver ∧
      queueRun.1.map (·.action) = run.1.map fun taken => taken.action.view receiver) ∧
    ∀ message ∈ run.2.messages, ∀ jobId,
      receiveBody receiver message.body = .ok (some jobId) → jobId < Uuids.bound ∧
        ∃ taken ∈ run.1, taken.action = .send jobId ∨
          ∃ body, taken.action = .put body ∧ receiveBody receiver body = .ok (some jobId) := by
  refine ⟨?_, ?_⟩
  · refine System.recorded_simulated (State.view receiver) (Action.view receiver) ?_ ?_ reached
    · rintro _ rfl
      rfl
    · intro history before action after earlier stepped
      exact operate_view deep (run_sourced earlier).1 (step_cases stepped)
  · intro message member jobId received
    refine ⟨receiveBody_bounded received, ?_⟩
    obtain ⟨taken, recorded, put | ⟨sent, bounded, same, body⟩⟩ :=
      (run_sourced reached).2 message member
    · exact ⟨taken, recorded, .inr ⟨message.body, put, received⟩⟩
    · rw [body, receiveBody_sent deep bounded, Except.ok.injEq, Option.some.injEq] at received
      exact ⟨taken, recorded, .inl (received ▸ same)⟩

def shallowReceiver : Receiver := ⟨1, ⟨fun _ => false, fun _ => none⟩⟩

/-- One job is sent and its message is duplicated; others put a text that is not JSON and one that
is too deep. -/
def sharedSchedule : List Action :=
  [.send 7, .put (codesOf "hello".toList), .put (codesOf "[[]]".toList),
    .duplicate ⟨0, sentBody 7⟩, .receive ⟨0, sentBody 7⟩, .delete ⟨0, sentBody 7⟩,
    .receive ⟨1, codesOf "hello".toList⟩]

/-- The duplicate still names the job, and the other messages name none. -/
theorem wire_refines_shared : ∃ queueRun, queueSystem.recorded.Reached System.anyStep queueRun ∧
    queueRun.2.messages = [⟨3, some 7⟩, ⟨2, none⟩, ⟨1, none⟩] ∧ queueRun.1.length = 7 := by
  have ran : ((system shallowReceiver).recorded.run ([], ⟨[], 0⟩) sharedSchedule).map
      (fun run => ((run.2.view shallowReceiver).messages, run.1.length)) =
      some ([⟨3, some 7⟩, ⟨2, none⟩, ⟨1, none⟩], 7) := by
    decide +kernel
  obtain ⟨run, path, seen⟩ := System.run_observed System.anyStep ran (fun _ _ _ _ => trivial)
  obtain ⟨messages, steps⟩ := Prod.mk.inj seen
  have reached : (system shallowReceiver).recorded.Reached System.anyStep run :=
    ⟨([], ⟨[], 0⟩), ⟨rfl, rfl⟩, path⟩
  obtain ⟨⟨queueRun, queueReached, same, actions⟩, _⟩ := wire_refines (by decide) reached
  have lengths := congrArg List.length actions
  rw [List.length_map, List.length_map, steps] at lengths
  exact ⟨queueRun, queueReached, by rw [same, messages], lengths⟩

end ConvoScore.Wire
