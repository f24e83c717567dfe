import ConvoScore.Pipeline.Progress
import Mathlib.Algebra.BigOperators.Group.Finset.Basic
import Mathlib.Algebra.Order.BigOperators.Group.Finset

namespace ConvoScore

namespace Queue

/-- The jobs that a message of the queue names. -/
def jobs (queue : Queue) : Finset Uuid :=
  (queue.messages.filterMap QueueMessage.jobId).toFinset

variable {queue : Queue} {job : Uuid} {message : QueueMessage}

theorem mem_jobs : job ∈ queue.jobs ↔ queue.Holds job := by
  rw [jobs, List.mem_toFinset, List.mem_filterMap, Holds]

theorem jobs_delete : (queue.delete message).jobs ⊆ queue.jobs := by
  intro job member
  obtain ⟨kept, inside, named⟩ := mem_jobs.mp member
  exact mem_jobs.mpr ⟨kept, mem_of_mem_delete inside, named⟩

/-- A received message can be deleted once. -/
theorem length_delete (member : message ∈ queue.messages) :
    (queue.delete message).messages.length < queue.messages.length :=
  List.length_filter_lt_length_iff_exists.mpr ⟨message, member, by simp⟩

end Queue

namespace Pipeline.Shipped
open Library
open Visibility (Deployment sampleDeployment)

/-- The messages of the scoring queue that have not moved to the dead-letter queue. -/
def State.live (state : State) : Queue :=
  {state.shared.queue with
    messages := state.shared.queue.messages.filter fun message => decide (message ∉ state.dead)}

/-- The calls of the provider that a job may still need. -/
def remaining (maxAttempts : Nat) (jobs : Jobs) (job : Uuid) : Nat :=
  match jobs job with
  | none => 0
  | some row => if row.status.terminal then 0 else max 1 (maxAttempts - row.attemptCount)

/-- A job that has ended or has no row stays as it is, and any other job ends. -/
structure Ends (jobs later : Jobs) (job : Uuid) : Prop where
  absent : jobs job = none → later job = none
  terminal : ∀ row, jobs job = some row → ∃ final, later job = some final ∧
    final.status.terminal = true ∧ (row.status.terminal = true → final = row)

/-- Each live message has receives left for the attempts of its job, and at least one. -/
structure Ample (deployment : Deployment) (state : State) (id : WorkerId) : Prop where
  receives : ∀ message ∈ state.live.messages, state.receives message + max 1 (message.jobId.elim 0
    (remaining (deployment.env.settings id).maxAttempts state.shared.jobs)) ≤ Redrive.maxReceiveCount
  attemptable : ∀ job ∈ state.live.jobs, ∀ row, state.shared.jobs job = some row →
    row.status.terminal = false → Attemptable row

/-- A fault-free schedule of one worker and the clock deletes a message and ends its job. -/
structure Settles (deployment : Deployment) (state : State) (id : WorkerId)
    (message : QueueMessage) (replies : Nat → Worker.ScoreReply) (schedule : List Action)
    (later : State) (calls : Nat) : Prop where
  ran : (system deployment).run state schedule = some later
  faultFree : ∀ action ∈ schedule, FaultFree id action
  answers : schedule.filterMap answerOf = (List.range calls).map replies
  workers : later.workers = state.workers
  queue : later.shared.queue = state.shared.queue.delete message
  receives : ∀ other, other ≠ message → later.receives other = state.receives other
  dead : later.dead = state.dead
  others : ∀ job, message.jobId ≠ some job → later.shared.jobs job = state.shared.jobs job
  ended : ∀ job, message.jobId = some job → Ends state.shared.jobs later.shared.jobs job
  few : calls ≤ message.jobId.elim 0
    (remaining (deployment.env.settings id).maxAttempts state.shared.jobs)

/-- A fault-free schedule of one worker and the clock empties the queue and ends the jobs of its
messages. -/
structure Drains (deployment : Deployment) (state : State) (id : WorkerId)
    (replies : Nat → Worker.ScoreReply) (schedule : List Action) (later : State) (calls : Nat) :
    Prop where
  ran : (system deployment).run state schedule = some later
  faultFree : ∀ action ∈ schedule, FaultFree id action
  answers : schedule.filterMap answerOf = (List.range calls).map replies
  workers : later.workers = state.workers
  dead : later.dead = state.dead
  empty : later.live.messages = []
  others : ∀ job, job ∉ state.live.jobs → later.shared.jobs job = state.shared.jobs job
  ended : ∀ job ∈ state.live.jobs, Ends state.shared.jobs later.shared.jobs job
  few : calls ≤ ∑ job ∈ state.live.jobs,
    remaining (deployment.env.settings id).maxAttempts state.shared.jobs job

variable {deployment : Deployment} {state middle later : State} {id : WorkerId}
  {job : Uuid} {message : QueueMessage} {replies : Nat → Worker.ScoreReply} {schedule : List Action}

theorem mem_live : message ∈ state.live.messages ↔
    message ∈ state.shared.queue.messages ∧ message ∉ state.dead := by
  rw [State.live, List.mem_filter, decide_eq_true_eq]

theorem Ends.congr {jobs later others final : Jobs} (ends : Ends jobs later job)
    (same : others job = jobs job) (sameFinal : final job = later job) : Ends others final job where
  absent := by
    rw [same, sameFinal]
    exact ends.absent
  terminal := by
    rw [same, sameFinal]
    exact ends.terminal

theorem Ends.trans {jobs middle later : Jobs} (first : Ends jobs middle job)
    (second : Ends middle later job) : Ends jobs later job where
  absent none := second.absent (first.absent none)
  terminal row present := by
    obtain ⟨between, stored, ended, same⟩ := first.terminal row present
    obtain ⟨final, found, terminal, kept⟩ := second.terminal between stored
    exact ⟨final, found, terminal, fun finished => (kept ended).trans (same finished)⟩

/-- A job that has ended needs no more calls. -/
theorem Ends.remaining_zero {jobs later : Jobs} (ends : Ends jobs later job) (maxAttempts : Nat) :
    remaining maxAttempts later job = 0 := by
  unfold remaining
  cases present : jobs job with
  | none => rw [ends.absent present]
  | some row =>
      obtain ⟨final, found, terminal, _⟩ := ends.terminal row present
      simp only [found, terminal, if_true]

/-- A message that is settled leaves the live ones. -/
theorem Settles.live (settles : Settles deployment state id message replies schedule later calls) :
    later.live = state.live.delete message := by
  simp only [State.live, settles.queue, settles.dead, Queue.delete, List.filter_filter, Bool.and_comm]

/-- A message that needs no attempt is deleted, and nothing else changes. -/
theorem settles_deleted (elapsed : Nat) {calls : List Worker.Action}
    (ran : ∃ visibleAt, (system deployment).run (state.wait elapsed) (calls.map (act id)) =
      some ⟨⟨(state.wait elapsed).queue.pipeline.withWorker {(state.wait elapsed).shared with
          queue := state.shared.queue.delete message} id .idle, visibleAt⟩,
        Function.update state.receives message (state.receives message + 1), state.dead⟩)
    (idle : state.workers id = .idle) (faultless : ∀ call ∈ calls, call.faultless = true)
    (asked : (calls.map (act id)).filterMap answerOf = [])
    (done : ∀ job row, message.jobId = some job → state.shared.jobs job = some row →
      row.status.terminal = true) :
    ∃ schedule later calls, Settles deployment state id message replies schedule later calls := by
  obtain ⟨visibleAt, run⟩ := ran
  refine ⟨_, _, 0, ⟨wait_run run, ?_, asked, ?_, rfl, ?_, rfl, fun _ _ => rfl, ?_, Nat.zero_le _⟩⟩
  · intro action member
    rcases List.mem_cons.mp member with rfl | member
    · trivial
    · obtain ⟨call, called, rfl⟩ := List.mem_map.mp member
      exact ⟨rfl, faultless call called⟩
  · rw [State.workers, State.withWorker, ← idle]
    exact Function.update_eq_self ..
  · intro other different
    exact Function.update_of_ne different ..
  · intro job named
    exact ⟨fun absent => absent, fun row present =>
      ⟨row, present, done job row named present, fun _ => rfl⟩⟩

/-- The delivery of a job that has no row or has ended deletes its message. -/
theorem finished_run {settings : Settings} {shared : Shared} {messageId : Nat}
    (queued : ⟨messageId, some job⟩ ∈ shared.queue.messages)
    (rejected : ∀ row, shared.jobs job = some row → row.claimable shared.now = false)
    (done : ∀ row, shared.jobs job = some row → row.status.terminal = true) :
    (Worker.Sequential.system settings).run (shared, .idle)
        [.receive ⟨messageId, some job⟩, .claim shared.now, .classify, .delete true false] =
      some ({shared with queue := shared.queue.delete ⟨messageId, some job⟩}, .idle) := by
  have unclaimed : claimUpdate shared.now shared.jobs job settings.visibilityTimeoutSeconds =
      (shared.jobs, false) := Table.updateWhere_rejects rejected
  have classified : unclaimedOutcome shared.jobs job = .notFound ∨
      unclaimedOutcome shared.jobs job = .alreadyFinished := by
    unfold unclaimedOutcome
    split
    · exact .inl rfl
    · rename_i row present
      exact .inr (if_pos (done row present))
  rw [System.run, Worker.Sequential.step_receive queued, Option.bind_some, System.run,
    Worker.Sequential.step_claim, Option.bind_some, unclaimed]
  rcases classified with absent | ended
  · simp [System.run, Worker.Sequential.system, Worker.step, absent]
  · simp [System.run, Worker.Sequential.system, Worker.step, ended]

/-- An idle worker deletes a live message that needs no attempt, once it is visible. -/
theorem done_settles (idle : state.workers id = .idle) (member : message ∈ state.live.messages)
    (receivable : state.receives message < Redrive.maxReceiveCount)
    (done : ∀ job row, message.jobId = some job → state.shared.jobs job = some row →
      row.status.terminal = true) :
    ∃ schedule later calls, Settles deployment state id message replies schedule later calls := by
  obtain ⟨queued, alive⟩ := mem_live.mp member
  let elapsed := state.queue.visibleAt message
  let waited := state.wait elapsed
  have visible : waited.queue.visibleAt message ≤ waited.shared.now :=
    Nat.le_add_left elapsed state.shared.now
  obtain ⟨messageId, body⟩ := message
  cases body with
  | none =>
      have alone : (Worker.Sequential.system (deployment.env.settings id)).run
          (waited.shared, .idle) [.receive ⟨messageId, none⟩, .discard, .delete true false] =
            some ({waited.shared with queue := waited.shared.queue.delete ⟨messageId, none⟩},
              .idle) := by
        have still : ⟨messageId, none⟩ ∈ waited.shared.queue.messages := queued
        rw [System.run, Worker.Sequential.step_receive still]
        rfl
      refine settles_deleted elapsed (@handle_run deployment waited id _ _ _ _ idle queued alive
        visible receivable alone (.inl rfl) ?_) idle ?_ rfl done
      · simp [Plain]
      · simp [Worker.Action.faultless]
  | some job =>
      have finished : ∀ row, waited.shared.jobs job = some row → row.status.terminal = true :=
        fun row present => done job row rfl present
      have rejected : ∀ row, waited.shared.jobs job = some row →
          row.claimable waited.shared.now = false := by
        intro row present
        refine Bool.eq_false_iff.mpr fun free => ?_
        have ended := finished row present
        rw [(Conversation.claimable_iff.mp free).1] at ended
        cases ended
      have accepted : claimAccepted deployment waited.shared.jobs ⟨messageId, some job⟩
          waited.shared.now = true := by
        rw [claimAccepted, Option.bind_some]
        cases present : waited.shared.jobs job with
        | none => rfl
        | some row => rw [Option.all_some, rejected row present, Bool.not_false, Bool.true_or]
      refine settles_deleted elapsed (@handle_run deployment waited id _ _ _ _ idle queued alive
        visible receivable (finished_run queued rejected finished) (.inr ⟨rfl, accepted⟩) ?_)
        idle ?_ rfl done
      · simp [Plain]
      · simp [Worker.Action.faultless]

/-- An idle worker settles any live message of an ample queue. -/
theorem message_settles (idle : state.workers id = .idle) (ample : Ample deployment state id)
    (member : message ∈ state.live.messages)
    (recordable : ∀ index, (replies index).recordable = true) :
    ∃ schedule later calls, Settles deployment state id message replies schedule later calls := by
  have enough := ample.receives message member
  obtain ⟨queued, alive⟩ := mem_live.mp member
  by_cases unfinished : ∃ job row, message.jobId = some job ∧ state.shared.jobs job = some row ∧
      row.status.terminal = false
  · obtain ⟨job, row, addressed, present, unfinished⟩ := unfinished
    have left : remaining (deployment.env.settings id).maxAttempts state.shared.jobs job =
        max 1 ((deployment.env.settings id).maxAttempts - row.attemptCount) := by
      simp only [remaining, present, unfinished, Bool.false_eq_true, if_false]
    rw [addressed, Option.elim_some, left, Nat.max_eq_right (Nat.le_max_left _ _)] at enough
    have attemptable := ample.attemptable job (Queue.mem_jobs.mpr ⟨message, member, addressed⟩) row
      present unfinished
    obtain ⟨schedule, later, last, finishes, few⟩ := @unfinished_finishes deployment state id job
      message row replies _ idle queued alive addressed present unfinished attemptable enough
      (Nat.le_refl _) recordable
    refine ⟨schedule, later, last + 1, finishes.ran, finishes.faultFree, finishes.answers,
      finishes.workers, finishes.queue, ?_, finishes.dead, ?_, ?_, ?_⟩
    · intro other different
      rw [finishes.receives]
      exact Function.update_of_ne different ..
    · intro other unnamed
      exact finishes.others other fun same => unnamed (same ▸ addressed)
    · intro named same
      obtain rfl : job = named := Option.some.inj (addressed.symm.trans same)
      refine ⟨fun absent => absurd (present.symm.trans absent) (Option.some_ne_none _), ?_⟩
      intro found stored
      rw [present, Option.some.injEq] at stored
      subst stored
      obtain ⟨final, written, terminal, _⟩ := finishes.ended
      refine ⟨final, written, terminal, fun ended => ?_⟩
      rw [unfinished] at ended
      cases ended
    · rw [addressed, Option.elim_some, left]
      exact few
  · refine done_settles idle member (by omega) fun job row addressed present => ?_
    by_contra open_
    exact unfinished ⟨job, row, addressed, present, Bool.eq_false_iff.mpr open_⟩

/-- What is settled leaves an ample queue ample. -/
theorem Settles.ample (settles : Settles deployment state id message replies schedule middle calls)
    (ample : Ample deployment state id) : Ample deployment middle id := by
  have kept : ∀ other ∈ middle.live.messages, other ∈ state.live.messages ∧ other ≠ message := by
    intro other member
    rw [settles.live] at member
    exact ⟨Queue.mem_of_mem_delete member, by simpa using (List.mem_filter.mp member).2⟩
  refine ⟨?_, ?_⟩
  · intro other member
    obtain ⟨old, different⟩ := kept other member
    have enough := ample.receives other old
    rw [settles.receives other different]
    cases named : other.jobId with
    | none =>
        rw [named] at enough
        exact enough
    | some job =>
        rw [named, Option.elim_some] at enough
        rw [Option.elim_some]
        by_cases same : message.jobId = some job
        · rw [(settles.ended job same).remaining_zero]
          omega
        · have unchanged : remaining (deployment.env.settings id).maxAttempts middle.shared.jobs job =
              remaining (deployment.env.settings id).maxAttempts state.shared.jobs job := by
            simp only [remaining, settles.others job same]
          rw [unchanged]
          exact enough
  · intro job inside row present unfinished
    have old : job ∈ state.live.jobs := by
      rw [settles.live] at inside
      exact Queue.jobs_delete inside
    by_cases same : message.jobId = some job
    · have ended := settles.ended job same
      cases before : state.shared.jobs job with
      | none =>
          rw [ended.absent before] at present
          cases present
      | some found =>
          obtain ⟨final, written, terminal, _⟩ := ended.terminal found before
          rw [written, Option.some.injEq] at present
          rw [present, unfinished] at terminal
          cases terminal
    · rw [settles.others job same] at present
      exact ample.attemptable job old row present unfinished

/-- The calls for one message and those for the rest of the queue stay within the bound. -/
theorem Settles.few_drains {calls further : Nat}
    (settles : Settles deployment state id message replies schedule middle calls)
    (few : further ≤ ∑ job ∈ middle.live.jobs,
      remaining (deployment.env.settings id).maxAttempts middle.shared.jobs job)
    (queued : message ∈ state.live.messages) :
    calls + further ≤ ∑ job ∈ state.live.jobs,
      remaining (deployment.env.settings id).maxAttempts state.shared.jobs job := by
  let before := remaining (deployment.env.settings id).maxAttempts state.shared.jobs
  let after := remaining (deployment.env.settings id).maxAttempts middle.shared.jobs
  change calls + further ≤ ∑ job ∈ state.live.jobs, before job
  have rest : further ≤ ∑ job ∈ middle.live.jobs, after job := few
  have unnamed : ∀ job, message.jobId ≠ some job → after job = before job := by
    intro job other
    simp only [before, after, remaining, settles.others job other]
  have contained : ∑ job ∈ middle.live.jobs, after job ≤ ∑ job ∈ state.live.jobs, after job := by
    refine Finset.sum_le_sum_of_subset ?_
    rw [settles.live]
    exact Queue.jobs_delete
  have spent : calls ≤ message.jobId.elim 0 before := settles.few
  cases named : message.jobId with
  | none =>
      rw [named] at spent
      have same : ∑ job ∈ state.live.jobs, after job = ∑ job ∈ state.live.jobs, before job :=
        Finset.sum_congr rfl fun job _ => unnamed job (by rw [named]; exact nofun)
      simp only [Option.elim_none] at spent
      omega
  | some job =>
      rw [named] at spent
      have inside : job ∈ state.live.jobs := Queue.mem_jobs.mpr ⟨message, queued, named⟩
      have nothing : after job = 0 := (settles.ended job named).remaining_zero _
      have same : ∑ other ∈ state.live.jobs.erase job, after other =
          ∑ other ∈ state.live.jobs.erase job, before other := by
        refine Finset.sum_congr rfl fun other member => unnamed other ?_
        rw [named]
        exact fun equal => Finset.ne_of_mem_erase member (Option.some.inj equal).symm
      have beforeSum := Finset.add_sum_erase state.live.jobs before inside
      have afterSum := Finset.add_sum_erase state.live.jobs after inside
      simp only [Option.elim_some] at spent
      omega

/-- What one message settles and the rest of the queue drains. -/
theorem Settles.drains {first : List Action} {calls further : Nat}
    (settles : Settles deployment state id message replies first middle calls)
    (drains : Drains deployment middle id (fun index => replies (calls + index)) schedule later
      further)
    (queued : message ∈ state.live.messages) :
    Drains deployment state id replies (first ++ schedule) later (calls + further) where
  ran := by rw [System.run_append, settles.ran, Option.bind_some, drains.ran]
  faultFree action member :=
    (List.mem_append.mp member).elim (settles.faultFree action) (drains.faultFree action)
  answers := by
    rw [List.filterMap_append, settles.answers, drains.answers, List.range_add, List.map_append,
      List.map_map]
    rfl
  workers := drains.workers.trans settles.workers
  dead := drains.dead.trans settles.dead
  empty := drains.empty
  others job outside := by
    have unnamed : message.jobId ≠ some job := fun named =>
      outside (Queue.mem_jobs.mpr ⟨message, queued, named⟩)
    rw [drains.others job fun inside => outside ?_, settles.others job unnamed]
    rw [settles.live] at inside
    exact Queue.jobs_delete inside
  ended job inside := by
    by_cases named : message.jobId = some job
    · by_cases again : job ∈ middle.live.jobs
      · exact (settles.ended job named).trans (drains.ended job again)
      · exact (settles.ended job named).congr rfl (drains.others job again)
    · have still : job ∈ middle.live.jobs := by
        rw [settles.live]
        exact Queue.mem_jobs.mpr (Queue.holds_delete (Queue.mem_jobs.mp inside) named)
      exact (drains.ended job still).congr (settles.others job named).symm rfl
  few := settles.few_drains drains.few queued

/-- While every live message has enough receives left and the answers can be recorded, an idle
worker that is left alone for long enough and meets no fault empties the queue. It ends every job
that a live message names, changes no other job and no job that has ended, and calls its provider
at most as often as attempts are left, once for a job that has none left. -/
theorem backlog_drains (deployment : Deployment) (state : State) (id : WorkerId)
    (idle : state.workers id = .idle) (ample : Ample deployment state id)
    (replies : Nat → Worker.ScoreReply) (recordable : ∀ index, (replies index).recordable = true) :
    ∃ schedule later calls, Drains deployment state id replies schedule later calls := by
  induction size : state.live.messages.length using Nat.strong_induction_on
    generalizing state replies with
  | _ bound ih =>
      cases messages : state.live.messages with
      | nil =>
          have none : state.live.jobs = ∅ := by simp [Queue.jobs, messages]
          refine ⟨[], state, 0, rfl, nofun, rfl, rfl, rfl, messages, fun _ _ => rfl, ?_,
            Nat.zero_le _⟩
          intro job inside
          rw [none] at inside
          cases inside
      | cons message rest =>
          have queued : message ∈ state.live.messages := by
            rw [messages]
            exact List.mem_cons_self
          obtain ⟨first, middle, calls, settles⟩ :=
            @message_settles deployment state id message replies idle ample queued recordable
          have fewer : middle.live.messages.length < bound := by
            rw [settles.live, ← size]
            exact Queue.length_delete queued
          obtain ⟨schedule, later, further, drains⟩ := ih _ fewer middle
            (by rw [settles.workers]; exact idle) (settles.ample ample)
            (fun index => replies (calls + index)) (fun index => recordable (calls + index)) rfl
          exact ⟨_, _, _, settles.drains drains queued⟩

/-- A worker claims the first of two jobs and dies; a copy of its message and one that names no
job are in the queue too. -/
def piledUp : List Action :=
  deserted ++ [.createJob 2 .smallest 3 "s3://incoming/b.json".toList 0,
    .ingest 2 (.publish .delivered), .duplicate ⟨0, some 1⟩, .foreign].map fun action =>
      .handle (.pipeline action)

/-- Another worker ends both jobs with at most five calls. -/
theorem backlog_drains_piled : ∃ state,
    (system sampleDeployment).Reached System.anyStep state ∧ state.workers 0 = .stopped ∧
    state.live.messages = [⟨3, none⟩, ⟨2, some 1⟩, ⟨1, some 2⟩, ⟨0, some 1⟩] ∧
    ∃ schedule later calls, Drains sampleDeployment state 1
      (fun index => (Worker.Sequential.sampleExchanges index).reply) schedule later calls ∧
      calls ≤ 5 := by
  have ran : ((system sampleDeployment).run ⟨⟨initial 0, fun _ => 0⟩, fun _ => 0, []⟩ piledUp).map
      (fun state => (state.workers 0, state.workers 1, state.live.messages,
        state.live.messages.map state.receives,
        [1, 2].map fun job => (state.shared.jobs job).map fun row =>
          (row.status, row.attemptCount, row.accepted))) =
      some (.stopped, .idle, [⟨3, none⟩, ⟨2, some 1⟩, ⟨1, some 2⟩, ⟨0, some 1⟩], [0, 0, 0, 1],
        [some (.processing, 1, true), some (.pending, 0, true)]) := by rfl
  obtain ⟨state, path, seen⟩ := System.run_observed System.anyStep ran fun _ _ _ _ => trivial
  simp only [Prod.mk.injEq, List.map_cons, List.map_nil, List.cons.injEq, and_true] at seen
  obtain ⟨crashed, idle, messages, receives, first, second⟩ := seen
  obtain ⟨held, heldStored, heldColumns⟩ := Option.map_eq_some_iff.mp first
  obtain ⟨new, newStored, newColumns⟩ := Option.map_eq_some_iff.mp second
  simp only [Prod.mk.injEq] at heldColumns newColumns
  have heldLeft : remaining 3 state.shared.jobs 1 = 2 := by
    simp [remaining, heldStored, heldColumns, JobStatus.terminal]
  have newLeft : remaining 3 state.shared.jobs 2 = 3 := by
    simp [remaining, newStored, newColumns, JobStatus.terminal]
  have named : state.live.jobs = {1, 2} := by
    rw [Queue.jobs, messages]
    decide
  have ample : Ample sampleDeployment state 1 := by
    refine ⟨?_, ?_⟩
    · have three : (sampleDeployment.env.settings 1).maxAttempts = 3 := rfl
      have five : Redrive.maxReceiveCount = 5 := rfl
      rw [messages] at receives ⊢
      simp only [List.map_cons, List.map_nil, List.cons.injEq, and_true] at receives
      simp [receives, three, five, heldLeft, newLeft]
    · intro job inside row present _
      rw [named, Finset.mem_insert, Finset.mem_singleton] at inside
      rcases inside with rfl | rfl
      · rw [heldStored, Option.some.injEq] at present
        exact present ▸ ⟨heldColumns.2.2, by rw [heldColumns.2.1]; decide⟩
      · rw [newStored, Option.some.injEq] at present
        exact present ▸ ⟨newColumns.2.2, by rw [newColumns.2.1]; decide⟩
  obtain ⟨schedule, later, calls, drains⟩ := backlog_drains sampleDeployment state 1 idle ample
    (fun index => (Worker.Sequential.sampleExchanges index).reply) sampleExchanges_recordable
  refine ⟨state, ⟨_, ⟨0, rfl⟩, path⟩, crashed, messages, schedule, later, calls, drains, ?_⟩
  have few := drains.few
  rw [named, Finset.sum_pair (by decide)] at few
  exact few.trans (Nat.le_of_eq (congrArg₂ (· + ·) heldLeft newLeft))

end Pipeline.Shipped
end ConvoScore
