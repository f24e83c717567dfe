import ConvoScore.Demo.Tokens
import ConvoScore.Worker.Redelivery

namespace ConvoScore.Demo
open Library

/-- `consume` in one go over the rows that its transaction sees. -/
def consumeFrom (tokens : Table FailureMode Int) :
    List FailureMode → Table FailureMode Int × Option FailureMode
  | [] => (tokens, none)
  | mode :: rest =>
      match tokens mode with
      | some remaining =>
          if 0 < remaining then (Function.update tokens mode (some (remaining - 1)), some mode)
          else consumeFrom tokens rest
      | none => consumeFrom tokens rest

def consume (tokens : Table FailureMode Int) : Table FailureMode Int × Option FailureMode :=
  consumeFrom tokens FailureMode.all

/-- `FaultInjectingProvider.score` in one go, with what the inner provider would answer. -/
def scoreOnce {Answer : Type} (explanation : Text) (tokens : Table FailureMode Int)
    (answer : Answer) : Table FailureMode Int × Outcome Answer :=
  match consume tokens with
  | (next, none) => (next, .inner answer)
  | (next, some mode) => (next, injected explanation mode)

/-- The failures that a table has for the next score calls, in the order of these modes. -/
def upcomingOf (tokens : Table FailureMode Int) (modes : List FailureMode) : List FailureMode :=
  modes.flatMap fun mode => List.replicate (state tokens mode).toNat mode

def upcoming (tokens : Table FailureMode Int) : List FailureMode :=
  upcomingOf tokens FailureMode.all

variable {tokens : Table FailureMode Int} {mode : FailureMode} {modes : List FailureMode}

theorem upcomingOf_cons : upcomingOf tokens (mode :: modes) =
    List.replicate (state tokens mode).toNat mode ++ upcomingOf tokens modes := List.flatMap_cons

/-- The row of another mode has no part in what is upcoming. -/
theorem upcomingOf_update {row : Option Int} (absent : mode ∉ modes) :
    upcomingOf (Function.update tokens mode row) modes = upcomingOf tokens modes := by
  refine List.flatMap_congr fun other member => ?_
  have different : other ≠ mode := fun same => absent (same ▸ member)
  rw [state, Function.update_of_ne different, state]

/-- A mode without tokens adds nothing. -/
theorem upcomingOf_spent (spent : state tokens mode ≤ 0) :
    upcomingOf tokens (mode :: modes) = upcomingOf tokens modes := by
  rw [upcomingOf_cons, Int.toNat_of_nonpos spent, List.replicate_zero, List.nil_append]

/-- The first mode gives a token, or the other modes are tried. -/
theorem consumeFrom_cons (tokens : Table FailureMode Int) (mode : FailureMode)
    (rest : List FailureMode) :
    (∃ remaining, tokens mode = some remaining ∧ 0 < remaining ∧
      consumeFrom tokens (mode :: rest) =
        (Function.update tokens mode (some (remaining - 1)), some mode)) ∨
    state tokens mode ≤ 0 ∧ consumeFrom tokens (mode :: rest) = consumeFrom tokens rest := by
  cases found : tokens mode with
  | none => exact .inr ⟨by rw [state, found, Option.getD_none], by simp only [consumeFrom, found]⟩
  | some remaining =>
      by_cases positive : 0 < remaining
      · exact .inl ⟨remaining, rfl, positive, by simp only [consumeFrom, found, if_pos positive]⟩
      · refine .inr ⟨?_, by simp only [consumeFrom, found, if_neg positive]⟩
        rw [state, found, Option.getD_some]
        exact Int.not_lt.mp positive

/-- Modes that are not tried keep their tokens. -/
theorem consumeFrom_other (absent : mode ∉ modes) : (consumeFrom tokens modes).1 mode = tokens mode := by
  induction modes with
  | nil => rfl
  | cons first rest ih =>
      obtain ⟨different, others⟩ := not_or.mp (mt List.mem_cons.mpr absent)
      rcases consumeFrom_cons tokens first rest with ⟨remaining, _, _, taken⟩ | ⟨_, passed⟩
      · rw [taken]
        exact Function.update_of_ne different _ _
      · rw [passed]
        exact ih others

/-- A taken token is the first failure that was upcoming, and the others are still to come. -/
theorem consumeFrom_upcoming (distinct : modes.Nodup) :
    (consumeFrom tokens modes).2 = (upcomingOf tokens modes).head? ∧
      upcomingOf (consumeFrom tokens modes).1 modes = (upcomingOf tokens modes).tail := by
  induction modes with
  | nil => exact ⟨rfl, rfl⟩
  | cons mode rest ih =>
      obtain ⟨absent, others⟩ := List.nodup_cons.mp distinct
      rcases consumeFrom_cons tokens mode rest with ⟨remaining, found, positive, taken⟩ | ⟨spent, passed⟩
      · have one : remaining.toNat = (remaining - 1).toNat + 1 := by omega
        have before : upcomingOf tokens (mode :: rest) =
            mode :: (List.replicate (remaining - 1).toNat mode ++ upcomingOf tokens rest) := by
          rw [upcomingOf_cons, state, found, Option.getD_some, one, List.replicate_succ,
            List.cons_append]
        have after : upcomingOf (Function.update tokens mode (some (remaining - 1))) (mode :: rest) =
            List.replicate (remaining - 1).toNat mode ++ upcomingOf tokens rest := by
          rw [upcomingOf_cons, upcomingOf_update absent, state, Function.update_self,
            Option.getD_some]
        rw [taken, before]
        exact ⟨rfl, after⟩
      · have kept : state (consumeFrom tokens rest).1 mode ≤ 0 := by
          rw [state, consumeFrom_other absent]
          exact spent
        rw [passed, upcomingOf_spent spent, upcomingOf_spent kept]
        exact ih others

theorem consume_upcoming (tokens : Table FailureMode Int) :
    (consume tokens).2 = (upcoming tokens).head? ∧
      upcoming (consume tokens).1 = (upcoming tokens).tail :=
  consumeFrom_upcoming (by decide)

section Steps
variable {Input Answer : Type} {explanation : Text} {versions : Tokens} {client : ClientId}
  {conversation : Input}

/-- The steps of one client, when no other client steps. -/
def alone (Input Answer : Type) (explanation : Text) (client : ClientId) :
    System (Tokens × Phase Input Answer) (Call Input Answer) where
  start state := state.2 = .idle
  step state call := stepClient explanation state.1 client state.2 call

/-- Every count fits into its column. -/
def Storable (tokens : Table FailureMode Int) : Prop :=
  ∀ mode remaining, tokens mode = some remaining → storableRemaining remaining = true

/-- A count that fits into its column still does when a token has been taken. -/
theorem storable_taken {remaining : Int} (storable : storableRemaining remaining = true)
    (positive : 0 < remaining) : storableRemaining (remaining - 1) = true := by
  simp only [storableRemaining, storableInteger, Bool.and_eq_true, decide_eq_true_eq] at storable ⊢
  omega

/-- Nobody has an uncommitted row. -/
def Quiet (versions : Tokens) : Prop := versions.written = Table.empty

theorem Quiet.unwritten (quiet : Quiet versions) (mode : FailureMode) :
    versions.written mode = none := congrFun quiet mode

theorem Quiet.view (quiet : Quiet versions) : versions.view client = versions.committed := by
  funext mode
  refine Versions.view_committed fun row wrote => ?_
  rw [quiet.unwritten] at wrote
  cases wrote

theorem Quiet.commit (quiet : Quiet versions) :
    versions.commit client = ⟨versions.committed, Table.empty⟩ := by
  have released : versions.release client = Table.empty := by
    funext mode
    rw [Versions.release, quiet.unwritten]
    rfl
  rw [Versions.commit, quiet.view, released]

/-- The update of one mode takes a token if there is one. -/
theorem takeToken_quiet (client : ClientId) (quiet : Quiet versions) {remaining : Int}
    (found : versions.committed mode = some remaining) (positive : 0 < remaining)
    (storable : storableRemaining remaining = true) :
    ∃ later, takeToken versions client mode = some (later, some (remaining - 1)) ∧
      later.commit client =
        ⟨Function.update versions.committed mode (some (remaining - 1)), Table.empty⟩ := by
  let wrote : Tokens := ⟨versions.committed, Function.update Table.empty mode
    (some (client, remaining - 1))⟩
  have written : versions.write client mode (remaining - 1) = some wrote := by
    rw [Versions.write, quiet.unwritten, show versions.written = Table.empty from quiet]
    rfl
  refine ⟨wrote, ?_, ?_⟩
  · rw [takeToken, quiet.view]
    simp only [found, if_pos positive, store, storable_taken storable positive, if_true, written,
      Option.map_some]
  · have seen : wrote.view client =
        Function.update versions.committed mode (some (remaining - 1)) := by
      funext other
      by_cases same : other = mode
      · subst same
        simp [Versions.view, wrote]
      · simp [Versions.view, wrote, same, Table.empty]
    have released : wrote.release client = Table.empty := by
      funext other
      by_cases same : other = mode
      · subst same
        simp [Versions.release, wrote, Table.empty]
      · simp [Versions.release, wrote, same, Table.empty]
    rw [Versions.commit, seen, released]

/-- The update of a mode without tokens takes nothing. -/
theorem takeToken_spent (quiet : Quiet versions) (spent : state versions.committed mode ≤ 0) :
    takeToken versions client mode = some (versions, none) := by
  rw [takeToken, quiet.view]
  cases found : versions.committed mode with
  | none => rfl
  | some remaining =>
      rw [state, found, Option.getD_some] at spent
      exact if_neg (Int.not_lt.mpr spent)

/-- The updates of `consume` take what it takes in one go. -/
theorem check_steps (quiet : Quiet versions) (storable : Storable versions.committed)
    (modes : List FailureMode) :
    ∃ checks later, (alone Input Answer explanation client).run
        (versions, .checking conversation modes) checks =
      some (later, .consumed conversation (consumeFrom versions.committed modes).2) ∧
      later.commit client = ⟨(consumeFrom versions.committed modes).1, Table.empty⟩ := by
  induction modes with
  | nil => exact ⟨[.check], versions, rfl, quiet.commit⟩
  | cons mode rest ih =>
      rcases consumeFrom_cons versions.committed mode rest with
        ⟨remaining, found, positive, taken⟩ | ⟨spent, passed⟩
      · obtain ⟨later, took, committed⟩ :=
          takeToken_quiet client quiet found positive (storable mode remaining found)
        have stepped : (alone Input Answer explanation client).step
            (versions, .checking conversation (mode :: rest)) .check =
          some (later, .consumed conversation (some mode)) := by
          simp only [alone, stepClient, took, Option.map_some]
        refine ⟨[.check], later, ?_, ?_⟩
        · rw [System.run, stepped, taken]
          rfl
        · rw [committed, taken]
      · obtain ⟨checks, later, ran, committed⟩ := ih
        have stepped : (alone Input Answer explanation client).step
            (versions, .checking conversation (mode :: rest)) .check =
          some (versions, .checking conversation rest) := by
          simp only [alone, stepClient, takeToken_spent quiet spent, Option.map_some]
        refine ⟨.check :: checks, later, ?_, ?_⟩
        · rw [System.run, stepped, passed]
          exact ran
        · rw [passed]
          exact committed

/-- A call of `score` in one go does what its steps do when no other client steps. -/
theorem scoreOnce_steps (quiet : Quiet versions) (storable : Storable versions.committed)
    {phase : Phase Input Answer} (free : phase.free = true) (conversation : Input)
    (answer : Answer) :
    ∃ schedule, (alone Input Answer explanation client).run (versions, phase) schedule =
      some (⟨(scoreOnce explanation versions.committed answer).1, Table.empty⟩,
        .returned (scoreOnce explanation versions.committed answer).2) := by
  obtain ⟨checks, later, ran, committed⟩ := check_steps quiet storable FailureMode.all
  have opened : (alone Input Answer explanation client).step (versions, phase)
      (.score conversation) = some (versions, .opening conversation) := by
    simp only [alone, stepClient, free, if_true]
  have began : ∀ rest, (alone Input Answer explanation client).run (versions, phase)
      (.score conversation :: .connect :: (checks ++ rest)) =
        (alone Input Answer explanation client).run
          (later, .consumed conversation (consume versions.committed).2) rest := by
    intro rest
    rw [System.run, opened, Option.bind_some, System.run]
    show (alone Input Answer explanation client).run
      (versions, .checking conversation FailureMode.all) (checks ++ rest) = _
    rw [System.run_append, ran]
    rfl
  rcases taken : consume versions.committed with ⟨next, mode⟩
  have after : (consumeFrom versions.committed FailureMode.all).1 = next :=
    congrArg Prod.fst taken
  rw [after] at committed
  rw [taken] at began
  cases mode with
  | none =>
      refine ⟨.score conversation :: .connect :: (checks ++ [.commit, .answer answer]), ?_⟩
      rw [began, scoreOnce, taken, System.run, ← committed]
      rfl
  | some mode =>
      refine ⟨.score conversation :: .connect :: (checks ++ [.commit, .raise]), ?_⟩
      rw [began, scoreOnce, taken, System.run, ← committed]
      rfl

end Steps

open Worker Worker.Sequential

/-- The worker gets what the wrapper returns or raises. -/
inductive Answers : Outcome ScoringOutcome → ScoreReply → Prop
  | inner (outcome : ScoringOutcome) : Answers (.inner outcome) (.outcome outcome)
  | raised (error : LLMError) (jitter : Rat) : Answers (.raised error) (.error error jitter)

/-- Each delivery is answered by one call of the wrapper; its inner provider never fails, and no
other job takes a token away. -/
structure Drill (explanation : Text) (tokens : Nat → Table FailureMode Int)
    (inner : Nat → ScoringOutcome) (exchanges : Nat → Exchange) : Prop where
  left : ∀ index, tokens (index + 1) = (scoreOnce explanation (tokens index) (inner index)).1
  answers : ∀ index,
    Answers (scoreOnce explanation (tokens index) (inner index)).2 (exchanges index).reply

/-- The timeouts and the server errors that are armed. -/
def transient (tokens : Table FailureMode Int) : Nat :=
  (state tokens .timeout).toNat + (state tokens .http500).toNat

def malformed (tokens : Table FailureMode Int) : Nat := (state tokens .malformed).toNat

/-- The job completes in spite of the failures. -/
def Absorbed (maxAttempts transient malformed : Nat) : Prop :=
  transient < maxAttempts ∧ (malformed = 0 ∨ transient = 0 ∧ malformed = 1 ∧ 2 ≤ maxAttempts)

instance (maxAttempts transient malformed : Nat) :
    Decidable (Absorbed maxAttempts transient malformed) :=
  inferInstanceAs (Decidable (_ ∧ _))

/-- An invalid response is only retried on the first attempt. -/
def drillAttempts (maxAttempts transient malformed : Nat) : Nat :=
  if maxAttempts ≤ transient then maxAttempts
  else if malformed = 0 then transient + 1
  else if transient = 0 ∧ 2 ≤ maxAttempts then 2
  else transient + 1

variable {explanation : Text} {tokens : Nat → Table FailureMode Int}
  {inner : Nat → ScoringOutcome} {exchanges : Nat → Exchange} {limits : Limits} {jobs : Jobs}
  {job : Uuid}

theorem scoreOnce_left {Answer : Type} (tokens : Table FailureMode Int) (answer : Answer) :
    (scoreOnce explanation tokens answer).1 = (consume tokens).1 := by
  unfold scoreOnce
  split <;> simp [*]

/-- Each call takes the first failure away that is upcoming. -/
theorem Drill.upcoming_drop (drill : Drill explanation tokens inner exchanges) (index : Nat) :
    upcoming (tokens index) = (upcoming (tokens 0)).drop index := by
  induction index with
  | zero => rfl
  | succ index ih =>
      rw [drill.left, scoreOnce_left, (consume_upcoming _).2, ih, List.tail_drop]

theorem Drill.consumed (drill : Drill explanation tokens inner exchanges) (index : Nat) :
    (consume (tokens index)).2 = (upcoming (tokens 0))[index]? := by
  rw [(consume_upcoming _).1, drill.upcoming_drop, List.head?_drop]

/-- A call without an upcoming failure is answered by the inner provider. -/
theorem Drill.reply_inner (drill : Drill explanation tokens inner exchanges) {index : Nat}
    (nothing : (upcoming (tokens 0)).length ≤ index) :
    (exchanges index).reply = .outcome (inner index) := by
  have consumed := drill.consumed index
  rw [List.getElem?_eq_none nothing] at consumed
  have answers := drill.answers index
  simp only [scoreOnce] at answers
  split at answers
  · generalize (exchanges index).reply = reply at answers
    cases answers
    rfl
  · rename_i next mode taken
    rw [taken] at consumed
    cases consumed

/-- An upcoming failure is what the worker gets at its place. -/
theorem Drill.reply_injected (drill : Drill explanation tokens inner exchanges) {index : Nat}
    {mode : FailureMode} (next : (upcoming (tokens 0))[index]? = some mode) :
    ∃ error jitter, (exchanges index).reply = .error error jitter ∧
      injected explanation mode = (.raised error : Outcome ScoringOutcome) := by
  have consumed := drill.consumed index
  rw [next] at consumed
  have answers := drill.answers index
  simp only [scoreOnce] at answers
  split at answers
  · rename_i later taken
    rw [taken] at consumed
    cases consumed
  · rename_i later found taken
    rw [taken, Option.some.injEq] at consumed
    obtain rfl : found = mode := consumed
    generalize (exchanges index).reply = reply at answers
    generalize same : (injected explanation found : Outcome ScoringOutcome) = outcome at answers
    cases answers with
    | inner outcome => cases found <;> cases same
    | raised error jitter => exact ⟨error, jitter, rfl, rfl⟩

/-- The simulated failures can always be recorded. -/
theorem Drill.recordable (drill : Drill explanation tokens inner exchanges)
    (answers : ∀ index, (ScoreReply.outcome (inner index)).recordable = true)
    (legible : storableText explanation = true) (index : Nat) :
    (exchanges index).reply.recordable = true := by
  by_cases nothing : (upcoming (tokens 0)).length ≤ index
  · rw [drill.reply_inner nothing]
    exact answers index
  · obtain ⟨mode, next⟩ : ∃ mode, (upcoming (tokens 0))[index]? = some mode :=
      ⟨_, List.getElem?_eq_getElem (Nat.not_le.mp nothing)⟩
    obtain ⟨error, jitter, reply, raised⟩ := drill.reply_injected next
    rw [reply]
    cases mode with
    | timeout | http500 =>
        cases raised
        rfl
    | malformed =>
        rw [injected, malformedResponse_rejected] at raised
        cases raised
        refine storableText_truncate ?_
        rw [LLMError.message, storableText, List.all_append, Bool.and_eq_true]
        exact ⟨by decide, legible⟩

section Order
variable {armed : Table FailureMode Int} {index : Nat}

/-- Timeouts come before server errors, and both before malformed responses. -/
theorem upcoming_eq (armed : Table FailureMode Int) :
    upcoming armed = (List.replicate (state armed .timeout).toNat .timeout ++
      List.replicate (state armed .http500).toNat .http500) ++
        List.replicate (malformed armed) .malformed := by
  simp [upcoming, upcomingOf, FailureMode.all, malformed]

theorem upcoming_length (armed : Table FailureMode Int) :
    (upcoming armed).length = transient armed + malformed armed := by
  simp [upcoming_eq, transient, Nat.add_assoc]

theorem upcoming_transient (early : index < transient armed) :
    ∃ mode, (upcoming armed)[index]? = some mode ∧ mode ≠ .malformed := by
  have inside : index < (List.replicate (state armed .timeout).toNat FailureMode.timeout ++
      List.replicate (state armed .http500).toNat FailureMode.http500).length := by
    simpa [transient] using early
  rw [upcoming_eq, List.getElem?_append_left inside, List.getElem?_eq_getElem inside]
  refine ⟨_, rfl, ?_⟩
  have member := List.getElem_mem inside
  rcases List.mem_append.mp member with timeout | error
  · rw [List.eq_of_mem_replicate timeout]
    decide
  · rw [List.eq_of_mem_replicate error]
    decide

theorem upcoming_malformed (late : transient armed ≤ index)
    (inside : index < transient armed + malformed armed) :
    (upcoming armed)[index]? = some .malformed := by
  have before : (List.replicate (state armed .timeout).toNat FailureMode.timeout ++
      List.replicate (state armed .http500).toNat FailureMode.http500).length =
        transient armed := by
    simp [transient]
  rw [upcoming_eq, List.getElem?_append_right (before ▸ late), before, List.getElem?_replicate,
    if_pos (by omega)]

end Order

/-- A simulated timeout or server error is retried until the cap is reached. -/
theorem Drill.retried_transient (limits : Limits)
    (drill : Drill explanation tokens inner exchanges) {index : Nat} (early : index < transient (tokens 0)) (attempt : Nat) :
    retried limits attempt (exchanges index).reply = decide (attempt < limits.maxAttempts) ∧
      ∃ error jitter, (exchanges index).reply = .error error jitter ∧ error.isTransient = true := by
  obtain ⟨mode, next, transient⟩ := upcoming_transient early
  obtain ⟨error, jitter, reply, raised⟩ := drill.reply_injected next
  have kind : ∃ message errorType, error = .transient message errorType := by
    cases mode with
    | timeout | http500 =>
        cases raised
        exact ⟨_, _, rfl⟩
    | malformed => exact absurd rfl transient
  obtain ⟨message, errorType, rfl⟩ := kind
  rw [reply]
  refine ⟨?_, _, _, rfl, rfl⟩
  by_cases below : attempt < limits.maxAttempts
  · simp [retried, decideRetry, below, Nat.not_le.mpr below]
  · simp [retried, decideRetry, below, Nat.not_lt.mp below]

/-- A simulated malformed response is retried on the first attempt only. -/
theorem Drill.retried_malformed (limits : Limits)
    (drill : Drill explanation tokens inner exchanges) {index : Nat} (late : transient (tokens 0) ≤ index)
    (inside : index < transient (tokens 0) + malformed (tokens 0)) (attempt : Nat) :
    retried limits attempt (exchanges index).reply =
        decide (attempt < min 2 limits.maxAttempts) ∧
      ∃ message jitter, (exchanges index).reply = .error (.invalidResponse message) jitter := by
  obtain ⟨error, jitter, reply, raised⟩ := drill.reply_injected (upcoming_malformed late inside)
  rw [injected, malformedResponse_rejected] at raised
  cases raised
  rw [reply]
  exact ⟨rfl, _, _, rfl⟩

/-- Absorbed failures use one attempt each, and one more attempt completes the job. -/
theorem drillAttempts_absorbed {maxAttempts transient malformed : Nat}
    (absorbed : Absorbed maxAttempts transient malformed) :
    drillAttempts maxAttempts transient malformed = transient + malformed + 1 := by
  unfold Absorbed at absorbed
  unfold drillAttempts
  split
  · omega
  · split
    · omega
    · split <;> omega

/-- Otherwise the cap is reached or the last attempt meets a malformed response. -/
theorem drillAttempts_failed {maxAttempts transient malformed last : Nat}
    (failed : ¬ Absorbed maxAttempts transient malformed)
    (ended : last + 1 = drillAttempts maxAttempts transient malformed) :
    (maxAttempts ≤ transient → last < transient) ∧
      (¬ maxAttempts ≤ transient → transient ≤ last ∧ last < transient + malformed) := by
  unfold Absorbed at failed
  unfold drillAttempts at ended
  split at ended
  · omega
  · split at ended
    · omega
    · split at ended <;> omega

theorem drillAttempts_pos {maxAttempts : Nat} (positive : 1 ≤ maxAttempts)
    (transient malformed : Nat) :
    1 ≤ drillAttempts maxAttempts transient malformed := by
  unfold drillAttempts
  split
  · exact positive
  · split
    · omega
    · split <;> omega

/-- The delivery that ends a drill is the first one whose answer is not retried. -/
theorem Drill.ends (drill : Drill explanation tokens inner exchanges)
    (positive : 1 ≤ limits.maxAttempts) {last : Nat} (ended : last + 1 =
      drillAttempts limits.maxAttempts (transient (tokens 0)) (malformed (tokens 0))) :
    last < limits.maxAttempts ∧
      (∀ index < last, retried limits (index + 1) (exchanges index).reply = true) ∧
      retried limits (last + 1) (exchanges last).reply = false := by
  have simulated : ∀ index, index < transient (tokens 0) →
      retried limits (index + 1) (exchanges index).reply = decide (index + 1 < limits.maxAttempts) :=
    fun index early => (drill.retried_transient limits early (index + 1)).1
  have invalid : ∀ index, transient (tokens 0) ≤ index →
      index < transient (tokens 0) + malformed (tokens 0) →
      retried limits (index + 1) (exchanges index).reply =
        decide (index + 1 < min 2 limits.maxAttempts) :=
    fun index late inside => (drill.retried_malformed limits late inside (index + 1)).1
  have answered : ∀ index, transient (tokens 0) + malformed (tokens 0) ≤ index →
      retried limits (index + 1) (exchanges index).reply = false := by
    intro index past
    rw [drill.reply_inner (by rw [upcoming_length]; exact past)]
    rfl
  unfold drillAttempts at ended
  split at ended
  · -- The armed transient failures reach the cap.
    refine ⟨by omega, fun index early => ?_, ?_⟩
    · rw [simulated index (by omega)]
      exact decide_eq_true (by omega)
    · rw [simulated last (by omega)]
      exact decide_eq_false (by omega)
  · split at ended
    · -- The attempt after the transient failures meets the inner provider.
      refine ⟨by omega, fun index early => ?_, answered last (by omega)⟩
      rw [simulated index (by omega)]
      exact decide_eq_true (by omega)
    · split at ended
      · -- The first response is malformed and gets its second chance.
        refine ⟨by omega, fun index early => ?_, ?_⟩
        · rw [invalid index (by omega) (by omega)]
          exact decide_eq_true (by omega)
        · by_cases single : malformed (tokens 0) = 1
          · exact answered last (by omega)
          · rw [invalid last (by omega) (by omega)]
            exact decide_eq_false (by omega)
      · -- A malformed response that is not the first one, or the only one, ends the job.
        refine ⟨by omega, fun index early => ?_, ?_⟩
        · rw [simulated index (by omega)]
          exact decide_eq_true (by omega)
        · rw [invalid last (by omega) (by omega)]
          exact decide_eq_false (by omega)

/-- How a drill ends is decided by what was armed: the job completes exactly when the failures are
absorbed, and otherwise blames the cap or the response; each attempt used one failure up. The inner
provider always answers, with scores that can be recorded. -/
theorem drill_ends (positive : 1 ≤ limits.maxAttempts)
    (capped : limits.maxAttempts < integerBound) (fresh : Waiting jobs job 0)
    (stored : Checked.Stored jobs job) (drill : Drill explanation tokens inner exchanges)
    (recordable : ∀ index, (ScoreReply.outcome (inner index)).recordable = true)
    (legible : storableText explanation = true) :
    let progress := Checked.redeliver limits jobs job exchanges limits.maxAttempts
    let maxAttempts := limits.maxAttempts
    let transients := transient (tokens 0)
    let malformeds := malformed (tokens 0)
    ∃ final, progress.jobs job = some final ∧ progress.queued = false ∧
      final.attemptCount = drillAttempts maxAttempts transients malformeds ∧
      progress.calls = final.attemptCount ∧
      (final.status = .completed ↔ Absorbed maxAttempts transients malformeds) ∧
      (Absorbed maxAttempts transients malformeds →
        final.Stores (inner (transients + malformeds)) ∧
          final.attemptCount = transients + malformeds + 1) ∧
      (¬ Absorbed maxAttempts transients malformeds → final.status = .failed ∧
        final.lastErrorType = some (if maxAttempts ≤ transients then .maxAttemptsExhausted
          else .invalidLlmResponse)) ∧
      upcoming (tokens progress.calls) = (upcoming (tokens 0)).drop final.attemptCount := by
  intro progress maxAttempts transients malformeds
  have unchecked : progress = redeliver limits jobs job exchanges limits.maxAttempts :=
    (Checked.redeliver_recorded positive capped fresh stored fun index _ =>
      drill.recordable recordable legible index).1
  rw [unchecked]
  obtain ⟨last, ended⟩ := Nat.exists_eq_add_of_le'
    (drillAttempts_pos positive transients malformeds)
  obtain ⟨within, again, stops⟩ := drill.ends positive ended.symm
  obtain ⟨more, enough⟩ := Nat.exists_eq_add_of_le (Nat.succ_le_of_lt within)
  obtain ⟨queued, calls, final, present, attempts, verdict⟩ :=
    redeliver_at fresh within again stops more
  rw [← Nat.succ_eq_add_one, ← enough] at queued calls present
  have counted : final.attemptCount = drillAttempts maxAttempts transients malformeds :=
    attempts.trans ended.symm
  have left : upcoming (tokens (last + 1)) = (upcoming (tokens 0)).drop final.attemptCount := by
    rw [drill.upcoming_drop, attempts]
  rw [calls]
  refine ⟨final, present, queued, counted, attempts.symm, ?_⟩
  by_cases absorbed : Absorbed maxAttempts transients malformeds
  · have each := drillAttempts_absorbed absorbed
    have all : last = transients + malformeds := Nat.succ.inj (ended.symm.trans each)
    rw [drill.reply_inner (by rw [upcoming_length]; exact all.ge)] at verdict
    cases verdict with
    | completed status stores =>
        refine ⟨iff_of_true status absorbed, fun _ => ⟨all ▸ stores, counted.trans each⟩, ?_, left⟩
        exact fun failed => absurd absorbed failed
  · obtain ⟨capped, invalid⟩ := drillAttempts_failed absorbed ended.symm
    have blamed : final.status = .failed ∧
        final.lastErrorType = some (if maxAttempts ≤ transients then .maxAttemptsExhausted
          else .invalidLlmResponse) := by
      by_cases exhausted : maxAttempts ≤ transients
      · obtain ⟨_, error, jitter, reply, kind⟩ :=
          drill.retried_transient limits (capped exhausted) last
        rw [reply] at verdict
        cases verdict with
        | failed status _ exhaustion => exact ⟨status, by rw [if_pos exhausted, (exhaustion kind).1]⟩
      · obtain ⟨late, inside⟩ := invalid exhausted
        obtain ⟨_, message, jitter, reply⟩ :=
          drill.retried_malformed limits late inside last
        rw [reply] at verdict
        cases verdict with
        | failed status _ _ named => exact ⟨status, by rw [if_neg exhausted, named rfl]; rfl⟩
    refine ⟨iff_of_false ?_ absorbed, fun held => absurd held absorbed, fun _ => blamed, left⟩
    rw [blamed.1]
    decide

/-- The tokens that are left after each call. -/
def drillTokens (armed : Table FailureMode Int) : Nat → Table FailureMode Int
  | 0 => armed
  | index + 1 => (consume (drillTokens armed index)).1

/-- Every inner answer is the calm one. -/
def drillExchange (armed : Table FailureMode Int) (index : Nat) : Exchange where
  claimedAt := index
  reply :=
    match (scoreOnce [] (drillTokens armed index) ScoringOutcome.calm).2 with
    | .inner outcome => .outcome outcome
    | .raised error => .error error 0
    | .unreachable => .outcome .calm
  recordedAt := index

/-- A drill can be held with any tokens. -/
theorem drill_held (armed : Table FailureMode Int) :
    Drill [] (drillTokens armed) (fun _ => .calm) (drillExchange armed) where
  left index := (scoreOnce_left _ _).symm
  answers index := by
    simp only [drillExchange, scoreOnce]
    split
    · exact .inner .calm
    · rename_i mode _
      cases mode <;> exact .raised _ 0

/-- Four server errors exhaust three attempts, and one of them is left. -/
theorem drill_ends_four :
    let armed : Table FailureMode Int := Function.update Table.empty .http500 (some 4)
    let progress := Checked.redeliver ⟨3, 90, 5, 60⟩ sampleJobs 1 (drillExchange armed) 3
    ∃ final, progress.jobs 1 = some final ∧ final.attemptCount = 3 ∧ final.status = .failed ∧
      final.lastErrorType = some .maxAttemptsExhausted ∧
      upcoming (drillTokens armed progress.calls) = [.http500] := by
  intro armed progress
  have fresh : Waiting sampleJobs 1 0 := waiting_createJob (Function.update_self ..)
  obtain ⟨final, present, _, attempts, _, _, _, failed, left⟩ :=
    @drill_ends _ _ _ _ ⟨3, 90, 5, 60⟩ _ _ (by decide) (by decide) fresh Checked.sampleJobs_stored
      (drill_held armed) (fun _ => by decide) rfl
  have lost : ¬ Absorbed 3 (transient armed) (malformed armed) := by decide
  obtain ⟨status, blamed⟩ := failed lost
  subst progress
  dsimp only at present left ⊢
  refine ⟨final, present, attempts, status, blamed, ?_⟩
  rw [left, attempts]
  rfl

end ConvoScore.Demo
