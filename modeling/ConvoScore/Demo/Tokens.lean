import ConvoScore.Library.System
import ConvoScore.Library.Versions
import ConvoScore.Repository.Columns
import ConvoScore.Scoring.Provider

namespace ConvoScore
open Library

/-- The ways to make the scoring provider fail on purpose. -/
inductive FailureMode
  | timeout
  | http500
  | malformed
  deriving DecidableEq, Repr

/-- An enumeration is iterated in the order of its members. -/
def FailureMode.all : List FailureMode := [.timeout, .http500, .malformed]

def Sentiment.ofValue (text : Text) : Option Sentiment :=
  [Sentiment.positive, .neutral, .negative].find? fun sentiment => sentiment.value = text

/-- A raw result is a dictionary with the three fields of the contract. -/
structure RawResult where
  sentiment : Text
  riskScore : Int
  rationale : Text

/-- `ScoringResult.model_validate` of such a dictionary. -/
def ScoringResult.modelValidate (raw : RawResult) : Option ScoringResult :=
  match Sentiment.ofValue raw.sentiment with
  | some sentiment =>
      if valid : (0 ≤ raw.riskScore ∧ raw.riskScore ≤ 100) ∧
          1 ≤ raw.rationale.length ∧ raw.rationale.length ≤ rationaleMaxChars then
        some ⟨sentiment, raw.riskScore, raw.rationale, valid.1.1, valid.1.2, valid.2.1, valid.2.2⟩
      else none
  | none => none

namespace Demo

/-- The sentiment is none of the three, and the score is out of its range. -/
def malformedResponse : RawResult where
  sentiment := "furious".toList
  riskScore := 250
  rationale := "Deliberately malformed response, injected for the demo.".toList

theorem malformedResponse_rejected : ScoringResult.modelValidate malformedResponse = none := by rfl

/-- A client is a worker or a request to the demo endpoints; it has one session at a time. -/
abbrev ClientId := Nat

/-- The rows of `demo_failure_tokens` store how many tokens remain for a mode. -/
abbrev Tokens := Versions ClientId FailureMode Int

/-- The column is an `Integer`, and `ck_demo_failure_tokens_remaining` keeps it from going
below zero. -/
def storableRemaining (remaining : Int) : Bool :=
  decide (0 ≤ remaining) && storableInteger remaining

/-- A statement waits for the lock of its row, and it raises when the table rejects the row. -/
def store (tokens : Tokens) (client : ClientId) (mode : FailureMode) (remaining : Int) :
    Option Tokens :=
  if storableRemaining remaining then tokens.write client mode remaining else none

/-- The `INSERT` of `arm` replaces the row on a conflict. -/
def arm (tokens : Tokens) (client : ClientId) (mode : FailureMode) (count : Int) : Option Tokens :=
  store tokens client mode count

/-- The `UPDATE` of `clear` is applied to the rows that its snapshot shows. -/
def clearable (tokens : Tokens) (client : ClientId) : List FailureMode :=
  FailureMode.all.filter fun mode => (tokens.view client mode).isSome

/-- `state` shows zero for a mode without a row. -/
def state (view : Table FailureMode Int) (mode : FailureMode) : Int := (view mode).getD 0

/-- One `UPDATE` of `consume`; it returns what remains if it took a token. -/
def takeToken (tokens : Tokens) (client : ClientId) (mode : FailureMode) :
    Option (Tokens × Option Int) :=
  match tokens.view client mode with
  | some remaining =>
      if 0 < remaining then
        (store tokens client mode (remaining - 1)).map fun next => (next, some (remaining - 1))
      else some (tokens, none)
  | none => some (tokens, none)

/-- A score call returns the answer of the inner provider or fails in the wrapper. -/
inductive Outcome (Answer : Type)
  | inner (answer : Answer)
  | raised (error : LLMError)
  | unreachable
  deriving DecidableEq

/-- What `FaultInjectingProvider.score` does for a mode; the text explains the rejected response. -/
def injected {Answer : Type} (explanation : Text) : FailureMode → Outcome Answer
  | .timeout => .raised (.transient "simulated provider timeout (demo mode)".toList .timeout)
  | .http500 => .raised (.transient
      "simulated provider 500 Internal Server Error (demo mode)".toList .serverError)
  | .malformed =>
      match ScoringResult.modelValidate malformedResponse with
      | none => .raised (.invalidResponse
          ("simulated malformed response (demo mode): ".toList ++ explanation))
      | some _ => .unreachable

/-- A phase is a place in `score`, in `arm` or in `clear`. -/
inductive Phase (Input Answer : Type)
  | idle
  | opening (conversation : Input)
  | checking (conversation : Input) (modes : List FailureMode)
  | consumed (conversation : Input) (mode : Option FailureMode)
  | passing (conversation : Input)
  | raising (mode : FailureMode)
  | returned (outcome : Outcome Answer)
  | arming (mode : FailureMode) (count : Int)
  | armed (mode : FailureMode) (count : Int)
  | clearing (modes : List FailureMode)

/-- A client starts a call when it has none. -/
def Phase.free {Input Answer : Type} : Phase Input Answer → Bool
  | .idle | .returned _ => true
  | _ => false

inductive Call (Input Answer : Type)
  | score (conversation : Input)
  | connect
  | check
  | commit
  | fail
  | answer (answer : Answer)
  | raise
  | arm (mode : FailureMode) (count : Int)
  | write
  | clear
  | reset (mode : FailureMode)
  | crash

/-- One step of a client.
`fail` is an exception out of the session; the answer is the one of the inner provider. -/
def stepClient {Input Answer : Type} (explanation : Text) (tokens : Tokens) (client : ClientId) :
    Phase Input Answer → Call Input Answer → Option (Tokens × Phase Input Answer)
  | phase, .score conversation =>
      if phase.free then some (tokens, .opening conversation) else none
  | .opening conversation, .connect => some (tokens, .checking conversation FailureMode.all)
  | .checking conversation (mode :: rest), .check =>
      (takeToken tokens client mode).map fun taken =>
        match taken.2 with
        | some _ => (taken.1, .consumed conversation (some mode))
        | none => (taken.1, .checking conversation rest)
  | .checking conversation [], .check => some (tokens, .consumed conversation none)
  | .consumed conversation none, .commit => some (tokens.commit client, .passing conversation)
  | .consumed _ (some mode), .commit => some (tokens.commit client, .raising mode)
  | .opening conversation, .fail => some (tokens, .passing conversation)
  | .checking conversation _, .fail => some (tokens.rollback client, .passing conversation)
  | .consumed conversation _, .fail => some (tokens.rollback client, .passing conversation)
  | .passing _, .answer answer => some (tokens, .returned (.inner answer))
  | .raising mode, .raise => some (tokens, .returned (injected explanation mode))
  | phase, .arm mode count => if phase.free then some (tokens, .arming mode count) else none
  | .arming mode count, .write =>
      (arm tokens client mode count).map fun next => (next, .armed mode count)
  | .armed _ _, .commit => some (tokens.commit client, .idle)
  | phase, .clear => if phase.free then some (tokens, .clearing (clearable tokens client)) else none
  | .clearing modes, .reset mode =>
      if mode ∈ modes then
        (store tokens client mode 0).map fun next => (next, .clearing (modes.erase mode))
      else none
  | .clearing [], .commit => some (tokens.commit client, .idle)
  | .arming _ _, .fail => some (tokens.rollback client, .idle)
  | .armed _ _, .fail => some (tokens.rollback client, .idle)
  | .clearing _, .fail => some (tokens.rollback client, .idle)
  | _, .crash => some (tokens.rollback client, .idle)
  | _, _ => none

/-- A move is what one step of a client does, with the fact that made it possible. -/
inductive Move {Input Answer : Type} (explanation : Text) (tokens : Tokens) (client : ClientId) :
    Phase Input Answer → Call Input Answer → Tokens → Phase Input Answer → Prop
  | scored {phase : Phase Input Answer} {conversation : Input} (free : phase.free = true) :
      Move explanation tokens client phase (.score conversation) tokens (.opening conversation)
  | connected {conversation : Input} :
      Move explanation tokens client (.opening conversation) .connect tokens
        (.checking conversation FailureMode.all)
  | took {conversation : Input} {mode : FailureMode} {rest : List FailureMode} {remaining : Int}
      {next : Tokens} (found : tokens.view client mode = some remaining) (positive : 0 < remaining)
      (wrote : tokens.write client mode (remaining - 1) = some next) :
      Move explanation tokens client (.checking conversation (mode :: rest)) .check next
        (.consumed conversation (some mode))
  | unarmed {conversation : Input} {mode : FailureMode} {rest : List FailureMode}
      (nothing : state (tokens.view client) mode ≤ 0) :
      Move explanation tokens client (.checking conversation (mode :: rest)) .check tokens
        (.checking conversation rest)
  | exhausted {conversation : Input} :
      Move explanation tokens client (.checking conversation []) .check tokens
        (.consumed conversation none)
  | committedNone {conversation : Input} :
      Move explanation tokens client (.consumed conversation none) .commit (tokens.commit client)
        (.passing conversation)
  | committedTaken {conversation : Input} {mode : FailureMode} :
      Move explanation tokens client (.consumed conversation (some mode)) .commit
        (tokens.commit client) (.raising mode)
  | unopened {conversation : Input} :
      Move explanation tokens client (.opening conversation) .fail tokens (.passing conversation)
  | degraded {phase : Phase Input Answer} {conversation : Input}
      (opened : (∃ modes, phase = .checking conversation modes) ∨
        ∃ mode, phase = .consumed conversation mode) :
      Move explanation tokens client phase .fail (tokens.rollback client) (.passing conversation)
  | answered {conversation : Input} {answer : Answer} :
      Move explanation tokens client (.passing conversation) (.answer answer) tokens
        (.returned (.inner answer))
  | raised {mode : FailureMode} :
      Move explanation tokens client (.raising mode) .raise tokens
        (.returned (injected explanation mode))
  | arming {phase : Phase Input Answer} {mode : FailureMode} {count : Int}
      (free : phase.free = true) :
      Move explanation tokens client phase (.arm mode count) tokens (.arming mode count)
  | armed {mode : FailureMode} {count : Int} {next : Tokens} (nonnegative : 0 ≤ count)
      (wrote : tokens.write client mode count = some next) :
      Move explanation tokens client (.arming mode count) .write next (.armed mode count)
  | armCommitted {mode : FailureMode} {count : Int} :
      Move explanation tokens client (.armed mode count) .commit (tokens.commit client) .idle
  | clearing {phase : Phase Input Answer} (free : phase.free = true) :
      Move explanation tokens client phase .clear tokens (.clearing (clearable tokens client))
  | cleared {modes : List FailureMode} {mode : FailureMode} {next : Tokens} (member : mode ∈ modes)
      (wrote : tokens.write client mode 0 = some next) :
      Move explanation tokens client (.clearing modes) (.reset mode) next
        (.clearing (modes.erase mode))
  | clearCommitted :
      Move explanation tokens client (.clearing []) .commit (tokens.commit client) .idle
  | aborted {phase : Phase Input Answer}
      (opened : (∃ mode count, phase = .arming mode count ∨ phase = .armed mode count) ∨
        ∃ modes, phase = .clearing modes) :
      Move explanation tokens client phase .fail (tokens.rollback client) .idle
  | crashed {phase : Phase Input Answer} :
      Move explanation tokens client phase .crash (tokens.rollback client) .idle

structure State (Input Answer : Type) where
  tokens : Tokens
  phases : ClientId → Phase Input Answer

structure Action (Input Answer : Type) where
  client : ClientId
  call : Call Input Answer

variable {Input Answer : Type}

def step (explanation : Text) (state : State Input Answer) (action : Action Input Answer) :
    Option (State Input Answer) :=
  (stepClient explanation state.tokens action.client (state.phases action.client) action.call).map
    fun next => ⟨next.1, Function.update state.phases action.client next.2⟩

/-- The migration creates an empty table. -/
def initial : State Input Answer := ⟨Versions.empty, fun _ => .idle⟩

def system (explanation : Text) : System (State Input Answer) (Action Input Answer) where
  start state := state = initial
  step := step explanation

variable {explanation : Text} {tokens next : Tokens} {client : ClientId} {mode : FailureMode}
  {remaining : Int} {phase after : Phase Input Answer} {call : Call Input Answer}

/-- What a statement stores is not negative. -/
theorem store_eq (stored : store tokens client mode remaining = some next) :
    0 ≤ remaining ∧ tokens.write client mode remaining = some next := by
  unfold store at stored
  split at stored
  · rename_i storable
    simp only [storableRemaining, Bool.and_eq_true, decide_eq_true_eq] at storable
    exact ⟨storable.1, stored⟩
  · cases stored

/-- `consume` takes a token, or it finds none. -/
theorem takeToken_eq {claimed : Option Int}
    (taken : takeToken tokens client mode = some (next, claimed)) :
    (claimed = none ∧ next = tokens ∧ state (tokens.view client) mode ≤ 0) ∨
      ∃ remaining, claimed = some (remaining - 1) ∧ tokens.view client mode = some remaining ∧
        0 < remaining ∧ tokens.write client mode (remaining - 1) = some next := by
  unfold takeToken at taken
  split at taken
  · rename_i remaining found
    split at taken
    · rename_i positive
      obtain ⟨later, stored, equal⟩ := Option.map_eq_some_iff.mp taken
      cases equal
      exact .inr ⟨remaining, rfl, found, positive, (store_eq stored).2⟩
    · rename_i spent
      cases taken
      refine .inl ⟨rfl, rfl, ?_⟩
      rw [state, found, Option.getD_some]
      exact Int.not_lt.mp spent
  · rename_i absent
    cases taken
    refine .inl ⟨rfl, rfl, ?_⟩
    rw [state, absent, Option.getD_none]

/-- Every step of a client is one of the moves. -/
theorem stepClient_move
    (stepped : stepClient explanation tokens client phase call = some (next, after)) :
    Move explanation tokens client phase call next after := by
  unfold stepClient at stepped
  -- one case for each line of the step, in its order
  split at stepped
  · split at stepped
    · cases stepped
      exact .scored ‹_›
    · cases stepped
  · cases stepped
    exact .connected
  · obtain ⟨⟨later, claimed⟩, taken, equal⟩ := Option.map_eq_some_iff.mp stepped
    rcases takeToken_eq taken with ⟨rfl, rfl, nothing⟩ | ⟨remaining, rfl, found, positive, wrote⟩
    · cases equal
      exact .unarmed nothing
    · cases equal
      exact .took found positive wrote
  · cases stepped
    exact .exhausted
  · cases stepped
    exact .committedNone
  · cases stepped
    exact .committedTaken
  · cases stepped
    exact .unopened
  · cases stepped
    exact .degraded (.inl ⟨_, rfl⟩)
  · cases stepped
    exact .degraded (.inr ⟨_, rfl⟩)
  · cases stepped
    exact .answered
  · cases stepped
    exact .raised
  · split at stepped
    · cases stepped
      exact .arming ‹_›
    · cases stepped
  · obtain ⟨later, stored, equal⟩ := Option.map_eq_some_iff.mp stepped
    obtain ⟨nonnegative, wrote⟩ := store_eq stored
    cases equal
    exact .armed nonnegative wrote
  · cases stepped
    exact .armCommitted
  · split at stepped
    · cases stepped
      exact .clearing ‹_›
    · cases stepped
  · split at stepped
    · rename_i member
      obtain ⟨later, stored, equal⟩ := Option.map_eq_some_iff.mp stepped
      cases equal
      exact .cleared member (store_eq stored).2
    · cases stepped
  · cases stepped
    exact .clearCommitted
  · cases stepped
    exact .aborted (.inl ⟨_, _, .inl rfl⟩)
  · cases stepped
    exact .aborted (.inl ⟨_, _, .inr rfl⟩)
  · cases stepped
    exact .aborted (.inr ⟨_, rfl⟩)
  · cases stepped
    exact .crashed
  · cases stepped

/-- A step moves one client and leaves the phases of the others alone. -/
structure Step (explanation : Text) (state : State Input Answer) (action : Action Input Answer)
    (next : State Input Answer) : Prop where
  move : Move explanation state.tokens action.client (state.phases action.client) action.call
    next.tokens (next.phases action.client)
  others : ∀ other, other ≠ action.client → next.phases other = state.phases other

theorem step_cases {state next : State Input Answer} {action : Action Input Answer}
    (stepped : step explanation state action = some next) : Step explanation state action next := by
  obtain ⟨⟨tokens, phase⟩, moved, rfl⟩ := Option.map_eq_some_iff.mp stepped
  refine ⟨?_, ?_⟩
  · simp only [Function.update_self]
    exact stepClient_move moved
  · intro other different
    exact Function.update_of_ne different _ _

end Demo
end ConvoScore
