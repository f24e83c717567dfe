import Mathlib.Order.Lattice
import Mathlib.Logic.Function.Basic

namespace ConvoScore.Library

/-- A lease protects one resource with a lock that expires.
Each agent remembers the expiry that its own acquisition set. -/
structure Lease (Agent Time : Type*) where
  now : Time
  available : Bool
  lock : Option Time
  held : Agent → Option Time

namespace Lease

/-- An event names the agent that causes it. -/
inductive Event (Agent : Type*)
  | wait
  | offer
  | acquire (agent : Agent)
  | release (agent : Agent)
  | close (agent : Agent)
  | drop (agent : Agent)
  | shut

variable {Agent Time : Type*}

/-- An agent that gave up the lease no longer holds it. -/
theorem held_of_update_none [DecidableEq Agent] {lease : Lease Agent Time} {agent other : Agent}
    {expiry : Time}
    (held : Function.update lease.held agent none other = some expiry) :
    other ≠ agent ∧ lease.held other = some expiry := by
  by_cases same : other = agent
  · subst same
    simp at held
  · rw [Function.update_of_ne same] at held
    exact ⟨same, held⟩

variable [LinearOrder Time]

/-- A live agent holds the lease and its expiry has not passed. -/
def Live (lease : Lease Agent Time) (agent : Agent) : Prop :=
  ∃ expiry, lease.held agent = some expiry ∧ lease.now ≤ expiry

/-- An agent acquires a free or expired lock; releasing and closing trust the agent's word. -/
inductive Step [DecidableEq Agent] : Lease Agent Time → Event Agent → Lease Agent Time → Prop
  | wait {lease : Lease Agent Time} (later : Time) (monotone : lease.now ≤ later) :
      Step lease .wait {lease with now := later}
  | offer {lease : Lease Agent Time} (unheld : ∀ agent, lease.held agent = none) :
      Step lease .offer {lease with available := true, lock := none}
  | acquire {lease : Lease Agent Time} (agent : Agent) (begun expiry : Time)
      (available : lease.available = true) (past : begun ≤ lease.now)
      (free : ∀ stored, lease.lock = some stored → stored < begun) :
      Step lease (.acquire agent)
        {lease with lock := some expiry, held := Function.update lease.held agent (some expiry)}
  | release {lease : Lease Agent Time} (agent : Agent) :
      Step lease (.release agent)
        {lease with lock := none, held := Function.update lease.held agent none}
  | close {lease : Lease Agent Time} (agent : Agent) :
      Step lease (.close agent)
        {lease with
          available := false, lock := none, held := Function.update lease.held agent none}
  | drop {lease : Lease Agent Time} (agent : Agent) :
      Step lease (.drop agent) {lease with held := Function.update lease.held agent none}
  | shut {lease : Lease Agent Time} : Step lease .shut {lease with available := false}

/-- A quiet event neither frees the lock nor ends the availability. -/
def Event.Quiet : Event Agent → Prop
  | .release _ | .close _ | .shut => False
  | _ => True

/-- A safe event never releases the lock under another live agent. -/
def Safe (lease : Lease Agent Time) : Event Agent → Prop
  | .release agent => ∀ other, lease.Live other → other = agent
  | _ => True

/-- A timely agent releases or closes no later than its own expiry. -/
def Timely (lease : Lease Agent Time) : Event Agent → Prop
  | .release agent | .close agent => lease.Live agent
  | .shut => False
  | _ => True

/-- A quiet event is timely, and so it is safe whoever is live. -/
theorem Event.Quiet.timely {lease : Lease Agent Time} {event : Event Agent} (quiet : event.Quiet) :
    lease.Timely event := by
  cases event with
  | release | close | shut => exact quiet.elim
  | _ => trivial

theorem Event.Quiet.safe {lease : Lease Agent Time} {event : Event Agent} (quiet : event.Quiet) :
    lease.Safe event := by
  cases event with
  | release | close | shut => exact quiet.elim
  | _ => trivial

/-- While the resource is available, the lock stores the only live expiry. -/
structure Exclusive (lease : Lease Agent Time) : Prop where
  stored : ∀ agent expiry, lease.available = true → lease.held agent = some expiry →
    lease.now ≤ expiry → lease.lock = some expiry
  single : ∀ first second, lease.Live first → lease.Live second → first = second

/-- A secured lease also stays available while an agent is live. -/
structure Secured (lease : Lease Agent Time) : Prop extends lease.Exclusive where
  kept : ∀ agent, lease.Live agent → lease.available = true

/-- Nobody is live when an acquisition succeeds. -/
theorem Exclusive.not_live_of_free {lease : Lease Agent Time} (exclusive : lease.Exclusive)
    (available : lease.available = true) {begun : Time} (past : begun ≤ lease.now)
    (free : ∀ stored, lease.lock = some stored → stored < begun) (agent : Agent) :
    ¬ lease.Live agent := by
  rintro ⟨expiry, held, alive⟩
  have stored := exclusive.stored agent expiry available held alive
  exact absurd (free expiry stored) (not_lt.mpr (past.trans alive))

/-- Each safe step keeps at most one live agent. -/
theorem exclusive_step [DecidableEq Agent] {lease next : Lease Agent Time} {event : Event Agent}
    (exclusive : lease.Exclusive) (step : lease.Step event next) (safe : lease.Safe event) :
    next.Exclusive := by
  cases step with
  | wait later monotone =>
      refine ⟨?_, ?_⟩
      · intro agent expiry available held alive
        exact exclusive.stored agent expiry available held (monotone.trans alive)
      · rintro first second ⟨e₁, held₁, alive₁⟩ ⟨e₂, held₂, alive₂⟩
        exact exclusive.single first second ⟨e₁, held₁, monotone.trans alive₁⟩
          ⟨e₂, held₂, monotone.trans alive₂⟩
  | offer unheld =>
      refine ⟨?_, ?_⟩
      · intro agent expiry _ held _
        simp [unheld agent] at held
      · rintro first second ⟨e₁, held₁, _⟩ _
        simp [unheld first] at held₁
  | acquire agent begun expiry available past free =>
      have nobody := exclusive.not_live_of_free available past free
      have fresh : ∀ other e, Function.update lease.held agent (some expiry) other = some e →
          lease.now ≤ e → other = agent ∧ e = expiry := by
        intro other e held alive
        by_cases same : other = agent
        · subst same
          simp only [Function.update_self, Option.some.injEq] at held
          exact ⟨rfl, held.symm⟩
        · rw [Function.update_of_ne same] at held
          exact absurd ⟨e, held, alive⟩ (nobody other)
      refine ⟨?_, ?_⟩
      · intro other e _ held alive
        rw [(fresh other e held alive).2]
      · rintro first second ⟨e₁, held₁, alive₁⟩ ⟨e₂, held₂, alive₂⟩
        exact (fresh first e₁ held₁ alive₁).1.trans (fresh second e₂ held₂ alive₂).1.symm
  | release agent =>
      have nobody : ∀ other e, Function.update lease.held agent none other = some e →
          ¬ lease.now ≤ e := by
        intro other e held alive
        obtain ⟨different, held⟩ := held_of_update_none held
        exact different (safe other ⟨e, held, alive⟩)
      refine ⟨?_, ?_⟩
      · intro other e _ held alive
        exact absurd alive (nobody other e held)
      · rintro first second ⟨e₁, held₁, alive₁⟩ _
        exact absurd alive₁ (nobody first e₁ held₁)
  | close agent =>
      refine ⟨?_, ?_⟩
      · intro other e available
        simp at available
      · rintro first second ⟨e₁, held₁, alive₁⟩ ⟨e₂, held₂, alive₂⟩
        exact exclusive.single first second ⟨e₁, (held_of_update_none held₁).2, alive₁⟩
          ⟨e₂, (held_of_update_none held₂).2, alive₂⟩
  | drop agent =>
      refine ⟨?_, ?_⟩
      · intro other e available held alive
        exact exclusive.stored other e available (held_of_update_none held).2 alive
      · rintro first second ⟨e₁, held₁, alive₁⟩ ⟨e₂, held₂, alive₂⟩
        exact exclusive.single first second ⟨e₁, (held_of_update_none held₁).2, alive₁⟩
          ⟨e₂, (held_of_update_none held₂).2, alive₂⟩
  | shut =>
      refine ⟨?_, exclusive.single⟩
      intro other e available
      simp at available

/-- A timely event of an exclusive lease is safe. -/
theorem Exclusive.safe_of_timely {lease : Lease Agent Time} (exclusive : lease.Exclusive)
    {event : Event Agent} (timely : lease.Timely event) : lease.Safe event := by
  cases event with
  | release agent => exact fun other live => exclusive.single other agent live timely
  | _ => trivial

/-- Each timely step keeps the resource available to its live agent. -/
theorem secured_step [DecidableEq Agent] {lease next : Lease Agent Time} {event : Event Agent}
    (secured : lease.Secured) (step : lease.Step event next) (timely : lease.Timely event) :
    next.Secured := by
  refine ⟨exclusive_step secured.toExclusive step
    (secured.toExclusive.safe_of_timely timely), ?_⟩
  rintro other ⟨expiry, held, alive⟩
  cases step with
  | wait later monotone => exact secured.kept other ⟨expiry, held, monotone.trans alive⟩
  | offer => rfl
  | acquire _ _ _ available => exact available
  | release agent => exact secured.kept other ⟨expiry, (held_of_update_none held).2, alive⟩
  | close agent =>
      obtain ⟨different, held⟩ := held_of_update_none held
      exact absurd (secured.single other agent ⟨expiry, held, alive⟩ timely) different
  | drop agent => exact secured.kept other ⟨expiry, (held_of_update_none held).2, alive⟩
  | shut => exact timely.elim

/-- The lock of a secured lease stores the expiry of its live agent. -/
theorem Secured.lock_eq {lease : Lease Agent Time} (secured : lease.Secured) {agent : Agent}
    {expiry : Time} (held : lease.held agent = some expiry) (alive : lease.now ≤ expiry) :
    lease.lock = some expiry :=
  secured.stored agent expiry (secured.kept agent ⟨expiry, held, alive⟩) held alive

/-- A lease that nobody holds is secured. -/
theorem Secured.of_unheld {lease : Lease Agent Time} (unheld : ∀ agent, lease.held agent = none) :
    lease.Secured where
  stored agent expiry _ held _ := by simp [unheld agent] at held
  single first _ live _ := by
    obtain ⟨expiry, held, _⟩ := live
    simp [unheld first] at held
  kept agent live := by
    obtain ⟨expiry, held, _⟩ := live
    simp [unheld agent] at held

end Lease
end ConvoScore.Library
