import Mathlib.Logic.Function.Basic
import Posthaste.Library.Transition

namespace posthaste.provider_call

structure BreakerConfig where
  enabled : Bool
  failure_threshold : UInt32
  cooldown : Nat

inductive Phase where
  | Closed (failures : UInt32)
  | Open (opened_at : Nat)
  | HalfOpen
  deriving DecidableEq

/-- The read-only view of a phase. -/
inductive BreakerPhaseView where
  | Closed (failures : UInt32)
  | Open
  | HalfOpen
  deriving DecidableEq

/-- The breaker table, keyed by account. Moments are nanoseconds of the monotonic clock. -/
structure BreakerRegistry where
  config : BreakerConfig
  phases : String → Option Phase

namespace BreakerRegistry

variable {registry : BreakerRegistry} {account other : String} {now : Nat}

def new (config : BreakerConfig) : BreakerRegistry := { config, phases := fun _ => none }

def insert (registry : BreakerRegistry) (account : String) (phase : Phase) : BreakerRegistry :=
  { registry with phases := Function.update registry.phases account (some phase) }

/-- Whether a call may proceed. The first call after the cooldown turns an open
    breaker half-open. -/
def admit_call (registry : BreakerRegistry) (account : String) (now : Nat) : Bool × BreakerRegistry :=
  if registry.config.enabled then
    match registry.phases account with
    | none | some (.Closed _) => (true, registry)
    | some (.Open opened_at) =>
      if registry.config.cooldown ≤ now - opened_at then (true, registry.insert account .HalfOpen)
      else (false, registry)
    | some .HalfOpen => (false, registry)
  else (true, registry)

/-- The count of consecutive failures, this one included. -/
def failures (registry : BreakerRegistry) (account : String) : UInt32 :=
  match registry.phases account with
  | some (.Closed failures) => failures + 1
  | _ => 1

def recordFailure (registry : BreakerRegistry) (account : String) (now : Nat) : Phase :=
  match registry.phases account with
  | some .HalfOpen | some (.Open _) => .Open now
  | none | some (.Closed _) =>
    if registry.config.failure_threshold ≤ registry.failures account then .Open now
    else .Closed (registry.failures account)

def record (registry : BreakerRegistry) (account : String) (success : Bool) (now : Nat) : BreakerRegistry :=
  if registry.config.enabled then
    if success then registry.insert account (.Closed 0)
    else registry.insert account (registry.recordFailure account now)
  else registry

def phase (registry : BreakerRegistry) (account : String) : BreakerPhaseView :=
  match registry.phases account with
  | none => .Closed 0
  | some (.Closed failures) => .Closed failures
  | some (.Open _) => .Open
  | some .HalfOpen => .HalfOpen

/-- The breaker is open and its cooldown has passed. -/
def cooled (registry : BreakerRegistry) (account : String) (now : Nat) : Bool :=
  match registry.phases account with
  | some (.Open opened_at) => registry.config.enabled && registry.config.cooldown ≤ now - opened_at
  | _ => false

@[simp] theorem phases_insert_self (phase : Phase) : (registry.insert account phase).phases account = some phase := by
  simp [insert]

theorem phases_insert_ne (hne : other ≠ account) (phase : Phase) :
    (registry.insert account phase).phases other = registry.phases other := by
  simp [insert, hne]

/-- Everything an admission can do: let the call through, turn a cooled breaker
    half-open for it, or reject it. -/
theorem admit_cases (registry : BreakerRegistry) (account : String) (now : Nat) :
    (registry.admit_call account now = (true, registry) ∧
        (registry.config.enabled = true → registry.phases account ≠ some .HalfOpen)) ∨
      (registry.cooled account now = true ∧
        registry.admit_call account now = (true, registry.insert account .HalfOpen)) ∨
      (registry.admit_call account now = (false, registry) ∧ registry.config.enabled = true) := by
  unfold admit_call
  by_cases henabled : registry.config.enabled = true
  · simp only [henabled, if_true]
    cases hphase : registry.phases account with
    | none => exact Or.inl ⟨rfl, by simp⟩
    | some phase =>
      cases phase with
      | Closed failures => exact Or.inl ⟨rfl, by simp⟩
      | HalfOpen => exact Or.inr (Or.inr ⟨rfl, trivial⟩)
      | Open opened_at =>
        by_cases hcooldown : registry.config.cooldown ≤ now - opened_at
        · refine Or.inr (Or.inl ⟨?_, if_pos hcooldown⟩)
          simp [cooled, hphase, henabled, hcooldown]
        · exact Or.inr (Or.inr ⟨if_neg hcooldown, trivial⟩)
  · exact Or.inl ⟨if_neg henabled, fun h => absurd h henabled⟩

theorem admit_of_cooled (hcooled : registry.cooled account now = true) :
    registry.admit_call account now = (true, registry.insert account .HalfOpen) := by
  unfold cooled at hcooled
  split at hcooled
  · rename_i opened_at hphase
    obtain ⟨henabled, hcooldown⟩ : registry.config.enabled = true ∧ registry.config.cooldown ≤ now - opened_at := by
      simpa using hcooled
    simp [admit_call, henabled, hphase, hcooldown]
  · cases hcooled

theorem enabled_of_cooled (hcooled : registry.cooled account now = true) : registry.config.enabled = true := by
  unfold cooled at hcooled
  split at hcooled
  · exact (Bool.and_eq_true _ _ ▸ hcooled).1
  · cases hcooled

theorem recordFailure_ne_halfOpen : registry.recordFailure account now ≠ .HalfOpen := by
  unfold recordFailure
  split
  · exact Phase.noConfusion
  · exact Phase.noConfusion
  all_goals
    split_ifs
    · exact Phase.noConfusion
    · exact Phase.noConfusion

/-- A recorded outcome leaves no breaker half-open. -/
theorem record_ne_halfOpen (henabled : registry.config.enabled = true) (success : Bool) :
    (registry.record account success now).phases account ≠ some .HalfOpen := by
  unfold record
  rw [if_pos henabled]
  cases success with
  | true => simp
  | false => simpa using recordFailure_ne_halfOpen

theorem record_of_disabled (hdisabled : registry.config.enabled = false) (success : Bool) (now : Nat) :
    registry.record account success now = registry := by
  unfold record
  rw [hdisabled]
  rfl

theorem record_of_ne (hne : other ≠ account) (success : Bool) :
    (registry.record account success now).phases other = registry.phases other := by
  unfold record
  split_ifs
  · exact phases_insert_ne hne _
  · exact phases_insert_ne hne _
  · rfl

@[simp] theorem config_record (success : Bool) : (registry.record account success now).config = registry.config := by
  unfold record
  split_ifs <;> rfl

/-- A closed breaker has seen fewer failures than open it. -/
def Counted (registry : BreakerRegistry) : Prop :=
  ∀ account failures, registry.phases account = some (.Closed failures) →
    failures = 0 ∨ failures < registry.config.failure_threshold

theorem counted_new (config : BreakerConfig) : (new config).Counted := fun _ _ hphase => nomatch hphase

theorem Counted.insert (hcounted : registry.Counted) {phase : Phase}
    (hphase : ∀ failures, phase = .Closed failures → failures = 0 ∨ failures < registry.config.failure_threshold) :
    (registry.insert account phase).Counted := by
  intro other failures hclosed
  by_cases hother : other = account
  · rw [hother, phases_insert_self] at hclosed
    exact hphase failures (Option.some.inj hclosed)
  · rw [phases_insert_ne hother] at hclosed
    exact hcounted other failures hclosed

theorem Counted.admit_call (hcounted : registry.Counted) (account : String) (now : Nat) :
    (registry.admit_call account now).2.Counted := by
  obtain ⟨hadmitted, _⟩ | ⟨_, hadmitted⟩ | ⟨hadmitted, _⟩ := admit_cases registry account now
  · rw [hadmitted]
    exact hcounted
  · rw [hadmitted]
    exact hcounted.insert fun _ hclosed => nomatch hclosed
  · rw [hadmitted]
    exact hcounted

theorem Counted.record (hcounted : registry.Counted) (account : String) (success : Bool) (now : Nat) :
    (registry.record account success now).Counted := by
  unfold BreakerRegistry.record
  split_ifs
  · refine hcounted.insert fun failures hclosed => Or.inl ?_
    cases hclosed
    rfl
  · refine hcounted.insert fun failures hclosed => Or.inr ?_
    unfold recordFailure at hclosed
    split at hclosed
    · cases hclosed
    · cases hclosed
    all_goals
      split_ifs at hclosed with hthreshold
      cases hclosed
      exact UInt32.not_le.mp hthreshold
  · exact hcounted

end BreakerRegistry

end posthaste.provider_call
