import Mathlib.Data.List.Perm.Basic
import Posthaste.Provider.Breaker

namespace posthaste.provider_call

inductive Terminality where
  | Transient
  | Permanent
  deriving DecidableEq

/-- Where a call stands between its admission and its recorded outcome. -/
inductive Stage where
  | attempting
  | sleeping
  deriving DecidableEq

/-- A running call, and whether it is the one that turned its breaker half-open. -/
structure Call where
  account : String
  probe : Bool
  attempt : UInt32
  stage : Stage

/-- The executor with its running calls and the monotonic clock. -/
structure Executor where
  breakers : BreakerRegistry
  max_attempts : UInt32
  clock : Nat
  calls : List Call

/-- What can happen next. A call is dropped when its future is, or when an attempt
    panics. How long a retry sleeps is left open. -/
inductive Action where
  | tick (now : Nat)
  | run (account : String)
  | attempted (index : Nat) (outcome : Except Terminality Unit)
  | wake (index : Nat)
  | drop (index : Nat)

namespace Executor

/-- How many probes of an account are running. -/
def probes (executor : Executor) (account : String) : Nat :=
  executor.calls.countP fun call => call.probe && call.account = account

/-- The breaker gate at the start of a call. A rejected call ends at once. -/
def run (executor : Executor) (account : String) : Executor :=
  match executor.breakers.admit_call account executor.clock with
  | (true, breakers) =>
    { executor with
      breakers
      calls := executor.calls ++ [
        { account, probe := breakers.phases account = some .HalfOpen, attempt := 0, stage := .attempting }] }
  | (false, breakers) => { executor with breakers }

/-- The call ends with this outcome, which the breaker records. -/
def finish (executor : Executor) (index : Nat) (call : Call) (success : Bool) : Executor :=
  { executor with
    breakers := executor.breakers.record call.account success executor.clock
    calls := executor.calls.eraseIdx index }

/-- One attempt came back. Only a transient failure is retried, and only so often. -/
def attempted (executor : Executor) (index : Nat) (call : Call) (outcome : Except Terminality Unit) : Executor :=
  match outcome with
  | .ok () => executor.finish index call true
  | .error .Permanent => executor.finish index call false
  | .error .Transient =>
    if executor.max_attempts ≤ call.attempt then executor.finish index call false
    else { executor with calls := executor.calls.set index { call with stage := .sleeping } }

def wake (executor : Executor) (index : Nat) (call : Call) : Executor :=
  { executor with calls := executor.calls.set index { call with stage := .attempting, attempt := call.attempt + 1 } }

def step (executor : Executor) : Action → Option Executor
  | .tick now => if executor.clock ≤ now then some { executor with clock := now } else none
  | .run account => some (executor.run account)
  | .attempted index outcome =>
    (executor.calls[index]?).bind fun call =>
      if call.stage = .attempting then some (executor.attempted index call outcome) else none
  | .wake index =>
    (executor.calls[index]?).bind fun call =>
      if call.stage = .sleeping then some (executor.wake index call) else none
  | .drop index =>
    (executor.calls[index]?).map fun _ => { executor with calls := executor.calls.eraseIdx index }

def Begins (executor : Executor) : Prop :=
  executor.breakers = BreakerRegistry.new executor.breakers.config ∧ executor.calls = []

end Executor

/-- Every interleaving of the calls of one executor. -/
def executorSystem : TransitionSystem Executor Action := TransitionSystem.ofFunction Executor.Begins Executor.step

namespace Executor

/-- The breaker of the account can recover: a half-open breaker has its one probe
    running, and with no call running and the cooldown over the next call gets through. -/
structure Unwedged (executor : Executor) (account : String) : Prop where
  single : executor.probes account ≤ 1
  probing : executor.breakers.phases account = some .HalfOpen → executor.probes account = 1
  admits : (∀ call ∈ executor.calls, call.account ≠ account) →
    (∀ opened_at, executor.breakers.phases account = some (.Open opened_at) →
      executor.breakers.config.cooldown ≤ executor.clock - opened_at) →
    (executor.breakers.admit_call account executor.clock).1 = true

/-- The step neither drops the probe of a half-open breaker nor admits a probe
    while an earlier one still runs. -/
def spares (executor : Executor) : Action → Bool
  | .run account => !(executor.breakers.cooled account executor.clock && executor.probes account ≠ 0)
  | .drop index =>
    match executor.calls[index]? with
    | some call => !(call.probe && executor.breakers.phases call.account = some .HalfOpen)
    | none => true
  | _ => true

variable {executor after : Executor} {account : String} {index : Nat} {call : Call}

/-- The last field of `Unwedged` follows from the other two. -/
theorem unwedged_of_probes (hsingle : executor.probes account ≤ 1)
    (hprobing : executor.breakers.phases account = some .HalfOpen → executor.probes account = 1) :
    executor.Unwedged account := by
  refine ⟨hsingle, hprobing, fun hidle hcooldown => ?_⟩
  have hnone : executor.probes account = 0 := by
    refine List.countP_eq_zero.mpr fun call hcall => ?_
    simp [hidle call hcall]
  unfold BreakerRegistry.admit_call
  split_ifs
  · split
    · rfl
    · rfl
    · rename_i opened_at hphase
      rw [if_pos (hcooldown opened_at hphase)]
    · rename_i hphase
      have hone := hprobing hphase
      rw [hnone] at hone
      cases hone
  · rfl

theorem probes_of_set {calls : List Call} {changed : Call} (hcall : calls[index]? = some call)
    (hprobe : changed.probe = call.probe) (haccount : changed.account = call.account) (account : String) :
    (calls.set index changed).countP (fun call => call.probe && call.account = account) =
      calls.countP fun call => call.probe && call.account = account := by
  obtain ⟨hindex, rfl⟩ := List.getElem?_eq_some_iff.mp hcall
  rw [List.countP_set hindex, hprobe, haccount]
  split_ifs with hcounted
  · have hpositive : 0 < calls.countP fun call => call.probe && call.account = account :=
      List.countP_pos_iff.mpr ⟨_, List.getElem_mem hindex, hcounted⟩
    omega
  · omega

theorem probes_of_eraseIdx {calls : List Call} (hcall : calls[index]? = some call) (account : String) :
    calls.countP (fun call => call.probe && call.account = account) =
      (calls.eraseIdx index).countP (fun call => call.probe && call.account = account) +
        if call.probe && call.account = account then 1 else 0 := by
  obtain ⟨hindex, rfl⟩ := List.getElem?_eq_some_iff.mp hcall
  rw [← List.countP_cons]
  exact (List.getElem_cons_eraseIdx_perm hindex).symm.countP_eq _

/-- What the induction over runs carries. -/
structure Probed (executor : Executor) : Prop where
  single : ∀ account, executor.probes account ≤ 1
  probing : ∀ account, executor.breakers.phases account = some .HalfOpen → executor.probes account = 1
  disabled : executor.breakers.config.enabled = false → ∀ account, executor.breakers.phases account = none

theorem Probed.ne_halfOpen (hprobed : executor.Probed)
    (hphase : executor.breakers.config.enabled = true → executor.breakers.phases account ≠ some .HalfOpen) :
    executor.breakers.phases account ≠ some .HalfOpen := by
  cases henabled : executor.breakers.config.enabled with
  | true => exact hphase henabled
  | false =>
    rw [hprobed.disabled henabled]
    exact Option.some_ne_none _ |>.symm

/-- A call enters `run`. It is a probe when it turns a cooled breaker half-open. -/
theorem run_cases (hprobed : executor.Probed) (account : String) :
    (executor.breakers.phases account ≠ some .HalfOpen ∧ executor.run account = { executor with
        calls := executor.calls ++ [{ account, probe := false, attempt := 0, stage := .attempting }] }) ∨
      (executor.breakers.cooled account executor.clock = true ∧ executor.run account = { executor with
        breakers := executor.breakers.insert account .HalfOpen
        calls := executor.calls ++ [{ account, probe := true, attempt := 0, stage := .attempting }] }) ∨
      executor.run account = executor := by
  unfold Executor.run
  obtain ⟨hadmitted, hphase⟩ | ⟨hcooled, hadmitted⟩ | ⟨hadmitted, _⟩ :=
    executor.breakers.admit_cases account executor.clock
  · have hplain := hprobed.ne_halfOpen hphase
    refine Or.inl ⟨hplain, ?_⟩
    rw [hadmitted]
    simp [hplain]
  · refine Or.inr (Or.inl ⟨hcooled, ?_⟩)
    rw [hadmitted]
    simp
  · refine Or.inr (Or.inr ?_)
    rw [hadmitted]

theorem Probed.run (hprobed : executor.Probed) (hspares : executor.spares (.run account) = true) :
    (executor.run account).Probed := by
  obtain ⟨hplain, hrun⟩ | ⟨hcooled, hrun⟩ | hrun := run_cases hprobed account
  · rw [hrun]
    have hsame : ∀ other, ({ executor with calls := executor.calls ++
        [{ account, probe := false, attempt := 0, stage := .attempting }] } : Executor).probes other =
          executor.probes other := by
      intro other
      simp [probes]
    refine ⟨fun other => ?_, fun other hphase => ?_, hprobed.disabled⟩
    · rw [hsame]
      exact hprobed.single other
    · rw [hsame]
      exact hprobed.probing other hphase
  · rw [hrun]
    have hnone : executor.probes account = 0 := by simpa [spares, hcooled] using hspares
    have hcount : ∀ other, ({ executor with
        breakers := executor.breakers.insert account .HalfOpen
        calls := executor.calls ++ [{ account, probe := true, attempt := 0, stage := .attempting }] } :
          Executor).probes other = executor.probes other + if account = other then 1 else 0 := by
      intro other
      simp [probes, List.countP_append, List.countP_singleton]
    refine ⟨fun other => ?_, fun other hphase => ?_, fun hdisabled => ?_⟩
    · rw [hcount]
      have hsingle := hprobed.single other
      split_ifs with hother
      · rw [← hother]
        omega
      · omega
    · rw [hcount]
      by_cases hother : account = other
      · rw [if_pos hother, ← hother]
        omega
      · rw [if_neg hother]
        have hbefore : executor.breakers.phases other = some .HalfOpen := by
          rw [← BreakerRegistry.phases_insert_ne (Ne.symm hother) .HalfOpen]
          exact hphase
        exact hprobed.probing other hbefore
    · have henabled : executor.breakers.config.enabled = true := BreakerRegistry.enabled_of_cooled hcooled
      have hnot : executor.breakers.config.enabled = false := hdisabled
      rw [henabled] at hnot
      cases hnot
  · rw [hrun]
    exact hprobed

/-- A recorded outcome ends its call and settles its breaker. -/
theorem Probed.finish (hprobed : executor.Probed) (hcall : executor.calls[index]? = some call) (success : Bool) :
    (executor.finish index call success).Probed := by
  have hcount : ∀ other, executor.probes other =
      (executor.finish index call success).probes other + if call.probe && call.account = other then 1 else 0 :=
    fun other => probes_of_eraseIdx hcall other
  have hdisabled : executor.breakers.config.enabled = false →
      (executor.finish index call success).breakers = executor.breakers :=
    fun hoff => BreakerRegistry.record_of_disabled hoff success executor.clock
  refine ⟨fun other => ?_, fun other hphase => ?_, fun hoff => ?_⟩
  · have hsingle := hprobed.single other
    have hsplit := hcount other
    omega
  · by_cases hother : other = call.account
    · rw [hother] at hphase
      cases henabled : executor.breakers.config.enabled with
      | true => exact absurd hphase (BreakerRegistry.record_ne_halfOpen henabled success)
      | false =>
        rw [hdisabled henabled, hprobed.disabled henabled] at hphase
        cases hphase
    · have hbefore : executor.breakers.phases other = some .HalfOpen := by
        rw [← BreakerRegistry.record_of_ne hother success]
        exact hphase
      have hone := hprobed.probing other hbefore
      have hsplit := hcount other
      rw [if_neg (by simp [Ne.symm hother])] at hsplit
      omega
  · have henabled : executor.breakers.config.enabled = false := by
      rw [← BreakerRegistry.config_record success]
      exact hoff
    rw [hdisabled henabled]
    exact hprobed.disabled henabled

/-- A retry moves no breaker and no probe. -/
theorem Probed.set (hprobed : executor.Probed) {changed : Call} (hcall : executor.calls[index]? = some call)
    (hprobe : changed.probe = call.probe) (haccount : changed.account = call.account) :
    ({ executor with calls := executor.calls.set index changed } : Executor).Probed := by
  have hcount : ∀ other, ({ executor with calls := executor.calls.set index changed } : Executor).probes other =
      executor.probes other := fun other => probes_of_set hcall hprobe haccount other
  refine ⟨fun other => ?_, fun other hphase => ?_, hprobed.disabled⟩
  · rw [hcount]
    exact hprobed.single other
  · rw [hcount]
    exact hprobed.probing other hphase

theorem Probed.attempted (hprobed : executor.Probed) (hcall : executor.calls[index]? = some call)
    (outcome : Except Terminality Unit) : (executor.attempted index call outcome).Probed := by
  unfold Executor.attempted
  split
  · exact hprobed.finish hcall true
  · exact hprobed.finish hcall false
  · split_ifs
    · exact hprobed.finish hcall false
    · exact hprobed.set hcall rfl rfl

theorem Probed.drop (hprobed : executor.Probed) (hcall : executor.calls[index]? = some call)
    (hspares : executor.spares (.drop index) = true) :
    ({ executor with calls := executor.calls.eraseIdx index } : Executor).Probed := by
  have hcount : ∀ other, executor.probes other =
      ({ executor with calls := executor.calls.eraseIdx index } : Executor).probes other +
        if call.probe && call.account = other then 1 else 0 := fun other => probes_of_eraseIdx hcall other
  refine ⟨fun other => ?_, fun other hphase => ?_, hprobed.disabled⟩
  · have hsingle := hprobed.single other
    have hsplit := hcount other
    omega
  · have hkept : (call.probe && call.account = other) = false := by
      by_contra hprobe
      obtain ⟨hisProbe, hother⟩ : call.probe = true ∧ call.account = other := by simpa using hprobe
      have hhalf : executor.breakers.phases call.account = some .HalfOpen := by
        rw [hother]
        exact hphase
      simp [spares, hcall, hisProbe, hhalf] at hspares
    have hone := hprobed.probing other hphase
    have hsplit := hcount other
    rw [hkept] at hsplit
    simpa [hone] using hsplit.symm

theorem Probed.step (hprobed : executor.Probed) {action : Action} (hspares : executor.spares action = true)
    (hstep : executor.step action = some after) : after.Probed := by
  cases action with
  | tick now =>
    simp only [Executor.step] at hstep
    split_ifs at hstep
    obtain rfl := Option.some.inj hstep
    exact ⟨hprobed.single, hprobed.probing, hprobed.disabled⟩
  | run account =>
    obtain rfl := Option.some.inj hstep
    exact hprobed.run hspares
  | attempted index outcome =>
    obtain ⟨call, hcall, hfinish⟩ := Option.bind_eq_some_iff.mp hstep
    split_ifs at hfinish
    obtain rfl := Option.some.inj hfinish
    exact hprobed.attempted hcall outcome
  | wake index =>
    obtain ⟨call, hcall, hwake⟩ := Option.bind_eq_some_iff.mp hstep
    split_ifs at hwake
    obtain rfl := Option.some.inj hwake
    exact hprobed.set hcall rfl rfl
  | drop index =>
    obtain ⟨call, hcall, rfl⟩ := Option.map_eq_some_iff.mp hstep
    exact hprobed.drop hcall hspares

theorem probed_of_reachable
    (hreach : executorSystem.Reachable (fun executor action => executor.spares action = true) executor) :
    executor.Probed := by
  refine hreach.invariant ?_ fun _ _ _ hprobed hspares hstep => hprobed.step hspares hstep
  rintro start ⟨hbreakers, hcalls⟩
  have hphases : ∀ account, start.breakers.phases account = none := by
    rw [hbreakers]
    exact fun _ => rfl
  refine ⟨fun account => ?_, fun account hphase => ?_, fun _ => hphases⟩
  · simp [probes, hcalls]
  · rw [hphases account] at hphase
    cases hphase

theorem Probed.unwedged (hprobed : executor.Probed) (account : String) : executor.Unwedged account :=
  unwedged_of_probes (hprobed.single account) (hprobed.probing account)

/-- A step that does not spare the probes leaves their breaker wedged, or with two of them. -/
theorem wedged_of_step (hprobed : executor.Probed) {action : Action} (hspares : executor.spares action = false)
    (hstep : executor.step action = some after) : ∃ account, ¬ after.Unwedged account := by
  cases action with
  | tick | attempted | wake => cases hspares
  | run account =>
    obtain rfl := Option.some.inj hstep
    obtain ⟨hcooled, hrunning⟩ :
        executor.breakers.cooled account executor.clock = true ∧ executor.probes account ≠ 0 := by
      simpa [spares] using hspares
    refine ⟨account, fun hunwedged => ?_⟩
    have hcount : (executor.run account).probes account = executor.probes account + 1 := by
      unfold Executor.run
      rw [BreakerRegistry.admit_of_cooled hcooled]
      simp [probes, List.countP_append]
    have hsingle := hunwedged.single
    omega
  | drop index =>
    obtain ⟨call, hcall, rfl⟩ := Option.map_eq_some_iff.mp hstep
    obtain ⟨hprobe, hphase⟩ : call.probe = true ∧ executor.breakers.phases call.account = some .HalfOpen := by
      simpa [spares, hcall] using hspares
    refine ⟨call.account, fun hunwedged => ?_⟩
    have hsplit : executor.probes call.account =
        ({ executor with calls := executor.calls.eraseIdx index } : Executor).probes call.account + 1 := by
      refine (probes_of_eraseIdx hcall call.account).trans ?_
      simp [probes, hprobe]
    have hone := hprobed.probing call.account hphase
    have hafter := hunwedged.probing hphase
    omega

/-- A breaker recovers in every run that neither drops the probe of a half-open
    breaker nor admits a second one, and the first other step wedges it. -/
theorem breaker_recovers {executor : Executor}
    (hreach : executorSystem.Reachable (fun executor action => executor.spares action = true) executor) :
    (∀ account, executor.Unwedged account) ∧
      ∀ action after, executor.spares action = false → executor.step action = some after →
        ∃ account, ¬ after.Unwedged account :=
  ⟨(probed_of_reachable hreach).unwedged,
    fun _ _ hspares hstep => wedged_of_step (probed_of_reachable hreach) hspares hstep⟩

/-- The counts of failures stay below the threshold, so that none overflows. -/
theorem counted_of_reachable {guard : Executor → Action → Prop} (hreach : executorSystem.Reachable guard executor) :
    executor.breakers.Counted := by
  induction hreach with
  | start hbegins =>
    rw [hbegins.1]
    exact BreakerRegistry.counted_new _
  | @next before after action _ _ hstep hcounted =>
    cases action with
    | tick now =>
      simp only [executorSystem, TransitionSystem.ofFunction, Executor.step] at hstep
      split_ifs at hstep
      obtain rfl := Option.some.inj hstep
      exact hcounted
    | run account =>
      obtain rfl := Option.some.inj hstep
      have hadmitted := hcounted.admit_call account before.clock
      unfold Executor.run
      split
      all_goals
        rename_i hrun
        rw [hrun] at hadmitted
        exact hadmitted
    | attempted index outcome =>
      obtain ⟨call, _, hfinish⟩ := Option.bind_eq_some_iff.mp hstep
      split_ifs at hfinish
      obtain rfl := Option.some.inj hfinish
      unfold Executor.attempted
      split
      · exact hcounted.record call.account true before.clock
      · exact hcounted.record call.account false before.clock
      · split_ifs
        · exact hcounted.record call.account false before.clock
        · exact hcounted
    | wake index =>
      obtain ⟨call, _, hwake⟩ := Option.bind_eq_some_iff.mp hstep
      split_ifs at hwake
      obtain rfl := Option.some.inj hwake
      exact hcounted
    | drop index =>
      obtain ⟨call, _, rfl⟩ := Option.map_eq_some_iff.mp hstep
      exact hcounted

/-- An executor that opens a breaker on the first failure. -/
def fresh : Executor where
  breakers := .new { enabled := true, failure_threshold := 1, cooldown := 45 }
  max_attempts := 0
  clock := 0
  calls := []

def ran (guard : Executor → Action → Bool) (actions : List Action) : Option Executor :=
  TransitionSystem.runActions Executor.step guard fresh actions

theorem reachable_of_ran {guard : Executor → Action → Bool} {actions : List Action}
    (hran : ran guard actions = some after) :
    executorSystem.Reachable (fun executor action => guard executor action = true) after :=
  TransitionSystem.reachable_of_runActions (fun _ _ hmeets => hmeets) (.start ⟨rfl, rfl⟩) hran

/-- A failure opens the breaker, and after the cooldown a probe runs. -/
def probed : List Action := [.run "a", .attempted 0 (.error .Permanent), .tick 45, .run "a"]

theorem breaker_recovers_probed :
    ∃ executor, executorSystem.Reachable (fun executor action => executor.spares action = true) executor ∧
      executor.breakers.phase "a" = .HalfOpen ∧ executor.Unwedged "a" := by
  have hphase : (ran spares probed).map (fun executor => executor.breakers.phase "a") = some .HalfOpen := rfl
  obtain ⟨executor, hran, hhalf⟩ := Option.map_eq_some_iff.mp hphase
  have hreach := reachable_of_ran hran
  exact ⟨executor, hreach, hhalf, (breaker_recovers hreach).1 "a"⟩

/-- The probe's future is dropped. No call runs, and none is admitted ever after. -/
theorem dropped_probe_wedges :
    ∃ executor, executorSystem.Reachable TransitionSystem.unguarded executor ∧ executor.calls = [] ∧
      (∀ now, (executor.breakers.admit_call "a" now).1 = false) ∧ ¬ executor.Unwedged "a" := by
  have hran : (ran (fun _ _ => true) (probed ++ [.drop 0])).map
      (fun executor => (executor.calls.length, executor.breakers.config.enabled, executor.breakers.phases "a")) =
        some (0, true, some .HalfOpen) := rfl
  obtain ⟨executor, hran, hshape⟩ := Option.map_eq_some_iff.mp hran
  obtain ⟨hlength, henabled, hphase⟩ : executor.calls.length = 0 ∧ executor.breakers.config.enabled = true ∧
      executor.breakers.phases "a" = some .HalfOpen := by simpa using hshape
  have hnone : executor.calls = [] := List.length_eq_zero_iff.mp hlength
  refine ⟨executor, (reachable_of_ran hran).forget, hnone, fun now => ?_, fun hunwedged => ?_⟩
  · simp [BreakerRegistry.admit_call, henabled, hphase]
  · have hone := hunwedged.probing hphase
    simp [probes, hnone] at hone

end Executor

end posthaste.provider_call
