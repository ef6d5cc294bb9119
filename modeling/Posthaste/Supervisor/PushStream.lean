import Posthaste.DomainModel.Records
import Posthaste.Library.Transition

open posthaste.model

namespace posthaste.push

inductive ActiveTransport where
  | Primary
  | Fallback
  deriving DecidableEq

structure PushNotification where
  account_id : String
  changed : List String
  received_at : String
  checkpoint : Option String

inductive PushStreamEvent where
  | Notification (notification : PushNotification)
  | Connected (transport : String)
  | Disconnected (transport reason : String)
  | Fallback (from_ to_ : String)
  | Terminal (transport reason : String)

def PushStreamEvent.isTerminal : PushStreamEvent → Bool
  | .Terminal _ _ => true
  | _ => false

/-- Whether a reconnect cannot change an open failure. -/
def open_failure_is_permanent : GatewayError → Bool
  | .Rejected _ | .StateMismatch | .CannotCalculateChanges | .Corruption _ | .Internal _ | .MutationRejected _ _
  | .MailboxNotEmpty _ => true
  | .Network _ | .Unavailable _ | .Auth | .DispatchUncertain _ => false

/-- The transports of the ladder by name, and its bounds. Both are positive. -/
structure ResilientPushConfig where
  primary : String
  fallback : Option String
  healthy_reset_after : Nat
  fallback_threshold : Nat
  terminal_permanent_attempts : Nat
  fallback_positive : 0 < fallback_threshold
  terminal_positive : 0 < terminal_permanent_attempts

/-- What comes of one attempt to open a transport. An opened stream delivers its
    notifications, then drops for a reason after it was held so long. -/
inductive PushAttempt where
  | opened (notifications : List PushNotification) (reason : String) (held : Nat)
  | unsupported
  | failed (error : GatewayError)

/-- A structural failure of the transport. -/
def PushAttempt.isPermanent : PushAttempt → Bool
  | .opened _ _ _ => false
  | .unsupported => true
  | .failed error => open_failure_is_permanent error

/-- The variables of the loop, whether it is parked, what it yielded, and, for
    the record, the most recent attempt on each transport. -/
structure PushLoop where
  active : ActiveTransport
  consecutive_failures : Nat
  permanent_streak : Nat
  checkpoint : Option String
  parked : Bool
  yielded : List PushStreamEvent
  latest : ActiveTransport → Option PushAttempt

namespace PushLoop

def start : PushLoop := ⟨.Primary, 0, 0, none, false, [], fun _ => none⟩

/-- The last checkpoint a stream delivered, or the one before. -/
def checkpointAfter (checkpoint : Option String) (notifications : List PushNotification) : Option String :=
  notifications.foldl (fun checkpoint notification => notification.checkpoint <|> checkpoint) checkpoint

section Step

variable (config : ResilientPushConfig) (loop : PushLoop)

def transport : String :=
  match loop.active with
  | .Primary => config.primary
  | .Fallback => config.fallback.getD config.primary

/-- The attempt is over, the counters and the checkpoint moved on. -/
def attempted (attempt : PushAttempt) : PushLoop :=
  let loop := { loop with
    latest := fun transport => if transport = loop.active then some attempt else loop.latest transport }
  match attempt with
  | .opened notifications reason held =>
    { loop with
      consecutive_failures := (if config.healthy_reset_after ≤ held then 0 else loop.consecutive_failures) + 1
      permanent_streak := 0
      checkpoint := checkpointAfter loop.checkpoint notifications
      yielded := loop.yielded ++ [.Connected (loop.transport config)] ++ notifications.map .Notification ++
        [.Disconnected (loop.transport config) reason] }
  | .unsupported =>
    { loop with
      consecutive_failures := loop.consecutive_failures + 1
      permanent_streak := loop.permanent_streak + 1 }
  | .failed error =>
    { loop with
      consecutive_failures := loop.consecutive_failures + 1
      permanent_streak := if open_failure_is_permanent error then loop.permanent_streak + 1 else 0
      yielded := loop.yielded ++ [.Disconnected (loop.transport config) (toString error)] }

def ladder_exhausted : Bool := config.fallback.isNone || loop.active = .Fallback

/-- The terminal check. -/
def terminal : PushLoop :=
  { loop with
    parked := true
    yielded := loop.yielded ++ [.Terminal (loop.transport config)
      s!"{loop.transport config} permanently unavailable after {loop.permanent_streak} attempts"] }

/-- The fallback check: on to the fallback, or back to the primary. -/
def switched (fallback : String) : PushLoop :=
  match loop.active with
  | .Primary =>
    { loop with
      active := .Fallback
      consecutive_failures := 0
      permanent_streak := 0
      yielded := loop.yielded ++ [.Fallback config.primary fallback] }
  | .Fallback => { loop with active := .Primary, consecutive_failures := 0, permanent_streak := 0 }

def checked : PushLoop :=
  if loop.ladder_exhausted config ∧ config.terminal_permanent_attempts ≤ loop.permanent_streak then
    loop.terminal config
  else if config.fallback_threshold ≤ loop.consecutive_failures then
    match config.fallback with
    | some fallback => loop.switched config fallback
    | none => loop
  else loop

/-- One pass of the loop. A parked loop takes none. -/
def step (attempt : PushAttempt) : Option PushLoop :=
  if loop.parked then none else some ((loop.attempted config attempt).checked config)

end Step

end PushLoop

/-- Every run of a resilient push stream. -/
def resilient_push_stream (config : ResilientPushConfig) : TransitionSystem PushLoop PushAttempt :=
  .ofFunction (· = PushLoop.start) (PushLoop.step config)

namespace PushLoop

variable {config : ResilientPushConfig} {loop after : PushLoop} {attempt : PushAttempt}

/-- The most recent attempt on a transport failed permanently. -/
def Broken (loop : PushLoop) (transport : ActiveTransport) : Prop :=
  ∃ attempt, loop.latest transport = some attempt ∧ attempt.isPermanent = true

/-- Terminal is yielded only when every transport of the ladder is broken, and last of all. -/
structure GivesUpLast (config : ResilientPushConfig) (loop : PushLoop) : Prop where
  broken : ∀ event ∈ loop.yielded, event.isTerminal = true →
    loop.Broken .Primary ∧ (config.fallback.isSome → loop.Broken .Fallback)
  silent : ∀ before event after, loop.yielded = before ++ event :: after → event.isTerminal = true →
    after = [] ∧ ∀ attempt, loop.step config attempt = none

/-- The failures in a row once this attempt is over. -/
def counted (config : ResilientPushConfig) (loop : PushLoop) : PushAttempt → Nat
  | .opened _ _ held => (if config.healthy_reset_after ≤ held then 0 else loop.consecutive_failures) + 1
  | .unsupported | .failed _ => loop.consecutive_failures + 1

/-- An attempt that sends the primary's failures over to the fallback failed permanently,
    unless the fallback has no attempts enough to end the ladder. -/
def Earned (config : ResilientPushConfig) (loop : PushLoop) (attempt : PushAttempt) : Prop :=
  loop.active = .Primary → config.fallback.isSome →
    config.terminal_permanent_attempts ≤ config.fallback_threshold →
      config.fallback_threshold ≤ loop.counted config attempt → attempt.isPermanent = true

/-- A loop under way: nothing terminal was yielded, the counters stay below their
    bounds, and the loop came to the fallback over a broken primary. -/
structure Steady (config : ResilientPushConfig) (loop : PushLoop) : Prop where
  running : loop.parked = false
  quiet : ∀ event ∈ loop.yielded, event.isTerminal = false
  ladder : loop.active = .Fallback → config.fallback.isSome
  streak_le : loop.permanent_streak ≤ loop.consecutive_failures
  streak : 0 < loop.permanent_streak → loop.Broken loop.active
  room : config.fallback.isSome → loop.consecutive_failures < config.fallback_threshold
  primary : loop.active = .Fallback → config.terminal_permanent_attempts ≤ config.fallback_threshold →
    loop.Broken .Primary

/-- A parked loop: its last word is Terminal, over a ladder that is broken throughout. -/
structure Parked (config : ResilientPushConfig) (loop : PushLoop) : Prop where
  parked : loop.parked = true
  last : ∃ before event, loop.yielded = before ++ [event] ∧ ∀ event ∈ before, event.isTerminal = false
  broken : loop.Broken .Primary ∧ (config.fallback.isSome → loop.Broken .Fallback)

section Attempt

theorem active_attempted : (loop.attempted config attempt).active = loop.active := by
  cases attempt <;> rfl

theorem failures_attempted : (loop.attempted config attempt).consecutive_failures = loop.counted config attempt := by
  cases attempt <;> rfl

theorem parked_attempted : (loop.attempted config attempt).parked = loop.parked := by
  cases attempt <;> rfl

theorem latest_attempted (transport : ActiveTransport) : (loop.attempted config attempt).latest transport =
    if transport = loop.active then some attempt else loop.latest transport := by
  cases attempt <;> rfl

theorem quiet_attempted (hquiet : ∀ event ∈ loop.yielded, event.isTerminal = false) :
    ∀ event ∈ (loop.attempted config attempt).yielded, event.isTerminal = false := by
  intro event hevent
  cases attempt with
  | opened notifications reason held =>
    simp only [attempted, List.mem_append, List.mem_singleton, List.mem_map] at hevent
    rcases hevent with ((hevent | rfl) | ⟨notification, _, rfl⟩) | rfl
    · exact hquiet event hevent
    · rfl
    · rfl
    · rfl
  | unsupported => exact hquiet event hevent
  | failed error =>
    simp only [attempted, List.mem_append, List.mem_singleton] at hevent
    rcases hevent with hevent | rfl
    · exact hquiet event hevent
    · rfl

/-- An attempt counts one failure at most; a streak lasts over permanent failures alone. -/
theorem counters_attempted (hle : loop.permanent_streak ≤ loop.consecutive_failures) :
    (loop.attempted config attempt).consecutive_failures ≤ loop.consecutive_failures + 1 ∧
      (loop.attempted config attempt).permanent_streak ≤ (loop.attempted config attempt).consecutive_failures ∧
      (0 < (loop.attempted config attempt).permanent_streak → attempt.isPermanent = true) := by
  cases attempt with
  | opened notifications reason held =>
    refine ⟨?_, Nat.zero_le _, fun hpositive => absurd hpositive (Nat.lt_irrefl 0)⟩
    show (if config.healthy_reset_after ≤ held then 0 else loop.consecutive_failures) + 1 ≤ _
    split_ifs <;> omega
  | unsupported =>
    refine ⟨Nat.le_refl _, ?_, fun _ => rfl⟩
    exact Nat.succ_le_succ hle
  | failed error =>
    refine ⟨Nat.le_refl _, ?_, fun hpositive => ?_⟩
    · show (if open_failure_is_permanent error then loop.permanent_streak + 1 else 0) ≤ loop.consecutive_failures + 1
      split_ifs <;> omega
    · by_contra htransient
      have hzero : (if open_failure_is_permanent error then loop.permanent_streak + 1 else 0) = 0 := if_neg htransient
      have hstreak : 0 < (if open_failure_is_permanent error then loop.permanent_streak + 1 else 0) := hpositive
      omega

theorem broken_attempted_active (hpermanent : attempt.isPermanent = true) :
    (loop.attempted config attempt).Broken loop.active :=
  ⟨attempt, by rw [latest_attempted, if_pos rfl], hpermanent⟩

theorem broken_attempted_other {transport : ActiveTransport} (hother : transport ≠ loop.active)
    (hbroken : loop.Broken transport) : (loop.attempted config attempt).Broken transport := by
  obtain ⟨latest, hlatest, hpermanent⟩ := hbroken
  exact ⟨latest, by rw [latest_attempted, if_neg hother, hlatest], hpermanent⟩

end Attempt

/-- Everything the checks can do: park the loop, change the transport, or go on. -/
theorem checked_cases (loop : PushLoop) :
    (loop.ladder_exhausted config = true ∧ config.terminal_permanent_attempts ≤ loop.permanent_streak ∧
        loop.checked config = loop.terminal config) ∨
      (∃ fallback, config.fallback = some fallback ∧ config.fallback_threshold ≤ loop.consecutive_failures ∧
        loop.checked config = loop.switched config fallback) ∨
      ((config.fallback.isSome → loop.consecutive_failures < config.fallback_threshold) ∧
        loop.checked config = loop) := by
  unfold checked
  split_ifs with hterminal hfallback
  · exact .inl ⟨hterminal.1, hterminal.2, rfl⟩
  · cases hnext : config.fallback with
    | none => exact .inr (.inr ⟨fun hsome => absurd hsome (by simp), rfl⟩)
    | some fallback => exact .inr (.inl ⟨fallback, rfl, hfallback, rfl⟩)
  · exact .inr (.inr ⟨fun _ => by omega, rfl⟩)

/-- Parking: the streak is the active transport's, and on the fallback the primary is broken already. -/
theorem Steady.parked_terminal (hsteady : loop.Steady config)
    (hexhausted : (loop.attempted config attempt).ladder_exhausted config = true)
    (hstreak : config.terminal_permanent_attempts ≤ (loop.attempted config attempt).permanent_streak) :
    ((loop.attempted config attempt).terminal config).Parked config := by
  obtain ⟨hcount, hle, hlasting⟩ := @counters_attempted config loop attempt hsteady.streak_le
  have hpositive := config.terminal_positive
  have hpermanent : attempt.isPermanent = true := hlasting (by omega)
  refine ⟨rfl, ⟨_, _, rfl, quiet_attempted hsteady.quiet⟩, ?_⟩
  show (loop.attempted config attempt).Broken .Primary ∧
    (config.fallback.isSome → (loop.attempted config attempt).Broken .Fallback)
  have hactive := @broken_attempted_active config loop attempt hpermanent
  cases hwhich : loop.active with
  | Primary =>
    rw [hwhich] at hactive
    refine ⟨hactive, fun hsome => ?_⟩
    rw [ladder_exhausted, active_attempted, hwhich] at hexhausted
    simp [Option.isSome_iff_ne_none.mp hsome] at hexhausted
  | Fallback =>
    rw [hwhich] at hactive
    have hroom := hsteady.room (hsteady.ladder hwhich)
    have hprimary := hsteady.primary hwhich (by omega)
    exact ⟨broken_attempted_other (by rw [hwhich]; decide) hprimary, fun _ => hactive⟩

/-- Changing the transport starts over with both counters. -/
theorem Steady.steady_switched {fallback : String} (hsteady : loop.Steady config)
    (hearned : loop.Earned config attempt) (hfallback : config.fallback = some fallback)
    (hfailures : config.fallback_threshold ≤ (loop.attempted config attempt).consecutive_failures) :
    ((loop.attempted config attempt).switched config fallback).Steady config := by
  have hsome : config.fallback.isSome := by rw [hfallback]; rfl
  have hrunning : (loop.attempted config attempt).parked = false := parked_attempted.trans hsteady.running
  have hquiet := @quiet_attempted config loop attempt hsteady.quiet
  have hzero : ∀ transport, 0 < 0 → (loop.attempted config attempt).Broken transport :=
    fun _ hpositive => absurd hpositive (Nat.lt_irrefl 0)
  unfold switched
  rw [active_attempted]
  cases hwhich : loop.active with
  | Primary =>
    refine ⟨hrunning, fun event hevent => ?_, fun _ => hsome, Nat.le_refl 0, hzero .Fallback,
      fun _ => config.fallback_positive, fun _ hbudget => ?_⟩
    · rcases List.mem_append.mp hevent with hevent | hevent
      · exact hquiet event hevent
      · rw [List.mem_singleton.mp hevent]
        rfl
    · have hbroken := @broken_attempted_active config loop attempt (hearned hwhich hsome hbudget (failures_attempted ▸ hfailures))
      rwa [hwhich] at hbroken
  | Fallback =>
    exact ⟨hrunning, hquiet, fun hother => (by cases hother), Nat.le_refl 0, hzero .Primary,
      fun _ => config.fallback_positive, fun hother => (by cases hother)⟩

/-- One pass keeps a steady loop steady, or parks it over a broken ladder. -/
theorem Steady.pass (hsteady : loop.Steady config) (hearned : loop.Earned config attempt) :
    ((loop.attempted config attempt).checked config).Steady config ∨
      ((loop.attempted config attempt).checked config).Parked config := by
  rcases checked_cases (loop.attempted config attempt) with
    ⟨hexhausted, hstreak, hcheck⟩ | ⟨fallback, hfallback, hfailures, hcheck⟩ | ⟨hroom, hcheck⟩
  · rw [hcheck]
    exact .inr (hsteady.parked_terminal hexhausted hstreak)
  · rw [hcheck]
    exact .inl (hsteady.steady_switched hearned hfallback hfailures)
  · rw [hcheck]
    obtain ⟨_, hle, hlasting⟩ := @counters_attempted config loop attempt hsteady.streak_le
    refine .inl ⟨parked_attempted.trans hsteady.running, quiet_attempted hsteady.quiet, ?_, hle, ?_, hroom, ?_⟩
    · rw [active_attempted]
      exact hsteady.ladder
    · rw [active_attempted]
      exact fun hpositive => broken_attempted_active (hlasting hpositive)
    · rw [active_attempted]
      intro hwhich hbudget
      exact broken_attempted_other (by rw [hwhich]; decide) (hsteady.primary hwhich hbudget)

theorem steady_start : start.Steady config where
  running := rfl
  quiet event hevent := by cases hevent
  ladder hwhich := by cases hwhich
  streak_le := Nat.le_refl 0
  streak hpositive := absurd hpositive (Nat.lt_irrefl 0)
  room _ := config.fallback_positive
  primary hwhich := by cases hwhich

theorem steady_or_parked (hreach : (resilient_push_stream config).Reachable (Earned config) loop) :
    loop.Steady config ∨ loop.Parked config := by
  induction hreach with
  | start hbegin =>
    obtain rfl := hbegin
    exact .inl steady_start
  | next _ hearned hstep ih =>
    rcases ih with hsteady | hparked
    · simp only [resilient_push_stream, TransitionSystem.ofFunction, step, hsteady.running] at hstep
      obtain rfl := Option.some.inj hstep
      exact hsteady.pass hearned
    · simp only [resilient_push_stream, TransitionSystem.ofFunction, step, hparked.parked] at hstep
      cases hstep

theorem Steady.givesUpLast (hsteady : loop.Steady config) : loop.GivesUpLast config := by
  refine ⟨fun event hevent hterminal => ?_, fun before event after hsplit hterminal => ?_⟩
  · rw [hsteady.quiet event hevent] at hterminal
    cases hterminal
  · have hevent : event ∈ loop.yielded := by
      rw [hsplit]
      exact List.mem_append_right _ List.mem_cons_self
    rw [hsteady.quiet event hevent] at hterminal
    cases hterminal

theorem Parked.givesUpLast (hparked : loop.Parked config) : loop.GivesUpLast config := by
  obtain ⟨before, last, hyielded, hquiet⟩ := hparked.last
  refine ⟨fun _ _ _ => hparked.broken, fun earlier event after hsplit hterminal => ⟨?_, fun attempt => ?_⟩⟩
  · -- an event before the last is not terminal
    rw [hyielded] at hsplit
    rcases List.eq_nil_or_concat after with hnil | ⟨rest, final, hconcat⟩
    · exact hnil
    · rw [hconcat, List.concat_eq_append, ← List.cons_append, ← List.append_assoc] at hsplit
      have hfront := (List.append_inj' hsplit rfl).1
      have hevent : event ∈ before := by
        rw [hfront]
        exact List.mem_append_right _ List.mem_cons_self
      rw [hquiet event hevent] at hterminal
      cases hterminal
  · rw [step, hparked.parked]
    rfl

/-- Failing the fallback permanently, again and again. -/
theorem streak_on_fallback {count : Nat} (hactive : loop.active = .Fallback) (hrunning : loop.parked = false)
    (hzero : loop.permanent_streak = 0) (hnone : loop.consecutive_failures = 0)
    (hcount : count < config.terminal_permanent_attempts)
    (hbudget : config.terminal_permanent_attempts ≤ config.fallback_threshold) :
    ∃ later, TransitionSystem.runActions (step config) (fun _ _ => true) loop (List.replicate count .unsupported) =
        some later ∧ later.active = .Fallback ∧ later.parked = false ∧ later.permanent_streak = count ∧
      later.consecutive_failures = count ∧ later.latest .Primary = loop.latest .Primary := by
  induction count with
  | zero => exact ⟨loop, rfl, hactive, hrunning, hzero, hnone, rfl⟩
  | succ count ih =>
    obtain ⟨later, hrun, hwhich, hstill, hstreak, hfailures, hlatest⟩ := ih (by omega)
    have hchecked : (later.attempted config .unsupported).checked config = later.attempted config .unsupported := by
      unfold checked
      have hfew : ¬ config.terminal_permanent_attempts ≤ (later.attempted config .unsupported).permanent_streak := by
        show ¬ config.terminal_permanent_attempts ≤ later.permanent_streak + 1
        omega
      have hbelow : ¬ config.fallback_threshold ≤ (later.attempted config .unsupported).consecutive_failures := by
        show ¬ config.fallback_threshold ≤ later.consecutive_failures + 1
        omega
      rw [if_neg fun hboth => hfew hboth.2, if_neg hbelow]
    refine ⟨later.attempted config .unsupported, ?_, hwhich, hstill, ?_, ?_, ?_⟩
    · rw [List.replicate_succ', TransitionSystem.runActions_append, hrun]
      show (step config later .unsupported).bind _ = _
      rw [step, hstill, if_neg Bool.false_ne_true, hchecked]
      rfl
    · exact congrArg (· + 1) hstreak
    · exact congrArg (· + 1) hfailures
    · rw [latest_attempted, hwhich, if_neg (by decide)]
      exact hlatest

/-- An unearned step hands a primary that is not broken over to the fallback. -/
theorem Steady.handed_over (hsteady : loop.Steady config) (hunearned : ¬ loop.Earned config attempt)
    (hstep : loop.step config attempt = some after) :
    config.terminal_permanent_attempts ≤ config.fallback_threshold ∧ config.fallback.isSome ∧
      after.active = .Fallback ∧ after.parked = false ∧ after.permanent_streak = 0 ∧
      after.consecutive_failures = 0 ∧ ¬ after.Broken .Primary := by
  rw [Earned] at hunearned
  simp only [Classical.not_imp] at hunearned
  obtain ⟨hwhich, hsome, hbudget, hfailures, htransient⟩ := hunearned
  rw [← failures_attempted] at hfailures
  obtain ⟨fallback, hfallback⟩ := Option.isSome_iff_exists.mp hsome
  rw [step, hsteady.running, if_neg Bool.false_ne_true, Option.some.injEq] at hstep
  have hladder : (loop.attempted config attempt).ladder_exhausted config = false := by
    rw [ladder_exhausted, active_attempted, hwhich, hfallback]
    rfl
  have hchecked : (loop.attempted config attempt).checked config =
      (loop.attempted config attempt).switched config fallback := by
    rw [checked, hladder, if_neg fun hboth => Bool.false_ne_true hboth.1, if_pos hfailures, hfallback]
  rw [hchecked, switched, active_attempted, hwhich] at hstep
  obtain rfl := hstep
  refine ⟨hbudget, hsome, rfl, parked_attempted.trans hsteady.running, rfl, rfl, ?_⟩
  rintro ⟨latest, hlatest, hpermanent⟩
  have hsame : (loop.attempted config attempt).latest .Primary = some latest := hlatest
  rw [latest_attempted, hwhich, if_pos rfl, Option.some.injEq] at hsame
  rw [hsame] at htransient
  exact htransient hpermanent

/-- An unearned step leads on to a Terminal over a primary that is not broken. -/
theorem Steady.unearned (hsteady : loop.Steady config) (hunearned : ¬ loop.Earned config attempt)
    (hstep : loop.step config attempt = some after) :
    ∃ attempts later, TransitionSystem.runActions (step config) (fun _ _ => true) after attempts = some later ∧
      ¬ later.GivesUpLast config := by
  obtain ⟨hbudget, hsome, hwhich, hrunning, hzero, hnone, hwhole⟩ := hsteady.handed_over hunearned hstep
  have hpositive := config.terminal_positive
  obtain ⟨later, hrun, hactive, hstill, hstreak, _, hlatest⟩ :=
    @streak_on_fallback config after (config.terminal_permanent_attempts - 1) hwhich hrunning hzero hnone (by omega) hbudget
  have hchecked : (later.attempted config .unsupported).checked config =
      (later.attempted config .unsupported).terminal config := by
    have hexhausted : (later.attempted config .unsupported).ladder_exhausted config = true := by
      rw [ladder_exhausted, active_attempted, hactive]
      simp
    have hspent : config.terminal_permanent_attempts ≤ (later.attempted config .unsupported).permanent_streak := by
      show config.terminal_permanent_attempts ≤ later.permanent_streak + 1
      omega
    rw [checked, if_pos ⟨hexhausted, hspent⟩]
  refine ⟨List.replicate (config.terminal_permanent_attempts - 1) .unsupported ++ [.unsupported],
    (later.attempted config .unsupported).terminal config, ?_, fun hgives => hwhole ?_⟩
  · rw [TransitionSystem.runActions_append, hrun]
    show (step config later .unsupported).bind _ = _
    rw [step, hstill, if_neg Bool.false_ne_true, hchecked]
    rfl
  · obtain ⟨attempt, hattempt, hpermanent⟩ := (hgives.broken _ (List.mem_append_right _ List.mem_cons_self) rfl).1
    have hsame : (later.attempted config .unsupported).latest .Primary = some attempt := hattempt
    rw [latest_attempted, hactive, if_neg (by decide), hlatest] at hsame
    exact ⟨attempt, hsame, hpermanent⟩

/-- In every run in which only permanent failures send the primary over to a
    fallback that can end the ladder, the stream gives up last; any other such
    step leads on to a Terminal while the primary is not broken. -/
theorem gives_up_last {config : ResilientPushConfig} {loop : PushLoop}
    (hreach : (resilient_push_stream config).Reachable (Earned config) loop) :
    loop.GivesUpLast config ∧
      ∀ attempt after, ¬ loop.Earned config attempt → loop.step config attempt = some after →
        ∃ attempts later, TransitionSystem.runActions (step config) (fun _ _ => true) after attempts = some later ∧
          ¬ later.GivesUpLast config := by
  rcases steady_or_parked hreach with hsteady | hparked
  · exact ⟨hsteady.givesUpLast, fun _ _ hunearned hstep => hsteady.unearned hunearned hstep⟩
  · refine ⟨hparked.givesUpLast, fun attempt after _ hstep => ?_⟩
    rw [step, hparked.parked] at hstep
    cases hstep

/-- A websocket with an event stream to fall back on, three attempts each. -/
def ladder : ResilientPushConfig := ⟨"ws", some "sse", 60, 3, 3, by decide, by decide⟩

instance : Decidable (loop.Earned config attempt) :=
  inferInstanceAs (Decidable (loop.active = .Primary → config.fallback.isSome →
    config.terminal_permanent_attempts ≤ config.fallback_threshold →
      config.fallback_threshold ≤ loop.counted config attempt → attempt.isPermanent = true))

/-- What the loop comes to over earned attempts. -/
def earnedRun (config : ResilientPushConfig) : List PushAttempt → Option PushLoop :=
  TransitionSystem.runActions (step config) (fun loop attempt => decide (loop.Earned config attempt)) start

/-- A server with neither transport: push gives up, over a broken ladder. -/
theorem gives_up_last_unsupported :
    ∃ loop, earnedRun ladder (List.replicate 6 .unsupported) = some loop ∧ loop.parked = true ∧
      loop.GivesUpLast ladder := by
  have hparked : (earnedRun ladder (List.replicate 6 .unsupported)).map (·.parked) = some true := by decide
  obtain ⟨loop, hrun, hlast⟩ := Option.map_eq_some_iff.mp hparked
  have hreach : (resilient_push_stream ladder).Reachable (Earned ladder) loop :=
    TransitionSystem.reachable_of_runActions (fun _ _ => of_decide_eq_true) (.start rfl) hrun
  exact ⟨loop, hrun, hlast, (gives_up_last hreach).1⟩

/-- The attempts of a primary that is only offline, over a fallback the server lacks. -/
def offlinePrimary : List PushAttempt := List.replicate 3 (.failed (.Network "timeout")) ++ List.replicate 3 .unsupported

/-- The primary is only offline, the fallback is not there: push gives up all the same. -/
theorem offline_primary_is_given_up : ¬ ∀ (config : ResilientPushConfig) (loop : PushLoop),
    (resilient_push_stream config).Reachable TransitionSystem.unguarded loop → loop.GivesUpLast config := by
  intro hclaim
  have hrun : (TransitionSystem.runActions (step ladder) (fun _ _ => true) start offlinePrimary).map
      (fun loop => (loop.yielded.any PushStreamEvent.isTerminal, (loop.latest .Primary).map PushAttempt.isPermanent)) =
        some (true, some false) := by decide
  obtain ⟨loop, hrun, hlast⟩ := Option.map_eq_some_iff.mp hrun
  obtain ⟨hterminal, htransient⟩ := Prod.mk.inj hlast
  have hreach : (resilient_push_stream ladder).Reachable TransitionSystem.unguarded loop :=
    TransitionSystem.reachable_of_runActions (fun _ _ _ => trivial) (.start rfl) hrun
  obtain ⟨event, hevent, hisTerminal⟩ := List.any_eq_true.mp hterminal
  obtain ⟨attempt, hattempt, hpermanent⟩ := ((hclaim ladder loop hreach).broken event hevent hisTerminal).1
  rw [hattempt, Option.map_some, hpermanent] at htransient
  cases htransient

end PushLoop

end posthaste.push
