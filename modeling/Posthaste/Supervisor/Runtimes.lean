import Mathlib.Logic.Function.Basic
import Posthaste.Library.Transition

namespace posthaste.supervisor

def WATCHDOG_MAX_RESTARTS : Nat := 3

/-- How the runtime task of an incarnation stands. -/
inductive Incarnation where
  | running
  | exited
  | panicked
  | aborted
  deriving DecidableEq

/-- How the watchdog stands: it watches its incarnation, backs off before the
    next one, or has returned or been aborted. -/
inductive Monitor where
  | watching
  | backoff
  | returned
  deriving DecidableEq

/-- A supervised account: its token, its watchdog and the one incarnation that owns. -/
structure ManagedRuntime where
  cancel : Bool
  monitor : Monitor
  restarts : Nat
  incarnation : Incarnation

inductive CallKind where
  | start_account (enabled : Bool)
  | stop_account
  | remove_account
  | stop_all
  deriving DecidableEq

def CallKind.starts : CallKind → Bool
  | .start_account enabled => enabled
  | _ => false

/-- Where a call stands: before the map is locked for its removal, in
    `join_or_escalate`, past its stop, or with a runtime spawned and not yet inserted. -/
inductive CallPhase where
  | begun
  | joining (runtime : Nat)
  | stopped
  | spawned (runtime : Nat)
  deriving DecidableEq

structure SupervisorCall where
  kind : CallKind
  phase : CallPhase

/-- One account's share of the supervisor: every runtime it ever spawned, the
    one the map holds, and the calls under way. -/
structure AccountSupervisor where
  root_cancel : Bool
  runtimes : Nat → Option ManagedRuntime
  count : Nat
  entry : Option Nat
  calls : Nat → Option SupervisorCall
  /-- The kind of the call that ended last, when it returned. -/
  last : Option CallKind

inductive SupervisorStep where
  | call (id : Nat) (kind : CallKind)
  /-- The call locks the map and removes the account's runtime. -/
  | remove (id : Nat)
  | joined (id : Nat)
  | escalated (id : Nat)
  /-- The call goes on past its stop: it spawns, or returns. -/
  | proceed (id : Nat)
  /-- The call locks the map again and inserts the runtime it spawned. -/
  | insert (id : Nat)
  /-- The future of the request behind the call is dropped. -/
  | dropped (id : Nat)
  | exit (runtime : Nat) (panics : Bool)
  | observe (runtime : Nat) (healthy : Bool)
  | respawn (runtime : Nat)
  | give_up (runtime : Nat)

namespace AccountSupervisor

variable (supervisor : AccountSupervisor)

def new : AccountSupervisor := ⟨false, fun _ => none, 0, none, fun _ => none, none⟩

def is_cancelled (runtime : ManagedRuntime) : Bool := supervisor.root_cancel || runtime.cancel

def setRuntime (id : Nat) (runtime : ManagedRuntime) : AccountSupervisor :=
  { supervisor with runtimes := Function.update supervisor.runtimes id (some runtime) }

@[simp] theorem runtimes_setRuntime_self (id : Nat) (runtime : ManagedRuntime) :
    (supervisor.setRuntime id runtime).runtimes id = some runtime := Function.update_self _ _ _

theorem runtimes_setRuntime_of_ne {id other : Nat} (hother : other ≠ id) (runtime : ManagedRuntime) :
    (supervisor.setRuntime id runtime).runtimes other = supervisor.runtimes other := Function.update_of_ne hother _ _

def setCall (id : Nat) (call : Option SupervisorCall) : AccountSupervisor :=
  { supervisor with calls := Function.update supervisor.calls id call }

def returned (id : Nat) (kind : CallKind) : AccountSupervisor :=
  { supervisor.setCall id none with last := some kind }

def callStarted (id : Nat) (kind : CallKind) : Option AccountSupervisor :=
  if (supervisor.calls id).isSome then none
  else some { supervisor.setCall id (some ⟨kind, .begun⟩) with
    root_cancel := supervisor.root_cancel || kind = .stop_all }

/-- The stop of each call: removed from the map, the runtime is cancelled at once. -/
def stop_account (id : Nat) (kind : CallKind) : AccountSupervisor :=
  match supervisor.entry with
  | none => supervisor.setCall id (some ⟨kind, .stopped⟩)
  | some entry =>
    let removed := { supervisor with entry := none }
    let cancelled := match supervisor.runtimes entry with
      | some runtime => removed.setRuntime entry { runtime with cancel := true }
      | none => removed
    cancelled.setCall id (some ⟨kind, .joining entry⟩)

/-- The watchdog has not returned within the deadline. -/
def escalate (id : Nat) (kind : CallKind) (runtime : Nat) : AccountSupervisor :=
  let aborted := match supervisor.runtimes runtime with
    | some managed => supervisor.setRuntime runtime { managed with
        monitor := .returned
        incarnation := if managed.incarnation = Incarnation.running then .aborted else managed.incarnation }
    | none => supervisor
  aborted.setCall id (some ⟨kind, .stopped⟩)

/-- The first incarnation and its watchdog, under a child of the root token. -/
def spawn (id : Nat) (kind : CallKind) : AccountSupervisor :=
  { supervisor.setRuntime supervisor.count ⟨false, .watching, 0, .running⟩ with
    count := supervisor.count + 1
    calls := Function.update supervisor.calls id (some ⟨kind, .spawned supervisor.count⟩) }

def proceed (id : Nat) (kind : CallKind) : AccountSupervisor :=
  if kind.starts then supervisor.spawn id kind else supervisor.returned id kind

/-- What the map held for the account is dropped without a word to its token. -/
def insert (id : Nat) (kind : CallKind) (runtime : Nat) : AccountSupervisor :=
  { supervisor.returned id kind with entry := some runtime }

/-- The watchdog takes the end of its incarnation: a stop, a restart after a
    backoff, or the halt once the restarts are used up. -/
def observe (id : Nat) (runtime : ManagedRuntime) (healthy : Bool) : AccountSupervisor :=
  let restarts := (if healthy then 0 else runtime.restarts) + 1
  if supervisor.is_cancelled runtime || runtime.incarnation == .aborted then
    supervisor.setRuntime id { runtime with monitor := .returned }
  else if WATCHDOG_MAX_RESTARTS < restarts then
    supervisor.setRuntime id { runtime with monitor := .returned, restarts }
  else supervisor.setRuntime id { runtime with monitor := .backoff, restarts }

def step (action : SupervisorStep) : Option AccountSupervisor :=
  match action with
  | .call id kind => supervisor.callStarted id kind
  | .remove id =>
    match supervisor.calls id with
    | some ⟨kind, .begun⟩ => some (supervisor.stop_account id kind)
    | _ => none
  | .joined id =>
    match supervisor.calls id with
    | some ⟨kind, .joining runtime⟩ =>
      if (supervisor.runtimes runtime).all fun managed => managed.monitor = .returned then
        some (supervisor.setCall id (some ⟨kind, .stopped⟩))
      else none
    | _ => none
  | .escalated id =>
    match supervisor.calls id with
    | some ⟨kind, .joining runtime⟩ => some (supervisor.escalate id kind runtime)
    | _ => none
  | .proceed id =>
    match supervisor.calls id with
    | some ⟨kind, .stopped⟩ => some (supervisor.proceed id kind)
    | _ => none
  | .insert id =>
    match supervisor.calls id with
    | some ⟨kind, .spawned runtime⟩ => some (supervisor.insert id kind runtime)
    | _ => none
  | .dropped id =>
    if (supervisor.calls id).isSome then some { supervisor.setCall id none with last := none } else none
  | .exit id panics =>
    match supervisor.runtimes id with
    | some ⟨cancel, monitor, restarts, .running⟩ =>
      some (supervisor.setRuntime id ⟨cancel, monitor, restarts, if panics then .panicked else .exited⟩)
    | _ => none
  | .observe id healthy =>
    match supervisor.runtimes id with
    | some ⟨cancel, .watching, restarts, incarnation⟩ =>
      if incarnation = .running then none
      else some (supervisor.observe id ⟨cancel, .watching, restarts, incarnation⟩ healthy)
    | _ => none
  | .respawn id =>
    match supervisor.runtimes id with
    | some ⟨cancel, .backoff, restarts, _⟩ => some (supervisor.setRuntime id ⟨cancel, .watching, restarts, .running⟩)
    | _ => none
  | .give_up id =>
    match supervisor.runtimes id with
    | some ⟨cancel, .backoff, restarts, incarnation⟩ =>
      if supervisor.is_cancelled ⟨cancel, .backoff, restarts, incarnation⟩ then
        some (supervisor.setRuntime id ⟨cancel, .returned, restarts, incarnation⟩)
      else none
    | _ => none

/-- Every interleaving of the calls with the watchdogs and the faults of the runtimes. -/
def supervision : TransitionSystem AccountSupervisor SupervisorStep := .ofFunction (· = new) step

end AccountSupervisor

end posthaste.supervisor
