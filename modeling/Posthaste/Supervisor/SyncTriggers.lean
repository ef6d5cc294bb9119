import Mathlib.Logic.Function.Basic
import Posthaste.Library.Transition

namespace posthaste.supervisor

inductive SyncTrigger where
  | startup
  | poll
  | push
  | manual
  deriving DecidableEq

inductive SyncMode where
  | incremental
  | fullMetadata
  deriving DecidableEq

def COMMAND_CHANNEL_CAPACITY : Nat := 32

inductive RuntimeCommand where
  | trigger (trigger : SyncTrigger) (mode : SyncMode)
  | triggerOnly (trigger : SyncTrigger)

structure SyncTriggerRequest where
  trigger : SyncTrigger
  mode : SyncMode

def RuntimeCommand.request : RuntimeCommand → SyncTriggerRequest
  | .trigger source mode => ⟨source, mode⟩
  | .triggerOnly source => ⟨source, .incremental⟩

structure SyncCoalesceState where
  active : Bool
  pending : Option SyncTrigger

namespace SyncCoalesceState

/-- Whether the trigger was coalesced. -/
def claim_or_coalesce (inner : SyncCoalesceState) (trigger : SyncTrigger) : Bool × SyncCoalesceState :=
  if inner.active then (true, { inner with pending := some trigger }) else (false, { inner with active := true })

def begin_cycle (inner : SyncCoalesceState) : SyncCoalesceState := { inner with active := true }

def finish_cycle_take_pending (inner : SyncCoalesceState) : Option SyncTrigger × SyncCoalesceState :=
  match inner.pending with
  | some trigger => (some trigger, { inner with pending := none })
  | none => (none, { inner with active := false })

def reset (_ : SyncCoalesceState) : SyncCoalesceState := ⟨false, none⟩

end SyncCoalesceState

/-- Where the runtime task stands: ended, spawned and not yet reset, in its select
    loop, in an arm outside any cycle, about to begin a cycle, in one, or past an
    arm that ran out of its budget. -/
inductive RuntimePhase where
  | down
  | fresh
  | selecting
  | arm
  | admitted (request : SyncTriggerRequest)
  | cycle (request : SyncTriggerRequest)
  | expired

/-- A `trigger_account_sync` call that holds a slot of an incarnation's channel:
    before its claim, or with the cycle claimed and the slot still unsent. -/
structure TriggerCall where
  trigger : SyncTrigger
  incarnation : Nat
  claimed : Bool

inductive TriggerEntry where
  | accepted (call : Nat)
  | began
  deriving DecidableEq

/-- The coalescer and the runtime of one account over its incarnations. -/
structure SyncRuntime where
  inner : SyncCoalesceState
  sync_cycle_count : Nat
  phase : RuntimePhase
  incarnation : Nat
  /-- What the live incarnation's channel holds, and its free slots. -/
  commands : List RuntimeCommand
  free : Nat
  calls : Nat → Option TriggerCall
  log : List TriggerEntry

inductive RuntimeStep where
  /-- A call finds the live sender and reserves a slot. -/
  | reserve (call : Nat) (trigger : SyncTrigger)
  | claim (call : Nat)
  | send (call : Nat)
  | sync_account (mode : SyncMode)
  /-- The runtime receives a command. -/
  | recv
  /-- A tick or a push event: the arm is outside a cycle until it drives one, or ends. -/
  | tick
  | drive (trigger : SyncTrigger)
  | arm_finished
  | begin_cycle
  | finish_cycle
  /-- The arm's budget elapses and what it was doing is dropped. -/
  | timeout
  | record_arm_timeout
  /-- The runtime task ends: it panics, is cancelled or is aborted. -/
  | ended
  | respawn
  | startup

namespace SyncRuntime

variable (runtime : SyncRuntime)

/-- The first incarnation, published and spawned. -/
def new : SyncRuntime := ⟨⟨false, none⟩, 0, .fresh, 0, [], COMMAND_CHANNEL_CAPACITY, fun _ => none, []⟩

/-- Whether the receiver of an incarnation's channel is still there. -/
def open_channel (incarnation : Nat) : Bool :=
  match runtime.phase with
  | .down => false
  | _ => incarnation = runtime.incarnation

def setCall (id : Nat) (call : Option TriggerCall) : SyncRuntime :=
  { runtime with calls := Function.update runtime.calls id call }

def reserve (id : Nat) (trigger : SyncTrigger) : Option SyncRuntime :=
  if (runtime.calls id).isNone && runtime.open_channel runtime.incarnation && 0 < runtime.free then
    some { runtime.setCall id (some ⟨trigger, runtime.incarnation, false⟩) with free := runtime.free - 1 }
  else none

/-- The claim of a call; a coalesced one drops its slot and has returned. -/
def claim (id : Nat) (call : TriggerCall) : SyncRuntime :=
  match runtime.inner.claim_or_coalesce call.trigger with
  | (true, inner) =>
    { runtime.setCall id none with
      inner
      free := if runtime.open_channel call.incarnation then runtime.free + 1 else runtime.free
      log := runtime.log ++ [.accepted id] }
  | (false, inner) =>
    { runtime.setCall id (some { call with claimed := true }) with inner, log := runtime.log ++ [.accepted id] }

/-- The slot is sent; into the channel of an incarnation that has ended, to nobody. -/
def send (id : Nat) (call : TriggerCall) : SyncRuntime :=
  if runtime.open_channel call.incarnation then
    { runtime.setCall id none with commands := runtime.commands ++ [.triggerOnly call.trigger] }
  else runtime.setCall id none

def sync_account_with_mode (mode : SyncMode) : Option SyncRuntime :=
  if runtime.open_channel runtime.incarnation && 0 < runtime.free then
    some { runtime with commands := runtime.commands ++ [.trigger .manual mode], free := runtime.free - 1 }
  else none

/-- One turn of `process_sync_trigger_with_state` ends; a coalesced trigger drives the next. -/
def finish_cycle : SyncRuntime :=
  match runtime.inner.finish_cycle_take_pending with
  | (some trigger, inner) => { runtime with inner, phase := .admitted ⟨trigger, .incremental⟩ }
  | (none, inner) => { runtime with inner, phase := .selecting }

def step (action : RuntimeStep) : Option SyncRuntime :=
  match action with
  | .reserve id trigger => runtime.reserve id trigger
  | .claim id =>
    match runtime.calls id with
    | some ⟨trigger, incarnation, false⟩ => some (runtime.claim id ⟨trigger, incarnation, false⟩)
    | _ => none
  | .send id =>
    match runtime.calls id with
    | some ⟨trigger, incarnation, true⟩ => some (runtime.send id ⟨trigger, incarnation, true⟩)
    | _ => none
  | .sync_account mode => runtime.sync_account_with_mode mode
  | .recv =>
    match runtime.phase, runtime.commands with
    | .selecting, command :: rest =>
      some { runtime with phase := .admitted command.request, commands := rest, free := runtime.free + 1 }
    | _, _ => none
  | .tick =>
    match runtime.phase with
    | .selecting => some { runtime with phase := .arm }
    | _ => none
  | .drive trigger =>
    match runtime.phase with
    | .arm => some { runtime with phase := .admitted ⟨trigger, .incremental⟩ }
    | _ => none
  | .arm_finished =>
    match runtime.phase with
    | .arm => some { runtime with phase := .selecting }
    | _ => none
  | .begin_cycle =>
    match runtime.phase with
    | .admitted request => some { runtime with
        inner := runtime.inner.begin_cycle
        sync_cycle_count := runtime.sync_cycle_count + 1
        phase := .cycle request
        log := runtime.log ++ [.began] }
    | _ => none
  | .finish_cycle =>
    match runtime.phase with
    | .cycle _ => some runtime.finish_cycle
    | _ => none
  | .timeout =>
    match runtime.phase with
    | .arm | .admitted _ | .cycle _ => some { runtime with phase := .expired }
    | _ => none
  | .record_arm_timeout =>
    match runtime.phase with
    | .expired => some { runtime with inner := runtime.inner.reset, phase := .selecting }
    | _ => none
  | .ended =>
    match runtime.phase with
    | .down => none
    | _ => some { runtime with phase := .down, commands := [] }
  | .respawn =>
    match runtime.phase with
    | .down => some { runtime with
        phase := .fresh
        incarnation := runtime.incarnation + 1
        commands := []
        free := COMMAND_CHANNEL_CAPACITY }
    | _ => none
  | .startup =>
    match runtime.phase with
    | .fresh => some { runtime with inner := runtime.inner.reset, phase := .admitted ⟨.startup, .incremental⟩ }
    | _ => none

/-- Every interleaving of the trigger calls with the runtime, its timeouts and restarts. -/
def triggering : TransitionSystem SyncRuntime RuntimeStep := .ofFunction (· = new) step

end SyncRuntime

end posthaste.supervisor
