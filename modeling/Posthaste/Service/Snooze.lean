import Mathlib.Data.List.Sort
import Posthaste.Library.Transition
import Posthaste.Service.Mutation

open serde posthaste.model posthaste.store

namespace posthaste.service

def SNOOZE_DUE_BATCH_LIMIT : Nat := 500

/-- The commands that take part: a snooze, a mailbox replace of another origin (an
    unsnooze, a move, an undo), the scheduler's return of a due message, a destroy. -/
inductive SnoozeCommand where
  | snooze (until_ : Int)
  | replace (mailbox_ids : List MailboxId)
  | auto_return (now until_ : Int) (inbox_id : MailboxId)
  | destroy

def SnoozeCommand.isSnooze : SnoozeCommand → Bool
  | .snooze _ => true
  | _ => false

/-- How far a command is: its operation queued, folded into the overlay, the snooze
    row cleared, or its move through and the new return time not yet recorded. -/
inductive SnoozePhase where
  | queued
  | folded
  | cleared
  | moved
  deriving DecidableEq

structure SnoozeCall where
  message_id : MessageId
  command : SnoozeCommand
  operation : Operation
  phase : SnoozePhase

/-- The scheduler between its listing of the due rows and the last of its moves. -/
structure SnoozeTick where
  now : Int
  inbox_id : MailboxId
  due : List (MessageId × Int)

/-- One account's store with its return times and the commands under way. -/
structure SnoozeService where
  store : DatabaseStore
  message_snooze : AList fun _ : MessageId => Int
  calls : Nat → Option SnoozeCall
  tick : Option SnoozeTick
  /-- The return time last asked for. -/
  requested : MessageId → Option Int
  /-- A snooze has ended that moved the message, which has been in the snooze mailbox since. -/
  parked : MessageId → Bool

inductive SnoozeStep where
  | snooze (call : Nat) (message_id : MessageId) (until_ : Int) (minted : Minted)
  | replace_mailboxes (call : Nat) (message_id : MessageId) (mailbox_ids : List MailboxId) (minted : Minted)
  | destroy_message (call : Nat) (message_id : MessageId) (minted : Minted)
  | list_due_snoozes (now : Int)
  /-- The scheduler goes on to its next due message. -/
  | auto_return (call : Nat) (minted : Minted)
  | refresh_message_overlay (call : Nat) (fails : Bool)
  | delete_snooze (call : Nat) (fails : Bool)
  /-- The effective read and the echo event. -/
  | echo (call : Nat) (fails : Bool)
  | insert_snooze (call : Nat) (fails : Bool)
  /-- The command is gone: its future was dropped, or the process. -/
  | dropped (call : Nat)
  /-- Any other transaction: a sync batch, a settlement, a retirement, a keyword change. -/
  | other (after : DatabaseStore)

namespace SnoozeService

variable (service : SnoozeService)

def snoozeMailbox (store : DatabaseStore) : Option MailboxId := store.read_mailbox_id_by_role_on "snooze"

/-- Whether the message's effective mailboxes include the snooze mailbox. -/
def snoozedIn (store : DatabaseStore) (message_id : MessageId) : Bool :=
  match snoozeMailbox store, store.effective message_id with
  | some mailbox, some row => mailbox ∈ row.mailbox_ids
  | _, _ => false

def list_due (now : Int) : List (MessageId × Int) :=
  let due := (service.message_snooze.entries.map fun row => (row.1, row.2)).filter fun row => row.2 ≤ now
  (due.mergeSort fun first second => first.2 ≤ second.2).take SNOOZE_DUE_BATCH_LIMIT

def setCall (id : Nat) (call : Option SnoozeCall) : SnoozeService :=
  { service with calls := Function.update service.calls id call }

/-- The store is written to; a message that left the snooze mailbox is no longer parked. -/
def setStore (store : DatabaseStore) : SnoozeService :=
  { service with store, parked := fun message_id => service.parked message_id && snoozedIn store message_id }

/-- A snooze whose move was folded leaves its message parked. -/
def parks (store : DatabaseStore) (call : SnoozeCall) : Bool :=
  call.command.isSnooze && call.phase != .queued && snoozedIn store call.message_id

def finish (id : Nat) (call : SnoozeCall) : SnoozeService :=
  { service.setCall id none with
    parked := if parks service.store call then Function.update service.parked call.message_id true else service.parked }

/-- A local failure retracts the operation and ends the command. -/
def retract (id : Nat) (call : SnoozeCall) : SnoozeService :=
  (service.setStore { service.store with outbox := service.store.outbox.remove_operation call.operation.id }).finish
    id call

def queue (id : Nat) (message_id : MessageId) (command : SnoozeCommand) (kind : OperationKind) (payload : Value)
    (minted : Minted) : SnoozeService :=
  match (queue_message_operation message_id kind payload minted).run service.store with
  | .ok operation store =>
    { (service.setStore store).setCall id (some ⟨message_id, command, operation, .queued⟩) with
      requested := match command with
        | .snooze until_ => Function.update service.requested message_id (some until_)
        | _ => service.requested }
  | .error _ store => service.setStore store

def replaceWith (id : Nat) (message_id : MessageId) (command : SnoozeCommand) (mailbox_ids : List MailboxId)
    (minted : Minted) : SnoozeService :=
  service.queue id message_id command .ReplaceMailboxes (to_value (⟨mailbox_ids⟩ : ReplaceMailboxesCommand)) minted

/-- The fold of the queued operation. A destroy has nothing further to do here. -/
def refreshed (id : Nat) (call : SnoozeCall) (store : DatabaseStore) : SnoozeService :=
  match call.command with
  | .destroy => (service.setStore store).finish id call
  | _ => (service.setStore store).setCall id (some { call with phase := .folded })

def step (action : SnoozeStep) : Option SnoozeService :=
  match action with
  | .snooze id message_id until_ minted =>
    match service.calls id, snoozeMailbox service.store with
    | none, some mailbox => some (service.replaceWith id message_id (.snooze until_) [mailbox] minted)
    | _, _ => none
  | .replace_mailboxes id message_id mailbox_ids minted =>
    match service.calls id with
    | none => some (service.replaceWith id message_id (.replace mailbox_ids) mailbox_ids minted)
    | some _ => none
  | .destroy_message id message_id minted =>
    match service.calls id with
    | none => some (service.queue id message_id .destroy .Destroy (.object []) minted)
    | some _ => none
  | .list_due_snoozes now =>
    match service.store.read_mailbox_id_by_role_on "inbox" with
    | some inbox_id => some { service with tick := some ⟨now, inbox_id, service.list_due now⟩ }
    | none => none
  | .auto_return id minted =>
    match service.calls id, service.tick with
    | none, some ⟨now, inbox_id, (message_id, until_) :: due⟩ =>
      some ({ service with tick := some ⟨now, inbox_id, due⟩ }.replaceWith id message_id
        (.auto_return now until_ inbox_id) [inbox_id] minted)
    | _, _ => none
  | .refresh_message_overlay id fails =>
    match service.calls id with
    | some ⟨message_id, command, operation, .queued⟩ =>
      match fails, (posthaste.service.refresh_message_overlay message_id).run service.store with
      | false, .ok _ store => some (service.refreshed id ⟨message_id, command, operation, .queued⟩ store)
      | _, _ => some (service.retract id ⟨message_id, command, operation, .queued⟩)
    | _ => none
  | .delete_snooze id fails =>
    match service.calls id with
    | some ⟨message_id, command, operation, .folded⟩ =>
      if fails then some (service.retract id ⟨message_id, command, operation, .folded⟩)
      else some { service.setCall id (some ⟨message_id, command, operation, .cleared⟩) with
        message_snooze := service.message_snooze.erase message_id }
    | _ => none
  | .echo id fails =>
    match service.calls id with
    | some ⟨message_id, command, operation, .cleared⟩ =>
      if fails || (service.store.effective message_id).isNone then
        some (service.retract id ⟨message_id, command, operation, .cleared⟩)
      else match command with
        | .snooze _ => some (service.setCall id (some ⟨message_id, command, operation, .moved⟩))
        | _ => some (service.finish id ⟨message_id, command, operation, .cleared⟩)
    | _ => none
  | .insert_snooze id fails =>
    match service.calls id with
    | some ⟨message_id, .snooze until_, operation, .moved⟩ =>
      let inserted := if fails then service.message_snooze else service.message_snooze.insert message_id until_
      some ({ service with message_snooze := inserted }.finish id ⟨message_id, .snooze until_, operation, .moved⟩)
    | _ => none
  | .dropped id => (service.calls id).map fun call => service.finish id call
  | .other after => some (service.setStore after)

/-- No return time, no command under way, nothing asked for. -/
def Fresh (service : SnoozeService) : Prop :=
  service.message_snooze = ∅ ∧ (service.calls = fun _ => none) ∧ service.tick = none ∧
    (service.requested = fun _ => none) ∧ service.parked = fun _ => false

/-- Every interleaving of the commands, the scheduler and all other transactions. -/
def snoozing : TransitionSystem SnoozeService SnoozeStep := .ofFunction Fresh step

end SnoozeService

end posthaste.service
