import Posthaste.Library.Future
import Posthaste.RevLog.Calls
import Posthaste.Service.SyncOps

open serde effects posthaste.model posthaste.store posthaste.service

namespace posthaste.event_bus

structure DomainEvent where
  topic : String
  mailbox_id : Option MailboxId
  message_id : Option MessageId

def EVENT_TOPIC_MESSAGE_UPDATED : String := "message.updated"

/-- The account's mail tables, and what else the backend stores: events, rev-log,
    snoozes, bodies, configuration. -/
structure Stored (ρ : Type) where
  database : DatabaseStore
  rest : ρ

/-- The writes to the tables beside the mail. Each may fail, and then writes nothing. -/
structure Tables (ρ : Type) where
  append_event : DomainEvent → ρ → Except ServiceError ρ
  append_rev_log_step : MessageId → undo_redo.StepDiff → ρ → Except ServiceError ρ
  set_rev_cursor : undo_redo.RevCursor → ρ → Except ServiceError ρ
  delete_snooze : MessageId → ρ → Except ServiceError ρ
  insert_snooze : MessageId → Int → ρ → Except ServiceError ρ

/-- A future over the store and its generation, with `?` for its errors. -/
abbrev Async (ρ : Type) := ExceptT ServiceError (Future (Stored ρ))

section Steps

variable {ρ α : Type}

def reading (select : Stored ρ → α) : Async ρ α := ExceptT.mk (.read fun stored => .ready (.ok (select stored)))

def outcome : EStateM.Result ServiceError DatabaseStore α → Except ServiceError α
  | .ok value _ => .ok value
  | .error error _ => .error error

/-- One service call on the mail tables that takes one transaction. A fault of the
    database makes it fail unmade. -/
def transaction (fails : Bool) (call : MailService α) : Async ρ α :=
  if fails then throw (.Store (.Failure "database fault"))
  else ExceptT.mk (.commit (fun stored => { stored with database := final (call.run stored.database) }) fun stored =>
    .ready (outcome (call.run stored.database)))

/-- A write to the other tables. -/
def beside (write : ρ → Except ServiceError ρ) : Async ρ Unit :=
  ExceptT.mk (.commit
    (fun stored => match write stored.rest with
      | .ok rest => { stored with rest }
      | .error _ => stored)
    fun stored => .ready ((write stored.rest).map fun _ => ()))

/-- `EventBus::publish`: one step of the generation for a batch that is not empty. -/
def publish (events : List DomainEvent) : Async ρ Unit :=
  if events.isEmpty then return () else ExceptT.mk (.advance fun _ => .ready (.ok ()))

def bump : Async ρ Nat := ExceptT.mk (.advance fun generation => .ready (.ok generation))

def generation : Async ρ Nat := ExceptT.mk (.observe fun generation => .ready (.ok generation))

/-- A service call of any number of transactions, whatever they write and however it ends. -/
structure ServiceCall (ρ α : Type) where
  writes : List (Stored ρ → Stored ρ)
  result : Except ServiceError α

def commitAll : List (Stored ρ → Stored ρ) → Async ρ Unit
  | [] => return ()
  | write :: rest => do
    ExceptT.mk (.commit write fun _ => .ready (.ok ()))
    commitAll rest

def ServiceCall.run (call : ServiceCall ρ α) : Async ρ α := do
  commitAll call.writes
  ExceptT.mk (.ready call.result)

end Steps

/-- The steps of a mutation that a database fault may hit. -/
structure Faults where
  queue_operation : Bool
  refresh_message_overlay : Bool
  remove_operation : Bool

section Mutations

variable {ρ : Type} (tables : Tables ρ)

def append_event (event : DomainEvent) : Async ρ DomainEvent := do
  beside (tables.append_event event)
  return event

/-- The effective summary that an echo is built from. -/
def echoed (message_id : MessageId) : Async ρ MessageRow := do
  match ← reading (·.database.effective message_id) with
  | some summary => return summary
  | none => throw (.Store (.NotFound s!"message:{message_id}"))

/-- The mailbox an echo is scoped to; a mailbox replace clears the snooze row first. -/
def scopeMailbox (message_id : MessageId) (operation : Operation) (previous : Option MessageRow) :
    Async ρ (Option MailboxId) :=
  match operation.kind with
  | .SetKeywords => do
    let summary ← echoed message_id
    return summary.mailbox_ids.toList.head?
  | .ReplaceMailboxes =>
    match operation.intent with
    | .ok (.ReplaceMailboxes command) => do
      beside (tables.delete_snooze message_id)
      let _ ← echoed message_id
      return command.mailbox_ids.head?
    | .ok _ => return none
    | .error error => throw (.Gateway (.Internal error))
  | _ => return previous.bind fun summary => summary.mailbox_ids.toList.head?

/-- Fold the just-queued assertion into the overlay, and log its echo. -/
def apply_assertion_to_overlay (message_id : MessageId) (operation : Operation) (faults : Faults) :
    Async ρ (List DomainEvent) := do
  if operation.kind.is_state_assertion then
    let previous ← reading (·.database.effective message_id)
    if operation.kind = .Destroy ∧ previous.isNone then throw (.Store (.NotFound s!"message:{message_id}"))
    let _ ← transaction faults.refresh_message_overlay (refresh_message_overlay message_id)
    let scope_mailbox ← scopeMailbox tables message_id operation previous
    let event ← append_event tables ⟨EVENT_TOPIC_MESSAGE_UPDATED, scope_mailbox, some message_id⟩
    return [event]
  else return []

/-- The operation is taken back, if that does not fail as well. -/
def remove_operation_after_local_failure (operation : Operation) (faults : Faults) (error : ServiceError) :
    Async ρ (List DomainEvent) := do
  tryCatch (transaction faults.remove_operation (MailService.outbox (·.remove_operation operation.id))) fun _ => return ()
  throw error

def queue_then_emit_message_operation (message_id : MessageId) (kind : OperationKind) (payload : Value)
    (minted : Minted) (faults : Faults) : Async ρ (List DomainEvent) := do
  let operation ← transaction faults.queue_operation (queue_message_operation message_id kind payload minted)
  tryCatch (apply_assertion_to_overlay tables message_id operation faults)
    (remove_operation_after_local_failure operation faults)

/-- What each mutation gets from its request: the message, what is minted for it, and its faults. -/
structure Mutation where
  message_id : MessageId
  minted : Minted
  faults : Faults

def Mutation.set_keywords (mutation : Mutation) (command : SetKeywordsCommand) : Async ρ (List DomainEvent) :=
  queue_then_emit_message_operation tables mutation.message_id .SetKeywords (to_value command) mutation.minted
    mutation.faults

def Mutation.replace_mailboxes (mutation : Mutation) (command : ReplaceMailboxesCommand) :
    Async ρ (List DomainEvent) :=
  queue_then_emit_message_operation tables mutation.message_id .ReplaceMailboxes (to_value command) mutation.minted
    mutation.faults

def Mutation.destroy_message (mutation : Mutation) : Async ρ (List DomainEvent) :=
  queue_then_emit_message_operation tables mutation.message_id .Destroy (.object []) mutation.minted mutation.faults

end Mutations

section Api

variable {ρ : Type} (tables : Tables ρ)

/-- The events of a mail command, or a bump where there are none. The sync nudge that
    follows writes nothing. -/
def finish_mail_command (events : List DomainEvent) : Async ρ Nat :=
  if events.isEmpty then bump
  else do
    publish events
    generation

/-- Best effort: an empty diff records nothing, and a failed append is only logged. -/
def record_step (message_id : MessageId) (diff : undo_redo.StepDiff) : Async ρ Unit :=
  if diff.keywords.added = [] ∧ diff.keywords.removed = [] ∧ diff.mailboxes.added = [] ∧ diff.mailboxes.removed = [] then
    return ()
  else tryCatch (beside (tables.append_rev_log_step message_id diff)) fun _ => return ()

def set_keywords (mutation : Mutation) (change : SetKeywordsCommand) (record_undo : Bool) : Async ρ Nat := do
  let before ← reading fun stored => if record_undo then stored.database.effective mutation.message_id else none
  let events ← mutation.set_keywords tables change
  match before with
  | some current =>
    let added := change.add.filter (· ∉ current.keywords)
    let removed := change.remove.filter (· ∈ current.keywords)
    record_step tables mutation.message_id ⟨⟨added, removed⟩, ⟨[], []⟩⟩
  | none => pure ()
  finish_mail_command events

def replace_mailboxes (mutation : Mutation) (change : ReplaceMailboxesCommand) : Async ρ Nat := do
  let before ← reading (·.database.effective mutation.message_id)
  let events ← mutation.replace_mailboxes tables change
  match before with
  | some current =>
    let added := (BTreeSet.from_iter change.mailbox_ids).toList.filter (· ∉ current.mailbox_ids)
    let removed := current.mailbox_ids.toList.filter (· ∉ change.mailbox_ids)
    record_step tables mutation.message_id ⟨⟨[], []⟩, ⟨added, removed⟩⟩
  | none => pure ()
  finish_mail_command events

def destroy (mutation : Mutation) : Async ρ Nat := do
  let events ← mutation.destroy_message tables
  finish_mail_command events

/-- The move first, which clears any prior return time; then the new one. -/
def snooze (mutation : Mutation) (target : MailboxId) (until_ : Int) : Async ρ Nat := do
  let events ← mutation.replace_mailboxes tables ⟨[target]⟩
  beside (tables.insert_snooze mutation.message_id until_)
  finish_mail_command events

def unsnooze (mutation : Mutation) (target : MailboxId) : Async ρ Nat := do
  let events ← mutation.replace_mailboxes tables ⟨[target]⟩
  finish_mail_command events

/-- Apply one diff forward: keywords, then membership against what is effective then. -/
def apply_diff (keywords mailboxes : Mutation) (diff : undo_redo.StepDiff) : Async ρ (List DomainEvent) := do
  let changed ←
    if diff.keywords.added = [] ∧ diff.keywords.removed = [] then pure []
    else keywords.set_keywords tables ⟨diff.keywords.added, diff.keywords.removed⟩
  if diff.mailboxes.added = [] ∧ diff.mailboxes.removed = [] then return changed
  let current ← echoed mailboxes.message_id
  let kept := current.mailbox_ids.toList.filter (· ∉ diff.mailboxes.removed)
  let moved ← mailboxes.replace_mailboxes tables ⟨diff.mailboxes.added.foldl
    (fun target added => if added ∈ target then target else target ++ [added]) kept⟩
  return changed ++ moved

/-- An undo or a redo of the step its plan names: the diff, then the cursor. -/
def undo_or_redo (keywords mailboxes : Mutation) (plan : undo_redo.Plan) : Async ρ Nat := do
  let events ← apply_diff tables keywords mailboxes plan.diff
  beside (tables.set_rev_cursor plan.cursor)
  finish_mail_command events

/-- `create_draft`, `update_draft`, `discard_draft`, `send`: one service call, and its events. -/
def mail_command (call : ServiceCall ρ (List DomainEvent)) : Async ρ Nat := do
  let events ← call.run
  finish_mail_command events

def retry_operation (call : ServiceCall ρ Unit) : Async ρ Nat := do
  call.run
  finish_mail_command []

/-- An operation that raced its settlement is gone already: nothing is discarded. -/
def cancel_operation : Option (ServiceCall ρ (List DomainEvent)) → Async ρ Nat
  | some call => do
    let events ← call.run
    finish_mail_command events
  | none => generation

/-- The mailbox commands' finish: no sync nudge. -/
def publish_events (events : List DomainEvent) : Async ρ Nat :=
  if events.isEmpty then bump
  else do
    publish events
    generation

/-- `set_mailbox_role`, whose service call ends with a resync where the provider keeps the role. -/
def set_mailbox_role (call : ServiceCall ρ (List DomainEvent)) : Async ρ Nat := do
  let events ← call.run
  publish_events events

/-- The account, settings, smart-mailbox and automation-rule commands: a configuration
    write and what follows it, then one event. Where nothing is to change they write nothing. -/
def configuration_command (topic : String) : Option (ServiceCall ρ Unit) → Async ρ Nat
  | some call => do
    call.run
    publish [⟨topic, none, none⟩]
    generation
  | none => generation

/-- A pass over the cached bodies, by its pages that filled something. Only such a pass
    is announced. -/
def rederive_message_metadata (pass : ServiceCall ρ Unit) : Async ρ Nat := do
  pass.run
  if pass.writes.isEmpty then generation else bump

end Api

end posthaste.event_bus
