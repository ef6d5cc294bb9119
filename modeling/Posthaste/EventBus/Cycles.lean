import Posthaste.Library.Announced
import Posthaste.EventBus.Commands
import Posthaste.Service.Sweep

open serde effects posthaste.model posthaste.store posthaste.service

namespace posthaste.event_bus

def EVENT_TOPIC_SYNC_COMPLETED : String := "sync.completed"

def EVENT_TOPIC_SYNC_FAILED : String := "sync.failed"

def EVENT_TOPIC_ACCOUNT_STATUS_CHANGED : String := "account.status_changed"

def EVENT_TOPIC_MAILBOX_UPDATED : String := "mailbox.updated"

def EVENT_TOPIC_MESSAGE_BODY_CACHED : String := "message.body_cached"

/-- A chunk of the pull, the events its transaction returns and the faults of its writes. -/
structure Chunk where
  batch : SyncBatch
  events : List DomainEvent
  apply_sync_batch : Bool
  refresh_message_overlay : MessageId → Bool

/-- The final pass of a streamed pull, with the same. -/
structure FinalPass where
  reconciliation : SyncReconciliation
  events : List DomainEvent
  reconcile_sync : Bool
  refresh_message_overlay : MessageId → Bool

/-- What the provider and the legs of one cycle do: the flushes, the chunks as the gateway
    streams them and how the stream ends, the automation, the sweep. -/
structure Cycle (ρ : Type) where
  flush : ServiceCall ρ (List DomainEvent)
  chunks : List Chunk
  stream : Except ServiceError (Option FinalPass)
  body_cache_candidates : ServiceCall ρ Unit
  automation : ServiceCall ρ (List DomainEvent)
  automation_flush : ServiceCall ρ (List DomainEvent)
  sweep : ServiceCall ρ (List DomainEvent)

section Sync

variable {ρ : Type} (tables : Tables ρ)

def refreshEach (fails : MessageId → Bool) : List MessageId → Async ρ Unit
  | [] => return ()
  | message_id :: rest => do
    let _ ← transaction (fails message_id) (refresh_message_overlay message_id)
    refreshEach fails rest

/-- Re-derive the rows of a base write that the inventory covers, each in its transaction. -/
def replay_base_write (written_rows : List MessageId) (fails : MessageId → Bool) : Async ρ Unit := do
  if written_rows.isEmpty then return ()
  let covered ← reading fun stored => inventory stored.database
  refreshEach fails (covered.filter (· ∈ written_rows))

/-- `ServiceSyncSink::emit`: commit the chunk, replay the rows it touched, then publish. -/
def emit (publisher : List DomainEvent → Async ρ Unit) (chunk : Chunk) : Async ρ (List DomainEvent) := do
  transaction chunk.apply_sync_batch (applyBatch chunk.batch)
  replay_base_write (writtenRows chunk.batch) chunk.refresh_message_overlay
  publisher chunk.events
  return chunk.events

def emitAll (publisher : List DomainEvent → Async ρ Unit) : List Chunk → Async ρ (List DomainEvent)
  | [] => return []
  | chunk :: rest => do
    let events ← emit publisher chunk
    let later ← emitAll publisher rest
    return events ++ later

/-- Prune the locals absent from the complete remote set, and replay the rows pruned. -/
def reconcile (publisher : List DomainEvent → Async ρ Unit) : Option FinalPass → Async ρ (List DomainEvent)
  | none => return []
  | some pass => do
    transaction pass.reconcile_sync (MailService.write (·.reconcile_sync pass.reconciliation))
    replay_base_write (pass.events.filterMap (·.message_id)) pass.refresh_message_overlay
    publisher pass.events
    return pass.events

/-- A leg whose failure is only logged. -/
def orEmpty (leg : Async ρ (List DomainEvent)) : Async ρ (List DomainEvent) := tryCatch leg fun _ => return []

/-- Flush, observe, reconcile, automate, flush, sweep, and the completion event. -/
def sync_account_with_mode (publisher : List DomainEvent → Async ρ Unit) (cycle : Cycle ρ) :
    Async ρ (List DomainEvent) := do
  let flush_events ← cycle.flush.run
  publisher flush_events
  let applied_events ← emitAll publisher cycle.chunks
  let final_pass ← ExceptT.mk (.ready cycle.stream)
  let reconcile_events ← reconcile publisher final_pass
  tryCatch cycle.body_cache_candidates.run fun _ => return ()
  let action_events ← orEmpty cycle.automation.run
  publisher action_events
  let settlement_events ← orEmpty (do
    let events ← cycle.automation_flush.run
    publisher events
    return events)
  let sweep_events ← cycle.sweep.run
  publisher sweep_events
  let sync_event ← append_event tables ⟨EVENT_TOPIC_SYNC_COMPLETED, none, none⟩
  publisher [sync_event]
  return flush_events ++ applied_events ++ reconcile_events ++ action_events ++ settlement_events ++ sweep_events ++
    [sync_event]

/-- A sync whose caller publishes the events. -/
def sync_account (cycle : Cycle ρ) : Async ρ (List DomainEvent) :=
  sync_account_with_mode tables (fun _ => return ()) cycle

/-- `create_mailbox`, `rename_mailbox`, `destroy_mailbox`: the provider's change, its event,
    and a resync. The gateway's refusal ends the command before it writes. -/
def mailbox_command (gateway : Except ServiceError MailboxId) (cycle : Cycle ρ) : Async ρ Nat := do
  let mailbox_id ← ExceptT.mk (.ready gateway)
  let changed ← append_event tables ⟨EVENT_TOPIC_MAILBOX_UPDATED, some mailbox_id, none⟩
  let synced ← sync_account tables cycle
  publish_events (changed :: synced)

/-- A status that changed is committed in memory; its event is logged and published, and a
    failed log is made up for by a bump. A guard that rejects the update does neither. -/
def update_runtime_overview (changed : Bool) : Async ρ Unit := do
  if changed then
    let logged ← tryCatch (some <$> append_event tables ⟨EVENT_TOPIC_ACCOUNT_STATUS_CHANGED, none, none⟩)
      fun _ => return none
    match logged with
    | some event => publish [event]
    | none => let _ ← bump
  else return ()

/-- Which of a cycle's status updates are accepted and change what is served. -/
structure StatusChanges where
  progress : Bool
  settled : Bool
  timed_out : Bool

/-- A cycle that failed, its failure logged and published. Where that fails as well, the
    status alone may still be announced. -/
def recordFailure (changes : StatusChanges) (error : ServiceError) : Async ρ Unit := do
  let recorded ← tryCatch (some <$> append_event tables ⟨EVENT_TOPIC_SYNC_FAILED, none, none⟩) fun _ => return none
  match recorded with
  | some event =>
    publish [event]
    update_runtime_overview tables changes.settled
  | none =>
    update_runtime_overview tables changes.settled
    throw error

/-- One cycle of an account's runtime. -/
def process_sync_trigger (changes : StatusChanges) (cycle : Cycle ρ) : Async ρ Unit := do
  update_runtime_overview tables changes.progress
  tryCatch (do
    let _ ← sync_account_with_mode tables publish cycle
    update_runtime_overview tables changes.settled) (recordFailure tables changes)

end Sync

section Reads

variable {ρ : Type} (tables : Tables ρ)

/-- A message's detail caches a body that was not yet loaded, in one transaction with its event. -/
def evaluate_message_detail (fetched : Option (Stored ρ → Except ServiceError (Stored ρ))) : Async ρ Unit :=
  match fetched with
  | none => return ()
  | some apply_message_body => do
    ExceptT.mk (.commit (fun stored => (apply_message_body stored).toOption.getD stored) fun stored =>
      .ready ((apply_message_body stored).map fun _ => ()))
    publish [⟨EVENT_TOPIC_MESSAGE_BODY_CACHED, none, none⟩]

/-- The snooze scheduler returns the due messages; a move that fails is passed over. -/
def auto_return_snoozed_messages (inbox_id : MailboxId) : List Mutation → Async ρ Nat
  | [] => return 0
  | mutation :: due => do
    let returned ← tryCatch (do
      let _ ← mutation.replace_mailboxes tables ⟨[inbox_id]⟩
      return 1) fun _ => return 0
    return returned + (← auto_return_snoozed_messages inbox_id due)

end Reads

/-- Everything that writes: the commands, the reads that cache a body, the accounts' cycles,
    their other status updates, and the snooze scheduler. -/
inductive Request (ρ : Type) where
  | SetKeywords (mutation : Mutation) (change : SetKeywordsCommand) (record_undo : Bool)
  | ReplaceMailboxes (mutation : Mutation) (change : ReplaceMailboxesCommand)
  | Destroy (mutation : Mutation)
  | Snooze (mutation : Mutation) (target : MailboxId) (until_ : Int)
  | Unsnooze (mutation : Mutation) (target : MailboxId)
  | UndoRedo (keywords mailboxes : Mutation) (plan : undo_redo.Plan)
  | Compose (call : ServiceCall ρ (List DomainEvent))
  | RetryOperation (call : ServiceCall ρ Unit)
  | CancelOperation (call : Option (ServiceCall ρ (List DomainEvent)))
  | Mailbox (gateway : Except ServiceError MailboxId) (cycle : Cycle ρ)
  | SetMailboxRole (call : ServiceCall ρ (List DomainEvent))
  | Configuration (topic : String) (call : Option (ServiceCall ρ Unit))
  | RederiveMessageMetadata (pass : ServiceCall ρ Unit)
  /-- `sync_now` and `unsubscribe` write nothing: what they start runs on its own. -/
  | SyncNow
  | MessageDetail (fetched : Option (Stored ρ → Except ServiceError (Stored ρ)))
  | SyncCycle (changes : StatusChanges) (cycle : Cycle ρ)
  | StatusUpdate (changed : Bool)
  | SnoozeTick (inbox_id : MailboxId) (due : List Mutation) (timed_out : Bool)

inductive Reply where
  | accepted (generation : Nat)
  | served
  | settled
  /-- The snooze scheduler publishes nothing. -/
  | returned (count : Nat)

section Requests

variable {ρ : Type} (tables : Tables ρ)

def Request.future (request : Request ρ) : Async ρ Reply :=
  match request with
  | .SetKeywords mutation change record_undo => .accepted <$> set_keywords tables mutation change record_undo
  | .ReplaceMailboxes mutation change => .accepted <$> replace_mailboxes tables mutation change
  | .Destroy mutation => .accepted <$> destroy tables mutation
  | .Snooze mutation target until_ => .accepted <$> snooze tables mutation target until_
  | .Unsnooze mutation target => .accepted <$> unsnooze tables mutation target
  | .UndoRedo keywords mailboxes plan => .accepted <$> undo_or_redo tables keywords mailboxes plan
  | .Compose call => .accepted <$> mail_command call
  | .RetryOperation call => .accepted <$> retry_operation call
  | .CancelOperation call => .accepted <$> cancel_operation call
  | .Mailbox gateway cycle => .accepted <$> mailbox_command tables gateway cycle
  | .SetMailboxRole call => .accepted <$> set_mailbox_role call
  | .Configuration topic call => .accepted <$> configuration_command topic call
  | .RederiveMessageMetadata pass => .accepted <$> rederive_message_metadata pass
  | .SyncNow => .accepted <$> generation
  | .MessageDetail fetched => (fun _ => .served) <$> evaluate_message_detail fetched
  | .SyncCycle changes cycle => (fun _ => .settled) <$> process_sync_trigger tables changes cycle
  | .StatusUpdate changed => (fun _ => .settled) <$> update_runtime_overview tables changed
  | .SnoozeTick inbox_id due _ => .returned <$> auto_return_snoozed_messages tables inbox_id due

/-- After an arm of the runtime that outlived its budget the supervisor degrades the
    account, unless the runtime was stopped or replaced. -/
def mark_arm_timeout (timed_out : Bool) : Async ρ Reply :=
  if timed_out then (fun _ => .settled) <$> update_runtime_overview tables true
  else throw (.Gateway (.Unavailable "the runtime is gone"))

/-- What runs in the place of a future that is cut off. -/
def Request.cleanup (request : Request ρ) : Async ρ Reply :=
  match request with
  | .SyncCycle changes _ => mark_arm_timeout tables changes.timed_out
  | .SnoozeTick _ _ timed_out => mark_arm_timeout tables timed_out
  | _ => throw (.Gateway (.Unavailable "the request is gone"))

/-- Every interleaving of the requests, cut off anywhere, and of the queries' reads. -/
def backend : TransitionSystem (announced.Served (Stored ρ) (Except ServiceError Reply)) (announced.Act (Request ρ)) :=
  announced.serving (fun request => (request.future tables).run) fun request => (request.cleanup tables).run

/-- A good reply; the snooze scheduler's is none. -/
def Announces : Except ServiceError Reply → Prop
  | .ok (.returned _) => False
  | .ok _ => True
  | .error _ => False

end Requests

end posthaste.event_bus
