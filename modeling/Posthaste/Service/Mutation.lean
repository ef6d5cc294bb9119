import Posthaste.Library.Override
import Posthaste.Service.Queue

open serde posthaste.model posthaste.replica posthaste.store

namespace posthaste.service

open MailService

/-- Re-derive one visible row's overlay entry, in one transaction. -/
def refresh_message_overlay (message_id : MessageId) : MailService DeriveDiff :=
  transaction fun store => store.derive_overlay message_id fun snapshot => fold_overlay_row snapshot message_id

def refreshAll : List MessageId → MailService Unit
  | [] => return ()
  | message_id :: rest => do
    let _ ← refresh_message_overlay message_id
    refreshAll rest

/-- The live rows one operation's replay effect touches. -/
def touchedRows (store : DatabaseStore) (operation : Operation) : List MessageId :=
  (op_row_touches_with operation store.resolve_draft_entity).map Prod.fst

def op_touched_row_ids (operation : Operation) : MailService (List MessageId) :=
  read fun store => touchedRows store operation

/-- Every row a replay must visit: those the replayable log touches and those overlaid now. -/
def replay_inventory : MailService (List MessageId) :=
  read fun store =>
    let touched := (store.outbox.list_unsettled_operations.filter is_replayable).flatMap (touchedRows store)
    (BTreeSet.from_iter (touched ++ store.list_overlay_message_ids)).toList

/-- Rebuild the derived override rows from the log and base. -/
def replay_account_overrides : MailService Unit := do
  refreshAll (← replay_inventory)

/-- Re-derive the rows of a base write that the inventory covers. -/
def replay_base_write (written_rows : List MessageId) : MailService Unit := do
  if written_rows.isEmpty then return ()
  let inventory ← replay_inventory
  refreshAll (inventory.filter (· ∈ written_rows))

/-- Whether the sync chain has absorbed a settled operation's effect. -/
def absorbed (cycle_started_mono : Int) (message_cursor : Option String) (settled : SettledOperation) : Bool :=
  settled.settled_at_mono.getD 0 < cycle_started_mono ||
    match settled.watermark, message_cursor with
    | some watermark, some cursor => watermark == cursor
    | _, _ => false

/-- Take one operation out of the log and re-derive the rows it touched. -/
def retire_operation (op_id : OperationId) (touched : List MessageId) : MailService (List DeriveDiff) :=
  transaction fun store => store.remove_op_and_derive op_id touched fun row_id snapshot => fold_overlay_row snapshot row_id

def truncateAll (cycle_started_mono : Int) (message_cursor : Option String) : List SettledOperation → MailService Unit
  | [] => return ()
  | settled :: rest => do
    if absorbed cycle_started_mono message_cursor settled then
      let touched ← op_touched_row_ids settled.operation
      let _ ← retire_operation settled.operation.id touched
    truncateAll cycle_started_mono message_cursor rest

/-- Causal truncation: absorbed settled operations leave the log, and base serves their rows. -/
def truncate_settled_operations (cycle_started_mono : Int) : MailService Unit := do
  let settled ← read fun store => store.outbox.list_settled_operations
  let message_cursor ← read DatabaseStore.message_cursor
  truncateAll cycle_started_mono message_cursor settled

/-- What the service mints for one call: its clock readings and its fresh ids. -/
structure Minted where
  now : Timestamp
  mono_now : Int
  operation_id : OperationId
  id : String

def raise {α : Type} (error : ServiceError) : MailService α := fallible (.error error)

def notFound {α : Type} (kind id : String) : MailService α := raise (.Store (.NotFound s!"{kind}:{id}"))

/-- The effective summary of a message, as far as a mutation reads it. -/
def get_message_summary (message_id : MessageId) : MailService (Option MessageRow) :=
  read (·.effective message_id)

def queue_message_operation (message_id : MessageId) (kind : OperationKind) (payload : Value) (minted : Minted) :
    MailService Operation :=
  queue_operation_with_id minted.operation_id ⟨.Message, message_id⟩ kind payload none none minted.now

/-- The echo of an assertion reads the effective row, and fails when none is there. -/
def echoAssertion (message_id : MessageId) (operation : Operation) : MailService Unit := do
  match operation.kind with
  | .SetKeywords =>
    if (← get_message_summary message_id).isNone then notFound "message" message_id
  | .ReplaceMailboxes =>
    match operation.intent with
    | .error error => raise (.Gateway (.Internal error))
    | .ok _ => if (← get_message_summary message_id).isNone then notFound "message" message_id
  | _ => return ()

/-- Fold the just-queued assertion into the overlay plane. -/
def apply_assertion_to_overlay (message_id : MessageId) (operation : Operation) : MailService Unit := do
  if operation.kind.is_state_assertion then
    let previous ← get_message_summary message_id
    if operation.kind = .Destroy ∧ previous.isNone then notFound "message" message_id
    let _ ← refresh_message_overlay message_id
    echoAssertion message_id operation

def remove_operation_after_local_failure (operation : Operation) (error : ServiceError) : MailService Unit := do
  outbox (·.remove_operation operation.id)
  raise error

/-- Queue a message assertion and fold it; a local failure retracts the operation. -/
def queue_then_emit_message_operation (message_id : MessageId) (kind : OperationKind) (payload : Value)
    (minted : Minted) : MailService Unit := do
  let operation ← queue_message_operation message_id kind payload minted
  tryCatch (apply_assertion_to_overlay message_id operation) (remove_operation_after_local_failure operation)

def set_keywords (message_id : MessageId) (command : SetKeywordsCommand) (minted : Minted) : MailService Unit :=
  queue_then_emit_message_operation message_id .SetKeywords (to_value command) minted

def replace_mailboxes (message_id : MessageId) (command : ReplaceMailboxesCommand) (minted : Minted) :
    MailService Unit :=
  queue_then_emit_message_operation message_id .ReplaceMailboxes (to_value command) minted

def destroy_message (message_id : MessageId) (minted : Minted) : MailService Unit :=
  queue_then_emit_message_operation message_id .Destroy (.object []) minted

end posthaste.service
