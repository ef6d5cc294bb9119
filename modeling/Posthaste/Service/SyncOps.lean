import Posthaste.Service.Flush

open serde posthaste.model posthaste.store

namespace posthaste.service

open MailService

/-- The rows a chunk names, which the replay after it re-derives. -/
def writtenRows (batch : SyncBatch) : List MessageId :=
  batch.messages.map MessageRecord.id ++ batch.deleted_message_ids ++ batch.absence_deleted_message_ids ++
    (batch.deleted_imap_message_locations ++ batch.absence_deleted_imap_message_locations).map Prod.fst

/-- Apply one streamed chunk to base and replay the rows it names. -/
def emit (batch : SyncBatch) : MailService Unit := do
  applyBatch batch
  replay_base_write (writtenRows batch)

/-- The final pass of a streamed sync, with the replay of the rows it reports. -/
def reconcile (reconciliation : SyncReconciliation) : MailService Unit := do
  let pruned ← read (·.reconciledMessages reconciliation)
  write (·.reconcile_sync reconciliation)
  replay_base_write pruned

/-- Repair a tombstone whose base row survived the sync, when no operation is keyed
    to the row: one idempotent provider delete. Whether it did. -/
def try_repair_lingering_tombstone (row_id : MessageId) (minted : Minted) : MailService Bool := do
  match ← read (·.read_overlay_on row_id) with
  | some none => do
    if !(← read fun store => (store.read_base_on row_id).isSome) then return false
    let has_op ← read fun store =>
      (store.outbox.list_pending_operations ++ store.outbox.list_unsettled_operations).any (·.entity.id == row_id)
    if has_op then return false
    let _ ← delete_draft row_id true minted
    return true
  | _ => return false

/-- Find the synced copy of a send by its `Message-ID` token; the match ignores case. -/
def findByRfcPrefix (store : DatabaseStore) (token : String) : Option MessageId :=
  (store.message.entries.find? fun entry =>
    entry.2.rfc_message_id.any fun rfc =>
      (token.toList.map Char.toLower).isPrefixOf (rfc.toList.map Char.toLower)).map Sigma.fst

/-- The filing of an adopted copy that synced back as a Drafts ghost: Sent added, only Drafts dropped. -/
def ghostFiling (store : DatabaseStore) (sent_mailbox drafts_mailbox : Option MailboxId) (adopted_id : MessageId) :
    Option ReplaceMailboxesCommand :=
  match sent_mailbox, drafts_mailbox, store.read_base_on adopted_id with
  | some sent, some drafts, some record =>
    if drafts ∈ record.mailbox_ids ∧ sent ∉ record.mailbox_ids then
      some { mailbox_ids := record.mailbox_ids.filter (· ≠ drafts) ++ [sent] }
    else none
  | _, _, _ => none

/-- Adopt one settled send whose provider copy is in base, and retire the operation. -/
def adoptSend (operation : Operation) (sent_mailbox drafts_mailbox : Option MailboxId) (minted : Minted) :
    MailService Unit := do
  match ← read (findByRfcPrefix · <| send_identity_prefix operation.id) with
  | none => pure ()
  | some adopted_id => do
    write (·.set_send_alias operation.entity.id adopted_id)
    let _ ← retire_operation operation.id [operation.entity.id]
    match ← read (ghostFiling · sent_mailbox drafts_mailbox adopted_id) with
    | some command => replace_mailboxes adopted_id command minted
    | none => pure ()

def adoptAll (sent_mailbox drafts_mailbox : Option MailboxId) (mint : OperationId → Minted) :
    List SettledOperation → MailService Unit
  | [] => return ()
  | settled :: rest => do
    if settled.operation.kind = .Send then
      adoptSend settled.operation sent_mailbox drafts_mailbox (mint settled.operation.id)
    adoptAll sent_mailbox drafts_mailbox mint rest

/-- Adopt the settled sends whose provider copies have synced back. -/
def adopt_sent_copies (mint : OperationId → Minted) : MailService Unit := do
  let sent_mailbox ← read (·.read_mailbox_id_by_role_on "sent")
  let drafts_mailbox ← read (·.read_mailbox_id_by_role_on "drafts")
  let settled ← read (·.outbox.list_settled_operations)
  adoptAll sent_mailbox drafts_mailbox mint settled

def sweepRow (row_id : MessageId) (minted : Minted) : MailService Unit := do
  if !(← try_repair_lingering_tombstone row_id minted) then
    let _ ← refresh_message_overlay row_id

def sweepRows (mint : MessageId → Minted) : List MessageId → MailService Unit
  | [] => return ()
  | row_id :: rest => do
    sweepRow row_id (mint row_id)
    sweepRows mint rest

/-- The completed-cycle sweep: adopt, truncate, then repair or re-derive every row of the inventory. -/
def sweep_message_overlay (cycle_started_mono : Int) (mint : String → Minted) : MailService Unit := do
  adopt_sent_copies mint
  truncate_settled_operations cycle_started_mono
  sweepRows mint (← replay_inventory)

end posthaste.service
