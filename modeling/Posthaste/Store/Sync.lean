import Posthaste.Store.Database

open posthaste.model

namespace posthaste.store

/-- One authoritative chunk of provider state. Of an IMAP location only the
    message and the mailbox it leaves are kept. -/
structure SyncBatch where
  mailboxes : List Mailbox
  messages : List MessageRecord
  deleted_imap_message_locations : List (MessageId × MailboxId)
  deleted_mailbox_ids : List MailboxId
  deleted_message_ids : List MessageId
  absence_deleted_imap_message_locations : List (MessageId × MailboxId)
  absence_deleted_message_ids : List MessageId
  replace_all_mailboxes : Bool
  replace_all_messages : Bool
  cursors : List SyncCursor

instance : Inhabited SyncBatch where
  default := {
    mailboxes := [], messages := [], deleted_imap_message_locations := [], deleted_mailbox_ids := [],
    deleted_message_ids := [], absence_deleted_imap_message_locations := [], absence_deleted_message_ids := [],
    replace_all_mailboxes := false, replace_all_messages := false, cursors := [] }

/-- The final pass of a streamed sync: the complete remote sets and the withheld cursors. -/
structure SyncReconciliation where
  remote_message_ids : List MessageId
  remote_mailbox_ids : List MailboxId
  prune_messages : Bool
  prune_mailboxes : Bool
  cursors : List SyncCursor

/-- The columns an upsert keeps when the incoming record carries no header data. -/
def MessageRow.upserted (previous : Option MessageRow) (record : MessageRecord) : MessageRow :=
  match previous with
  | none => .of_record record
  | some row => {
      MessageRow.of_record record with
      list_unsubscribe := record.list_unsubscribe <|> row.list_unsubscribe
      cc := if record.cc.isEmpty then row.cc else record.cc
      bcc := if record.bcc.isEmpty then row.bcc else record.bcc
      reply_to := if record.reply_to.isEmpty then row.reply_to else record.reply_to }

/-- Whether pruning this many of the local rows passes the mail-loss floor of one half. -/
def over_floor (would_prune local_count : Nat) : Bool := 2 * would_prune > local_count

namespace DatabaseStore

variable (store : DatabaseStore)

def leave_mailbox_tx (message_id : MessageId) (mailbox_id : MailboxId) : DatabaseStore :=
  match store.message.lookup message_id with
  | some row =>
    { store with
      message := store.message.insert message_id { row with mailbox_ids := row.mailbox_ids.remove mailbox_id } }
  | none => store

/-- Drop a mailbox with every membership in it. -/
def delete_mailbox_tx (mailbox_id : MailboxId) : DatabaseStore :=
  let left := store.message.keys.foldl (fun store message_id => store.leave_mailbox_tx message_id mailbox_id) store
  { left with mailbox := left.mailbox.filter (·.id ≠ mailbox_id) }

def delete_mailboxes_tx (mailbox_ids : List MailboxId) : DatabaseStore := mailbox_ids.foldl delete_mailbox_tx store

def prune_mailboxes_absent_from_remote_tx (remote_mailbox_ids : List MailboxId) : DatabaseStore :=
  let absent := (store.mailbox.map Mailbox.id).filter (· ∉ remote_mailbox_ids)
  if !store.mailbox.isEmpty && (remote_mailbox_ids.isEmpty || over_floor absent.length store.mailbox.length) then store
  else store.delete_mailboxes_tx absent

/-- The message that carries the draft key, for the registry to point at. -/
def survivorOf (draft_key : String) : Option MessageId :=
  (store.message.entries.find? fun entry => entry.2.draft_id == some draft_key).map Sigma.fst

/-- Repoint a mapping to a surviving row, or forget it. -/
def repoint_draft_key_tx (draft_key : String) : DatabaseStore :=
  match store.survivorOf draft_key with
  | some live => store.set_draft_alias draft_key live
  | none => store.remove_draft_alias draft_key

def write_through_draft_registry_on_message_delete_tx (message_id : MessageId) : DatabaseStore :=
  let draft_keys := (store.draft_alias.entries.filter (·.2 == message_id)).map Sigma.fst
  draft_keys.foldl repoint_draft_key_tx store

def write_through_draft_registry_on_message_upsert_tx (record : MessageRecord) : DatabaseStore :=
  match record.draft_id with
  | some draft_key => store.set_draft_alias draft_key record.id
  | none => store

/-- Drop a message and correct the registry in the same transaction. -/
def delete_message_tx (message_id : MessageId) : DatabaseStore :=
  let deleted := { store with message := store.message.erase message_id }
  deleted.write_through_draft_registry_on_message_delete_tx message_id

def delete_messages_tx (message_ids : List MessageId) : DatabaseStore := message_ids.foldl delete_message_tx store

def absentMessages (remote_message_ids : List MessageId) : List MessageId :=
  (BTreeSet.from_iter (store.message.keys.filter (· ∉ remote_message_ids))).toList

/-- The messages a prune by absence deletes: none when it would pass the floor. -/
def prunedMessages (remote_message_ids : List MessageId) : List MessageId :=
  let absent := store.absentMessages remote_message_ids
  let local_count := store.message.keys.length
  if local_count > 0 && (remote_message_ids.isEmpty || over_floor absent.length local_count) then [] else absent

def prune_messages_absent_from_remote_tx (remote_message_ids : List MessageId) : DatabaseStore :=
  store.delete_messages_tx (store.prunedMessages remote_message_ids)

/-- Inferred deletions apply singly, or when they stay below the floor. -/
def imap_absence_prune_allowed (absence_deleted_message_count : Nat) : Bool :=
  absence_deleted_message_count ≤ 1 || store.message.keys.isEmpty ||
    !over_floor absence_deleted_message_count store.message.keys.length

def upsert_mailbox_tx (mailbox : Mailbox) : DatabaseStore :=
  if store.mailbox.any (·.id == mailbox.id) then
    { store with mailbox := store.mailbox.map fun stored => if stored.id = mailbox.id then mailbox else stored }
  else { store with mailbox := store.mailbox ++ [mailbox] }

/-- Write one provider record to base. A membership or keyword listed twice breaks its primary key. -/
def apply_message_record_tx (record : MessageRecord) : Except StoreError DatabaseStore :=
  if record.mailbox_ids.Nodup ∧ record.keywords.Nodup then
    .ok { store with
      message := store.message.insert record.id (.upserted (store.message.lookup record.id) record) }
  else .error (.Failure "UNIQUE constraint failed")

def applyMessages : List MessageRecord → DatabaseStore → Except StoreError DatabaseStore
  | [], store => .ok store
  | record :: rest, store => do
    let store ← store.apply_message_record_tx record
    applyMessages rest (store.write_through_draft_registry_on_message_upsert_tx record)

def upsert_sync_cursor_tx (cursor : SyncCursor) : DatabaseStore :=
  match cursor.object_type with
  | .Message => { store with message_cursor := some cursor.state }
  | .Mailbox => store

/-- The messages a batch deletes from base. -/
def batchDeletions (batch : SyncBatch) : List MessageId :=
  let absent := if store.imap_absence_prune_allowed batch.absence_deleted_message_ids.length then
    batch.absence_deleted_message_ids else []
  (BTreeSet.from_iter (batch.deleted_message_ids ++ absent)).toList

/-- The memberships a batch removes from messages it leaves in base. -/
def batchDepartures (batch : SyncBatch) : List (MessageId × MailboxId) :=
  let absent := if store.imap_absence_prune_allowed batch.absence_deleted_message_ids.length then
    batch.absence_deleted_imap_message_locations else []
  (batch.deleted_imap_message_locations ++ absent).filter (·.1 ∉ store.batchDeletions batch)

/-- The removals of a batch, in the order the transaction makes them. -/
def applyRemovals (batch : SyncBatch) : DatabaseStore :=
  let store := if batch.replace_all_mailboxes then
    store.prune_mailboxes_absent_from_remote_tx (batch.mailboxes.map Mailbox.id) else store
  let store := if batch.replace_all_messages then
    store.prune_messages_absent_from_remote_tx (batch.messages.map MessageRecord.id) else store
  let store := store.delete_mailboxes_tx batch.deleted_mailbox_ids
  let deletions := store.batchDeletions batch
  let departures := store.batchDepartures batch
  let store := departures.foldl (fun store location => store.leave_mailbox_tx location.1 location.2) store
  store.delete_messages_tx deletions

/-- Apply one chunk of raw provider truth to base. -/
def apply_sync_batch (batch : SyncBatch) : Except StoreError DatabaseStore := do
  let removed := store.applyRemovals batch
  let listed := batch.mailboxes.foldl upsert_mailbox_tx removed
  let applied ← applyMessages batch.messages listed
  return batch.cursors.foldl upsert_sync_cursor_tx applied

/-- The messages whose events a reconciliation records: those that lose a mailbox and those it prunes. -/
def reconciledMessages (reconciliation : SyncReconciliation) : List MessageId :=
  let mailboxes := if reconciliation.prune_mailboxes then
    store.prune_mailboxes_absent_from_remote_tx reconciliation.remote_mailbox_ids else store
  let departed := store.message.entries.filterMap fun entry =>
    if (mailboxes.message.lookup entry.1).map (·.mailbox_ids.toList) = some entry.2.mailbox_ids.toList then none
    else some entry.1
  let pruned := if reconciliation.prune_messages then
    mailboxes.prunedMessages reconciliation.remote_message_ids else []
  departed ++ pruned

/-- Prune what the complete remote sets lack and commit the withheld cursors. -/
def reconcile_sync (reconciliation : SyncReconciliation) : DatabaseStore :=
  let store := if reconciliation.prune_mailboxes then
    store.prune_mailboxes_absent_from_remote_tx reconciliation.remote_mailbox_ids else store
  let store := if reconciliation.prune_messages then
    store.prune_messages_absent_from_remote_tx reconciliation.remote_message_ids else store
  reconciliation.cursors.foldl upsert_sync_cursor_tx store

end DatabaseStore

end posthaste.store
