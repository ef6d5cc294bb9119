import Mathlib.Data.List.AList
import Mathlib.Data.String.Basic
import Posthaste.Library.BTreeSet
import Posthaste.Store.Outbox

open posthaste.model

namespace posthaste.store

/-- The columns of a message row and its membership and keyword sets. The id is
    the row's key; bodies live elsewhere and no fold reads them. -/
structure MessageRow where
  source_thread_id : ThreadId
  remote_blob_id : Option BlobId
  subject : Option String
  from_name : Option String
  from_email : Option String
  to_ : List Recipient
  cc : List Recipient
  bcc : List Recipient
  reply_to : List Recipient
  preview : Option String
  received_at : Timestamp
  has_attachment : Bool
  size : Int
  mailbox_ids : BTreeSet MailboxId
  keywords : BTreeSet String
  rfc_message_id : Option String
  in_reply_to : Option String
  references : List String
  draft_id : Option String
  list_unsubscribe : Option ListUnsubscribe

def MessageRow.of_record (record : MessageRecord) : MessageRow where
  source_thread_id := record.source_thread_id
  remote_blob_id := record.remote_blob_id
  subject := record.subject
  from_name := record.from_name
  from_email := record.from_email
  to_ := record.to_
  cc := record.cc
  bcc := record.bcc
  reply_to := record.reply_to
  preview := record.preview
  received_at := record.received_at
  has_attachment := record.has_attachment
  size := record.size
  mailbox_ids := BTreeSet.from_iter record.mailbox_ids
  keywords := BTreeSet.from_iter record.keywords
  rfc_message_id := record.rfc_message_id
  in_reply_to := record.in_reply_to
  references := record.references
  draft_id := record.draft_id
  list_unsubscribe := record.list_unsubscribe

/-- Reading a row back: sets in order, bodies left empty. -/
def MessageRow.record (row : MessageRow) (id : MessageId) : MessageRecord where
  id := id
  source_thread_id := row.source_thread_id
  remote_blob_id := row.remote_blob_id
  subject := row.subject
  from_name := row.from_name
  from_email := row.from_email
  to_ := row.to_
  cc := row.cc
  bcc := row.bcc
  reply_to := row.reply_to
  preview := row.preview
  received_at := row.received_at
  has_attachment := row.has_attachment
  size := row.size
  mailbox_ids := row.mailbox_ids.toList
  keywords := row.keywords.toList
  body_html := none
  body_text := none
  raw_mime := none
  rfc_message_id := row.rfc_message_id
  in_reply_to := row.in_reply_to
  references := row.references
  draft_id := row.draft_id
  list_unsubscribe := row.list_unsubscribe

/-- A stored row reads back as it was written. -/
theorem MessageRow.of_record_record (row : MessageRow) (id : MessageId) : of_record (row.record id) = row := by
  simp [of_record, record, BTreeSet.from_iter_toList]

/-- An overlay entry: a tombstone, or a derived row that replaces the base row. -/
inductive OverlayEntry where
  | tombstone
  | row (row : MessageRow)

structure Mailbox where
  id : MailboxId
  role : Option String
  deriving DecidableEq

/-- One account's store. -/
structure DatabaseStore where
  outbox : OutboxTable
  message : AList fun _ : MessageId => MessageRow
  message_overlay : AList fun _ : MessageId => OverlayEntry
  draft_alias : AList fun _ : String => String
  send_alias : AList fun _ : String => MessageId
  mailbox : List Mailbox
  message_cursor : Option String

namespace DatabaseStore

variable (store : DatabaseStore)

def empty : DatabaseStore where
  outbox := Table.empty
  message := ∅
  message_overlay := ∅
  draft_alias := ∅
  send_alias := ∅
  mailbox := []
  message_cursor := none

def read_base_on (id : MessageId) : Option MessageRecord :=
  (store.message.lookup id).map (·.record id)

def read_mailbox_id_by_role_on (role : String) : Option MailboxId :=
  (store.mailbox.find? (·.role == some role)).map Mailbox.id

def resolve_draft_entity (draft_key : String) : Option String :=
  store.draft_alias.lookup draft_key

def set_draft_alias (draft_key entity_id : String) : DatabaseStore :=
  { store with draft_alias := store.draft_alias.insert draft_key entity_id }

def remove_draft_alias (draft_key : String) : DatabaseStore :=
  { store with draft_alias := store.draft_alias.erase draft_key }

def resolve_send_alias (send_entity_id : String) : Option String :=
  store.send_alias.lookup send_entity_id

def set_send_alias (send_entity_id adopted_message_id : String) : DatabaseStore :=
  { store with send_alias := store.send_alias.insert send_entity_id adopted_message_id }

/-- The message as every effective read serves it: an overlay row replaces the
    base row, a tombstone hides it, and without an entry base shows through. -/
def effective (id : MessageId) : Option MessageRow :=
  match store.message_overlay.lookup id with
  | some (.row row) => some row
  | some .tombstone => none
  | none => store.message.lookup id

end DatabaseStore

end posthaste.store
