import Posthaste.Imap.Projection
import Posthaste.Store.Locations

open posthaste.model posthaste.store

namespace posthaste.imap

/-- The server's name of a location: mailbox, UIDVALIDITY and UID. -/
abbrev UidIdentity := MailboxId × ImapUidValidity × ImapUid

instance : LawfulBEq UidIdentity := Prod.instLawfulBEq

section Deletions

def deleted_locations_missing_from_remote (local_locations : List ImapMessageLocation)
    (remote_locations : List ImapMessageLocationKey) : List ImapMessageLocationKey :=
  (local_locations.map ImapMessageLocation.key).filter (· ∉ remote_locations)

def deleted_locations_matching_vanished_uids (local_locations : List ImapMessageLocation)
    (vanished_locations : List UidIdentity) : List ImapMessageLocationKey :=
  (local_locations.map ImapMessageLocation.key).filter fun key =>
    (key.mailbox_id, key.uid_validity, key.uid) ∈ vanished_locations

/-- The base deletions and the locations in mailboxes that labels leave out. -/
def deleted_locations_for_delta (local_locations : List ImapMessageLocation)
    (base_deleted_locations : List ImapMessageLocationKey)
    (provider_absent_mailbox_ids_by_message : List (MessageId × MailboxId)) : List ImapMessageLocationKey :=
  (base_deleted_locations ++ (local_locations.filter
    (·.place ∈ provider_absent_mailbox_ids_by_message)).map ImapMessageLocation.key).eraseDups

/-- How many locations of a message are known and stay, or are new. -/
def remaining_location_count (local_locations : List ImapMessageLocation) (deleted_locations : List ImapMessageLocationKey)
    (new_locations : List ImapMessageLocation) (message_id : MessageId) : Nat :=
  (local_locations.filter fun location =>
    location.key ∉ deleted_locations && location.message_id = message_id).length +
    (new_locations.filter (·.message_id = message_id)).length

/-- The messages of deleted locations that have none left, in the order of the ids. -/
def deleted_message_ids_for_deleted_locations (local_locations : List ImapMessageLocation)
    (deleted_locations : List ImapMessageLocationKey) (new_locations : List ImapMessageLocation) : List MessageId :=
  (BTreeSet.from_iter ((deleted_locations.filter fun key =>
    remaining_location_count local_locations deleted_locations new_locations key.message_id = 0).map
      ImapMessageLocationKey.message_id)).toList

/-- Whether the removed locations of a message are all asserted by the server. -/
def allAuthoritative (local_locations : List ImapMessageLocation) (authoritative_keys absence_keys : List ImapMessageLocationKey)
    (message_id : MessageId) : Bool :=
  let removed := (local_locations.map ImapMessageLocation.key).filter fun key =>
    (key ∈ authoritative_keys || key ∈ absence_keys) && key.message_id = message_id
  !removed.isEmpty && removed.all (· ∈ authoritative_keys)

/-- The fully gone messages, asserted ones first and inferred ones second. -/
def partition_deleted_message_ids_by_origin (local_locations : List ImapMessageLocation)
    (fully_gone_message_ids : List MessageId) (authoritative_keys absence_keys : List ImapMessageLocationKey) :
    List MessageId × List MessageId :=
  (fully_gone_message_ids.filter (allAuthoritative local_locations authoritative_keys absence_keys),
    fully_gone_message_ids.filter fun message_id =>
      !allAuthoritative local_locations authoritative_keys absence_keys message_id)

/-- The mailboxes where a message has a known location that stays, or a new one. -/
def remainingMailboxes (local_locations : List ImapMessageLocation) (deleted_locations : List ImapMessageLocationKey)
    (new_locations : List ImapMessageLocation) (provider_absent_mailbox_ids_by_message : List (MessageId × MailboxId))
    (message_id : MessageId) : List MailboxId :=
  ((local_locations.filter fun location =>
    location.key ∉ deleted_locations && location.place ∉ provider_absent_mailbox_ids_by_message &&
      location.message_id = message_id) ++
    new_locations.filter (·.message_id = message_id)).map ImapMessageLocation.mailbox_id

/-- The records of a delta with their memberships taken from the locations. A batch
    has one record for each message. -/
def preserve_delta_mailboxes_from_locations (messages : List MessageRecord) (local_locations : List ImapMessageLocation)
    (deleted_locations : List ImapMessageLocationKey) (new_locations : List ImapMessageLocation)
    (provider_absent_mailbox_ids_by_message : List (MessageId × MailboxId)) : List MessageRecord :=
  messages.map fun message =>
    let mailbox_ids := remainingMailboxes local_locations deleted_locations new_locations
      provider_absent_mailbox_ids_by_message message.id
    if mailbox_ids.isEmpty then message else { message with mailbox_ids := (BTreeSet.from_iter mailbox_ids).toList }

end Deletions

section Cursors

def fingerprint (fields : List String) : String :=
  str.hex_encode (fields.foldl (fun text field => text ++ field ++ String.singleton (Char.ofNat 0)) "").toUTF8.data.toList

def mailbox_cursor_state (mailboxes : List DiscoveredImapMailbox) : String :=
  "imap-mailboxes:" ++ fingerprint (mailboxes.flatMap fun mailbox => [mailbox.id, mailbox.name, mailbox.role.getD ""])

def message_cursor_state (messages : List MessageRecord) (locations : List ImapMessageLocation) : String :=
  "imap-messages:" ++ fingerprint (messages.map MessageRecord.id ++ locations.flatMap fun location =>
    [location.message_id, location.mailbox_id, toString location.uid_validity, toString location.uid])

end Cursors

section Builders

variable (discovery : DiscoveredImapAccount) (headers : List ImapMappedHeader)
  (mailbox_states : List ImapMailboxSyncState) (local_locations : List ImapMessageLocation)

/-- The authoritative mailbox set. -/
def imap_mailbox_sync_batch : ImapSyncBatch :=
  let selectable := discovery.mailboxes.filter (·.selectable)
  { (default : ImapSyncBatch) with
    mailboxes := selectable.map fun mailbox => { id := mailbox.id, role := mailbox.role }
    replace_all_mailboxes := true
    cursors := [{ object_type := .Mailbox, state := mailbox_cursor_state selectable }] }

def imap_full_sync_batch : ImapSyncBatch :=
  let projected := messages_and_locations_for_batch discovery headers
  let batch := imap_mailbox_sync_batch discovery
  { batch with
    imap_mailbox_states := mailbox_states
    messages := projected.messages
    imap_message_locations := projected.locations
    replace_all_messages := true
    cursors := batch.cursors ++
      [{ object_type := .Message, state := message_cursor_state projected.messages projected.locations }] }

def imap_delta_sync_batch : ImapSyncBatch :=
  let projected := messages_and_locations_for_batch discovery headers
  let deleted := deleted_locations_for_delta local_locations
    (deleted_locations_missing_from_remote local_locations (projected.locations.map ImapMessageLocation.key))
    projected.provider_absent_mailbox_ids_by_message
  let messages := preserve_delta_mailboxes_from_locations projected.messages local_locations deleted projected.locations
    projected.provider_absent_mailbox_ids_by_message
  let batch := imap_mailbox_sync_batch discovery
  { batch with
    imap_mailbox_states := mailbox_states
    messages
    imap_message_locations := projected.locations
    deleted_imap_message_locations := deleted
    deleted_message_ids := deleted_message_ids_for_deleted_locations local_locations deleted projected.locations
    cursors := batch.cursors ++
      [{ object_type := .Message, state := message_cursor_state messages projected.locations }] }

/-- The locations a delta batch drops because the server asserted it: vanished, or left out by labels. -/
def authoritativeKeys (vanished_uids : List UidIdentity) : List ImapMessageLocationKey :=
  deleted_locations_for_delta local_locations (deleted_locations_matching_vanished_uids local_locations vanished_uids)
    (messages_and_locations_for_batch discovery headers).provider_absent_mailbox_ids_by_message

/-- The locations it drops because a listing lacked them. -/
def absenceKeys (vanished_uids absence_uids : List UidIdentity) : List ImapMessageLocationKey :=
  (deleted_locations_matching_vanished_uids local_locations absence_uids).filter
    (· ∉ authoritativeKeys discovery headers local_locations vanished_uids)

/-- The partial delta batch, whose deletions carry their origin. -/
def imap_condstore_delta_sync_batch (vanished_uids absence_uids : List UidIdentity) : ImapSyncBatch :=
  let projected := messages_and_locations_for_batch discovery headers
  let authoritative_keys := authoritativeKeys discovery headers local_locations vanished_uids
  let absence_keys := absenceKeys discovery headers local_locations vanished_uids absence_uids
  let union_keys := authoritative_keys ++ absence_keys
  let fully_gone := deleted_message_ids_for_deleted_locations local_locations union_keys projected.locations
  let partition := partition_deleted_message_ids_by_origin local_locations fully_gone authoritative_keys absence_keys
  let messages := preserve_delta_mailboxes_from_locations projected.messages local_locations union_keys
    projected.locations projected.provider_absent_mailbox_ids_by_message
  let batch := imap_mailbox_sync_batch discovery
  { batch with
    imap_mailbox_states := mailbox_states
    messages
    imap_message_locations := projected.locations
    deleted_imap_message_locations := authoritative_keys
    deleted_message_ids := partition.1
    absence_deleted_imap_message_locations := absence_keys
    absence_deleted_message_ids := partition.2
    cursors := batch.cursors ++
      [{ object_type := .Message, state := message_cursor_state messages projected.locations }] }

/-- One chunk of an initial snapshot: records, locations and the checkpoint, and no deletion. -/
def imap_initial_snapshot_chunk_batch (state : ImapMailboxSyncState) : ImapSyncBatch :=
  let projected := messages_and_locations_for_batch discovery headers
  { (default : ImapSyncBatch) with
    messages := projected.messages
    imap_mailbox_states := [state]
    imap_message_locations := projected.locations }

end Builders

end posthaste.imap
