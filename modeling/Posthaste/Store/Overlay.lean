import Posthaste.Store.Database

open posthaste.model

namespace posthaste.store

/-- Everything one row's derivation reads, captured in its transaction. -/
structure DeriveSnapshot where
  base : Option MessageRecord
  overlay : Option (Option MessageRecord)
  ops : List Operation
  draft_keys : AList fun _ : String => String
  drafts_mailbox : Option MailboxId
  sent_mailbox : Option MailboxId

/-- The fold's decision for one row. -/
inductive OverlayMutation where
  | Upsert (record : MessageRecord)
  | Tombstone
  | Remove
  | Keep
  deriving DecidableEq

/-- What a derivation did to the row's visibility. -/
structure DeriveDiff where
  was_visible : Bool
  now_visible : Bool
  was_effective : Bool
  now_effective : Bool
  deriving DecidableEq

def DeriveDiff.retired (diff : DeriveDiff) : Bool := diff.was_visible && !diff.now_visible

def DeriveDiff.effectively_retired (diff : DeriveDiff) : Bool := diff.was_effective && !diff.now_effective

namespace DatabaseStore

variable (store : DatabaseStore)

/-- The overlay entry, with the identity and membership columns the read selects. -/
def read_overlay_on (id : MessageId) : Option (Option MessageRecord) :=
  match store.message_overlay.lookup id with
  | none => none
  | some .tombstone => some none
  | some (.row row) => some (some {
      (default : MessageRecord) with
      id := id
      source_thread_id := row.source_thread_id
      subject := row.subject
      from_name := row.from_name
      from_email := row.from_email
      received_at := row.received_at
      mailbox_ids := row.mailbox_ids.toList
      keywords := row.keywords.toList
      draft_id := row.draft_id
      rfc_message_id := row.rfc_message_id })

def upsert_overlay_tx (record : MessageRecord) : DatabaseStore :=
  { store with message_overlay := store.message_overlay.insert record.id (.row (.of_record record)) }

def tombstone_overlay_tx (id : MessageId) : DatabaseStore :=
  { store with message_overlay := store.message_overlay.insert id .tombstone }

def remove_overlay_tx (id : MessageId) : DatabaseStore :=
  { store with message_overlay := store.message_overlay.erase id }

def list_overlay_message_ids : List MessageId := store.message_overlay.keys

def overlay_effective_visible (overlay : Option (Option MessageRecord)) (base_present : Bool) : Bool :=
  match overlay with
  | some (some _) => true
  | some none => false
  | none => base_present

def snapshot (id : MessageId) : DeriveSnapshot where
  base := store.read_base_on id
  overlay := store.read_overlay_on id
  ops := store.outbox.list_unsettled_operations
  draft_keys := store.draft_alias
  drafts_mailbox := store.read_mailbox_id_by_role_on "drafts"
  sent_mailbox := store.read_mailbox_id_by_role_on "sent"

def apply_overlay_mutation_tx (id : MessageId) : OverlayMutation → DatabaseStore
  | .Upsert record => store.upsert_overlay_tx record
  | .Tombstone => store.tombstone_overlay_tx id
  | .Remove => store.remove_overlay_tx id
  | .Keep => store

def mutationDiff (snapshot : DeriveSnapshot) (mutation : OverlayMutation) : DeriveDiff :=
  let was_visible := snapshot.overlay.any Option.isSome
  let was_effective := overlay_effective_visible snapshot.overlay snapshot.base.isSome
  match mutation with
  | .Upsert _ => { was_visible, now_visible := true, was_effective, now_effective := true }
  | .Tombstone => { was_visible, now_visible := false, was_effective, now_effective := false }
  | .Remove => { was_visible, now_visible := false, was_effective, now_effective := snapshot.base.isSome }
  | .Keep => { was_visible, now_visible := was_visible, was_effective, now_effective := was_effective }

/-- Derive one row's overlay entry: snapshot, fold, apply, in one transaction. -/
def derive_overlay (id : MessageId) (fold : DeriveSnapshot → Except StoreError OverlayMutation) :
    Except StoreError (DeriveDiff × DatabaseStore) := do
  let snapshot := store.snapshot id
  let mutation ← fold snapshot
  return (mutationDiff snapshot mutation, store.apply_overlay_mutation_tx id mutation)

def deriveAll (fold : MessageId → DeriveSnapshot → Except StoreError OverlayMutation) :
    List MessageId → DatabaseStore → Except StoreError (List DeriveDiff × DatabaseStore)
  | [], store => .ok ([], store)
  | id :: rest, store => do
    let (diff, store) ← store.derive_overlay id (fold id)
    let (diffs, store) ← deriveAll fold rest store
    return (diff :: diffs, store)

/-- Remove one operation and re-derive the given rows, in one transaction. The
    log is read after the removal. -/
def remove_op_and_derive (op_id : OperationId) (row_ids : List MessageId)
    (fold : MessageId → DeriveSnapshot → Except StoreError OverlayMutation) :
    Except StoreError (List DeriveDiff × DatabaseStore) :=
  deriveAll fold row_ids { store with outbox := store.outbox.remove_operation op_id }

end DatabaseStore

end posthaste.store
