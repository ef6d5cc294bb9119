import Posthaste.DomainModel.Imap
import Posthaste.Store.Rows

open posthaste.model

namespace posthaste.store

/-- One authoritative chunk of IMAP state, with the locations and the per-mailbox states it carries. -/
structure ImapSyncBatch where
  mailboxes : List Mailbox
  messages : List MessageRecord
  imap_mailbox_states : List ImapMailboxSyncState
  imap_message_locations : List ImapMessageLocation
  deleted_imap_message_locations : List ImapMessageLocationKey
  deleted_mailbox_ids : List MailboxId
  deleted_message_ids : List MessageId
  absence_deleted_imap_message_locations : List ImapMessageLocationKey
  absence_deleted_message_ids : List MessageId
  replace_all_mailboxes : Bool
  replace_all_messages : Bool
  cursors : List SyncCursor

instance : Inhabited ImapSyncBatch where
  default := {
    mailboxes := [], messages := [], imap_mailbox_states := [], imap_message_locations := [],
    deleted_imap_message_locations := [], deleted_mailbox_ids := [], deleted_message_ids := [],
    absence_deleted_imap_message_locations := [], absence_deleted_message_ids := [],
    replace_all_mailboxes := false, replace_all_messages := false, cursors := [] }

/-- One account's store with the tables that only IMAP sync writes. -/
structure ImapStore where
  base : DatabaseStore
  location : Table ImapMessageLocation ImapMessageLocation.place
  mailbox_state : Table ImapMailboxSyncState ImapMailboxSyncState.mailbox_id

namespace ImapStore

variable (store : ImapStore)

def empty : ImapStore where
  base := DatabaseStore.empty
  location := Table.empty
  mailbox_state := Table.empty

/-- Drop a mailbox with its memberships, its locations and its sync state. -/
def delete_mailbox_tx (mailbox_id : MailboxId) : ImapStore where
  base := store.base.delete_mailbox_tx mailbox_id
  location := store.location.retain (·.mailbox_id ≠ mailbox_id)
  mailbox_state := store.mailbox_state.retain (·.mailbox_id ≠ mailbox_id)

def delete_mailboxes_tx (mailbox_ids : List MailboxId) : ImapStore := mailbox_ids.foldl delete_mailbox_tx store

/-- Drop a message with every location it has. -/
def delete_message_tx (message_id : MessageId) : ImapStore :=
  { store with
    base := store.base.delete_message_tx message_id
    location := store.location.retain (·.message_id ≠ message_id) }

def delete_messages_tx (message_ids : List MessageId) : ImapStore := message_ids.foldl delete_message_tx store

def prune_mailboxes_absent_from_remote_tx (remote_mailbox_ids : List MailboxId) : ImapStore :=
  store.delete_mailboxes_tx (store.base.prunedMailboxes remote_mailbox_ids)

def prune_messages_absent_from_remote_tx (remote_message_ids : List MessageId) : ImapStore :=
  store.delete_messages_tx (store.base.prunedMessages remote_message_ids)

def prune_stale_imap_message_locations_for_snapshot_tx (remote_locations : List ImapMessageLocation) : ImapStore :=
  { store with location := store.location.retain (·.place ∈ remote_locations.map ImapMessageLocation.place) }

/-- Drop one location, and the membership with it when the location was stored. -/
def delete_imap_message_location_tx (key : ImapMessageLocationKey) : ImapStore :=
  if key ∈ store.location.rows.map ImapMessageLocation.key then
    { store with
      base := store.base.leave_mailbox_tx key.message_id key.mailbox_id
      location := store.location.retain (·.key ≠ key) }
  else store

def delete_imap_message_locations_tx (keys : List ImapMessageLocationKey) : ImapStore :=
  keys.foldl delete_imap_message_location_tx store

/-- The prunes by absence and the mailbox deletions, which come before the guard decides. -/
def beforeDeletions (batch : ImapSyncBatch) : ImapStore :=
  let store := if batch.replace_all_mailboxes then
    store.prune_mailboxes_absent_from_remote_tx (batch.mailboxes.map Mailbox.id) else store
  let store := if batch.replace_all_messages then
    (store.prune_messages_absent_from_remote_tx (batch.messages.map MessageRecord.id)).prune_stale_imap_message_locations_for_snapshot_tx
      batch.imap_message_locations else store
  store.delete_mailboxes_tx batch.deleted_mailbox_ids

/-- Whether the guard lets the inferred deletions of a batch apply. -/
def allowsAbsence (batch : ImapSyncBatch) : Bool :=
  store.base.imap_absence_prune_allowed batch.absence_deleted_message_ids.length

/-- The messages a batch deletes. -/
def batchDeletions (batch : ImapSyncBatch) : List MessageId :=
  let absent := if store.allowsAbsence batch then batch.absence_deleted_message_ids else []
  (BTreeSet.from_iter (batch.deleted_message_ids ++ absent)).toList

/-- The locations a batch drops from messages it does not delete. -/
def batchDepartures (batch : ImapSyncBatch) : List ImapMessageLocationKey :=
  let absent := if store.allowsAbsence batch then batch.absence_deleted_imap_message_locations else []
  (batch.deleted_imap_message_locations ++ absent).filter (·.message_id ∉ store.batchDeletions batch)

/-- The removals of a batch, in the order the transaction makes them. -/
def applyRemovals (batch : ImapSyncBatch) : ImapStore :=
  let decided := store.beforeDeletions batch
  (decided.delete_imap_message_locations_tx (decided.batchDepartures batch)).delete_messages_tx
    (decided.batchDeletions batch)

/-- Apply one chunk of raw provider truth. -/
def apply_sync_batch (batch : ImapSyncBatch) : Except StoreError ImapStore := do
  let removed := store.applyRemovals batch
  let listed := batch.mailboxes.foldl DatabaseStore.upsert_mailbox_tx removed.base
  let applied ← DatabaseStore.applyMessages batch.messages listed
  return {
    base := batch.cursors.foldl DatabaseStore.upsert_sync_cursor_tx applied
    location := batch.imap_message_locations.foldl Table.put removed.location
    mailbox_state := batch.imap_mailbox_states.foldl Table.put removed.mailbox_state }

section Base

variable {store} {batch : ImapSyncBatch}

/-- The memberships that the location deletions take, each when its location is found. -/
def departing : List ImapMessageLocationKey → Table ImapMessageLocation ImapMessageLocation.place →
    List (MessageId × MailboxId)
  | [], _ => []
  | key :: rest, location =>
    if key ∈ location.rows.map ImapMessageLocation.key then key.place :: departing rest (location.retain (·.key ≠ key))
    else departing rest location

/-- The batch as the tables shared with other providers see it. -/
def effective (store : ImapStore) (batch : ImapSyncBatch) : SyncBatch where
  mailboxes := batch.mailboxes
  messages := batch.messages
  deleted_imap_message_locations :=
    departing ((store.beforeDeletions batch).batchDepartures batch) (store.beforeDeletions batch).location
  deleted_mailbox_ids := batch.deleted_mailbox_ids
  deleted_message_ids := batch.deleted_message_ids
  absence_deleted_imap_message_locations := []
  absence_deleted_message_ids := batch.absence_deleted_message_ids
  replace_all_mailboxes := batch.replace_all_mailboxes
  replace_all_messages := batch.replace_all_messages
  cursors := batch.cursors

theorem base_delete_mailboxes_tx (mailbox_ids : List MailboxId) :
    (store.delete_mailboxes_tx mailbox_ids).base = store.base.delete_mailboxes_tx mailbox_ids := by
  induction mailbox_ids generalizing store with
  | nil => rfl
  | cons first rest ih => exact ih

theorem base_delete_messages_tx (message_ids : List MessageId) :
    (store.delete_messages_tx message_ids).base = store.base.delete_messages_tx message_ids := by
  induction message_ids generalizing store with
  | nil => rfl
  | cons first rest ih => exact ih

theorem base_delete_imap_message_locations_tx (keys : List ImapMessageLocationKey) :
    (store.delete_imap_message_locations_tx keys).base =
      (departing keys store.location).foldl (fun base place => base.leave_mailbox_tx place.1 place.2) store.base := by
  induction keys generalizing store with
  | nil => rfl
  | cons key rest ih =>
    show ((store.delete_imap_message_location_tx key).delete_imap_message_locations_tx rest).base = _
    rw [ih, departing]
    unfold delete_imap_message_location_tx
    split_ifs <;> rfl

theorem mem_departing {keys : List ImapMessageLocationKey}
    {location : Table ImapMessageLocation ImapMessageLocation.place} {place : MessageId × MailboxId} :
    place ∈ departing keys location ↔ ∃ key ∈ keys, key ∈ location.rows.map ImapMessageLocation.key ∧ key.place = place := by
  induction keys generalizing location with
  | nil => simp [departing]
  | cons key rest ih =>
    rw [departing]
    split_ifs with hstored
    · rw [List.mem_cons, ih]
      constructor
      · rintro (rfl | ⟨other, hother, hheld, hplace⟩)
        · exact ⟨key, List.mem_cons_self, hstored, rfl⟩
        · obtain ⟨row, hrow, rfl⟩ := List.mem_map.mp hheld
          exact ⟨row.key, List.mem_cons_of_mem _ hother, List.mem_map_of_mem (Table.mem_retain.mp hrow).1, hplace⟩
      · rintro ⟨other, hother, hheld, rfl⟩
        by_cases hsame : other = key
        · rw [hsame]
          exact Or.inl rfl
        · obtain ⟨row, hrow, rfl⟩ := List.mem_map.mp hheld
          refine Or.inr ⟨row.key, (List.mem_cons.mp hother).resolve_left hsame, List.mem_map_of_mem ?_, rfl⟩
          exact Table.mem_retain.mpr ⟨hrow, decide_eq_true hsame⟩
    · rw [ih]
      constructor
      · rintro ⟨other, hother, hheld⟩
        exact ⟨other, List.mem_cons_of_mem _ hother, hheld⟩
      · rintro ⟨other, hother, hheld, hplace⟩
        obtain rfl | hother := List.mem_cons.mp hother
        · exact absurd hheld hstored
        · exact ⟨other, hother, hheld, hplace⟩

theorem base_beforeDeletions : (store.beforeDeletions batch).base =
    (let base := if batch.replace_all_mailboxes then
      store.base.prune_mailboxes_absent_from_remote_tx (batch.mailboxes.map Mailbox.id) else store.base
    let base := if batch.replace_all_messages then
      base.prune_messages_absent_from_remote_tx (batch.messages.map MessageRecord.id) else base
    base.delete_mailboxes_tx batch.deleted_mailbox_ids) := by
  unfold beforeDeletions
  simp only
  rw [base_delete_mailboxes_tx]
  congr 1
  have hpruned : (if batch.replace_all_mailboxes then
      store.prune_mailboxes_absent_from_remote_tx (batch.mailboxes.map Mailbox.id) else store).base =
      if batch.replace_all_mailboxes then
        store.base.prune_mailboxes_absent_from_remote_tx (batch.mailboxes.map Mailbox.id) else store.base := by
    split_ifs
    · rw [DatabaseStore.prune_mailboxes_eq]
      exact base_delete_mailboxes_tx _
    · rfl
  rw [← hpruned]
  by_cases hmessages : batch.replace_all_messages = true
  · rw [if_pos hmessages, if_pos hmessages]
    exact base_delete_messages_tx _
  · rw [if_neg hmessages, if_neg hmessages]

theorem batchDeletions_effective : (store.beforeDeletions batch).base.batchDeletions (store.effective batch) =
    (store.beforeDeletions batch).batchDeletions batch := rfl

theorem batchDepartures_effective : (store.beforeDeletions batch).base.batchDepartures (store.effective batch) =
    departing ((store.beforeDeletions batch).batchDepartures batch) (store.beforeDeletions batch).location := by
  unfold DatabaseStore.batchDepartures
  simp only [batchDeletions_effective]
  have hnone : (if (store.beforeDeletions batch).base.imap_absence_prune_allowed
      (store.effective batch).absence_deleted_message_ids.length then
        (store.effective batch).absence_deleted_imap_message_locations else []) = [] := by
    split_ifs <;> rfl
  rw [hnone, List.append_nil]
  apply List.filter_eq_self.mpr
  intro place hplace
  obtain ⟨key, hkey, _, rfl⟩ := mem_departing.mp hplace
  exact (List.mem_filter.mp hkey).2

theorem base_applyRemovals : (store.applyRemovals batch).base = store.base.applyRemovals (store.effective batch) := by
  have hbefore := @base_beforeDeletions store batch
  unfold applyRemovals
  simp only
  rw [base_delete_messages_tx, base_delete_imap_message_locations_tx]
  unfold DatabaseStore.applyRemovals
  simp only at hbefore ⊢
  show _ = DatabaseStore.delete_messages_tx (List.foldl _ (DatabaseStore.delete_mailboxes_tx _ batch.deleted_mailbox_ids) _) _
  rw [show (store.effective batch).replace_all_mailboxes = batch.replace_all_mailboxes from rfl,
    show (store.effective batch).replace_all_messages = batch.replace_all_messages from rfl,
    show (store.effective batch).mailboxes = batch.mailboxes from rfl,
    show (store.effective batch).messages = batch.messages from rfl,
    show (store.effective batch).deleted_mailbox_ids = batch.deleted_mailbox_ids from rfl,
    ← hbefore, batchDeletions_effective, batchDepartures_effective]

end Base

section Tables

variable {store} {batch : ImapSyncBatch} {location : ImapMessageLocation}

theorem mem_location_delete_mailboxes_tx (mailbox_ids : List MailboxId) :
    location ∈ (store.delete_mailboxes_tx mailbox_ids).location.rows ↔
      location ∈ store.location.rows ∧ location.mailbox_id ∉ mailbox_ids := by
  induction mailbox_ids generalizing store with
  | nil => simp [delete_mailboxes_tx]
  | cons first rest ih =>
    show location ∈ ((store.delete_mailbox_tx first).delete_mailboxes_tx rest).location.rows ↔ _
    rw [ih]
    unfold delete_mailbox_tx
    simp only [Table.mem_retain, decide_eq_true_eq, List.mem_cons, not_or]
    tauto

theorem mem_location_delete_messages_tx (message_ids : List MessageId) :
    location ∈ (store.delete_messages_tx message_ids).location.rows ↔
      location ∈ store.location.rows ∧ location.message_id ∉ message_ids := by
  induction message_ids generalizing store with
  | nil => simp [delete_messages_tx]
  | cons first rest ih =>
    show location ∈ ((store.delete_message_tx first).delete_messages_tx rest).location.rows ↔ _
    rw [ih]
    unfold delete_message_tx
    simp only [Table.mem_retain, decide_eq_true_eq, List.mem_cons, not_or]
    tauto

theorem mem_location_delete_imap_message_location_tx {key : ImapMessageLocationKey} :
    location ∈ (store.delete_imap_message_location_tx key).location.rows ↔
      location ∈ store.location.rows ∧ location.key ≠ key := by
  unfold delete_imap_message_location_tx
  split_ifs with hstored
  · simp only [Table.mem_retain, decide_eq_true_eq]
  · constructor
    · exact fun hmem => ⟨hmem, fun hkey => hstored (hkey ▸ List.mem_map_of_mem hmem)⟩
    · exact fun hmem => hmem.1

theorem mem_location_delete_imap_message_locations_tx (keys : List ImapMessageLocationKey) :
    location ∈ (store.delete_imap_message_locations_tx keys).location.rows ↔
      location ∈ store.location.rows ∧ location.key ∉ keys := by
  induction keys generalizing store with
  | nil => simp [delete_imap_message_locations_tx]
  | cons first rest ih =>
    show location ∈ ((store.delete_imap_message_location_tx first).delete_imap_message_locations_tx rest).location.rows ↔ _
    rw [ih, mem_location_delete_imap_message_location_tx, List.mem_cons, not_or]
    tauto

theorem mem_batchDeletions {message_id : MessageId} :
    message_id ∈ store.batchDeletions batch ↔ message_id ∈ batch.deleted_message_ids ∨
      store.allowsAbsence batch = true ∧ message_id ∈ batch.absence_deleted_message_ids := by
  unfold batchDeletions
  simp only
  rw [← BTreeSet.mem_iff, BTreeSet.mem_from_iter, List.mem_append]
  cases store.allowsAbsence batch <;> simp

/-- A location is left by the removals when neither it nor its message is deleted. -/
theorem mem_location_applyRemovals :
    location ∈ (store.applyRemovals batch).location.rows ↔
      location ∈ (store.beforeDeletions batch).location.rows ∧
        location.key ∉ (store.beforeDeletions batch).batchDepartures batch ∧
        location.message_id ∉ (store.beforeDeletions batch).batchDeletions batch := by
  unfold applyRemovals
  simp only
  rw [mem_location_delete_messages_tx, mem_location_delete_imap_message_locations_tx, and_assoc]

/-- A row is left by the removals without the mailboxes it departs from. -/
theorem lookup_applyRemovals {id : MessageId} :
    (store.applyRemovals batch).base.message.lookup id =
      if id ∈ (store.beforeDeletions batch).batchDeletions batch then none
      else ((store.beforeDeletions batch).base.message.lookup id).map
        (·.leaveAll (((departing ((store.beforeDeletions batch).batchDepartures batch)
          (store.beforeDeletions batch).location).filter (·.1 = id)).map Prod.snd)) := by
  unfold applyRemovals
  simp only
  rw [base_delete_messages_tx, base_delete_imap_message_locations_tx, DatabaseStore.lookup_delete_messages_tx,
    DatabaseStore.lookup_departures]

/-- A stored location is one the batch wrote last at its place, or one whose place the batch leaves alone. -/
theorem mem_putAll {locations : List ImapMessageLocation} {table : Table ImapMessageLocation ImapMessageLocation.place}
    (hmem : location ∈ (locations.foldl Table.put table).rows) :
    location ∈ locations ∨ location ∈ table.rows ∧ location.place ∉ locations.map ImapMessageLocation.place := by
  induction locations generalizing table with
  | nil => exact Or.inr ⟨hmem, List.not_mem_nil⟩
  | cons first rest ih =>
    obtain hrest | ⟨hstored, hplace⟩ := ih hmem
    · exact Or.inl (List.mem_cons_of_mem _ hrest)
    · obtain rfl | ⟨hheld, hne⟩ := Table.mem_put.mp hstored
      · exact Or.inl List.mem_cons_self
      · refine Or.inr ⟨hheld, ?_⟩
        rw [List.map_cons, List.mem_cons, not_or]
        exact ⟨hne, hplace⟩

theorem mem_putAll_of_untouched {locations : List ImapMessageLocation}
    {table : Table ImapMessageLocation ImapMessageLocation.place} (hmem : location ∈ table.rows)
    (huntouched : location.place ∉ locations.map ImapMessageLocation.place) :
    location ∈ (locations.foldl Table.put table).rows := by
  induction locations generalizing table with
  | nil => exact hmem
  | cons first rest ih =>
    rw [List.map_cons, List.mem_cons, not_or] at huntouched
    exact ih (Table.mem_put.mpr (Or.inr ⟨hmem, huntouched.1⟩)) huntouched.2

/-- The places of both the batch and the table are kept. -/
theorem mem_places_putAll {locations : List ImapMessageLocation}
    {table : Table ImapMessageLocation ImapMessageLocation.place} {place : MessageId × MailboxId} :
    place ∈ (locations.foldl Table.put table).rows.map ImapMessageLocation.place ↔
      place ∈ locations.map ImapMessageLocation.place ∨ place ∈ table.rows.map ImapMessageLocation.place := by
  induction locations generalizing table with
  | nil => simp
  | cons first rest ih =>
    have hput : place ∈ (table.put first).rows.map ImapMessageLocation.place ↔
        place = first.place ∨ place ∈ table.rows.map ImapMessageLocation.place := by
      constructor
      · intro hmem
        obtain ⟨row, hrow, rfl⟩ := List.mem_map.mp hmem
        obtain rfl | ⟨hheld, _⟩ := Table.mem_put.mp hrow
        · exact Or.inl rfl
        · exact Or.inr (List.mem_map_of_mem hheld)
      · intro hmem
        by_cases hsame : place = first.place
        · rw [hsame]
          exact List.mem_map_of_mem (Table.mem_put.mpr (Or.inl rfl))
        · obtain ⟨row, hrow, rfl⟩ := List.mem_map.mp (hmem.resolve_left hsame)
          exact List.mem_map_of_mem (Table.mem_put.mpr (Or.inr ⟨hrow, hsame⟩))
    rw [List.foldl_cons, ih, hput, List.map_cons, List.mem_cons]
    tauto

/-- A batch that applies leaves each row with its removals and its records. -/
theorem apply_sync_batch_ok {after : ImapStore} (happly : store.apply_sync_batch batch = .ok after) :
    (∀ id, after.base.message.lookup id =
      rowAfter batch.messages id ((store.applyRemovals batch).base.message.lookup id)) ∧
      after.location = batch.imap_message_locations.foldl Table.put (store.applyRemovals batch).location ∧
      after.mailbox_state = batch.imap_mailbox_states.foldl Table.put (store.applyRemovals batch).mailbox_state := by
  unfold apply_sync_batch at happly
  cases hmessages : DatabaseStore.applyMessages batch.messages
      (batch.mailboxes.foldl DatabaseStore.upsert_mailbox_tx (store.applyRemovals batch).base) with
  | error failure =>
    simp only [hmessages] at happly
    cases happly
  | ok applied =>
    simp only [hmessages] at happly
    cases happly
    refine ⟨fun id => ?_, rfl, rfl⟩
    show (batch.cursors.foldl DatabaseStore.upsert_sync_cursor_tx applied).message.lookup id = _
    rw [DatabaseStore.message_upsertCursors, DatabaseStore.lookup_applyMessages hmessages,
      DatabaseStore.message_upsertMailboxes]

theorem apply_sync_batch_of_nodup
    (hwritable : ∀ record ∈ batch.messages, record.mailbox_ids.Nodup ∧ record.keywords.Nodup) :
    ∃ after, store.apply_sync_batch batch = .ok after := by
  obtain ⟨applied, happlied⟩ := @DatabaseStore.applyMessages_of_nodup
    (batch.mailboxes.foldl DatabaseStore.upsert_mailbox_tx (store.applyRemovals batch).base) batch.messages hwritable
  unfold apply_sync_batch
  simp only [happlied]
  exact ⟨_, rfl⟩

/-- Pruning mailboxes leaves every row in place. -/
theorem isSome_lookup_beforeDeletions {id : MessageId} (hkeep : batch.replace_all_messages = false) :
    ((store.beforeDeletions batch).base.message.lookup id).isSome = (store.base.message.lookup id).isSome := by
  rw [base_beforeDeletions]
  simp only [hkeep, Bool.false_eq_true, if_false]
  rw [DatabaseStore.lookup_delete_mailboxes_tx, Option.isSome_map]
  split_ifs
  · rw [DatabaseStore.prune_mailboxes_eq, DatabaseStore.lookup_delete_mailboxes_tx, Option.isSome_map]
  · rfl

/-- A batch that prunes nothing decides its deletions on the store as it is. -/
theorem beforeDeletions_of_unpruned (hmailboxes : batch.replace_all_mailboxes = false)
    (hmessages : batch.replace_all_messages = false) (hdeleted : batch.deleted_mailbox_ids = []) :
    store.beforeDeletions batch = store := by
  unfold beforeDeletions
  simp only [hmailboxes, hmessages, hdeleted, Bool.false_eq_true, if_false]
  rfl

/-- A row goes when the batch deletes its message and does not write it again. -/
theorem lookup_eq_none_iff {after : ImapStore} {id : MessageId} (happly : store.apply_sync_batch batch = .ok after)
    (hkeep : batch.replace_all_messages = false) (hrow : (store.base.message.lookup id).isSome) :
    after.base.message.lookup id = none ↔
      id ∈ (store.beforeDeletions batch).batchDeletions batch ∧ ∀ record ∈ batch.messages, record.id ≠ id := by
  rw [(apply_sync_batch_ok happly).1]
  have hkept : (store.applyRemovals batch).base.message.lookup id = none ↔
      id ∈ (store.beforeDeletions batch).batchDeletions batch := by
    rw [lookup_applyRemovals]
    split_ifs with hdeleted
    · exact ⟨fun _ => hdeleted, fun _ => rfl⟩
    · rw [← isSome_lookup_beforeDeletions hkeep] at hrow
      rw [Option.map_eq_none_iff]
      constructor
      · intro hnone
        rw [hnone] at hrow
        exact absurd hrow Bool.false_ne_true
      · exact fun hmem => absurd hmem hdeleted
  obtain ⟨hsame, habsent⟩ | ⟨record, hrecord, hid, row, hwritten, _⟩ :=
    @rowAfter_cases batch.messages id ((store.applyRemovals batch).base.message.lookup id)
  · rw [hsame, hkept]
    exact ⟨fun hdeleted => ⟨hdeleted, habsent⟩, And.left⟩
  · rw [hwritten]
    constructor
    · exact fun hnone => absurd hnone (Option.some_ne_none row)
    · exact fun hdeleted => absurd hid (hdeleted.2 record hrecord)

end Tables

end ImapStore

end posthaste.store
