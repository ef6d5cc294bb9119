import Posthaste.Store.Floor

open posthaste.model

namespace posthaste.store

namespace ImapStore

variable {store : ImapStore} {batch : ImapSyncBatch}

/-- Every stored location has its membership row. -/
def Matched (store : ImapStore) : Prop := ∀ location ∈ store.location.rows, location.place ∈ store.base.memberships

/-- A batch has one record for each message, and a record that lists the mailbox of each location. -/
structure Listed (batch : ImapSyncBatch) : Prop where
  ids_nodup : (batch.messages.map MessageRecord.id).Nodup
  locations : ∀ location ∈ batch.imap_message_locations, ∃ record ∈ batch.messages,
    record.id = location.message_id ∧ location.mailbox_id ∈ record.mailbox_ids

section Removals

theorem matched_delete_mailboxes_tx (mailbox_ids : List MailboxId) (hmatched : store.Matched) :
    (store.delete_mailboxes_tx mailbox_ids).Matched := by
  intro location hmem
  obtain ⟨hstored, hkept⟩ := (mem_location_delete_mailboxes_tx mailbox_ids).mp hmem
  obtain ⟨row, hrow, hmailbox⟩ := DatabaseStore.mem_memberships.mp (hmatched location hstored)
  refine DatabaseStore.mem_memberships.mpr ⟨row.leaveAll mailbox_ids, ?_, MessageRow.mem_leaveAll.mpr ⟨hmailbox, hkept⟩⟩
  rw [base_delete_mailboxes_tx, DatabaseStore.lookup_delete_mailboxes_tx, hrow]
  rfl

theorem matched_delete_messages_tx (message_ids : List MessageId) (hmatched : store.Matched) :
    (store.delete_messages_tx message_ids).Matched := by
  intro location hmem
  obtain ⟨hstored, hkept⟩ := (mem_location_delete_messages_tx message_ids).mp hmem
  obtain ⟨row, hrow, hmailbox⟩ := DatabaseStore.mem_memberships.mp (hmatched location hstored)
  refine DatabaseStore.mem_memberships.mpr ⟨row, ?_, hmailbox⟩
  rw [base_delete_messages_tx, DatabaseStore.lookup_delete_messages_tx, ← hrow]
  exact if_neg hkept

theorem matched_beforeDeletions (hmatched : store.Matched) : (store.beforeDeletions batch).Matched := by
  unfold beforeDeletions
  simp only
  apply matched_delete_mailboxes_tx
  have hpruned : (if batch.replace_all_mailboxes then
      store.prune_mailboxes_absent_from_remote_tx (batch.mailboxes.map Mailbox.id) else store).Matched := by
    split_ifs
    · exact matched_delete_mailboxes_tx _ hmatched
    · exact hmatched
  generalize (if batch.replace_all_mailboxes then
    store.prune_mailboxes_absent_from_remote_tx (batch.mailboxes.map Mailbox.id) else store) = pruned at hpruned ⊢
  split_ifs
  · exact fun location hmem => matched_delete_messages_tx _ hpruned location (Table.mem_retain.mp hmem).1
  · exact hpruned

/-- Removals take a membership only with its location. -/
theorem matched_applyRemovals (hmatched : store.Matched) : (store.applyRemovals batch).Matched := by
  intro location hmem
  obtain ⟨hstored, hstays, hkept⟩ := mem_location_applyRemovals.mp hmem
  refine mem_memberships_applyRemovals.mpr ⟨matched_beforeDeletions hmatched location hstored, hkept, fun hdeparts => ?_⟩
  obtain ⟨key, hkey, hheld, hplace⟩ := mem_departing.mp hdeparts
  obtain ⟨other, hother, rfl⟩ := List.mem_map.mp hheld
  rw [Table.key_inj hother hstored hplace] at hkey
  exact hstays hkey

end Removals

/-- A record of the batch replaces the memberships of its message. -/
theorem mem_memberships_written (hlisted : Listed batch) {after : ImapStore}
    (happly : store.apply_sync_batch batch = .ok after) {record : MessageRecord} (hrecord : record ∈ batch.messages)
    {mailbox_id : MailboxId} : (record.id, mailbox_id) ∈ after.base.memberships ↔ mailbox_id ∈ record.mailbox_ids := by
  rw [DatabaseStore.mem_memberships, (apply_sync_batch_ok happly).1]
  obtain ⟨_, habsent⟩ | ⟨written, hwritten, hid, row, hrow, hmailboxes⟩ :=
    @rowAfter_cases batch.messages record.id ((store.applyRemovals batch).base.message.lookup record.id)
  · exact absurd rfl (habsent record hrecord)
  · have hsame : written = record := List.inj_on_of_nodup_map hlisted.ids_nodup hwritten hrecord hid
    rw [hsame] at hmailboxes
    constructor
    · rintro ⟨found, hfound, hmem⟩
      rw [hrow] at hfound
      cases hfound
      rwa [hmailboxes, BTreeSet.mem_from_iter] at hmem
    · intro hmem
      refine ⟨row, hrow, ?_⟩
      rwa [hmailboxes, BTreeSet.mem_from_iter]

theorem mem_memberships_unwritten {after : ImapStore} (happly : store.apply_sync_batch batch = .ok after)
    {place : MessageId × MailboxId} (habsent : ∀ record ∈ batch.messages, record.id ≠ place.1) :
    place ∈ after.base.memberships ↔ place ∈ (store.applyRemovals batch).base.memberships := by
  rw [DatabaseStore.mem_memberships, DatabaseStore.mem_memberships, (apply_sync_batch_ok happly).1,
    rowAfter_of_absent habsent]

/-- A batch keeps locations and memberships matched exactly when each record names the
    mailboxes where its message keeps a location. -/
theorem matched_apply_iff (hlisted : Listed batch) {after : ImapStore} (hmatched : store.Matched)
    (happly : store.apply_sync_batch batch = .ok after) : after.Matched ↔
      ∀ record ∈ batch.messages, ∀ location ∈ (store.applyRemovals batch).location.rows,
        location.message_id = record.id → location.mailbox_id ∈ record.mailbox_ids := by
  have hlocations := (apply_sync_batch_ok happly).2.1
  constructor
  · intro hafter record hrecord location hlocation hid
    rw [← mem_memberships_written hlisted happly hrecord, ← hid]
    have hplace : location.place ∈ after.location.rows.map ImapMessageLocation.place := by
      rw [hlocations]
      exact mem_places_putAll.mpr (Or.inr (List.mem_map_of_mem hlocation))
    obtain ⟨stored, hstored, hsame⟩ := List.mem_map.mp hplace
    have hmember := hafter stored hstored
    rw [hsame] at hmember
    exact hmember
  · intro hnamed location hlocation
    rw [hlocations] at hlocation
    obtain hbrought | ⟨hkept, _⟩ := mem_putAll hlocation
    · obtain ⟨record, hrecord, hid, hmailbox⟩ := hlisted.locations location hbrought
      have hmember := (mem_memberships_written hlisted happly hrecord).mpr hmailbox
      rw [hid] at hmember
      exact hmember
    · by_cases hwritten : ∃ record ∈ batch.messages, record.id = location.message_id
      · obtain ⟨record, hrecord, hid⟩ := hwritten
        have hmember := (mem_memberships_written hlisted happly hrecord).mpr (hnamed record hrecord location hkept hid.symm)
        rw [hid] at hmember
        exact hmember
      · have habsent : ∀ record ∈ batch.messages, record.id ≠ location.place.1 :=
          fun record hrecord hid => hwritten ⟨record, hrecord, hid⟩
        exact (mem_memberships_unwritten happly habsent).mpr (matched_applyRemovals hmatched location hkept)

end ImapStore

end posthaste.store
