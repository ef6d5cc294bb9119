import Posthaste.Imap.Membership
import Posthaste.Imap.Survival

open posthaste.model posthaste.store

namespace posthaste.imap

/-- The message has a stored location and a membership. -/
def HasHome (store : ImapStore) (message_id : MessageId) : Prop :=
  (∃ location ∈ store.location.rows, location.message_id = message_id) ∧
    ∃ mailbox_id, (message_id, mailbox_id) ∈ store.base.memberships

/-- Every stored message has a home. -/
def Homed (store : ImapStore) : Prop :=
  ∀ message_id, (store.base.message.lookup message_id).isSome → HasHome store message_id

/-- The mailbox holds a location of the message together with its membership. -/
def LivesIn (store : ImapStore) (message_id : MessageId) (mailbox_id : MailboxId) : Prop :=
  (message_id, mailbox_id) ∈ store.location.rows.map ImapMessageLocation.place ∧
    (message_id, mailbox_id) ∈ store.base.memberships

/-- A batch that says nothing about the message. -/
structure Silent (batch : ImapSyncBatch) (message_id : MessageId) : Prop where
  records : ∀ record ∈ batch.messages, record.id ≠ message_id
  locations : ∀ location ∈ batch.imap_message_locations, location.message_id ≠ message_id

/-- A batch whose only removals are those of a mailbox prune. -/
structure Additive (batch : ImapSyncBatch) : Prop where
  replace_all_messages : batch.replace_all_messages = false
  deleted_mailbox_ids : batch.deleted_mailbox_ids = []
  deleted_message_ids : batch.deleted_message_ids = []
  deleted_imap_message_locations : batch.deleted_imap_message_locations = []
  absence_deleted_message_ids : batch.absence_deleted_message_ids = []
  absence_deleted_imap_message_locations : batch.absence_deleted_imap_message_locations = []

/-- Of the message, a store holds what another holds outside the dropped mailboxes. -/
structure Trimmed (dropped : List MailboxId) (before after : ImapStore) (message_id : MessageId) : Prop where
  row : (after.base.message.lookup message_id).isSome = (before.base.message.lookup message_id).isSome
  location : ∀ location : ImapMessageLocation, location.message_id = message_id →
    (location ∈ after.location.rows ↔ location ∈ before.location.rows ∧ location.mailbox_id ∉ dropped)
  membership : ∀ mailbox_id, (message_id, mailbox_id) ∈ after.base.memberships ↔
    (message_id, mailbox_id) ∈ before.base.memberships ∧ mailbox_id ∉ dropped

section Batches

variable {store before middle after : ImapStore} {batch : ImapSyncBatch} {dropped : List MailboxId}
  {message_id : MessageId} {mailbox_id : MailboxId}

theorem LivesIn.hasHome (hlives : LivesIn store message_id mailbox_id) : HasHome store message_id := by
  obtain ⟨hplace, hmember⟩ := hlives
  obtain ⟨location, hlocation, hsame⟩ := List.mem_map.mp hplace
  exact ⟨⟨location, hlocation, congrArg Prod.fst hsame⟩, mailbox_id, hmember⟩

theorem Trimmed.refl (store : ImapStore) (message_id : MessageId) : Trimmed [] store store message_id where
  row := rfl
  location location _ := by simp
  membership mailbox_id := by simp

theorem Trimmed.trans (hfirst : Trimmed dropped before middle message_id) (hsecond : Trimmed [] middle after message_id) :
    Trimmed dropped before after message_id where
  row := hsecond.row.trans hfirst.row
  location location hid := by
    rw [hsecond.location location hid, hfirst.location location hid]
    simp
  membership mailbox_id := by
    rw [hsecond.membership, hfirst.membership]
    simp

theorem Trimmed.livesIn (htrimmed : Trimmed dropped before after message_id)
    (hlives : LivesIn before message_id mailbox_id) (hkept : mailbox_id ∉ dropped) : LivesIn after message_id mailbox_id := by
  obtain ⟨hplace, hmember⟩ := hlives
  obtain ⟨location, hlocation, hsame⟩ := List.mem_map.mp hplace
  have hmailbox : location.mailbox_id = mailbox_id := congrArg Prod.snd hsame
  refine ⟨?_, (htrimmed.membership mailbox_id).mpr ⟨hmember, hkept⟩⟩
  rw [← hsame]
  refine List.mem_map_of_mem ((htrimmed.location location (congrArg Prod.fst hsame)).mpr ⟨hlocation, ?_⟩)
  rwa [hmailbox]

/-- A batch that brings a location of a message leaves the message there. -/
theorem livesIn_of_brought (hlisted : ImapStore.Listed batch) (happly : store.apply_sync_batch batch = .ok after)
    {location : ImapMessageLocation} (hbrought : location ∈ batch.imap_message_locations) :
    LivesIn after location.message_id location.mailbox_id := by
  constructor
  · rw [(ImapStore.apply_sync_batch_ok happly).2.1]
    exact ImapStore.mem_places_putAll.mpr (Or.inl (List.mem_map_of_mem hbrought))
  · obtain ⟨record, hrecord, hid, hmailbox⟩ := hlisted.locations location hbrought
    rw [← hid]
    exact (ImapStore.mem_memberships_written hlisted happly hrecord).mpr hmailbox

section Silence

variable (hsilent : Silent batch message_id) (happly : store.apply_sync_batch batch = .ok after)

include hsilent happly

theorem row_of_silent : after.base.message.lookup message_id =
    (store.applyRemovals batch).base.message.lookup message_id := by
  rw [(ImapStore.apply_sync_batch_ok happly).1, rowAfter_of_absent hsilent.records]

theorem location_of_silent {location : ImapMessageLocation} (hid : location.message_id = message_id) :
    location ∈ after.location.rows ↔ location ∈ (store.applyRemovals batch).location.rows := by
  rw [(ImapStore.apply_sync_batch_ok happly).2.1]
  constructor
  · intro hmem
    obtain hbrought | ⟨hstored, _⟩ := ImapStore.mem_putAll hmem
    · exact absurd hid (hsilent.locations location hbrought)
    · exact hstored
  · intro hstored
    refine ImapStore.mem_putAll_of_untouched hstored fun hplace => ?_
    obtain ⟨other, hother, hsame⟩ := List.mem_map.mp hplace
    exact hsilent.locations other hother ((congrArg Prod.fst hsame).trans hid)

theorem membership_of_silent : (message_id, mailbox_id) ∈ after.base.memberships ↔
    (message_id, mailbox_id) ∈ (store.applyRemovals batch).base.memberships :=
  ImapStore.mem_memberships_unwritten happly hsilent.records

end Silence

theorem mem_memberships_delete_mailboxes_tx (base : DatabaseStore) (mailbox_ids : List MailboxId) :
    (message_id, mailbox_id) ∈ (base.delete_mailboxes_tx mailbox_ids).memberships ↔
      (message_id, mailbox_id) ∈ base.memberships ∧ mailbox_id ∉ mailbox_ids := by
  rw [DatabaseStore.mem_memberships, DatabaseStore.mem_memberships, DatabaseStore.lookup_delete_mailboxes_tx]
  constructor
  · rintro ⟨row, hrow, hmem⟩
    obtain ⟨stored, hstored, rfl⟩ := Option.map_eq_some_iff.mp hrow
    obtain ⟨hmailbox, hkept⟩ := MessageRow.mem_leaveAll.mp hmem
    exact ⟨⟨stored, hstored, hmailbox⟩, hkept⟩
  · rintro ⟨⟨stored, hstored, hmailbox⟩, hkept⟩
    refine ⟨stored.leaveAll mailbox_ids, ?_, MessageRow.mem_leaveAll.mpr ⟨hmailbox, hkept⟩⟩
    rw [hstored]
    rfl

/-- What comes before a batch's own deletions trims the mailboxes it drops. -/
theorem trimmed_beforeDeletions (hmessages : batch.replace_all_messages = false)
    (hmailboxes : batch.deleted_mailbox_ids = []) :
    Trimmed (droppedBy store batch) store (store.beforeDeletions batch) message_id where
  row := ImapStore.isSome_lookup_beforeDeletions hmessages
  location location _ := mem_location_beforeDeletions hmessages hmailboxes
  membership mailbox_id := by
    rw [ImapStore.base_beforeDeletions]
    simp only [hmessages, hmailboxes, Bool.false_eq_true, if_false]
    rw [mem_memberships_delete_mailboxes_tx, droppedBy]
    split_ifs
    · rw [DatabaseStore.prune_mailboxes_eq, mem_memberships_delete_mailboxes_tx]
      simp
    · simp

theorem applyRemovals_of_additive (hadditive : Additive batch) : store.applyRemovals batch = store.beforeDeletions batch := by
  have hdeletions : (store.beforeDeletions batch).batchDeletions batch = [] := by
    unfold ImapStore.batchDeletions
    simp only [hadditive.deleted_message_ids, hadditive.absence_deleted_message_ids, ite_self]
    rfl
  have hdepartures : (store.beforeDeletions batch).batchDepartures batch = [] := by
    unfold ImapStore.batchDepartures
    simp only [hadditive.deleted_imap_message_locations, hadditive.absence_deleted_imap_message_locations, ite_self]
    rfl
  unfold ImapStore.applyRemovals
  simp only [hdeletions, hdepartures]
  rfl

/-- An additive batch that is silent about a message trims it. -/
theorem trimmed_of_additive (hadditive : Additive batch) (hsilent : Silent batch message_id)
    (happly : store.apply_sync_batch batch = .ok after) : Trimmed (droppedBy store batch) store after message_id := by
  have htrimmed := @trimmed_beforeDeletions store batch message_id hadditive.replace_all_messages hadditive.deleted_mailbox_ids
  rw [← applyRemovals_of_additive hadditive] at htrimmed
  constructor
  · rw [row_of_silent hsilent happly, htrimmed.row]
  · intro location hid
    rw [location_of_silent hsilent happly hid, htrimmed.location location hid]
  · intro mailbox_id
    rw [membership_of_silent hsilent happly, htrimmed.membership]

theorem allowsAbsence_of_nil (hnone : batch.absence_deleted_message_ids = []) : store.allowsAbsence batch = true := by
  unfold ImapStore.allowsAbsence
  rw [hnone]
  rfl

end Batches

end posthaste.imap
