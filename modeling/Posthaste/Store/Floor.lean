import Mathlib.Data.List.Perm.Subperm
import Posthaste.Store.Locations

open posthaste.model

namespace posthaste.store

/-- At most a single removal, or at most half of what was considered. -/
def WithinFloor (removed considered : Nat) : Prop := removed ≤ 1 ∨ 2 * removed ≤ considered

namespace DatabaseStore

/-- The membership rows of the account. -/
def memberships (store : DatabaseStore) : List (MessageId × MailboxId) :=
  store.message.entries.flatMap fun entry => entry.2.mailbox_ids.toList.map fun mailbox_id => (entry.1, mailbox_id)

variable {store : DatabaseStore}

theorem mem_memberships {place : MessageId × MailboxId} :
    place ∈ store.memberships ↔ ∃ row, store.message.lookup place.1 = some row ∧ place.2 ∈ row.mailbox_ids := by
  unfold memberships
  rw [List.mem_flatMap]
  constructor
  · rintro ⟨⟨id, row⟩, hentry, hmem⟩
    obtain ⟨mailbox_id, hmailbox, rfl⟩ := List.mem_map.mp hmem
    exact ⟨row, AList.mem_lookup_iff.mpr hentry, BTreeSet.mem_iff.mpr hmailbox⟩
  · rintro ⟨row, hlookup, hmem⟩
    exact ⟨⟨place.1, row⟩, AList.mem_lookup_iff.mp hlookup, List.mem_map.mpr ⟨place.2, BTreeSet.mem_iff.mp hmem, rfl⟩⟩

theorem memberships_nodup : store.memberships.Nodup := by
  unfold memberships
  rw [List.nodup_flatMap]
  constructor
  · intro entry _
    exact (entry.2.mailbox_ids.sorted.nodup).map fun first second hsame => congrArg Prod.snd hsame
  · have hkeys : (store.message.entries.map Sigma.fst).Nodup := store.message.nodupKeys
    rw [List.Nodup, List.pairwise_map] at hkeys
    refine hkeys.imp fun {first second} hne => ?_
    intro place hfirst hsecond
    obtain ⟨_, _, rfl⟩ := List.mem_map.mp hfirst
    obtain ⟨_, _, hsame⟩ := List.mem_map.mp hsecond
    exact hne (congrArg Prod.fst hsame).symm

/-- A prune of mailboxes stays within half of them, and an empty listing prunes none. -/
theorem prunedMailboxes_bounded (remote_mailbox_ids : List MailboxId) :
    (remote_mailbox_ids = [] → store.prunedMailboxes remote_mailbox_ids = []) ∧
      2 * (store.prunedMailboxes remote_mailbox_ids).length ≤ store.mailbox.length := by
  unfold prunedMailboxes
  simp only
  cases hmailboxes : store.mailbox with
  | nil => simp
  | cons first rest =>
    split_ifs with hrefused
    · simp
    · simp only [List.isEmpty_cons, Bool.not_false, Bool.true_and, Bool.or_eq_true, not_or] at hrefused
      obtain ⟨hlisted, hfloor⟩ := hrefused
      unfold over_floor at hfloor
      constructor
      · intro hempty
        exact absurd (List.isEmpty_iff.mpr hempty) hlisted
      · simpa using hfloor

/-- A prune of messages stays within half of them, and an empty listing prunes none. -/
theorem prunedMessages_bounded (remote_message_ids : List MessageId) :
    (remote_message_ids = [] → store.prunedMessages remote_message_ids = []) ∧
      2 * (store.prunedMessages remote_message_ids).length ≤ store.message.keys.length := by
  unfold prunedMessages
  simp only
  split_ifs with hrefused
  · simp
  · by_cases hlocal : store.message.keys = []
    · have hnone : store.absentMessages remote_message_ids = [] := by
        unfold absentMessages
        rw [hlocal]
        rfl
      rw [hnone]
      simp
    · have hpositive : 0 < store.message.keys.length := List.length_pos_iff.mpr hlocal
      simp only [hpositive, decide_true, Bool.true_and, Bool.or_eq_true, not_or] at hrefused
      obtain ⟨hlisted, hfloor⟩ := hrefused
      unfold over_floor at hfloor
      constructor
      · intro hempty
        exact absurd (List.isEmpty_iff.mpr hempty) hlisted
      · simpa using hfloor

/-- What a reconciliation prunes stays within the floor, mailboxes first and messages after them. -/
structure ReconciliationGuarded (store : DatabaseStore) (reconciliation : SyncReconciliation) : Prop where
  mailboxes : reconciliation.prune_mailboxes = true →
    (reconciliation.remote_mailbox_ids = [] → store.prunedMailboxes reconciliation.remote_mailbox_ids = []) ∧
      2 * (store.prunedMailboxes reconciliation.remote_mailbox_ids).length ≤ store.mailbox.length
  messages : reconciliation.prune_messages = true →
    let listed := if reconciliation.prune_mailboxes then
      store.prune_mailboxes_absent_from_remote_tx reconciliation.remote_mailbox_ids else store
    (reconciliation.remote_message_ids = [] → listed.prunedMessages reconciliation.remote_message_ids = []) ∧
      2 * (listed.prunedMessages reconciliation.remote_message_ids).length ≤ listed.message.keys.length

theorem reconciliationGuarded (reconciliation : SyncReconciliation) : ReconciliationGuarded store reconciliation where
  mailboxes _ := prunedMailboxes_bounded _
  messages _ := prunedMessages_bounded _

end DatabaseStore

namespace ImapStore

variable {store : ImapStore} {batch : ImapSyncBatch}

/-- The batch without its inferred deletions. -/
def asserted (batch : ImapSyncBatch) : ImapSyncBatch :=
  { batch with absence_deleted_imap_message_locations := [], absence_deleted_message_ids := [] }

/-- The messages that only the inferred deletions of the batch remove. -/
def inferredMessages (store : ImapStore) (batch : ImapSyncBatch) : List MessageId :=
  (store.applyRemovals (asserted batch)).base.message.keys.filter fun id =>
    (store.applyRemovals batch).base.message.lookup id = none

/-- The memberships that only they remove, of messages that stay. -/
def inferredMemberships (store : ImapStore) (batch : ImapSyncBatch) : List (MessageId × MailboxId) :=
  (store.applyRemovals (asserted batch)).base.memberships.filter fun place =>
    ((store.applyRemovals batch).base.message.lookup place.1).isSome && place ∉ (store.applyRemovals batch).base.memberships

/-- What the store removes because a listing lacked it stays within the floor, on every route. -/
structure AbsenceGuarded (store : ImapStore) (batch : ImapSyncBatch) : Prop where
  mailboxes : batch.replace_all_mailboxes = true →
    (batch.mailboxes = [] → store.base.prunedMailboxes (batch.mailboxes.map Mailbox.id) = []) ∧
      2 * (store.base.prunedMailboxes (batch.mailboxes.map Mailbox.id)).length ≤ store.base.mailbox.length
  messages : batch.replace_all_messages = true →
    let listed := if batch.replace_all_mailboxes then
      store.base.prune_mailboxes_absent_from_remote_tx (batch.mailboxes.map Mailbox.id) else store.base
    (batch.messages = [] → listed.prunedMessages (batch.messages.map MessageRecord.id) = []) ∧
      2 * (listed.prunedMessages (batch.messages.map MessageRecord.id)).length ≤ listed.message.keys.length
  inferredMessages : WithinFloor (inferredMessages store batch).length
    (store.beforeDeletions batch).base.message.keys.length
  inferredMemberships : WithinFloor (inferredMemberships store batch).length
    (store.beforeDeletions batch).base.memberships.length

/-- What the server asserted gone is gone after the removals, and stays so unless the batch writes it anew. -/
structure AssertedApplied (store : ImapStore) (batch : ImapSyncBatch) : Prop where
  mailboxes : ∀ mailbox_id ∈ batch.deleted_mailbox_ids,
    mailbox_id ∉ (store.applyRemovals batch).base.mailbox.map Mailbox.id ∧
      (∀ place ∈ (store.applyRemovals batch).base.memberships, place.2 ≠ mailbox_id) ∧
      ∀ location ∈ (store.applyRemovals batch).location.rows, location.mailbox_id ≠ mailbox_id
  messages : ∀ message_id ∈ batch.deleted_message_ids,
    (store.applyRemovals batch).base.message.lookup message_id = none ∧
      ∀ location ∈ (store.applyRemovals batch).location.rows, location.message_id ≠ message_id
  locations : ∀ key ∈ batch.deleted_imap_message_locations,
    (∀ location ∈ (store.applyRemovals batch).location.rows, location.key ≠ key) ∧
      (key ∈ (store.beforeDeletions batch).location.rows.map ImapMessageLocation.key →
        key.place ∉ (store.applyRemovals batch).base.memberships)
  after : ∀ after, store.apply_sync_batch batch = .ok after → ∀ message_id ∈ batch.deleted_message_ids,
    (∀ record ∈ batch.messages, record.id ≠ message_id) → after.base.message.lookup message_id = none

/-- The memberships that the inferred list takes by itself: their location is stored
    and named there, not asserted gone, and the message stays. -/
def inferredDepartures (store : ImapStore) (batch : ImapSyncBatch) : List (MessageId × MailboxId) :=
  let decided := store.beforeDeletions batch
  decided.base.memberships.filter fun place =>
    place.1 ∉ decided.batchDeletions batch &&
      (departing batch.absence_deleted_imap_message_locations decided.location).contains place &&
      !(departing batch.deleted_imap_message_locations decided.location).contains place

/-- The guard refuses the inferred deletions, or the memberships they take are within the floor. -/
def DeparturesWithinFloor (store : ImapStore) (batch : ImapSyncBatch) : Prop :=
  (store.beforeDeletions batch).allowsAbsence batch = true →
    WithinFloor (inferredDepartures store batch).length (store.beforeDeletions batch).base.memberships.length

section Removals

/-- A membership is left when its row is and no deleted location took it. -/
theorem mem_memberships_applyRemovals {place : MessageId × MailboxId} :
    place ∈ (store.applyRemovals batch).base.memberships ↔
      place ∈ (store.beforeDeletions batch).base.memberships ∧
        place.1 ∉ (store.beforeDeletions batch).batchDeletions batch ∧
        place ∉ departing ((store.beforeDeletions batch).batchDepartures batch) (store.beforeDeletions batch).location := by
  rw [DatabaseStore.mem_memberships, DatabaseStore.mem_memberships, lookup_applyRemovals]
  have hleft : ∀ row : MessageRow, place.2 ∈ (row.leaveAll (((departing
      ((store.beforeDeletions batch).batchDepartures batch) (store.beforeDeletions batch).location).filter
        (·.1 = place.1)).map Prod.snd)).mailbox_ids ↔ place.2 ∈ row.mailbox_ids ∧
          place ∉ departing ((store.beforeDeletions batch).batchDepartures batch) (store.beforeDeletions batch).location := by
    intro row
    rw [MessageRow.mem_leaveAll]
    refine and_congr Iff.rfl (not_congr ?_)
    constructor
    · intro hmem
      obtain ⟨other, hother, hmailbox⟩ := List.mem_map.mp hmem
      obtain ⟨hdeparts, hid⟩ := List.mem_filter.mp hother
      have hsame : other = place := Prod.ext (of_decide_eq_true hid) hmailbox
      rw [← hsame]
      exact hdeparts
    · intro hmem
      exact List.mem_map.mpr ⟨place, List.mem_filter.mpr ⟨hmem, decide_eq_true rfl⟩, rfl⟩
  split_ifs with hdeleted
  · constructor
    · rintro ⟨row, hrow, _⟩
      cases hrow
    · exact fun hmem => absurd hdeleted hmem.2.1
  · constructor
    · rintro ⟨row, hrow, hmem⟩
      obtain ⟨before, hbefore, rfl⟩ := Option.map_eq_some_iff.mp hrow
      obtain ⟨hmailbox, hstays⟩ := (hleft before).mp hmem
      exact ⟨⟨before, hbefore, hmailbox⟩, hdeleted, hstays⟩
    · rintro ⟨⟨before, hbefore, hmailbox⟩, _, hstays⟩
      exact ⟨_, Option.map_eq_some_iff.mpr ⟨before, hbefore, rfl⟩, (hleft before).mpr ⟨hmailbox, hstays⟩⟩

theorem lookup_applyRemovals_isSome {id : MessageId} :
    ((store.applyRemovals batch).base.message.lookup id).isSome = true ↔
      id ∉ (store.beforeDeletions batch).batchDeletions batch ∧
        ((store.beforeDeletions batch).base.message.lookup id).isSome = true := by
  rw [lookup_applyRemovals]
  split_ifs with hdeleted
  · simp [hdeleted]
  · simp [hdeleted]

theorem mem_mailbox_applyRemovals {mailbox : Mailbox} (hmem : mailbox ∈ (store.applyRemovals batch).base.mailbox) :
    mailbox.id ∉ batch.deleted_mailbox_ids := by
  unfold applyRemovals at hmem
  simp only at hmem
  rw [base_delete_messages_tx, DatabaseStore.mailbox_delete_messages_tx, base_delete_imap_message_locations_tx,
    DatabaseStore.mailbox_departures, base_beforeDeletions] at hmem
  simp only at hmem
  rw [DatabaseStore.mailbox_delete_mailboxes_tx] at hmem
  exact of_decide_eq_true (List.mem_filter.mp hmem).2

/-- The same rows are deleted, or fewer, when nothing is inferred. -/
theorem mem_batchDeletions_asserted {message_id : MessageId} :
    message_id ∈ store.batchDeletions (asserted batch) ↔ message_id ∈ batch.deleted_message_ids := by
  rw [mem_batchDeletions]
  show _ ∨ _ ∧ message_id ∈ [] ↔ _
  simp [asserted]

theorem mem_departing_batch {place : MessageId × MailboxId} (hstays : place.1 ∉ store.batchDeletions batch)
    (location : Table ImapMessageLocation ImapMessageLocation.place) :
    place ∈ departing (store.batchDepartures batch) location ↔
      place ∈ departing batch.deleted_imap_message_locations location ∨
        store.allowsAbsence batch = true ∧ place ∈ departing batch.absence_deleted_imap_message_locations location := by
  rw [mem_departing, mem_departing, mem_departing]
  unfold batchDepartures
  simp only
  constructor
  · rintro ⟨key, hkey, hstored, rfl⟩
    obtain ⟨hlisted, _⟩ := List.mem_filter.mp hkey
    obtain hlisted | hlisted := List.mem_append.mp hlisted
    · exact Or.inl ⟨key, hlisted, hstored, rfl⟩
    · split_ifs at hlisted with hallows
      · exact Or.inr ⟨hallows, key, hlisted, hstored, rfl⟩
      · exact absurd hlisted List.not_mem_nil
  · rintro (⟨key, hlisted, hstored, rfl⟩ | ⟨hallows, key, hlisted, hstored, rfl⟩)
    · exact ⟨key, List.mem_filter.mpr ⟨List.mem_append_left _ hlisted, decide_eq_true hstays⟩, hstored, rfl⟩
    · refine ⟨key, List.mem_filter.mpr ⟨List.mem_append_right _ ?_, decide_eq_true hstays⟩, hstored, rfl⟩
      rw [if_pos hallows]
      exact hlisted

end Removals

section Guard

/-- The inferred messages are among those the guard let through. -/
theorem inferredMessages_subset : ∀ id ∈ inferredMessages store batch,
    (store.beforeDeletions batch).allowsAbsence batch = true ∧ id ∈ batch.absence_deleted_message_ids ∧
      id ∈ (store.beforeDeletions batch).base.message.keys := by
  intro id hmem
  obtain ⟨hkept, hgone⟩ := List.mem_filter.mp hmem
  have hsome : ((store.applyRemovals (asserted batch)).base.message.lookup id).isSome = true :=
    AList.lookup_isSome.mpr hkept
  obtain ⟨hasserted, hstored⟩ := lookup_applyRemovals_isSome.mp hsome
  have hbefore : store.beforeDeletions (asserted batch) = store.beforeDeletions batch := rfl
  rw [hbefore, mem_batchDeletions_asserted] at hasserted
  rw [hbefore] at hstored
  have hdeleted : id ∈ (store.beforeDeletions batch).batchDeletions batch := by
    by_contra hstays
    have hleft := lookup_applyRemovals_isSome.mpr ⟨hstays, hstored⟩
    rw [of_decide_eq_true hgone] at hleft
    cases hleft
  obtain hlisted | ⟨hallows, hlisted⟩ := mem_batchDeletions.mp hdeleted
  · exact absurd hlisted hasserted
  · exact ⟨hallows, hlisted, AList.lookup_isSome.mp hstored⟩

theorem inferredMessages_withinFloor : WithinFloor (inferredMessages store batch).length
    (store.beforeDeletions batch).base.message.keys.length := by
  have hnodup : (inferredMessages store batch).Nodup := (AList.keys_nodup _).filter _
  by_cases hempty : inferredMessages store batch = []
  · left
    simp [hempty]
  · obtain ⟨id, hid⟩ := List.exists_mem_of_ne_nil _ hempty
    obtain ⟨hallows, _, hstored⟩ := inferredMessages_subset id hid
    have hlength : (inferredMessages store batch).length ≤ batch.absence_deleted_message_ids.length :=
      (List.subperm_of_subset hnodup fun other hother => (inferredMessages_subset other hother).2.1).length_le
    unfold allowsAbsence DatabaseStore.imap_absence_prune_allowed over_floor at hallows
    simp only [Bool.or_eq_true, decide_eq_true_eq, Bool.not_eq_true', decide_eq_false_iff_not] at hallows
    obtain (hsingle | hnone) | hfloor := hallows
    · left
      omega
    · rw [List.isEmpty_iff] at hnone
      rw [hnone] at hstored
      exact absurd hstored List.not_mem_nil
    · right
      omega

/-- The memberships the store removes for the inferred list are those the list takes by itself. -/
theorem mem_inferredMemberships {place : MessageId × MailboxId} :
    place ∈ inferredMemberships store batch ↔
      (store.beforeDeletions batch).allowsAbsence batch = true ∧ place ∈ inferredDepartures store batch := by
  have hbefore : store.beforeDeletions (asserted batch) = store.beforeDeletions batch := rfl
  unfold inferredMemberships inferredDepartures
  simp only [List.mem_filter, Bool.and_eq_true, decide_eq_true_eq, Bool.not_eq_true', List.contains_iff_mem,
    ← Bool.not_eq_true]
  rw [mem_memberships_applyRemovals, lookup_applyRemovals_isSome, mem_memberships_applyRemovals, hbefore,
    mem_batchDeletions_asserted]
  constructor
  · rintro ⟨⟨hmember, hasserted, hkept⟩, ⟨hstays, hstored⟩, htaken⟩
    have hdeparts : place ∈ departing ((store.beforeDeletions batch).batchDepartures batch)
        (store.beforeDeletions batch).location := by
      by_contra hnot
      exact htaken ⟨hmember, hstays, hnot⟩
    have hnotAsserted : place ∉ departing batch.deleted_imap_message_locations (store.beforeDeletions batch).location := by
      intro hlisted
      refine hkept ((mem_departing_batch ?_ _).mpr (Or.inl hlisted))
      rw [mem_batchDeletions_asserted]
      exact hasserted
    obtain hlisted | ⟨hallows, hlisted⟩ := (mem_departing_batch hstays _).mp hdeparts
    · exact absurd hlisted hnotAsserted
    · exact ⟨hallows, hmember, ⟨hstays, hlisted⟩, hnotAsserted⟩
  · rintro ⟨hallows, hmember, ⟨hstays, hlisted⟩, hnotAsserted⟩
    have hasserted : place.1 ∉ batch.deleted_message_ids := fun hmem => hstays (mem_batchDeletions.mpr (Or.inl hmem))
    refine ⟨⟨hmember, hasserted, fun hkept => ?_⟩, ⟨hstays, ?_⟩, fun hleft => ?_⟩
    · have hstaysAsserted : place.1 ∉ (store.beforeDeletions batch).batchDeletions (asserted batch) := by
        rw [mem_batchDeletions_asserted]
        exact hasserted
      obtain hmem | ⟨_, hmem⟩ := (mem_departing_batch hstaysAsserted _).mp hkept
      · exact hnotAsserted hmem
      · exact absurd hmem List.not_mem_nil
    · obtain ⟨row, hrow, _⟩ := DatabaseStore.mem_memberships.mp hmember
      rw [hrow]
      rfl
    · exact hleft.2.2 ((mem_departing_batch hstays _).mpr (Or.inr ⟨hallows, hlisted⟩))

theorem inferredMemberships_length (hallows : (store.beforeDeletions batch).allowsAbsence batch = true) :
    (inferredMemberships store batch).length = (inferredDepartures store batch).length := by
  have hfirst : (inferredMemberships store batch).Nodup := DatabaseStore.memberships_nodup.filter _
  have hsecond : (inferredDepartures store batch).Nodup := DatabaseStore.memberships_nodup.filter _
  apply List.Perm.length_eq
  apply (List.perm_ext_iff_of_nodup hfirst hsecond).mpr
  intro place
  rw [mem_inferredMemberships]
  simp [hallows]

theorem inferredMemberships_withinFloor_iff :
    WithinFloor (inferredMemberships store batch).length (store.beforeDeletions batch).base.memberships.length ↔
      DeparturesWithinFloor store batch := by
  unfold DeparturesWithinFloor
  cases hallows : (store.beforeDeletions batch).allowsAbsence batch with
  | true =>
    rw [inferredMemberships_length hallows]
    simp
  | false =>
    have hnone : inferredMemberships store batch = [] := by
      apply List.eq_nil_iff_forall_not_mem.mpr
      intro place hmem
      have htrue := (mem_inferredMemberships.mp hmem).1
      rw [hallows] at htrue
      cases htrue
    rw [hnone]
    simp [WithinFloor]

/-- Asserted deletions apply whatever the guard decides. -/
theorem assertedApplied : AssertedApplied store batch where
  mailboxes mailbox_id hlisted := by
    have hrows : ∀ place ∈ (store.beforeDeletions batch).base.memberships, place.2 ≠ mailbox_id := by
      intro place hmem hsame
      obtain ⟨row, hrow, hmailbox⟩ := DatabaseStore.mem_memberships.mp hmem
      rw [base_beforeDeletions] at hrow
      simp only at hrow
      rw [DatabaseStore.lookup_delete_mailboxes_tx] at hrow
      obtain ⟨before, _, rfl⟩ := Option.map_eq_some_iff.mp hrow
      exact (MessageRow.mem_leaveAll.mp hmailbox).2 (hsame ▸ hlisted)
    refine ⟨?_, fun place hmem => ?_, fun location hmem => ?_⟩
    · intro hmem
      obtain ⟨mailbox, hmailbox, hid⟩ := List.mem_map.mp hmem
      exact (mem_mailbox_applyRemovals hmailbox) (hid ▸ hlisted)
    · exact hrows place (mem_memberships_applyRemovals.mp hmem).1
    · have hbefore := (mem_location_applyRemovals.mp hmem).1
      unfold beforeDeletions at hbefore
      have hnot := ((mem_location_delete_mailboxes_tx _).mp hbefore).2
      exact fun hsame => hnot (hsame ▸ hlisted)
  messages message_id hlisted := by
    have hdeleted : message_id ∈ (store.beforeDeletions batch).batchDeletions batch := mem_batchDeletions.mpr (Or.inl hlisted)
    refine ⟨?_, fun location hmem hsame => ?_⟩
    · rw [lookup_applyRemovals, if_pos hdeleted]
    · exact (mem_location_applyRemovals.mp hmem).2.2 (hsame ▸ hdeleted)
  locations key hlisted := by
    by_cases hdeleted : key.message_id ∈ (store.beforeDeletions batch).batchDeletions batch
    · refine ⟨fun location hmem hkey => ?_, fun _ hmem => ?_⟩
      · rw [← hkey] at hdeleted
        exact (mem_location_applyRemovals.mp hmem).2.2 hdeleted
      · exact (mem_memberships_applyRemovals.mp hmem).2.1 hdeleted
    · have hdeparts : key ∈ (store.beforeDeletions batch).batchDepartures batch :=
        List.mem_filter.mpr ⟨List.mem_append_left _ hlisted, decide_eq_true hdeleted⟩
      refine ⟨fun location hmem hkey => ?_, fun hstored hmem => ?_⟩
      · exact (mem_location_applyRemovals.mp hmem).2.1 (hkey ▸ hdeparts)
      · exact (mem_memberships_applyRemovals.mp hmem).2.2 (mem_departing.mpr ⟨key, hdeparts, hstored, rfl⟩)
  after after happly message_id hlisted habsent := by
    have hdeleted : message_id ∈ (store.beforeDeletions batch).batchDeletions batch := mem_batchDeletions.mpr (Or.inl hlisted)
    rw [(apply_sync_batch_ok happly).1, rowAfter_of_absent habsent, lookup_applyRemovals, if_pos hdeleted]

/-- Removals by absence stay within the floor on every route, and asserted ones
    always apply, exactly when the inferred location list itself stays within the floor. -/
theorem absence_guarded_iff (store : ImapStore) (batch : ImapSyncBatch) (reconciliation : SyncReconciliation) :
    AbsenceGuarded store batch ∧ DatabaseStore.ReconciliationGuarded store.base reconciliation ∧
      AssertedApplied store batch ↔ DeparturesWithinFloor store batch := by
  rw [← inferredMemberships_withinFloor_iff]
  constructor
  · exact fun hguarded => hguarded.1.inferredMemberships
  · intro hfloor
    refine ⟨?_, DatabaseStore.reconciliationGuarded _, assertedApplied⟩
    exact {
      mailboxes := fun _ => ⟨fun hempty => (DatabaseStore.prunedMailboxes_bounded _).1 (by rw [hempty]; rfl),
        (DatabaseStore.prunedMailboxes_bounded _).2⟩
      messages := fun _ => ⟨fun hempty => (DatabaseStore.prunedMessages_bounded _).1 (by rw [hempty]; rfl),
        (DatabaseStore.prunedMessages_bounded _).2⟩
      inferredMessages := inferredMessages_withinFloor
      inferredMemberships := hfloor }

def labelled (mailbox_id : MailboxId) (uid : ImapUid) : ImapMessageLocation :=
  { message_id := "m1", mailbox_id, uid_validity := 1, uid, modseq := none }

/-- One message under three labels. -/
def threeLabels : ImapStore :=
  { ImapStore.empty with
    base := { DatabaseStore.empty with
      message := (∅ : AList fun _ : MessageId => MessageRow).insert "m1"
        (.of_record { (default : MessageRecord) with id := "m1", mailbox_ids := ["all", "inbox", "work"] }) }
    location := ⟨[labelled "all" 7, labelled "inbox" 3, labelled "work" 4], by decide⟩ }

/-- The listings of two labels come back empty. -/
def twoEmptyListings : ImapSyncBatch :=
  { (default : ImapSyncBatch) with
    absence_deleted_imap_message_locations := [(labelled "inbox" 3).key, (labelled "work" 4).key] }

/-- No message is counted, so the guard lets two of the three memberships go. -/
theorem memberships_pass_the_floor :
    ¬ ∀ store batch reconciliation, AbsenceGuarded store batch ∧
      DatabaseStore.ReconciliationGuarded store.base reconciliation ∧ AssertedApplied store batch := by
  intro hguarded
  have hfloor := (hguarded threeLabels twoEmptyListings ⟨[], [], false, false, []⟩).1.inferredMemberships
  have hremoved : (inferredMemberships threeLabels twoEmptyListings).length = 2 := by decide
  have hconsidered : (threeLabels.beforeDeletions twoEmptyListings).base.memberships.length = 3 := by decide
  rw [hremoved, hconsidered] at hfloor
  unfold WithinFloor at hfloor
  omega

end Guard

end ImapStore

end posthaste.store
