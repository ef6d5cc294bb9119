import Posthaste.Imap.Cycle

open posthaste.model posthaste.store

namespace posthaste.imap

namespace StreamedCycle

section Statement

variable (cycle : StreamedCycle)

/-- The local locations of the mailboxes that are not streamed. -/
def known : List ImapMessageLocation := cycle.rest.flatMap (·.local_locations)

/-- The headers their replies bring, as the provider projects them. -/
def described : List ImapMappedHeader :=
  project_imap_headers cycle.discovery (cycle.rest.flatMap (·.headers cycle.replies))

/-- The server asserted the removal: the UID vanished, or the labels of the message leave its mailbox out. -/
def Asserted (key : ImapMessageLocationKey) : Prop :=
  identityOf key ∈ cycle.rest.flatMap (·.vanished cycle.replies) ∨
    ∃ header ∈ cycle.described, header.mailbox_membership_source = .ProviderLabels ∧
      header.message.id = key.message_id ∧ key.mailbox_id ∈ header.provider_absent_mailbox_ids

/-- The cycle reported the location removed. -/
def Reported (key : ImapMessageLocationKey) : Prop :=
  cycle.Asserted key ∨ identityOf key ∈ cycle.rest.flatMap (·.unlisted cycle.replies)

/-- Every location the deltas know of the message is reported removed, and they bring no other. -/
def LeavesDeltas (message_id : MessageId) : Prop :=
  (∃ location ∈ cycle.known, location.message_id = message_id) ∧
    (∀ location ∈ cycle.known, location.message_id = message_id → cycle.Reported location.key) ∧
      ∀ header ∈ cycle.described, header.location.message_id ≠ message_id

def AllAsserted (message_id : MessageId) : Prop :=
  ∀ location ∈ cycle.known, location.message_id = message_id → cycle.Asserted location.key

instance (key : ImapMessageLocationKey) : Decidable (cycle.Asserted key) :=
  inferInstanceAs (Decidable (_ ∨ _))

instance (key : ImapMessageLocationKey) : Decidable (cycle.Reported key) :=
  inferInstanceAs (Decidable (_ ∨ _))

instance (message_id : MessageId) : Decidable (cycle.LeavesDeltas message_id) :=
  inferInstanceAs (Decidable (_ ∧ _))

instance (message_id : MessageId) : Decidable (cycle.AllAsserted message_id) :=
  inferInstanceAs (Decidable (∀ location ∈ cycle.known, location.message_id = message_id → cycle.Asserted location.key))

/-- The messages whose leaving is inferred, which the guard counts. -/
def inferredGone : List MessageId :=
  (BTreeSet.from_iter (cycle.known.map (·.message_id))).toList.filter fun message_id =>
    cycle.LeavesDeltas message_id ∧ ¬cycle.AllAsserted message_id

/-- The message is stored, it leaves the deltas, and the guard lets it go. -/
def GivenUp (store : ImapStore) (message_id : MessageId) : Prop :=
  (store.base.message.lookup message_id).isSome ∧ cycle.LeavesDeltas message_id ∧
    (cycle.AllAsserted message_id ∨ store.base.imap_absence_prune_allowed cycle.inferredGone.length = true)

/-- The mailboxes the cycle takes from the store. -/
def droppedMailboxes : List MailboxId :=
  cycle.store.base.prunedMailboxes ((cycle.discovery.mailboxes.filter (·.selectable)).map (·.id))

/-- A location of the message is stored in a mailbox that is not fetched as a delta, or comes with a streamed chunk. -/
def KeptElsewhere (message_id : MessageId) : Prop :=
  (∃ location ∈ cycle.store.location.rows, location.message_id = message_id ∧
    location.mailbox_id ∉ cycle.droppedMailboxes ∧ location.mailbox_id ∉ cycle.rest.map (·.id)) ∨
    ∃ batch ∈ cycle.streamed, ∃ location ∈ batch.imap_message_locations, location.message_id = message_id

/-- A stored location of the message is not reported removed, or a batch of the cycle adds one. -/
def Survives (message_id : MessageId) : Prop :=
  (∃ location ∈ cycle.store.location.rows, location.message_id = message_id ∧
    location.mailbox_id ∉ cycle.droppedMailboxes ∧ ¬cycle.Reported location.key) ∨
    ∃ batch ∈ cycle.batches, ∃ location ∈ batch.imap_message_locations, location.message_id = message_id

/-- The batches that go before the deltas. -/
def upserts : List ImapSyncBatch := imap_mailbox_sync_batch cycle.discovery :: cycle.streamed

/-- A batch of the cycle, applied in its turn, takes the row of the message. -/
def Deletes (message_id : MessageId) : Prop :=
  ∃ earlier batch later before after, cycle.batches = earlier ++ batch :: later ∧
    earlier.foldlM ImapStore.apply_sync_batch cycle.store = .ok before ∧ before.apply_sync_batch batch = .ok after ∧
      (before.base.message.lookup message_id).isSome ∧ after.base.message.lookup message_id = none

end Statement

variable {cycle : StreamedCycle} {message_id : MessageId}

section Deltas

def assertedKeys (cycle : StreamedCycle) : List ImapMessageLocationKey :=
  authoritativeKeys cycle.discovery (cycle.rest.flatMap (·.headers cycle.replies)) cycle.known
    (cycle.rest.flatMap (·.vanished cycle.replies))

def inferredKeys (cycle : StreamedCycle) : List ImapMessageLocationKey :=
  absenceKeys cycle.discovery (cycle.rest.flatMap (·.headers cycle.replies)) cycle.known
    (cycle.rest.flatMap (·.vanished cycle.replies)) (cycle.rest.flatMap (·.unlisted cycle.replies))

theorem mem_authoritative {key : ImapMessageLocationKey} :
    key ∈ cycle.assertedKeys ↔ key ∈ cycle.known.map ImapMessageLocation.key ∧ cycle.Asserted key := by
  unfold assertedKeys
  rw [mem_authoritativeKeys]
  unfold messages_and_locations_for_batch
  rw [mem_provider_absent]
  rfl

theorem mem_removed {key : ImapMessageLocationKey} :
    key ∈ cycle.assertedKeys ++ cycle.inferredKeys ↔ key ∈ cycle.known.map ImapMessageLocation.key ∧ cycle.Reported key := by
  unfold inferredKeys
  rw [List.mem_append, mem_absenceKeys, ← assertedKeys, mem_authoritative]
  unfold Reported
  tauto

/-- The messages the deltas leave without a location. -/
theorem mem_fully_gone : message_id ∈ deleted_message_ids_for_deleted_locations cycle.known
    (cycle.assertedKeys ++ cycle.inferredKeys) (cycle.described.map ImapMappedHeader.location) ↔ cycle.LeavesDeltas message_id := by
  rw [mem_deleted_message_ids]
  unfold LeavesDeltas
  constructor
  · rintro ⟨⟨key, hkey, rfl⟩, hgone, hnew⟩
    obtain ⟨location, hlocation, rfl⟩ := List.mem_map.mp (mem_removed.mp hkey).1
    refine ⟨⟨location, hlocation, rfl⟩, ?_, ?_⟩
    · exact fun other hother hid => (mem_removed.mp (hgone other hother hid)).2
    · exact fun header hheader => hnew header.location (List.mem_map_of_mem hheader)
  · rintro ⟨⟨location, hlocation, hid⟩, hgone, hnew⟩
    have hremoved : ∀ other ∈ cycle.known, other.message_id = message_id → _ :=
      fun other hother hsame => mem_removed.mpr ⟨List.mem_map_of_mem hother, hgone other hother hsame⟩
    refine ⟨⟨location.key, hremoved location hlocation hid, hid⟩, hremoved, ?_⟩
    intro other hother
    obtain ⟨header, hheader, rfl⟩ := List.mem_map.mp hother
    exact hnew header hheader

theorem allAuthoritative_iff_allAsserted (hleaves : cycle.LeavesDeltas message_id) :
    allAuthoritative cycle.known cycle.assertedKeys cycle.inferredKeys message_id = true ↔
      cycle.AllAsserted message_id := by
  obtain ⟨hknown, hreported, _⟩ := hleaves
  rw [allAuthoritative_iff hknown fun location hlocation hid =>
    mem_removed.mpr ⟨List.mem_map_of_mem hlocation, hreported location hlocation hid⟩]
  unfold AllAsserted
  apply forall₃_congr
  intro location hlocation _
  rw [mem_authoritative, and_iff_right (List.mem_map_of_mem hlocation)]

variable (hrest : cycle.rest ≠ [])

include hrest

theorem mem_deleted_restOnly : message_id ∈ cycle.restOnly.deleted_message_ids ↔
    cycle.LeavesDeltas message_id ∧ cycle.AllAsserted message_id := by
  unfold restOnly
  rw [restBatch_eq hrest]
  show message_id ∈ List.filter _ _ ↔ _
  rw [List.mem_filter]
  constructor
  · rintro ⟨hgone, hall⟩
    have hleaves := mem_fully_gone.mp hgone
    exact ⟨hleaves, (allAuthoritative_iff_allAsserted hleaves).mp hall⟩
  · rintro ⟨hleaves, hall⟩
    exact ⟨mem_fully_gone.mpr hleaves, (allAuthoritative_iff_allAsserted hleaves).mpr hall⟩

/-- The messages the guard counts are those whose leaving is inferred. -/
theorem absence_restOnly : cycle.restOnly.absence_deleted_message_ids = cycle.inferredGone := by
  unfold restOnly
  rw [restBatch_eq hrest]
  unfold inferredGone
  refine List.SortedLT.eq_of_mem_iff ?_ ?_ ?_
  · exact (deleted_message_ids_sorted.pairwise.filter _).sortedLT
  · exact ((BTreeSet.sorted _).pairwise.filter _).sortedLT
  · intro id
    show id ∈ List.filter _ _ ↔ _
    rw [List.mem_filter, List.mem_filter, mem_toList_from_iter, decide_eq_true_iff]
    constructor
    · rintro ⟨hgone, hinferred⟩
      have hleaves := mem_fully_gone.mp hgone
      obtain ⟨location, hlocation, rfl⟩ := hleaves.1
      refine ⟨List.mem_map_of_mem hlocation, hleaves, fun hall => ?_⟩
      rw [Bool.not_eq_true'] at hinferred
      exact Bool.false_ne_true (hinferred.symm.trans ((allAuthoritative_iff_allAsserted hleaves).mpr hall))
    · rintro ⟨_, hleaves, hinferred⟩
      refine ⟨mem_fully_gone.mpr hleaves, ?_⟩
      rw [Bool.not_eq_true', Bool.eq_false_iff]
      exact fun hall => hinferred ((allAuthoritative_iff_allAsserted hleaves).mp hall)

/-- The deltas delete what they give up. -/
theorem mem_batchDeletions_restOnly {store : ImapStore} : message_id ∈ store.batchDeletions cycle.restOnly ↔
    cycle.LeavesDeltas message_id ∧
      (cycle.AllAsserted message_id ∨ store.base.imap_absence_prune_allowed cycle.inferredGone.length = true) := by
  have hallows : store.allowsAbsence cycle.restOnly = store.base.imap_absence_prune_allowed cycle.inferredGone.length := by
    unfold ImapStore.allowsAbsence
    rw [absence_restOnly hrest]
  rw [ImapStore.mem_batchDeletions, hallows, mem_deleted_restOnly hrest, absence_restOnly hrest]
  constructor
  · rintro (⟨hleaves, hall⟩ | ⟨hallowed, hinferred⟩)
    · exact ⟨hleaves, Or.inl hall⟩
    · exact ⟨(of_decide_eq_true (List.mem_filter.mp hinferred).2).1, Or.inr hallowed⟩
  · rintro ⟨hleaves, hdecided⟩
    by_cases hall : cycle.AllAsserted message_id
    · exact Or.inl ⟨hleaves, hall⟩
    · refine Or.inr ⟨hdecided.resolve_left hall, List.mem_filter.mpr ⟨?_, decide_eq_true ⟨hleaves, hall⟩⟩⟩
      obtain ⟨location, hlocation, rfl⟩ := hleaves.1
      exact mem_toList_from_iter.mpr (List.mem_map_of_mem hlocation)

theorem locations_restOnly : cycle.restOnly.imap_message_locations = cycle.described.map ImapMappedHeader.location := by
  unfold restOnly
  rw [restBatch_eq hrest]
  rfl

theorem unpruned_restOnly : cycle.restOnly.replace_all_messages = false ∧ cycle.restOnly.deleted_mailbox_ids = [] := by
  unfold restOnly
  rw [restBatch_eq hrest]
  exact ⟨rfl, rfl⟩

omit hrest in
theorem sound_rest : ∀ header ∈ cycle.rest.flatMap (·.headers cycle.replies), header.Sound := by
  intro header hheader
  obtain ⟨mailbox, _, hmem⟩ := List.mem_flatMap.mp hheader
  exact sound_headers header hmem

theorem writable_restOnly : ∀ record ∈ cycle.restOnly.messages, record.mailbox_ids.Nodup ∧ record.keywords.Nodup := by
  unfold restOnly
  rw [restBatch_eq hrest]
  exact @delta_writable _ _ (execute_mailbox_plans cycle.replies cycle.rest).mailbox_states _ _ _ sound_rest

/-- A record of the deltas is that of a header. -/
theorem mem_messages_restOnly {record : MessageRecord} (hmem : record ∈ cycle.restOnly.messages) :
    ∃ header ∈ cycle.described, header.location.message_id = record.id := by
  unfold restOnly at hmem
  rw [restBatch_eq hrest] at hmem
  obtain ⟨original, horiginal, hid, _⟩ := mem_preserve hmem
  obtain ⟨header, hheader, rfl⟩ := mem_projected_messages horiginal
  exact ⟨header, hheader, (sound_project sound_rest hheader).named.trans hid⟩

/-- Applied to a store, the deltas take the rows they give up. -/
theorem restOnly_takes_iff {before after : ImapStore} (happly : before.apply_sync_batch cycle.restOnly = .ok after) :
    ((before.base.message.lookup message_id).isSome ∧ after.base.message.lookup message_id = none) ↔
      cycle.GivenUp before message_id := by
  obtain ⟨hmessages, hdeleted⟩ := unpruned_restOnly hrest
  unfold GivenUp
  apply and_congr_right
  intro hrow
  rw [ImapStore.lookup_eq_none_iff happly hmessages hrow, ImapStore.beforeDeletions_of_unpruned rfl hmessages hdeleted,
    mem_batchDeletions_restOnly hrest, and_iff_left_iff_imp]
  intro hgone record hrecord hid
  obtain ⟨header, hheader, hnamed⟩ := mem_messages_restOnly hrest hrecord
  exact hgone.1.2.2 header hheader (hnamed.trans hid)

end Deltas

section Run

theorem mem_upserts {batch : ImapSyncBatch} (hmem : batch ∈ cycle.upserts) :
    (batch.replace_all_messages = false ∧ batch.deleted_message_ids = [] ∧ batch.absence_deleted_message_ids = []) ∧
      ∀ record ∈ batch.messages, record.mailbox_ids.Nodup ∧ record.keywords.Nodup := by
  obtain rfl | hstreamed := List.mem_cons.mp hmem
  · exact ⟨⟨rfl, rfl, rfl⟩, fun record hrecord => absurd hrecord List.not_mem_nil⟩
  · obtain ⟨headers, state, _, rfl, hsound, _⟩ := mem_streamed hstreamed
    exact ⟨⟨rfl, rfl, rfl⟩, chunk_writable hsound⟩

/-- The batches before the deltas take no row. -/
theorem upserts_keep {batch : ImapSyncBatch} (hmem : batch ∈ cycle.upserts) {before after : ImapStore}
    (happly : before.apply_sync_batch batch = .ok after) (hrow : (before.base.message.lookup message_id).isSome) :
    after.base.message.lookup message_id ≠ none := by
  obtain ⟨⟨hkeep, hdeleted, habsent⟩, _⟩ := mem_upserts hmem
  intro hnone
  have hgone := ((ImapStore.lookup_eq_none_iff happly hkeep hrow).mp hnone).1
  rw [ImapStore.mem_batchDeletions, hdeleted, habsent] at hgone
  obtain hgone | ⟨_, hgone⟩ := hgone <;> exact absurd hgone List.not_mem_nil

/-- Batches whose records can be written apply to any store. -/
theorem foldlM_apply_of_nodup {batches : List ImapSyncBatch} {store : ImapStore}
    (hwritable : ∀ batch ∈ batches, ∀ record ∈ batch.messages, record.mailbox_ids.Nodup ∧ record.keywords.Nodup) :
    ∃ after, batches.foldlM ImapStore.apply_sync_batch store = .ok after := by
  induction batches generalizing store with
  | nil => exact ⟨store, rfl⟩
  | cons batch rest ih =>
    obtain ⟨middle, hmiddle⟩ := @ImapStore.apply_sync_batch_of_nodup store batch (hwritable batch List.mem_cons_self)
    obtain ⟨after, hafter⟩ := @ih middle fun other hother => hwritable other (List.mem_cons_of_mem _ hother)
    refine ⟨after, ?_⟩
    rw [List.foldlM_cons, hmiddle]
    exact hafter

/-- No row is lost before the deltas. -/
theorem foldlM_upserts_keep {batches : List ImapSyncBatch} (hupserts : ∀ batch ∈ batches, batch ∈ cycle.upserts)
    {before after : ImapStore} (hrun : batches.foldlM ImapStore.apply_sync_batch before = .ok after)
    (hrow : (before.base.message.lookup message_id).isSome) : (after.base.message.lookup message_id).isSome := by
  induction batches generalizing before with
  | nil =>
    cases hrun
    exact hrow
  | cons batch rest ih =>
    have hbatch := hupserts batch List.mem_cons_self
    obtain ⟨middle, hmiddle⟩ := @ImapStore.apply_sync_batch_of_nodup before batch (mem_upserts hbatch).2
    rw [List.foldlM_cons, hmiddle] at hrun
    refine ih (fun other hother => hupserts other (List.mem_cons_of_mem _ hother)) hrun ?_
    exact Option.isSome_iff_ne_none.mpr (upserts_keep hbatch hmiddle hrow)

variable (hstreamed : cycle.initial ≠ []) (hrest : cycle.rest ≠ [])

include hstreamed hrest

theorem batches_eq : cycle.batches = cycle.upserts ++ [cycle.restOnly] := by
  unfold batches upserts
  rw [if_neg (by rwa [List.isEmpty_iff]), if_neg (by rwa [List.isEmpty_iff])]

theorem deletes_iff : cycle.Deletes message_id ↔ ∃ before,
    cycle.upserts.foldlM ImapStore.apply_sync_batch cycle.store = .ok before ∧ cycle.GivenUp before message_id := by
  unfold Deletes
  rw [batches_eq hstreamed hrest]
  constructor
  · rintro ⟨earlier, batch, later, before, after, hsplit, hbefore, happly, hrow, hgone⟩
    obtain rfl | ⟨middle, last, rfl⟩ := List.eq_nil_or_concat later
    · obtain ⟨rfl, hlast⟩ := List.append_inj' hsplit rfl
      obtain rfl := List.singleton_inj.mp hlast
      exact ⟨before, hbefore, (restOnly_takes_iff hrest happly).mp ⟨hrow, hgone⟩⟩
    · rw [List.concat_eq_append, ← List.cons_append, ← List.append_assoc] at hsplit
      have hupserts := (List.append_inj' hsplit rfl).1
      have hmem : batch ∈ cycle.upserts := by
        rw [hupserts]
        exact List.mem_append_right _ List.mem_cons_self
      exact absurd hgone (upserts_keep hmem happly hrow)
  · rintro ⟨before, hbefore, hgiven⟩
    obtain ⟨after, happly⟩ := @ImapStore.apply_sync_batch_of_nodup before cycle.restOnly (writable_restOnly hrest)
    obtain ⟨hrow, hgone⟩ := (restOnly_takes_iff hrest happly).mpr hgiven
    exact ⟨cycle.upserts, cycle.restOnly, [], before, after, rfl, hbefore, happly, hrow, hgone⟩

end Run

section Kept

theorem mem_rest {mailbox : PlannedImapMailbox} (hmem : mailbox ∈ cycle.rest) :
    mailbox.local_locations = cycle.store.location.rows.filter (·.mailbox_id = mailbox.id) := by
  obtain ⟨discovered, _, rfl⟩ := List.mem_map.mp (List.mem_filter.mp hmem).1
  rfl

/-- What the deltas assert vanished or find unlisted lies in their mailboxes. -/
theorem mailbox_of_identity {key : ImapMessageLocationKey}
    (hmem : identityOf key ∈ cycle.rest.flatMap (·.vanished cycle.replies) ∨
      identityOf key ∈ cycle.rest.flatMap (·.unlisted cycle.replies)) : key.mailbox_id ∈ cycle.rest.map (·.id) := by
  have hlocal : ∀ mailbox ∈ cycle.rest, ∀ location ∈ mailbox.local_locations, location.mailbox_id = mailbox.id := by
    intro mailbox hmailbox location hlocation
    rw [mem_rest hmailbox] at hlocation
    exact of_decide_eq_true (List.mem_filter.mp hlocation).2
  have hmissing : ∀ mailbox ∈ cycle.rest, ∀ identities ⊆ mailbox.local_locations.map location_identity,
      identityOf key ∈ identities → key.mailbox_id = mailbox.id := by
    intro mailbox hmailbox identities hsubset hidentity
    obtain ⟨location, hlocation, hsame⟩ := List.mem_map.mp (hsubset hidentity)
    rw [← hlocal mailbox hmailbox location hlocation]
    exact (congrArg Prod.fst hsame).symm
  have hlisted : ∀ mailbox ∈ cycle.rest, ∀ headers, missing_location_identities mailbox.local_locations headers ⊆
      mailbox.local_locations.map location_identity := fun mailbox _ headers => List.filter_sublist.subset
  have huids : ∀ mailbox ∈ cycle.rest, ∀ uids, missing_location_identities_from_uids mailbox.local_locations uids ⊆
      mailbox.local_locations.map location_identity :=
    fun mailbox _ uids => List.map_subset _ List.filter_sublist.subset
  suffices hsuffices : ∃ mailbox ∈ cycle.rest, key.mailbox_id = mailbox.id by
    obtain ⟨mailbox, hmailbox, hsame⟩ := hsuffices
    rw [hsame]
    exact List.mem_map_of_mem hmailbox
  obtain hvanished | hunlisted := hmem
  · obtain ⟨mailbox, hmailbox, hidentity⟩ := List.mem_flatMap.mp hvanished
    refine ⟨mailbox, hmailbox, ?_⟩
    unfold PlannedImapMailbox.vanished at hidentity
    split at hidentity
    · simp only at hidentity
      split_ifs at hidentity with hfull
      · exact absurd hidentity List.not_mem_nil
      · obtain ⟨uid, _, hsame⟩ := List.mem_map.mp hidentity
        exact (congrArg Prod.fst hsame).symm
    · exact absurd hidentity List.not_mem_nil
  · obtain ⟨mailbox, hmailbox, hidentity⟩ := List.mem_flatMap.mp hunlisted
    refine ⟨mailbox, hmailbox, ?_⟩
    unfold PlannedImapMailbox.unlisted at hidentity
    split at hidentity
    · exact absurd hidentity List.not_mem_nil
    · exact hmissing mailbox hmailbox _ (hlisted mailbox hmailbox _) hidentity
    · simp only at hidentity
      split_ifs at hidentity with hfull
      · exact hmissing mailbox hmailbox _ (hlisted mailbox hmailbox _) hidentity
      · exact absurd hidentity List.not_mem_nil
    · exact hmissing mailbox hmailbox _ (huids mailbox hmailbox _) hidentity
    · exact hmissing mailbox hmailbox _ (huids mailbox hmailbox _) hidentity

/-- A message that leaves the deltas survives where they do not look. -/
theorem survives_iff (hstreamed : cycle.initial ≠ []) (hrest : cycle.rest ≠ []) (hleaves : cycle.LeavesDeltas message_id) :
    cycle.Survives message_id ↔ cycle.KeptElsewhere message_id := by
  obtain ⟨_, hreported, hnew⟩ := hleaves
  unfold Survives KeptElsewhere
  apply or_congr
  · apply exists_congr
    intro location
    apply and_congr_right
    intro hstored
    apply and_congr_right
    intro hid
    apply and_congr_right
    intro _
    constructor
    · intro hunreported hmailbox
      obtain ⟨mailbox, hmem, hsame⟩ := List.mem_map.mp hmailbox
      refine hunreported (hreported location (List.mem_flatMap.mpr ⟨mailbox, hmem, ?_⟩) hid)
      rw [mem_rest hmem]
      exact List.mem_filter.mpr ⟨hstored, decide_eq_true hsame.symm⟩
    · rintro houtside ((hvanished | ⟨header, hheader, _, hnamed, _⟩) | hunlisted)
      · exact houtside (mailbox_of_identity (Or.inl hvanished))
      · refine hnew header hheader ?_
        rw [(sound_project sound_rest hheader).named, hnamed]
        exact hid
      · exact houtside (mailbox_of_identity (Or.inr hunlisted))
  · rw [batches_eq hstreamed hrest]
    constructor
    · rintro ⟨batch, hbatch, location, hlocation, hid⟩
      obtain hbatch | hbatch := List.mem_append.mp hbatch
      · obtain rfl | hbatch := List.mem_cons.mp hbatch
        · exact absurd hlocation List.not_mem_nil
        · exact ⟨batch, hbatch, location, hlocation, hid⟩
      · rw [List.mem_singleton.mp hbatch, locations_restOnly hrest] at hlocation
        obtain ⟨header, hheader, rfl⟩ := List.mem_map.mp hlocation
        exact absurd hid (hnew header hheader)
    · rintro ⟨batch, hbatch, location, hlocation, hid⟩
      exact ⟨batch, List.mem_append_left _ (List.mem_cons_of_mem _ hbatch), location, hlocation, hid⟩

end Kept

/-- A cycle deletes only messages that are gone exactly when no message its deltas
    give up is kept in a mailbox they do not look at, or streamed. -/
theorem deletes_gone_iff (cycle : StreamedCycle) (hstreamed : cycle.initial ≠ []) (hrest : cycle.rest ≠ []) :
    (∀ message_id, cycle.Deletes message_id → ¬cycle.Survives message_id) ↔
      ∀ before, cycle.upserts.foldlM ImapStore.apply_sync_batch cycle.store = .ok before →
        ∀ message_id, cycle.GivenUp before message_id → ¬cycle.KeptElsewhere message_id := by
  constructor
  · intro hgone before hbefore message_id hgiven hkept
    refine hgone message_id ((deletes_iff hstreamed hrest).mpr ⟨before, hbefore, hgiven⟩) ?_
    exact (survives_iff hstreamed hrest hgiven.2.1).mpr hkept
  · intro hkept message_id hdeletes hsurvives
    obtain ⟨before, hbefore, hgiven⟩ := (deletes_iff hstreamed hrest).mp hdeletes
    exact hkept before hbefore message_id hgiven ((survives_iff hstreamed hrest hgiven.2.1).mp hsurvives)

section Archived

def located (mailbox_id : MailboxId) (uid : ImapUid) : ImapMessageLocation :=
  { message_id := "m1", mailbox_id, uid_validity := 1, uid, modseq := none }

/-- A message in two mailboxes is archived while the snapshot of the larger one is
    resumed behind its UID. -/
def archived : StreamedCycle where
  store := {
    base := { DatabaseStore.empty with
      message := (∅ : AList fun _ : MessageId => MessageRow).insert "m1"
        (.of_record { (default : MessageRecord) with id := "m1", mailbox_ids := ["all", "inbox"] })
      mailbox := [⟨"all", none⟩, ⟨"inbox", some "inbox"⟩] }
    location := ⟨[located "all" 9, located "inbox" 3], by decide⟩
    mailbox_state := ⟨[⟨"all", 1, none, none, some 9⟩, ⟨"inbox", 1, some 3, some 5, none⟩], by decide⟩ }
  discovery := {
    capabilities := {
      supports_enable := false, supports_condstore := true, supports_qresync := false, supports_gmail_extensions := true }
    mailboxes := [⟨"all", "[Gmail]/All Mail", none, true, ["\\All"]⟩, ⟨"inbox", "INBOX", some "inbox", true, []⟩] }
  replies := {
    status := fun _ => ⟨none, none, none⟩
    examined := fun _ => ⟨1, none, some 6⟩
    header_snapshot := fun _ => (⟨1, none, some 6⟩, [])
    changed_since := fun _ => (⟨1, none, some 6⟩, [], [], false)
    uid_delta := fun _ => (⟨1, none, some 6⟩, [], [])
    uid_search := fun _ => (⟨1, none, some 6⟩, [9])
    header_chunk := fun _ _ => [] }

theorem archived_gone_iff : archived.initial ≠ [] ∧ archived.rest ≠ [] ∧
    ((∀ message_id, archived.Deletes message_id → ¬archived.Survives message_id) ↔
      ∀ before, archived.upserts.foldlM ImapStore.apply_sync_batch archived.store = .ok before →
        ∀ message_id, archived.GivenUp before message_id → ¬archived.KeptElsewhere message_id) :=
  ⟨by decide, by decide, deletes_gone_iff archived (by decide) (by decide)⟩

/-- The archived message is deleted, though its other location is still there. -/
theorem archived_is_deleted : ¬ ∀ cycle : StreamedCycle, cycle.initial ≠ [] → cycle.rest ≠ [] →
    ∀ message_id, cycle.Deletes message_id → ¬cycle.Survives message_id := by
  intro hgone
  have hstreamed : archived.initial ≠ [] := by decide
  have hrest : archived.rest ≠ [] := by decide
  obtain ⟨before, hbefore⟩ := @foldlM_apply_of_nodup archived.upserts archived.store fun batch hbatch => (mem_upserts hbatch).2
  have hrow := @foldlM_upserts_keep archived "m1" archived.upserts (fun _ hbatch => hbatch) _ _ hbefore (by decide)
  have hgiven : archived.GivenUp before "m1" := by
    have hone : archived.inferredGone.length = 1 := by decide
    refine ⟨hrow, by decide, Or.inr ?_⟩
    rw [hone]
    rfl
  refine hgone archived hstreamed hrest "m1" ((deletes_iff hstreamed hrest).mpr ⟨before, hbefore, hgiven⟩) (Or.inl ?_)
  exact ⟨located "all" 9, by decide, rfl, by decide, by decide⟩

end Archived

end StreamedCycle

end posthaste.imap
