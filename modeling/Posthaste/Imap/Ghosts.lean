import Posthaste.Imap.Homes
import Posthaste.Library.Transition

open posthaste.model posthaste.store

namespace posthaste.imap

namespace StreamedCycle

section Statement

variable (cycle : StreamedCycle)

/-- The store once every batch of the cycle is applied. -/
def complete : Except StoreError ImapStore := cycle.batches.foldlM ImapStore.apply_sync_batch cycle.store

/-- The absence guard refuses no deletion of the cycle. -/
def Unrefused : Prop :=
  ∀ earlier batch later before, cycle.batches = earlier ++ batch :: later →
    earlier.foldlM ImapStore.apply_sync_batch cycle.store = .ok before →
      (before.beforeDeletions batch).allowsAbsence batch = true

/-- A batch of the cycle brings a location of the message. -/
def Brings (message_id : MessageId) : Prop :=
  ∃ batch ∈ cycle.batches, ∃ location ∈ batch.imap_message_locations, location.message_id = message_id

/-- The cycle takes a location or a membership of the message from the store. -/
def Strips (message_id : MessageId) : Prop :=
  (∃ location ∈ cycle.store.location.rows, location.message_id = message_id ∧
    (location.mailbox_id ∈ cycle.droppedMailboxes ∨ cycle.Reported location.key)) ∨
    ∃ mailbox_id ∈ cycle.droppedMailboxes, (message_id, mailbox_id) ∈ cycle.store.base.memberships

/-- A location of the message is neither pruned with its mailbox nor reported removed, and has its membership. -/
def KeepsHome (message_id : MessageId) : Prop :=
  ∃ location ∈ cycle.store.location.rows, location.message_id = message_id ∧
    location.mailbox_id ∉ cycle.droppedMailboxes ∧ ¬cycle.Reported location.key ∧
      location.place ∈ cycle.store.base.memberships

/-- A stored message that the cycle strips keeps a home, unless a header comes for it
    or it leaves with the deltas. -/
def Rehomes : Prop :=
  ∀ message_id, (cycle.store.base.message.lookup message_id).isSome → cycle.Strips message_id →
    ¬cycle.Brings message_id → ¬cycle.LeavesDeltas message_id → cycle.KeepsHome message_id

end Statement

variable {cycle : StreamedCycle} {before after : ImapStore} {batch : ImapSyncBatch} {message_id : MessageId}

section Batches

theorem additive_upsert (hmem : batch ∈ cycle.upserts) : Additive batch := by
  obtain rfl | hstreamed := List.mem_cons.mp hmem
  · exact ⟨rfl, rfl, rfl, rfl, rfl, rfl⟩
  · obtain ⟨headers, state, _, rfl, _⟩ := mem_streamed hstreamed
    exact ⟨rfl, rfl, rfl, rfl, rfl, rfl⟩

theorem dropped_mailbox_batch : droppedBy cycle.store (imap_mailbox_sync_batch cycle.discovery) = cycle.droppedMailboxes := by
  unfold droppedBy droppedMailboxes imap_mailbox_sync_batch
  simp only [if_true, List.map_map]
  rfl

theorem dropped_restBatch (hrest : cycle.rest ≠ []) : droppedBy cycle.store cycle.restBatch = cycle.droppedMailboxes := by
  rw [← dropped_mailbox_batch, restBatch_eq hrest]
  rfl

/-- A streamed batch lists what it brings, in a mailbox that is streamed. -/
theorem listed_streamed (hmem : batch ∈ cycle.streamed) : ImapStore.Listed batch ∧
    ∀ location ∈ batch.imap_message_locations, location.mailbox_id ∈ cycle.initial.map (·.id) := by
  obtain ⟨mailbox, hmailbox, hbatch⟩ := List.mem_flatMap.mp hmem
  obtain ⟨headers, state, rfl, hsound, hselected⟩ := mem_stream hbatch
  refine ⟨listed_chunk hsound hselected, ?_⟩
  intro location hlocation
  obtain ⟨header, hheader, rfl⟩ := List.mem_map.mp hlocation
  obtain ⟨original, horiginal, hsame⟩ := mailbox_project hheader
  rw [← hsame, hselected original horiginal]
  exact List.mem_map_of_mem hmailbox

/-- A streamed batch that brings no location of a message has no record of it. -/
theorem silent_streamed (hmem : batch ∈ cycle.streamed)
    (hnone : ∀ location ∈ batch.imap_message_locations, location.message_id ≠ message_id) : Silent batch message_id := by
  obtain ⟨headers, state, _, rfl, hsound, _⟩ := mem_streamed hmem
  refine ⟨fun record hrecord hid => ?_, hnone⟩
  obtain ⟨header, hheader, rfl⟩ := mem_projected_messages hrecord
  refine hnone header.location (List.mem_map_of_mem hheader) ?_
  rw [(sound_project hsound hheader).named, hid]

theorem silent_mailbox_batch : Silent (imap_mailbox_sync_batch cycle.discovery) message_id :=
  ⟨fun _ hrecord => absurd hrecord List.not_mem_nil, fun _ hlocation => absurd hlocation List.not_mem_nil⟩

/-- A chunk drops no mailbox. -/
theorem trimmed_streamed (hmem : batch ∈ cycle.streamed) (hsilent : Silent batch message_id)
    (happly : before.apply_sync_batch batch = .ok after) : Trimmed [] before after message_id := by
  have htrimmed := trimmed_of_additive (additive_upsert (List.mem_cons_of_mem _ hmem)) hsilent happly
  obtain ⟨headers, state, _, rfl, _⟩ := mem_streamed hmem
  exact htrimmed

end Batches

section Streamed

/-- Chunks that bring nothing of a message leave it as it is. -/
theorem foldlM_streamed_trims {batches : List ImapSyncBatch} (hstreamed : ∀ batch ∈ batches, batch ∈ cycle.streamed)
    (hnone : ∀ batch ∈ batches, ∀ location ∈ batch.imap_message_locations, location.message_id ≠ message_id)
    (hrun : batches.foldlM ImapStore.apply_sync_batch before = .ok after) : Trimmed [] before after message_id := by
  induction batches generalizing before with
  | nil =>
    cases hrun
    exact .refl _ message_id
  | cons batch rest ih =>
    have hbatch := hstreamed batch List.mem_cons_self
    obtain ⟨middle, hmiddle⟩ := @ImapStore.apply_sync_batch_of_nodup before batch
      (mem_upserts (List.mem_cons_of_mem _ hbatch)).2
    rw [List.foldlM_cons, hmiddle] at hrun
    have hfirst := trimmed_streamed hbatch (silent_streamed hbatch (hnone batch List.mem_cons_self)) hmiddle
    refine hfirst.trans (ih (fun other hother => hstreamed other (List.mem_cons_of_mem _ hother)) ?_ hrun)
    exact fun other hother => hnone other (List.mem_cons_of_mem _ hother)

/-- Chunks keep a message in a streamed mailbox once it is there, and bring it there. -/
theorem foldlM_streamed_houses {batches : List ImapSyncBatch} (hstreamed : ∀ batch ∈ batches, batch ∈ cycle.streamed)
    (hrun : batches.foldlM ImapStore.apply_sync_batch before = .ok after)
    (hthere : (∃ mailbox_id ∈ cycle.initial.map (·.id), LivesIn before message_id mailbox_id) ∨
      ∃ batch ∈ batches, ∃ location ∈ batch.imap_message_locations, location.message_id = message_id) :
    ∃ mailbox_id ∈ cycle.initial.map (·.id), LivesIn after message_id mailbox_id := by
  induction batches generalizing before with
  | nil =>
    cases hrun
    obtain hlives | ⟨batch, hbatch, _⟩ := hthere
    · exact hlives
    · exact absurd hbatch List.not_mem_nil
  | cons batch rest ih =>
    have hbatch := hstreamed batch List.mem_cons_self
    obtain ⟨middle, hmiddle⟩ := @ImapStore.apply_sync_batch_of_nodup before batch
      (mem_upserts (List.mem_cons_of_mem _ hbatch)).2
    rw [List.foldlM_cons, hmiddle] at hrun
    refine ih (fun other hother => hstreamed other (List.mem_cons_of_mem _ hother)) hrun ?_
    obtain ⟨hlisted, hinitial⟩ := listed_streamed hbatch
    by_cases hbrought : ∃ location ∈ batch.imap_message_locations, location.message_id = message_id
    · obtain ⟨location, hlocation, rfl⟩ := hbrought
      exact Or.inl ⟨location.mailbox_id, hinitial location hlocation, livesIn_of_brought hlisted hmiddle hlocation⟩
    · obtain ⟨mailbox_id, hmailbox, hlives⟩ | ⟨other, hother, hlater⟩ := hthere
      · have hsilent := silent_streamed hbatch fun location hlocation hid => hbrought ⟨location, hlocation, hid⟩
        exact Or.inl ⟨mailbox_id, hmailbox, (trimmed_streamed hbatch hsilent hmiddle).livesIn hlives List.not_mem_nil⟩
      · obtain rfl | hother := List.mem_cons.mp hother
        · exact absurd hlater hbrought
        · exact Or.inr ⟨other, hother, hlater⟩

variable (hrun : cycle.upserts.foldlM ImapStore.apply_sync_batch cycle.store = .ok after)

include hrun

/-- Before the deltas, a message that no chunk brings has lost the dropped mailboxes only. -/
theorem upserts_trim (hnone : ∀ batch ∈ cycle.streamed, ∀ location ∈ batch.imap_message_locations,
    location.message_id ≠ message_id) : Trimmed cycle.droppedMailboxes cycle.store after message_id := by
  obtain ⟨middle, hmiddle⟩ := @ImapStore.apply_sync_batch_of_nodup cycle.store (imap_mailbox_sync_batch cycle.discovery)
    fun record hrecord => absurd hrecord List.not_mem_nil
  have hfirst : Trimmed cycle.droppedMailboxes cycle.store middle message_id := by
    rw [← dropped_mailbox_batch]
    exact trimmed_of_additive (additive_upsert List.mem_cons_self) silent_mailbox_batch hmiddle
  unfold upserts at hrun
  rw [List.foldlM_cons, hmiddle] at hrun
  exact hfirst.trans (foldlM_streamed_trims (fun _ hmem => hmem) hnone hrun)

/-- A message that a chunk brings lives in a streamed mailbox. -/
theorem upserts_house (hbrought : ∃ batch ∈ cycle.streamed, ∃ location ∈ batch.imap_message_locations,
    location.message_id = message_id) : ∃ mailbox_id ∈ cycle.initial.map (·.id), LivesIn after message_id mailbox_id := by
  obtain ⟨middle, hmiddle⟩ := @ImapStore.apply_sync_batch_of_nodup cycle.store (imap_mailbox_sync_batch cycle.discovery)
    fun record hrecord => absurd hrecord List.not_mem_nil
  unfold upserts at hrun
  rw [List.foldlM_cons, hmiddle] at hrun
  exact foldlM_streamed_houses (fun _ hmem => hmem) hrun (Or.inr hbrought)

end Streamed

section Deltas

theorem known_stored {location : ImapMessageLocation} (hmem : location ∈ cycle.known) :
    location ∈ cycle.store.location.rows ∧ location.mailbox_id ∈ cycle.rest.map (·.id) := by
  obtain ⟨mailbox, hmailbox, hlocation⟩ := List.mem_flatMap.mp hmem
  rw [mem_rest hmailbox] at hlocation
  obtain ⟨hstored, hsame⟩ := List.mem_filter.mp hlocation
  refine ⟨hstored, ?_⟩
  rw [of_decide_eq_true hsame]
  exact List.mem_map_of_mem hmailbox

/-- What one mailbox is planned for depends on its id. -/
theorem planned_apart {mailbox_id : MailboxId} (hinitial : mailbox_id ∈ cycle.initial.map (·.id)) :
    mailbox_id ∉ cycle.rest.map (·.id) := by
  intro hrest
  obtain ⟨first, hfirst, rfl⟩ := List.mem_map.mp hinitial
  obtain ⟨second, hsecond, hsame⟩ := List.mem_map.mp hrest
  obtain ⟨hplanned, hstreams⟩ := List.mem_filter.mp hfirst
  obtain ⟨hother, hnot⟩ := List.mem_filter.mp hsecond
  obtain ⟨mailbox, _, rfl⟩ := List.mem_map.mp hplanned
  obtain ⟨other, _, rfl⟩ := List.mem_map.mp hother
  have hid : other.id = mailbox.id := hsame
  have hplan : plan_mailbox cycle.store cycle.discovery.capabilities cycle.replies other =
      plan_mailbox cycle.store cycle.discovery.capabilities cycle.replies mailbox := by
    unfold plan_mailbox
    rw [hid]
  rw [hplan, hstreams] at hnot
  exact absurd hnot Bool.false_ne_true

/-- What a message keeps outside the dropped mailboxes and the reported removals. -/
structure Kept (cycle : StreamedCycle) (message_id : MessageId) : Prop where
  location : ∃ location ∈ cycle.store.location.rows, location.message_id = message_id ∧
    location.mailbox_id ∉ cycle.droppedMailboxes ∧ ¬cycle.Reported location.key
  membership : ∃ mailbox_id, (message_id, mailbox_id) ∈ cycle.store.base.memberships ∧
    mailbox_id ∉ cycle.droppedMailboxes ∧ ∀ location ∈ cycle.store.location.rows,
      location.place = (message_id, mailbox_id) → ¬cycle.Reported location.key

theorem kept_of_home (hhome : HasHome cycle.store message_id)
    (hkeeps : cycle.Strips message_id → cycle.KeepsHome message_id) : Kept cycle message_id := by
  by_cases hstrips : cycle.Strips message_id
  · obtain ⟨location, hstored, rfl, hkept, hunreported, hmember⟩ := hkeeps hstrips
    refine ⟨⟨location, hstored, rfl, hkept, hunreported⟩, location.mailbox_id, hmember, hkept, ?_⟩
    intro other hother hplace
    rw [Table.key_inj hother hstored hplace]
    exact hunreported
  · obtain ⟨⟨location, hstored, hid⟩, mailbox_id, hmember⟩ := hhome
    have huntouched : ∀ other ∈ cycle.store.location.rows, other.message_id = message_id →
        other.mailbox_id ∉ cycle.droppedMailboxes ∧ ¬cycle.Reported other.key := by
      intro other hother hsame
      constructor
      · exact fun hdropped => hstrips (Or.inl ⟨other, hother, hsame, Or.inl hdropped⟩)
      · exact fun hreported => hstrips (Or.inl ⟨other, hother, hsame, Or.inr hreported⟩)
    refine ⟨⟨location, hstored, hid, huntouched location hstored hid⟩, mailbox_id, hmember, ?_, ?_⟩
    · exact fun hdropped => hstrips (Or.inr ⟨mailbox_id, hdropped, hmember⟩)
    · exact fun other hother hplace => (huntouched other hother (congrArg Prod.fst hplace)).2

theorem Kept.hasHome (hkept : Kept cycle message_id)
    (htrimmed : Trimmed cycle.droppedMailboxes cycle.store after message_id) : HasHome after message_id := by
  obtain ⟨⟨location, hstored, hid, houtside, _⟩, mailbox_id, hmember, hmailbox, _⟩ := hkept
  exact ⟨⟨location, (htrimmed.location location hid).mpr ⟨hstored, houtside⟩, hid⟩,
    mailbox_id, (htrimmed.membership mailbox_id).mpr ⟨hmember, hmailbox⟩⟩

variable {store : ImapStore} (hdelta : batch = cycle.restBatch ∨ batch = cycle.restOnly)

include hdelta

/-- The deltas remove the same whether or not the mailbox set goes with them. -/
theorem removals_delta : store.batchDeletions batch = store.batchDeletions cycle.restOnly ∧
    store.batchDepartures batch = store.batchDepartures cycle.restOnly ∧
      store.allowsAbsence batch = store.allowsAbsence cycle.restOnly := by
  obtain rfl | rfl := hdelta <;> exact ⟨rfl, rfl, rfl⟩

variable (hrest : cycle.rest ≠ [])

include hrest

theorem departures_known {key : ImapMessageLocationKey} (hdeparts : key ∈ store.batchDepartures batch) :
    key ∈ cycle.known.map ImapMessageLocation.key ∧ cycle.Reported key := by
  rw [(removals_delta hdelta).2.1] at hdeparts
  unfold ImapStore.batchDepartures at hdeparts
  have hasserted : cycle.restOnly.deleted_imap_message_locations = cycle.assertedKeys := by
    unfold restOnly
    rw [restBatch_eq hrest]
    rfl
  have hinferred : cycle.restOnly.absence_deleted_imap_message_locations = cycle.inferredKeys := by
    unfold restOnly
    rw [restBatch_eq hrest]
    rfl
  simp only [hasserted, hinferred] at hdeparts
  have hmem := (List.mem_filter.mp hdeparts).1
  refine mem_removed.mp (List.mem_append.mpr ?_)
  split_ifs at hmem
  · exact List.mem_append.mp hmem
  · exact Or.inl ((List.append_nil _).subst hmem)

theorem unpruned_delta : batch.replace_all_messages = false ∧ batch.deleted_mailbox_ids = [] := by
  obtain rfl | rfl := hdelta <;> exact unpruned_restOnly hrest

theorem listed_delta : ImapStore.Listed batch := by
  have habsent : ∀ location ∈ cycle.known, location.place ∈ (messages_and_locations_from_headers
      cycle.described).provider_absent_mailbox_ids_by_message → location.key ∈ cycle.assertedKeys ++ cycle.inferredKeys := by
    intro location hlocation hplace
    exact List.mem_append_left _ (mem_authoritativeKeys.mpr ⟨List.mem_map_of_mem hlocation, Or.inr hplace⟩)
  have hsound : ∀ header ∈ cycle.described, header.Sound := fun _ hheader => sound_project sound_rest hheader
  refine listed_deltaMessages hsound habsent ?_ ?_
  · obtain rfl | rfl := hdelta
    · rw [restBatch_eq hrest]
      rfl
    · unfold restOnly
      rw [restBatch_eq hrest]
      rfl
  · obtain rfl | rfl := hdelta <;> exact locations_restOnly hrest

/-- Deltas that bring no location of a message have no record of it. -/
theorem silent_delta (hnone : ∀ location ∈ batch.imap_message_locations, location.message_id ≠ message_id) :
    Silent batch message_id := by
  refine ⟨fun record hrecord hid => ?_, hnone⟩
  have hmem : record ∈ cycle.restOnly.messages := by
    obtain rfl | rfl := hdelta <;> exact hrecord
  obtain ⟨header, hheader, hnamed⟩ := mem_messages_restOnly hrest hmem
  refine hnone header.location ?_ (hnamed.trans hid)
  have hlocations : batch.imap_message_locations = cycle.described.map ImapMappedHeader.location := by
    obtain rfl | rfl := hdelta <;> exact locations_restOnly hrest
  rw [hlocations]
  exact List.mem_map_of_mem hheader

variable (happly : store.apply_sync_batch batch = .ok after) (hsilent : Silent batch message_id)
  (hrow : (after.base.message.lookup message_id).isSome)

include happly hsilent hrow

/-- A message the deltas leave was there before, and they do not delete it. -/
theorem row_before_delta : message_id ∉ (store.beforeDeletions batch).batchDeletions batch ∧
    (store.base.message.lookup message_id).isSome := by
  rw [row_of_silent hsilent happly, ImapStore.lookup_applyRemovals_isSome,
    ImapStore.isSome_lookup_beforeDeletions (unpruned_delta hdelta hrest).1] at hrow
  exact hrow

theorem location_after_delta {location : ImapMessageLocation} (hid : location.message_id = message_id)
    (hbefore : location ∈ (store.beforeDeletions batch).location.rows) (hunreported : ¬cycle.Reported location.key) :
    location ∈ after.location.rows := by
  have hstays := (row_before_delta hdelta hrest happly hsilent hrow).1
  rw [location_of_silent hsilent happly hid, ImapStore.mem_location_applyRemovals, hid]
  exact ⟨hbefore, fun hdeparts => hunreported (departures_known hdelta hrest hdeparts).2, hstays⟩

theorem membership_after_delta {mailbox_id : MailboxId}
    (hbefore : (message_id, mailbox_id) ∈ (store.beforeDeletions batch).base.memberships)
    (hunreported : ∀ location ∈ (store.beforeDeletions batch).location.rows,
      location.place = (message_id, mailbox_id) → ¬cycle.Reported location.key) :
    (message_id, mailbox_id) ∈ after.base.memberships := by
  have hstays := (row_before_delta hdelta hrest happly hsilent hrow).1
  rw [membership_of_silent hsilent happly, ImapStore.mem_memberships_applyRemovals]
  refine ⟨hbefore, hstays, fun hdeparts => ?_⟩
  obtain ⟨key, hkey, hheld, hplace⟩ := ImapStore.mem_departing.mp hdeparts
  obtain ⟨location, hlocation, rfl⟩ := List.mem_map.mp hheld
  exact hunreported location hlocation hplace (departures_known hdelta hrest hkey).2

/-- What is kept of a message stays through deltas that it does not leave with. -/
theorem kept_after_delta (hkept : Kept cycle message_id)
    (htrimmed : Trimmed cycle.droppedMailboxes cycle.store (store.beforeDeletions batch) message_id) :
    HasHome after message_id := by
  obtain ⟨⟨location, hstored, hid, houtside, hunreported⟩, mailbox_id, hmember, hmailbox, hplaces⟩ := hkept
  refine ⟨⟨location, ?_, hid⟩, mailbox_id, ?_⟩
  · exact location_after_delta hdelta hrest happly hsilent hrow hid
      ((htrimmed.location location hid).mpr ⟨hstored, houtside⟩) hunreported
  · refine membership_after_delta hdelta hrest happly hsilent hrow
      ((htrimmed.membership mailbox_id).mpr ⟨hmember, hmailbox⟩) ?_
    intro other hother hplace
    exact hplaces other ((htrimmed.location other (congrArg Prod.fst hplace)).mp hother).1 hplace

/-- Deltas do not report what is in a streamed mailbox. -/
theorem streamed_after_delta (hbefore : store.beforeDeletions batch = store) {mailbox_id : MailboxId}
    (hinitial : mailbox_id ∈ cycle.initial.map (·.id)) (hlives : LivesIn store message_id mailbox_id) :
    LivesIn after message_id mailbox_id := by
  have hstays := (row_before_delta hdelta hrest happly hsilent hrow).1
  have houtside : ∀ key ∈ (store.beforeDeletions batch).batchDepartures batch, key.mailbox_id ≠ mailbox_id := by
    rintro key hkey rfl
    obtain ⟨location, hlocation, hsame⟩ := List.mem_map.mp (departures_known hdelta hrest hkey).1
    refine planned_apart hinitial ?_
    rw [← hsame]
    exact (known_stored hlocation).2
  obtain ⟨hplace, hmember⟩ := hlives
  rw [← hbefore] at hplace hmember
  obtain ⟨location, hlocation, hsame⟩ := List.mem_map.mp hplace
  have hid : location.message_id = message_id := congrArg Prod.fst hsame
  constructor
  · rw [← hsame]
    refine List.mem_map_of_mem ?_
    rw [location_of_silent hsilent happly hid, ImapStore.mem_location_applyRemovals, hid]
    exact ⟨hlocation, fun hdeparts => houtside location.key hdeparts (congrArg Prod.snd hsame), hstays⟩
  · rw [membership_of_silent hsilent happly, ImapStore.mem_memberships_applyRemovals]
    refine ⟨hmember, hstays, fun hdeparts => ?_⟩
    obtain ⟨key, hkey, _, hkeyPlace⟩ := ImapStore.mem_departing.mp hdeparts
    exact houtside key hkey (congrArg Prod.snd hkeyPlace)

/-- With no deletion refused, a message that leaves the deltas is not there after them. -/
theorem not_leaves_of_row (hallows : (store.beforeDeletions batch).allowsAbsence batch = true) :
    ¬cycle.LeavesDeltas message_id := by
  intro hleaves
  refine (row_before_delta hdelta hrest happly hsilent hrow).1 ?_
  rw [(removals_delta hdelta).1, mem_batchDeletions_restOnly hrest]
  rw [(removals_delta hdelta).2.2] at hallows
  unfold ImapStore.allowsAbsence at hallows
  rw [absence_restOnly hrest] at hallows
  exact ⟨hleaves, Or.inr hallows⟩

end Deltas

section Cycles

variable (hhomed : Homed cycle.store) (hunrefused : cycle.Unrefused) (hrehomes : cycle.Rehomes)
  (hcomplete : cycle.complete = .ok after) (hrow : (after.base.message.lookup message_id).isSome)

/-- Without a mailbox to fetch as a delta, no header comes with the last batch and it removes nothing more. -/
theorem idle_restBatch (hrest : cycle.rest = []) : Additive cycle.restBatch ∧
    droppedBy cycle.store cycle.restBatch = cycle.droppedMailboxes ∧ Silent cycle.restBatch message_id := by
  have hbatch : cycle.restBatch = imap_delta_sync_batch cycle.discovery [] [] [] := by
    unfold restBatch
    rw [hrest]
    rfl
  rw [hbatch]
  refine ⟨⟨rfl, rfl, rfl, rfl, rfl, rfl⟩, ?_, ?_⟩
  · rw [← dropped_mailbox_batch]
    rfl
  · constructor
    · intro record hrecord
      obtain ⟨original, horiginal, _⟩ := mem_preserve hrecord
      obtain ⟨header, hheader, _⟩ := mem_projected_messages horiginal
      obtain ⟨fetched, hfetched, _⟩ := mailbox_project hheader
      exact absurd hfetched List.not_mem_nil
    · intro location hlocation
      obtain ⟨header, hheader, _⟩ := List.mem_map.mp hlocation
      obtain ⟨fetched, hfetched, _⟩ := mailbox_project hheader
      exact absurd hfetched List.not_mem_nil

include hhomed hrehomes in
/-- A stored message that no batch brings keeps something, unless it leaves with the deltas. -/
theorem kept_of_unbrought (hstored : (cycle.store.base.message.lookup message_id).isSome)
    (hunbrought : ¬cycle.Brings message_id) (hstays : ¬cycle.LeavesDeltas message_id) : Kept cycle message_id := by
  refine kept_of_home (hhomed message_id hstored) fun hstrips => ?_
  exact hrehomes message_id hstored hstrips hunbrought hstays

theorem not_leaves_of_idle (hrest : cycle.rest = []) : ¬cycle.LeavesDeltas message_id := by
  rintro ⟨⟨location, hlocation, _⟩, _⟩
  have hmailbox := (known_stored hlocation).2
  rw [hrest] at hmailbox
  exact absurd hmailbox List.not_mem_nil

include hhomed hrehomes hrow in
/-- A message whose row only lost mailboxes keeps its home when no delta follows. -/
theorem hasHome_of_idle (hrest : cycle.rest = []) (hunbrought : ¬cycle.Brings message_id)
    (htrimmed : Trimmed cycle.droppedMailboxes cycle.store after message_id) : HasHome after message_id := by
  rw [htrimmed.row] at hrow
  exact (kept_of_unbrought hhomed hrehomes hrow hunbrought (not_leaves_of_idle hrest)).hasHome htrimmed

include hhomed hunrefused hrehomes hcomplete hrow

/-- A cycle that streams nothing. -/
theorem hasHome_unstreamed (hinitial : cycle.initial = []) : HasHome after message_id := by
  have hbatches : cycle.batches = [cycle.restBatch] := by
    unfold batches
    rw [hinitial]
    rfl
  have happly : cycle.store.apply_sync_batch cycle.restBatch = .ok after := by
    unfold complete at hcomplete
    rw [hbatches, List.foldlM_cons] at hcomplete
    cases hresult : cycle.store.apply_sync_batch cycle.restBatch with
    | error failure =>
      rw [hresult] at hcomplete
      cases hcomplete
    | ok final =>
      rw [hresult] at hcomplete
      cases hcomplete
      rfl
  by_cases hbrought : ∃ location ∈ cycle.restBatch.imap_message_locations, location.message_id = message_id
  · by_cases hrest : cycle.rest = []
    · obtain ⟨location, hlocation, hid⟩ := hbrought
      exact absurd hid ((idle_restBatch hrest).2.2.locations location hlocation)
    · obtain ⟨location, hlocation, rfl⟩ := hbrought
      exact (livesIn_of_brought (listed_delta (Or.inl rfl) hrest) happly hlocation).hasHome
  · have hnone : ¬cycle.Brings message_id := by
      rintro ⟨batch, hbatch, hlocation⟩
      rw [hbatches, List.mem_singleton] at hbatch
      rw [hbatch] at hlocation
      exact hbrought hlocation
    by_cases hrest : cycle.rest = []
    · obtain ⟨hadditive, hdropped, hsilent⟩ := @idle_restBatch cycle message_id hrest
      refine hasHome_of_idle hhomed hrehomes hrow hrest hnone ?_
      rw [← hdropped]
      exact trimmed_of_additive hadditive hsilent happly
    · have hdelta : cycle.restBatch = cycle.restBatch ∨ cycle.restBatch = cycle.restOnly := Or.inl rfl
      have hsilent : Silent cycle.restBatch message_id :=
        silent_delta hdelta hrest fun location hlocation hid => hbrought ⟨location, hlocation, hid⟩
      have hallows := hunrefused [] cycle.restBatch [] cycle.store (by rw [hbatches]; rfl) rfl
      obtain ⟨hmessages, hmailboxes⟩ := unpruned_delta hdelta hrest
      have htrimmed := @trimmed_beforeDeletions cycle.store cycle.restBatch message_id hmessages hmailboxes
      rw [dropped_restBatch hrest] at htrimmed
      refine kept_after_delta hdelta hrest happly hsilent hrow ?_ htrimmed
      exact kept_of_unbrought hhomed hrehomes (row_before_delta hdelta hrest happly hsilent hrow).2 hnone
        (not_leaves_of_row hdelta hrest happly hsilent hrow hallows)

omit hunrefused in
/-- A cycle that streams some mailboxes and fetches no other. -/
theorem hasHome_all_streamed (hinitial : cycle.initial ≠ []) (hrest : cycle.rest = []) : HasHome after message_id := by
  have hbatches : cycle.batches = cycle.upserts := by
    unfold batches upserts
    rw [if_neg (by rwa [List.isEmpty_iff]), if_pos (List.isEmpty_iff.mpr hrest), List.append_nil]
  unfold complete at hcomplete
  rw [hbatches] at hcomplete
  by_cases hbrought : ∃ batch ∈ cycle.streamed, ∃ location ∈ batch.imap_message_locations, location.message_id = message_id
  · obtain ⟨mailbox_id, _, hlives⟩ := upserts_house hcomplete hbrought
    exact hlives.hasHome
  · have hnone : ∀ batch ∈ cycle.streamed, ∀ location ∈ batch.imap_message_locations, location.message_id ≠ message_id :=
      fun batch hbatch location hlocation hid => hbrought ⟨batch, hbatch, location, hlocation, hid⟩
    refine hasHome_of_idle hhomed hrehomes hrow hrest ?_ (upserts_trim hcomplete hnone)
    rintro ⟨batch, hbatch, location, hlocation, hid⟩
    rw [hbatches] at hbatch
    obtain rfl | hbatch := List.mem_cons.mp hbatch
    · exact absurd hlocation List.not_mem_nil
    · exact hnone batch hbatch location hlocation hid

/-- A cycle that streams some mailboxes and fetches the others as deltas. -/
theorem hasHome_both (hinitial : cycle.initial ≠ []) (hrest : cycle.rest ≠ []) : HasHome after message_id := by
  have hbatches := batches_eq hinitial hrest
  obtain ⟨middle, hmiddle⟩ := @foldlM_apply_of_nodup cycle.upserts cycle.store fun batch hbatch => (mem_upserts hbatch).2
  obtain ⟨final, happly⟩ := @ImapStore.apply_sync_batch_of_nodup middle cycle.restOnly (writable_restOnly hrest)
  have hfinal : final = after := by
    unfold complete at hcomplete
    rw [hbatches, List.foldlM_append, hmiddle] at hcomplete
    have hlast : [cycle.restOnly].foldlM ImapStore.apply_sync_batch middle = .ok final := by
      rw [List.foldlM_cons, happly]
      rfl
    exact Except.ok.inj (hlast.symm.trans hcomplete)
  rw [hfinal] at happly
  have hdelta : cycle.restOnly = cycle.restBatch ∨ cycle.restOnly = cycle.restOnly := Or.inr rfl
  obtain ⟨hmessages, hmailboxes⟩ := unpruned_delta hdelta hrest
  have hbefore : middle.beforeDeletions cycle.restOnly = middle :=
    ImapStore.beforeDeletions_of_unpruned rfl hmessages hmailboxes
  by_cases hbrought : ∃ location ∈ cycle.restOnly.imap_message_locations, location.message_id = message_id
  · obtain ⟨location, hlocation, rfl⟩ := hbrought
    exact (livesIn_of_brought (listed_delta hdelta hrest) happly hlocation).hasHome
  · have hsilent : Silent cycle.restOnly message_id :=
      silent_delta hdelta hrest fun location hlocation hid => hbrought ⟨location, hlocation, hid⟩
    by_cases hchunk : ∃ batch ∈ cycle.streamed, ∃ location ∈ batch.imap_message_locations, location.message_id = message_id
    · obtain ⟨mailbox_id, hmailbox, hlives⟩ := upserts_house hmiddle hchunk
      exact (streamed_after_delta hdelta hrest happly hsilent hrow hbefore hmailbox hlives).hasHome
    · have htrimmed : Trimmed cycle.droppedMailboxes cycle.store middle message_id :=
        upserts_trim hmiddle fun batch hbatch location hlocation hid => hchunk ⟨batch, hbatch, location, hlocation, hid⟩
      have hnone : ¬cycle.Brings message_id := by
        rintro ⟨batch, hbatch, location, hlocation, hid⟩
        rw [hbatches] at hbatch
        obtain hbatch | hbatch := List.mem_append.mp hbatch
        · obtain rfl | hbatch := List.mem_cons.mp hbatch
          · exact absurd hlocation List.not_mem_nil
          · exact hchunk ⟨batch, hbatch, location, hlocation, hid⟩
        · rw [List.mem_singleton.mp hbatch] at hlocation
          exact hbrought ⟨location, hlocation, hid⟩
      have hallows := hunrefused cycle.upserts cycle.restOnly [] middle hbatches hmiddle
      have hstored := (row_before_delta hdelta hrest happly hsilent hrow).2
      rw [htrimmed.row] at hstored
      have hkept := kept_of_unbrought hhomed hrehomes hstored hnone
        (not_leaves_of_row hdelta hrest happly hsilent hrow hallows)
      refine kept_after_delta hdelta hrest happly hsilent hrow hkept ?_
      rwa [hbefore]

omit hrow in
/-- A cycle that refuses no deletion and rehomes what it strips leaves every message with a home. -/
theorem homed_after : Homed after := by
  intro message_id hrow
  by_cases hinitial : cycle.initial = []
  · exact hasHome_unstreamed hhomed hunrefused hrehomes hcomplete hrow hinitial
  · by_cases hrest : cycle.rest = []
    · exact hasHome_all_streamed hhomed hrehomes hcomplete hrow hinitial hrest
    · exact hasHome_both hhomed hunrefused hrehomes hcomplete hrow hinitial hrest

end Cycles

theorem unrefused_of_nothing_inferred (hnone : ∀ batch ∈ cycle.batches, batch.absence_deleted_message_ids = []) :
    cycle.Unrefused := by
  intro earlier batch later before hsplit _
  refine allowsAbsence_of_nil (hnone batch ?_)
  rw [hsplit]
  exact List.mem_append_right _ List.mem_cons_self

end StreamedCycle

section Runs

open TransitionSystem

/-- The cycle that a store runs on what the server lists and answers. -/
def cycleOf (store : ImapStore) (answers : DiscoveredImapAccount × ImapServerReplies) : StreamedCycle where
  store := store
  discovery := answers.1
  replies := answers.2

/-- The completed cycles of an account, from its empty store. -/
def imapCycles : TransitionSystem ImapStore (DiscoveredImapAccount × ImapServerReplies) :=
  ofFunction (fun store => store = .empty) fun store answers => (cycleOf store answers).complete.toOption

/-- No deletion is refused, and what the cycle strips is rehomed. -/
def Rehoming (store : ImapStore) (answers : DiscoveredImapAccount × ImapServerReplies) : Prop :=
  (cycleOf store answers).Unrefused ∧ (cycleOf store answers).Rehomes

/-- In a run whose cycles rehome what they strip, no message is left without a location or a membership. -/
theorem no_ghost_messages {store : ImapStore} (hreach : Reachable imapCycles Rehoming store) : Homed store := by
  refine hreach.invariant ?_ ?_
  · rintro _ rfl message_id hrow
    exact absurd hrow Bool.false_ne_true
  · intro before answers after hhomed hguard hstep
    have hsome : (cycleOf before answers).complete.toOption = some after := hstep
    have hcomplete : (cycleOf before answers).complete = .ok after := by
      cases hresult : (cycleOf before answers).complete with
      | error failure =>
        rw [hresult] at hsome
        cases hsome
      | ok final =>
        rw [hresult] at hsome
        exact congrArg Except.ok (Option.some.inj hsome)
    exact StreamedCycle.homed_after hhomed hguard.1 hguard.2 hcomplete

def inboxListed : DiscoveredImapMailbox := ⟨"inbox", "INBOX", some "inbox", true, []⟩

def plainServer (mailboxes : List DiscoveredImapMailbox) : DiscoveredImapAccount where
  capabilities := {
    supports_enable := false, supports_condstore := true, supports_qresync := false, supports_gmail_extensions := false }
  mailboxes := mailboxes

/-- The inbox is empty, and each other mailbox holds one message. -/
def oneFiled : ImapServerReplies where
  status mailbox_id := ⟨some (if mailbox_id = "inbox" then 0 else 1), some 1, some 5⟩
  examined _ := ⟨1, some 5, some 5⟩
  header_snapshot _ := (⟨1, some 5, some 5⟩, [])
  changed_since _ := (⟨1, some 5, some 5⟩, [], [], false)
  uid_delta _ := (⟨1, some 5, some 5⟩, [], [])
  uid_search mailbox_id := (⟨1, some 5, some 5⟩, if mailbox_id = "inbox" then [] else [4])
  header_chunk _ chunk := chunk.map fun uid => ⟨uid, some 3, .empty, none, none, default⟩

def withArchive : DiscoveredImapAccount × ImapServerReplies :=
  (plainServer [inboxListed, ⟨"archive", "Archive", none, true, []⟩], oneFiled)

def withoutArchive : DiscoveredImapAccount × ImapServerReplies := (plainServer [inboxListed], oneFiled)

/-- The store after a first cycle that finds a message in the archive. -/
def filed : ImapStore := (cycleOf .empty withArchive).complete.toOption.getD .empty

/-- The store after a second cycle, where the archive is no longer listed. -/
def pruned : ImapStore := (cycleOf filed withoutArchive).complete.toOption.getD .empty

theorem filed_message_has_home : filed.base.message.keys ≠ [] ∧ Homed filed := by
  have hrehoming : Rehoming .empty withArchive := by
    refine ⟨StreamedCycle.unrefused_of_nothing_inferred (by decide), ?_⟩
    intro message_id hstored
    exact absurd hstored Bool.false_ne_true
  have hcomplete : (cycleOf .empty withArchive).complete.toOption = some filed := rfl
  exact ⟨by decide, no_ghost_messages (.next (.start rfl) hrehoming hcomplete)⟩

/-- The archive is gone in the second cycle; the message it held stays as a row without a home. -/
theorem pruned_archive_leaves_a_ghost : ¬ ∀ store : ImapStore, Reachable imapCycles
    (fun store answers => (cycleOf store answers).Unrefused) store → Homed store := by
  intro hhomed
  have hfirst : (cycleOf .empty withArchive).Unrefused := StreamedCycle.unrefused_of_nothing_inferred (by decide)
  have hsecond : (cycleOf filed withoutArchive).Unrefused := StreamedCycle.unrefused_of_nothing_inferred (by decide)
  have hfiled : (cycleOf .empty withArchive).complete.toOption = some filed := rfl
  have hpruned : (cycleOf filed withoutArchive).complete.toOption = some pruned := rfl
  have hghost := hhomed pruned (.next (.next (.start rfl) hfirst hfiled) hsecond hpruned) "imap:1:4:61726368697665" (by decide)
  obtain ⟨⟨location, hlocation, _⟩, _⟩ := hghost
  have hnone : pruned.location.rows = [] := by decide
  rw [hnone] at hlocation
  exact absurd hlocation List.not_mem_nil

end Runs

end posthaste.imap
