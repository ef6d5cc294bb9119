import Posthaste.Imap.Cycle
import Posthaste.Store.Membership

open posthaste.model posthaste.store

namespace posthaste.imap

/-- What a sync batch is built from. `mailboxes_emitted` says that the mailbox set went before it. -/
inductive ImapBatchSource where
  | mailboxes (discovery : DiscoveredImapAccount)
  | chunk (discovery : DiscoveredImapAccount) (selected : ImapSelectedMailbox) (fetched : List ImapFetchedHeader)
    (state : ImapMailboxSyncState)
  | delta (discovery : DiscoveredImapAccount) (fetched : List (ImapSelectedMailbox × ImapFetchedHeader))
    (mailbox_states : List ImapMailboxSyncState) (local_locations : List ImapMessageLocation)
  | condstoreDelta (discovery : DiscoveredImapAccount) (fetched : List (ImapSelectedMailbox × ImapFetchedHeader))
    (mailbox_states : List ImapMailboxSyncState) (local_locations : List ImapMessageLocation)
    (vanished_uids absence_uids : List UidIdentity) (mailboxes_emitted : Bool)

def mapFetched (fetched : List (ImapSelectedMailbox × ImapFetchedHeader)) : List ImapMappedHeader :=
  fetched.map fun one => imap_header_message_record_with_gmail_metadata one.1 one.2

/-- The fetched headers as the provider projects them. -/
def projectFetched (discovery : DiscoveredImapAccount) (fetched : List (ImapSelectedMailbox × ImapFetchedHeader)) :
    List ImapMappedHeader :=
  project_imap_headers discovery (mapFetched fetched)

/-- The locations a listing delta drops. -/
def listingKeys (discovery : DiscoveredImapAccount) (fetched : List (ImapSelectedMailbox × ImapFetchedHeader))
    (local_locations : List ImapMessageLocation) : List ImapMessageLocationKey :=
  let projected := messages_and_locations_from_headers (projectFetched discovery fetched)
  deleted_locations_for_delta local_locations
    (deleted_locations_missing_from_remote local_locations (projected.locations.map ImapMessageLocation.key))
    projected.provider_absent_mailbox_ids_by_message

namespace ImapBatchSource

def batch : ImapBatchSource → ImapSyncBatch
  | mailboxes discovery => imap_mailbox_sync_batch discovery
  | chunk discovery selected fetched state =>
    imap_initial_snapshot_chunk_batch discovery (fetched.map (imap_header_message_record_with_gmail_metadata selected)) state
  | delta discovery fetched mailbox_states local_locations =>
    imap_delta_sync_batch discovery (mapFetched fetched) mailbox_states local_locations
  | condstoreDelta discovery fetched mailbox_states local_locations vanished_uids absence_uids mailboxes_emitted =>
    let batch := imap_condstore_delta_sync_batch discovery (mapFetched fetched) mailbox_states local_locations
      vanished_uids absence_uids
    if mailboxes_emitted then { batch with mailboxes := [], replace_all_mailboxes := false } else batch

end ImapBatchSource

/-- The mailboxes a batch prunes. -/
def droppedBy (store : ImapStore) (batch : ImapSyncBatch) : List MailboxId :=
  if batch.replace_all_mailboxes then store.base.prunedMailboxes (batch.mailboxes.map Mailbox.id) else []

/-- A batch that brings the message of a stored location accounts for the location: a
    header comes with it, the batch knows it and keeps it, or the batch removes it. -/
def Accounted (store : ImapStore) (batch : ImapSyncBatch) (headers : List ImapMappedHeader)
    (local_locations : List ImapMessageLocation) (asserted inferred : List ImapMessageLocationKey)
    (location : ImapMessageLocation) : Prop :=
  (∃ header ∈ headers, header.location.place = location.place) ∨
    (∃ known ∈ local_locations, known.place = location.place ∧ known.key ∉ asserted ++ inferred) ∨
      location.mailbox_id ∈ droppedBy store batch ∨ location.key ∈ asserted ∨
        (store.beforeDeletions batch).allowsAbsence batch = true ∧ location.key ∈ inferred

/-- A chunk lists the mailboxes of the locations stored of its messages; a delta accounts for them. -/
def ImapBatchSource.Covers (store : ImapStore) (source : ImapBatchSource) : Prop :=
  match source with
  | mailboxes _ => True
  | chunk discovery selected fetched _ =>
    ∀ header ∈ project_imap_headers discovery (fetched.map (imap_header_message_record_with_gmail_metadata selected)),
      ∀ location ∈ store.location.rows, location.message_id = header.message.id →
        location.mailbox_id ∈ header.message.mailbox_ids
  | delta discovery fetched _ local_locations =>
    ∀ header ∈ projectFetched discovery fetched, ∀ location ∈ store.location.rows,
      location.message_id = header.message.id →
        Accounted store source.batch (projectFetched discovery fetched) local_locations
          (listingKeys discovery fetched local_locations) [] location
  | condstoreDelta discovery fetched _ local_locations vanished_uids absence_uids _ =>
    ∀ header ∈ projectFetched discovery fetched, ∀ location ∈ store.location.rows,
      location.message_id = header.message.id →
        Accounted store source.batch (projectFetched discovery fetched) local_locations
          (authoritativeKeys discovery (mapFetched fetched) local_locations vanished_uids)
          (absenceKeys discovery (mapFetched fetched) local_locations vanished_uids absence_uids) location

section Applied

variable {store : ImapStore} {batch : ImapSyncBatch} {location : ImapMessageLocation}

theorem mem_location_beforeDeletions (hmessages : batch.replace_all_messages = false)
    (hmailboxes : batch.deleted_mailbox_ids = []) : location ∈ (store.beforeDeletions batch).location.rows ↔
      location ∈ store.location.rows ∧ location.mailbox_id ∉ droppedBy store batch := by
  unfold ImapStore.beforeDeletions droppedBy
  simp only [hmessages, hmailboxes, Bool.false_eq_true, if_false]
  rw [ImapStore.mem_location_delete_mailboxes_tx]
  split_ifs
  · unfold ImapStore.prune_mailboxes_absent_from_remote_tx
    rw [ImapStore.mem_location_delete_mailboxes_tx]
    simp
  · simp

/-- The locations left of a message that the batch does not delete. -/
theorem mem_location_left (hmessages : batch.replace_all_messages = false) (hmailboxes : batch.deleted_mailbox_ids = [])
    (hstays : location.message_id ∉ (store.beforeDeletions batch).batchDeletions batch) :
    location ∈ (store.applyRemovals batch).location.rows ↔
      location ∈ store.location.rows ∧ location.mailbox_id ∉ droppedBy store batch ∧
        location.key ∉ batch.deleted_imap_message_locations ∧
          ¬((store.beforeDeletions batch).allowsAbsence batch = true ∧
            location.key ∈ batch.absence_deleted_imap_message_locations) := by
  rw [ImapStore.mem_location_applyRemovals, mem_location_beforeDeletions hmessages hmailboxes]
  have hdeparts : location.key ∈ (store.beforeDeletions batch).batchDepartures batch ↔
      location.key ∈ batch.deleted_imap_message_locations ∨ (store.beforeDeletions batch).allowsAbsence batch = true ∧
        location.key ∈ batch.absence_deleted_imap_message_locations := by
    unfold ImapStore.batchDepartures
    simp only
    have hkept : decide (location.key.message_id ∉ (store.beforeDeletions batch).batchDeletions batch) = true :=
      decide_eq_true hstays
    rw [List.mem_filter, List.mem_append, and_iff_left hkept]
    cases (store.beforeDeletions batch).allowsAbsence batch <;> simp
  rw [hdeparts]
  tauto

end Applied

section Deltas

variable {headers : List ImapMappedHeader} {local_locations : List ImapMessageLocation}
  {removed : List ImapMessageLocationKey}

/-- The records a delta makes of its headers. -/
def deltaMessages (headers : List ImapMappedHeader) (local_locations : List ImapMessageLocation)
    (removed : List ImapMessageLocationKey) : List MessageRecord :=
  let projected := messages_and_locations_from_headers headers
  preserve_delta_mailboxes_from_locations projected.messages local_locations removed projected.locations
    projected.provider_absent_mailbox_ids_by_message

/-- A record of a delta lists the mailboxes of the headers and of the known locations that stay. -/
theorem mem_mailbox_ids_deltaMessages (hsound : ∀ header ∈ headers, header.Sound)
    (hremoved : ∀ location ∈ local_locations, location.place ∈
      (messages_and_locations_from_headers headers).provider_absent_mailbox_ids_by_message → location.key ∈ removed)
    {record : MessageRecord} (hrecord : record ∈ deltaMessages headers local_locations removed) {mailbox_id : MailboxId} :
    mailbox_id ∈ record.mailbox_ids ↔ (∃ header ∈ headers, header.location.place = (record.id, mailbox_id)) ∨
      ∃ known ∈ local_locations, known.place = (record.id, mailbox_id) ∧ known.key ∉ removed := by
  obtain ⟨original, horiginal, hid, _, hmailboxes⟩ := mem_preserve hrecord
  obtain ⟨header, hheader, rfl⟩ := mem_projected_messages horiginal
  have hremaining : ∀ mailbox_id, mailbox_id ∈ remainingMailboxes local_locations removed
      (messages_and_locations_from_headers headers).locations
      (messages_and_locations_from_headers headers).provider_absent_mailbox_ids_by_message header.message.id ↔
        (∃ header ∈ headers, header.location.place = (record.id, mailbox_id)) ∨
          ∃ known ∈ local_locations, known.place = (record.id, mailbox_id) ∧ known.key ∉ removed := by
    intro mailbox_id
    unfold remainingMailboxes
    rw [List.mem_map, ← hid]
    constructor
    · rintro ⟨location, hlocation, rfl⟩
      obtain hknown | hnew := List.mem_append.mp hlocation
      · obtain ⟨hknown, hkept⟩ := List.mem_filter.mp hknown
        simp only [Bool.and_eq_true, decide_eq_true_iff] at hkept
        refine Or.inr ⟨location, hknown, ?_, hkept.1.1⟩
        rw [← hkept.2]
        rfl
      · obtain ⟨hnew, hsame⟩ := List.mem_filter.mp hnew
        obtain ⟨other, hother, rfl⟩ := List.mem_map.mp hnew
        refine Or.inl ⟨other, hother, ?_⟩
        rw [← of_decide_eq_true hsame]
        rfl
    · rintro (⟨other, hother, hplace⟩ | ⟨known, hknown, hplace, hkept⟩)
      · refine ⟨other.location, List.mem_append_right _ (List.mem_filter.mpr ⟨List.mem_map_of_mem hother, ?_⟩), ?_⟩
        · exact decide_eq_true (congrArg Prod.fst hplace)
        · exact congrArg Prod.snd hplace
      · refine ⟨known, List.mem_append_left _ (List.mem_filter.mpr ⟨hknown, ?_⟩), congrArg Prod.snd hplace⟩
        simp only [Bool.and_eq_true, decide_eq_true_iff]
        exact ⟨⟨hkept, fun habsent => hkept (hremoved known hknown habsent)⟩, congrArg Prod.fst hplace⟩
  have hsome : (remainingMailboxes local_locations removed (messages_and_locations_from_headers headers).locations
      (messages_and_locations_from_headers headers).provider_absent_mailbox_ids_by_message
        header.message.id).isEmpty ≠ true := by
    intro hempty
    have hlisted := (hremaining header.location.mailbox_id).mpr (Or.inl ⟨header, hheader, ?_⟩)
    · rw [List.isEmpty_iff.mp hempty] at hlisted
      exact absurd hlisted List.not_mem_nil
    · rw [← hid, ← (hsound header hheader).named]
      rfl
  rw [hmailboxes, if_neg hsome, mem_toList_from_iter]
  exact hremaining mailbox_id

theorem listed_deltaMessages (hsound : ∀ header ∈ headers, header.Sound)
    (hremoved : ∀ location ∈ local_locations, location.place ∈
      (messages_and_locations_from_headers headers).provider_absent_mailbox_ids_by_message → location.key ∈ removed)
    {batch : ImapSyncBatch} (hmessages : batch.messages = deltaMessages headers local_locations removed)
    (hlocations : batch.imap_message_locations = headers.map ImapMappedHeader.location) : ImapStore.Listed batch where
  ids_nodup := by
    rw [hmessages]
    unfold deltaMessages
    rw [preserve_ids]
    exact projected_ids_nodup
  locations := by
    intro location hlocation
    rw [hlocations] at hlocation
    obtain ⟨header, hheader, rfl⟩ := List.mem_map.mp hlocation
    obtain ⟨original, horiginal, hid⟩ := projected_record hheader
    have hids : header.message.id ∈ (deltaMessages headers local_locations removed).map MessageRecord.id := by
      unfold deltaMessages
      rw [preserve_ids, ← hid]
      exact List.mem_map_of_mem horiginal
    obtain ⟨record, hrecord, hsame⟩ := List.mem_map.mp hids
    have hnamed : record.id = header.location.message_id := hsame.trans (hsound header hheader).named.symm
    rw [hmessages]
    refine ⟨record, hrecord, hnamed, (mem_mailbox_ids_deltaMessages hsound hremoved hrecord).mpr (Or.inl ⟨header, hheader, ?_⟩)⟩
    rw [hnamed]
    rfl

end Deltas

section Sources

variable {store : ImapStore} {batch : ImapSyncBatch} {headers : List ImapMappedHeader}
  {local_locations : List ImapMessageLocation} {asserted inferred : List ImapMessageLocationKey}

/-- A delta names the mailboxes where its messages keep a location exactly when it
    accounts for every stored location of them. -/
theorem delta_named_iff (hsound : ∀ header ∈ headers, header.Sound)
    (habsent : ∀ location ∈ local_locations, location.place ∈
      (messages_and_locations_from_headers headers).provider_absent_mailbox_ids_by_message →
        location.key ∈ asserted ++ inferred)
    (hmessages : batch.messages = deltaMessages headers local_locations (asserted ++ inferred))
    (hasserted : batch.deleted_imap_message_locations = asserted)
    (hinferred : batch.absence_deleted_imap_message_locations = inferred)
    (hkeep : batch.replace_all_messages = false) (hmailboxes : batch.deleted_mailbox_ids = [])
    (hstay : ∀ header ∈ headers, header.location.message_id ∉ (store.beforeDeletions batch).batchDeletions batch) :
    (∀ record ∈ batch.messages, ∀ location ∈ (store.applyRemovals batch).location.rows,
      location.message_id = record.id → location.mailbox_id ∈ record.mailbox_ids) ↔
        ∀ header ∈ headers, ∀ location ∈ store.location.rows, location.message_id = header.message.id →
          Accounted store batch headers local_locations asserted inferred location := by
  have hnamed : ∀ record ∈ batch.messages, ∀ location : ImapMessageLocation, location.message_id = record.id →
      (location.mailbox_id ∈ record.mailbox_ids ↔ (∃ header ∈ headers, header.location.place = location.place) ∨
        ∃ known ∈ local_locations, known.place = location.place ∧ known.key ∉ asserted ++ inferred) := by
    intro record hrecord location hid
    rw [hmessages] at hrecord
    rw [mem_mailbox_ids_deltaMessages hsound habsent hrecord, ← hid]
    rfl
  have hleft : ∀ header ∈ headers, ∀ location : ImapMessageLocation, location.message_id = header.message.id →
      (location ∈ (store.applyRemovals batch).location.rows ↔
        location ∈ store.location.rows ∧ location.mailbox_id ∉ droppedBy store batch ∧ location.key ∉ asserted ∧
          ¬((store.beforeDeletions batch).allowsAbsence batch = true ∧ location.key ∈ inferred)) := by
    intro header hheader location hid
    rw [← hasserted, ← hinferred]
    refine mem_location_left hkeep hmailboxes ?_
    rw [hid, ← (hsound header hheader).named]
    exact hstay header hheader
  unfold Accounted
  constructor
  · intro hall header hheader location hstored hid
    obtain ⟨original, horiginal, hsame⟩ := projected_record hheader
    have hids : header.message.id ∈ batch.messages.map MessageRecord.id := by
      rw [hmessages]
      unfold deltaMessages
      rw [preserve_ids, ← hsame]
      exact List.mem_map_of_mem horiginal
    obtain ⟨record, hrecord, hrecordId⟩ := List.mem_map.mp hids
    have hlocationId := hid.trans hrecordId.symm
    by_cases hkept : location ∈ (store.applyRemovals batch).location.rows
    · obtain hnew | hknown := (hnamed record hrecord location hlocationId).mp (hall record hrecord location hkept hlocationId)
      · exact Or.inl hnew
      · exact Or.inr (Or.inl hknown)
    · rw [hleft header hheader location hid] at hkept
      tauto
  · intro hall record hrecord location hkept hid
    have horiginal := hrecord
    rw [hmessages] at horiginal
    obtain ⟨original, horiginal, hsame, _⟩ := mem_preserve horiginal
    obtain ⟨header, hheader, rfl⟩ := mem_projected_messages horiginal
    have hlocationId := hid.trans hsame.symm
    obtain ⟨hstored, hdropped, hunasserted, hrefused⟩ := (hleft header hheader location hlocationId).mp hkept
    rw [hnamed record hrecord location hid]
    obtain hnew | hknown | hdrop | hgone | hgone := hall header hheader location hstored hlocationId
    · exact Or.inl hnew
    · exact Or.inr hknown
    · exact absurd hdrop hdropped
    · exact absurd hgone hunasserted
    · exact absurd hgone hrefused

section Chunks

variable {discovery : DiscoveredImapAccount} {state : ImapMailboxSyncState} {mailbox_id : MailboxId}

theorem listed_chunk (hsound : ∀ header ∈ headers, header.Sound)
    (hselected : ∀ header ∈ headers, header.location.mailbox_id = mailbox_id) :
    ImapStore.Listed (imap_initial_snapshot_chunk_batch discovery headers state) where
  ids_nodup := projected_ids_nodup
  locations := by
    intro location hlocation
    obtain ⟨header, hheader, rfl⟩ := List.mem_map.mp hlocation
    obtain ⟨record, hrecord, hid⟩ := projected_record hheader
    obtain ⟨other, hother, rfl⟩ := mem_projected_messages hrecord
    exact ⟨other.message, hrecord, hid.trans (sound_project hsound hheader).named.symm,
      project_shared hsound hselected hheader hother hid⟩

/-- A chunk removes nothing. -/
theorem mem_location_chunk {location : ImapMessageLocation} : location ∈ (store.applyRemovals
    (imap_initial_snapshot_chunk_batch discovery headers state)).location.rows ↔ location ∈ store.location.rows := by
  rw [mem_location_left rfl rfl]
  · constructor
    · exact And.left
    · exact fun hstored => ⟨hstored, List.not_mem_nil, List.not_mem_nil, fun hgone => absurd hgone.2 List.not_mem_nil⟩
  · rw [ImapStore.mem_batchDeletions]
    rintro (hgone | ⟨_, hgone⟩) <;> exact absurd hgone List.not_mem_nil

/-- The headers of one message in a chunk list the same mailboxes. -/
theorem chunk_mailbox_ids (hselected : ∀ header ∈ headers, header.location.mailbox_id = mailbox_id)
    (honly : ∀ header ∈ headers, header.message.mailbox_ids = [header.location.mailbox_id])
    (hsound : ∀ header ∈ headers, header.Sound) {header other : ImapMappedHeader}
    (hheader : header ∈ project_imap_headers discovery headers) (hother : other ∈ project_imap_headers discovery headers)
    (hid : other.message.id = header.message.id) : other.message.mailbox_ids = header.message.mailbox_ids := by
  unfold project_imap_headers at hheader hother
  split_ifs at hheader hother with hgmail
  · rw [(mem_groupHeaders (sound_canonicalized discovery.mailboxes hsound) hheader).2 other hother hid]
  · rw [honly other hother, honly header hheader, hselected other hother, hselected header hheader]

/-- A chunk names them exactly when its headers list every mailbox where a location of their message is stored. -/
theorem chunk_named_iff (hselected : ∀ header ∈ headers, header.location.mailbox_id = mailbox_id)
    (honly : ∀ header ∈ headers, header.message.mailbox_ids = [header.location.mailbox_id])
    (hsound : ∀ header ∈ headers, header.Sound) :
    (∀ record ∈ (imap_initial_snapshot_chunk_batch discovery headers state).messages, ∀ location ∈ (store.applyRemovals
      (imap_initial_snapshot_chunk_batch discovery headers state)).location.rows,
        location.message_id = record.id → location.mailbox_id ∈ record.mailbox_ids) ↔
      ∀ header ∈ project_imap_headers discovery headers, ∀ location ∈ store.location.rows,
        location.message_id = header.message.id → location.mailbox_id ∈ header.message.mailbox_ids := by
  constructor
  · intro hall header hheader location hstored hid
    obtain ⟨record, hrecord, hsame⟩ := projected_record hheader
    obtain ⟨other, hother, rfl⟩ := mem_projected_messages hrecord
    rw [← chunk_mailbox_ids hselected honly hsound hheader hother hsame]
    exact hall other.message hrecord location (mem_location_chunk.mpr hstored) (hid.trans hsame.symm)
  · intro hall record hrecord location hkept hid
    obtain ⟨header, hheader, rfl⟩ := mem_projected_messages hrecord
    exact hall header hheader location (mem_location_chunk.mp hkept) hid

end Chunks

theorem sound_mapFetched (fetched : List (ImapSelectedMailbox × ImapFetchedHeader)) :
    ∀ header ∈ mapFetched fetched, header.Sound := by
  intro header hheader
  obtain ⟨one, _, rfl⟩ := List.mem_map.mp hheader
  exact sound_mapped one.1 one.2

theorem sound_projectFetched (discovery : DiscoveredImapAccount) (fetched : List (ImapSelectedMailbox × ImapFetchedHeader)) :
    ∀ header ∈ projectFetched discovery fetched, header.Sound :=
  fun _ hheader => sound_project (sound_mapFetched fetched) hheader

/-- A delta deletes no message it has a header of. -/
theorem described_stays (local_locations : List ImapMessageLocation) (removed : List ImapMessageLocationKey)
    (hdeleted : ∀ id, id ∈ batch.deleted_message_ids ∨ id ∈ batch.absence_deleted_message_ids →
      id ∈ deleted_message_ids_for_deleted_locations local_locations removed (headers.map ImapMappedHeader.location)) :
    ∀ header ∈ headers, header.location.message_id ∉ store.batchDeletions batch := by
  intro header hheader hmem
  have hlisted := (ImapStore.mem_batchDeletions.mp hmem).imp_right And.right
  exact (mem_deleted_message_ids.mp (hdeleted _ hlisted)).2.2 header.location (List.mem_map_of_mem hheader) rfl

theorem delta_matched_iff {discovery : DiscoveredImapAccount} {fetched : List (ImapSelectedMailbox × ImapFetchedHeader)}
    {mailbox_states : List ImapMailboxSyncState} {after : ImapStore} (hmatched : store.Matched)
    (happly : store.apply_sync_batch (ImapBatchSource.delta discovery fetched mailbox_states local_locations).batch = .ok after) :
    after.Matched ↔ (ImapBatchSource.delta discovery fetched mailbox_states local_locations).Covers store := by
  have hsound := sound_projectFetched discovery fetched
  have habsent : ∀ location ∈ local_locations, location.place ∈ (messages_and_locations_from_headers
      (projectFetched discovery fetched)).provider_absent_mailbox_ids_by_message →
        location.key ∈ listingKeys discovery fetched local_locations ++ [] := by
    intro location hlocation hplace
    rw [List.append_nil]
    exact mem_deleted_locations_for_delta.mpr (Or.inr ⟨List.mem_map_of_mem hlocation, hplace⟩)
  have hmessages : (ImapBatchSource.delta discovery fetched mailbox_states local_locations).batch.messages =
      deltaMessages (projectFetched discovery fetched) local_locations (listingKeys discovery fetched local_locations ++ []) := by
    rw [List.append_nil]
    rfl
  rw [ImapStore.matched_apply_iff (listed_deltaMessages hsound habsent hmessages rfl) hmatched happly]
  refine delta_named_iff hsound habsent hmessages rfl rfl rfl rfl
    (described_stays local_locations (listingKeys discovery fetched local_locations) ?_)
  rintro id (hlisted | hlisted)
  · exact hlisted
  · exact absurd hlisted List.not_mem_nil

theorem condstoreDelta_matched_iff {discovery : DiscoveredImapAccount}
    {fetched : List (ImapSelectedMailbox × ImapFetchedHeader)} {mailbox_states : List ImapMailboxSyncState}
    {vanished_uids absence_uids : List UidIdentity} {mailboxes_emitted : Bool} {after : ImapStore} (hmatched : store.Matched)
    (happly : store.apply_sync_batch (ImapBatchSource.condstoreDelta discovery fetched mailbox_states local_locations
      vanished_uids absence_uids mailboxes_emitted).batch = .ok after) :
    after.Matched ↔ (ImapBatchSource.condstoreDelta discovery fetched mailbox_states local_locations vanished_uids
      absence_uids mailboxes_emitted).Covers store := by
  have hsound := sound_projectFetched discovery fetched
  have habsent : ∀ location ∈ local_locations, location.place ∈ (messages_and_locations_from_headers
      (projectFetched discovery fetched)).provider_absent_mailbox_ids_by_message →
        location.key ∈ authoritativeKeys discovery (mapFetched fetched) local_locations vanished_uids ++
          absenceKeys discovery (mapFetched fetched) local_locations vanished_uids absence_uids := by
    intro location hlocation hplace
    exact List.mem_append_left _ (mem_authoritativeKeys.mpr ⟨List.mem_map_of_mem hlocation, Or.inr hplace⟩)
  cases mailboxes_emitted with
  | false =>
    rw [ImapStore.matched_apply_iff (listed_deltaMessages hsound habsent rfl rfl) hmatched happly]
    refine delta_named_iff hsound habsent rfl rfl rfl rfl rfl (described_stays local_locations
      (authoritativeKeys discovery (mapFetched fetched) local_locations vanished_uids ++
        absenceKeys discovery (mapFetched fetched) local_locations vanished_uids absence_uids) ?_)
    rintro id (hlisted | hlisted) <;> exact (List.mem_filter.mp hlisted).1
  | true =>
    rw [ImapStore.matched_apply_iff (listed_deltaMessages hsound habsent rfl rfl) hmatched happly]
    refine delta_named_iff hsound habsent rfl rfl rfl rfl rfl (described_stays local_locations
      (authoritativeKeys discovery (mapFetched fetched) local_locations vanished_uids ++
        absenceKeys discovery (mapFetched fetched) local_locations vanished_uids absence_uids) ?_)
    rintro id (hlisted | hlisted) <;> exact (List.mem_filter.mp hlisted).1

/-- A batch keeps locations and memberships matched exactly when it covers the stored locations of its messages. -/
theorem source_matched_iff {source : ImapBatchSource} {after : ImapStore} (hmatched : store.Matched)
    (happly : store.apply_sync_batch source.batch = .ok after) : after.Matched ↔ source.Covers store := by
  cases source with
  | mailboxes discovery =>
    have hlisted : ImapStore.Listed (ImapBatchSource.mailboxes discovery).batch :=
      { ids_nodup := List.nodup_nil, locations := fun location hlocation => absurd hlocation List.not_mem_nil }
    rw [ImapStore.matched_apply_iff hlisted hmatched happly]
    exact ⟨fun _ => trivial, fun _ record hrecord => absurd hrecord List.not_mem_nil⟩
  | chunk discovery selected fetched state =>
    have hmapped : ∀ header ∈ fetched.map (imap_header_message_record_with_gmail_metadata selected),
        header.Sound ∧ header.location.mailbox_id = selected.mailbox_id ∧
          header.message.mailbox_ids = [header.location.mailbox_id] := by
      intro header hheader
      obtain ⟨one, _, rfl⟩ := List.mem_map.mp hheader
      exact ⟨sound_mapped selected one, rfl, rfl⟩
    have hsound := fun header hheader => (hmapped header hheader).1
    have hselected := fun header hheader => (hmapped header hheader).2.1
    have honly := fun header hheader => (hmapped header hheader).2.2
    rw [ImapStore.matched_apply_iff (listed_chunk hsound hselected) hmatched happly]
    exact chunk_named_iff hselected honly hsound
  | delta discovery fetched mailbox_states local_locations => exact delta_matched_iff hmatched happly
  | condstoreDelta discovery fetched mailbox_states local_locations vanished_uids absence_uids mailboxes_emitted =>
    exact condstoreDelta_matched_iff hmatched happly

end Sources

section Runs

/-- Every store of the run is matched. -/
def MatchedAlong : List ImapBatchSource → ImapStore → Prop
  | [], store => store.Matched
  | source :: rest, store =>
    store.Matched ∧ ∀ after, store.apply_sync_batch source.batch = .ok after → MatchedAlong rest after

/-- Every batch of the run covers the store it is applied to. -/
def CoveredAlong : List ImapBatchSource → ImapStore → Prop
  | [], _ => True
  | source :: rest, store =>
    source.Covers store ∧ ∀ after, store.apply_sync_batch source.batch = .ok after → CoveredAlong rest after

theorem source_writable (source : ImapBatchSource) :
    ∀ record ∈ source.batch.messages, record.mailbox_ids.Nodup ∧ record.keywords.Nodup := by
  cases source with
  | mailboxes discovery => exact fun record hrecord => absurd hrecord List.not_mem_nil
  | chunk discovery selected fetched state =>
    refine chunk_writable fun header hheader => ?_
    obtain ⟨one, _, rfl⟩ := List.mem_map.mp hheader
    exact sound_mapped selected one
  | delta discovery fetched mailbox_states local_locations =>
    intro record hrecord
    obtain ⟨original, horiginal, _, hkeywords, hmailboxes⟩ := mem_preserve hrecord
    obtain ⟨header, hheader, rfl⟩ := mem_projected_messages horiginal
    have hheaderSound := sound_projectFetched discovery fetched header hheader
    refine ⟨?_, hkeywords ▸ hheaderSound.keywords⟩
    rw [hmailboxes]
    split_ifs
    · exact hheaderSound.mailboxes
    · exact nodup_from_iter
  | condstoreDelta discovery fetched mailbox_states local_locations vanished_uids absence_uids mailboxes_emitted =>
    have hwritable := @delta_writable discovery _ mailbox_states local_locations vanished_uids absence_uids
      (sound_mapFetched fetched)
    cases mailboxes_emitted <;> exact hwritable

/-- From a matched store, a run keeps every store matched exactly when each of its batches covers. -/
theorem matchedAlong_iff (sources : List ImapBatchSource) {store : ImapStore} (hmatched : store.Matched) :
    MatchedAlong sources store ↔ CoveredAlong sources store := by
  induction sources generalizing store with
  | nil => exact ⟨fun _ => trivial, fun _ => hmatched⟩
  | cons source rest ih =>
    rw [MatchedAlong, CoveredAlong, and_iff_right hmatched]
    constructor
    · intro hafter
      obtain ⟨after, happly⟩ := @ImapStore.apply_sync_batch_of_nodup store source.batch (source_writable source)
      have hmatchedAfter : after.Matched := by
        cases rest with
        | nil => exact hafter after happly
        | cons next rest => exact (hafter after happly).1
      refine ⟨(source_matched_iff hmatched happly).mp hmatchedAfter, fun other hother => ?_⟩
      rw [happly] at hother
      cases hother
      exact (ih hmatchedAfter).mp (hafter after happly)
    · rintro ⟨hcovers, hrest⟩ after happly
      exact (ih ((source_matched_iff hmatched happly).mpr hcovers)).mpr (hrest after happly)

end Runs

end posthaste.imap
