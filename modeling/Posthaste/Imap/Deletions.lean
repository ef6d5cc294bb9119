import Posthaste.Imap.Projected

open posthaste.model posthaste.store

namespace posthaste.imap

/-- The server's name of the location a key addresses. -/
def identityOf (key : ImapMessageLocationKey) : UidIdentity := (key.mailbox_id, key.uid_validity, key.uid)

section Keys

variable {local_locations : List ImapMessageLocation} {key : ImapMessageLocationKey}

theorem mem_matching_vanished {vanished : List UidIdentity} :
    key ∈ deleted_locations_matching_vanished_uids local_locations vanished ↔
      key ∈ local_locations.map ImapMessageLocation.key ∧ identityOf key ∈ vanished := by
  unfold deleted_locations_matching_vanished_uids
  rw [List.mem_filter, decide_eq_true_iff]
  rfl

theorem mem_deleted_locations_for_delta {base_deleted_locations : List ImapMessageLocationKey}
    {absent : List (MessageId × MailboxId)} :
    key ∈ deleted_locations_for_delta local_locations base_deleted_locations absent ↔
      key ∈ base_deleted_locations ∨ key ∈ local_locations.map ImapMessageLocation.key ∧ key.place ∈ absent := by
  unfold deleted_locations_for_delta
  rw [List.mem_eraseDups, List.mem_append]
  apply or_congr_right
  constructor
  · intro hmem
    obtain ⟨location, hlocation, rfl⟩ := List.mem_map.mp hmem
    obtain ⟨hlocation, habsent⟩ := List.mem_filter.mp hlocation
    exact ⟨List.mem_map_of_mem hlocation, of_decide_eq_true habsent⟩
  · rintro ⟨hmem, habsent⟩
    obtain ⟨location, hlocation, rfl⟩ := List.mem_map.mp hmem
    exact List.mem_map_of_mem (List.mem_filter.mpr ⟨hlocation, decide_eq_true habsent⟩)

variable {discovery : DiscoveredImapAccount} {headers : List ImapMappedHeader} {vanished absence : List UidIdentity}

theorem mem_authoritativeKeys : key ∈ authoritativeKeys discovery headers local_locations vanished ↔
    key ∈ local_locations.map ImapMessageLocation.key ∧ (identityOf key ∈ vanished ∨
      key.place ∈ (messages_and_locations_for_batch discovery headers).provider_absent_mailbox_ids_by_message) := by
  unfold authoritativeKeys
  rw [mem_deleted_locations_for_delta, mem_matching_vanished]
  tauto

theorem mem_absenceKeys : key ∈ absenceKeys discovery headers local_locations vanished absence ↔
    key ∈ local_locations.map ImapMessageLocation.key ∧ identityOf key ∈ absence ∧
      key ∉ authoritativeKeys discovery headers local_locations vanished := by
  unfold absenceKeys
  rw [List.mem_filter, mem_matching_vanished, decide_eq_true_iff, and_assoc]

theorem mem_provider_absent {place : MessageId × MailboxId} :
    place ∈ (messages_and_locations_from_headers headers).provider_absent_mailbox_ids_by_message ↔
      ∃ header ∈ headers, header.mailbox_membership_source = .ProviderLabels ∧ header.message.id = place.1 ∧
        place.2 ∈ header.provider_absent_mailbox_ids := by
  unfold messages_and_locations_from_headers
  rw [List.mem_flatMap]
  constructor
  · rintro ⟨header, hheader, hplace⟩
    obtain ⟨hheader, hlabels⟩ := List.mem_filter.mp hheader
    obtain ⟨mailbox_id, hmailbox, rfl⟩ := List.mem_map.mp hplace
    exact ⟨header, hheader, of_decide_eq_true hlabels, rfl, hmailbox⟩
  · rintro ⟨header, hheader, hlabels, hid, hmailbox⟩
    refine ⟨header, List.mem_filter.mpr ⟨hheader, decide_eq_true hlabels⟩, List.mem_map.mpr ⟨place.2, hmailbox, ?_⟩⟩
    rw [hid]

end Keys

section Messages

variable {local_locations new_locations : List ImapMessageLocation} {deleted : List ImapMessageLocationKey}
  {message_id : MessageId}

theorem remaining_location_count_eq_zero :
    remaining_location_count local_locations deleted new_locations message_id = 0 ↔
      (∀ location ∈ local_locations, location.message_id = message_id → location.key ∈ deleted) ∧
        ∀ location ∈ new_locations, location.message_id ≠ message_id := by
  unfold remaining_location_count
  rw [Nat.add_eq_zero_iff, List.length_eq_zero_iff, List.length_eq_zero_iff, List.filter_eq_nil_iff, List.filter_eq_nil_iff]
  apply and_congr
  · apply forall₂_congr
    intro location _
    simp only [Bool.and_eq_true, decide_eq_true_iff, not_and]
    constructor
    · intro hgone hid
      by_contra hkept
      exact hgone hkept hid
    · exact fun hgone hkept hid => hkept (hgone hid)
  · apply forall₂_congr
    intro location _
    rw [decide_eq_true_iff]

/-- A message goes with a deleted location when none of its known locations stays and none is new. -/
theorem mem_deleted_message_ids :
    message_id ∈ deleted_message_ids_for_deleted_locations local_locations deleted new_locations ↔
      (∃ key ∈ deleted, key.message_id = message_id) ∧
        (∀ location ∈ local_locations, location.message_id = message_id → location.key ∈ deleted) ∧
          ∀ location ∈ new_locations, location.message_id ≠ message_id := by
  unfold deleted_message_ids_for_deleted_locations
  rw [mem_toList_from_iter]
  constructor
  · intro hmem
    obtain ⟨key, hkey, rfl⟩ := List.mem_map.mp hmem
    obtain ⟨hdeleted, hnone⟩ := List.mem_filter.mp hkey
    exact ⟨⟨key, hdeleted, rfl⟩, remaining_location_count_eq_zero.mp (of_decide_eq_true hnone)⟩
  · rintro ⟨⟨key, hdeleted, rfl⟩, hnone⟩
    refine List.mem_map_of_mem (List.mem_filter.mpr ⟨hdeleted, ?_⟩)
    exact decide_eq_true (remaining_location_count_eq_zero.mpr hnone)

theorem deleted_message_ids_sorted :
    (deleted_message_ids_for_deleted_locations local_locations deleted new_locations).SortedLT := BTreeSet.sorted _

/-- For a message that loses every known location, the assertion has to cover each of them. -/
theorem allAuthoritative_iff {authoritative_keys absence_keys : List ImapMessageLocationKey}
    (hknown : ∃ location ∈ local_locations, location.message_id = message_id)
    (hgone : ∀ location ∈ local_locations, location.message_id = message_id →
      location.key ∈ authoritative_keys ++ absence_keys) :
    allAuthoritative local_locations authoritative_keys absence_keys message_id = true ↔
      ∀ location ∈ local_locations, location.message_id = message_id → location.key ∈ authoritative_keys := by
  have hremoved : ∀ key, key ∈ (local_locations.map ImapMessageLocation.key).filter (fun key =>
      (key ∈ authoritative_keys || key ∈ absence_keys) && key.message_id = message_id) ↔
        ∃ location ∈ local_locations, location.message_id = message_id ∧ location.key = key := by
    intro key
    rw [List.mem_filter, List.mem_map]
    simp only [Bool.and_eq_true, Bool.or_eq_true, decide_eq_true_iff]
    constructor
    · rintro ⟨⟨location, hlocation, rfl⟩, _, hid⟩
      exact ⟨location, hlocation, hid, rfl⟩
    · rintro ⟨location, hlocation, hid, rfl⟩
      exact ⟨⟨location, hlocation, rfl⟩, List.mem_append.mp (hgone location hlocation hid), hid⟩
  unfold allAuthoritative
  simp only [Bool.and_eq_true, Bool.not_eq_true', List.isEmpty_eq_false_iff_exists_mem, List.all_eq_true,
    decide_eq_true_iff]
  constructor
  · rintro ⟨_, hall⟩ location hlocation hid
    exact hall location.key ((hremoved _).mpr ⟨location, hlocation, hid, rfl⟩)
  · intro hall
    obtain ⟨location, hlocation, hid⟩ := hknown
    refine ⟨⟨location.key, (hremoved _).mpr ⟨location, hlocation, hid, rfl⟩⟩, ?_⟩
    intro key hkey
    obtain ⟨other, hother, hotherId, rfl⟩ := (hremoved key).mp hkey
    exact hall other hother hotherId

end Messages

section Partition

/-- Deletions split by origin: the messages that lose a location and keep or gain none, each in one of the two lists,
    and in the first only if every location they lose is asserted. -/
structure Partitions (local_locations new_locations : List ImapMessageLocation)
    (authoritative_keys absence_keys : List ImapMessageLocationKey) (asserted inferred : List MessageId) : Prop where
  exact : ∀ message_id, message_id ∈ asserted ++ inferred ↔
    (∃ location ∈ local_locations, location.message_id = message_id ∧
        location.key ∈ authoritative_keys ++ absence_keys) ∧
      (∀ location ∈ local_locations, location.message_id = message_id →
        location.key ∈ authoritative_keys ++ absence_keys) ∧
      ∀ location ∈ new_locations, location.message_id ≠ message_id
  disjoint : ∀ message_id ∈ asserted, message_id ∉ inferred
  covered : ∀ message_id ∈ asserted, ∀ location ∈ local_locations, location.message_id = message_id →
    location.key ∈ authoritative_keys ++ absence_keys → location.key ∈ authoritative_keys

variable {local_locations new_locations : List ImapMessageLocation}
  {authoritative_keys absence_keys : List ImapMessageLocationKey} {message_id : MessageId}

theorem mem_partition {ids : List MessageId} :
    message_id ∈ (partition_deleted_message_ids_by_origin local_locations ids authoritative_keys absence_keys).1 ++
        (partition_deleted_message_ids_by_origin local_locations ids authoritative_keys absence_keys).2 ↔
      message_id ∈ ids := by
  unfold partition_deleted_message_ids_by_origin
  rw [List.mem_append, List.mem_filter, List.mem_filter]
  cases allAuthoritative local_locations authoritative_keys absence_keys message_id <;> simp

/-- Whatever known locations are removed, their messages are partitioned. -/
theorem partitions_of_removed
    (hknown : ∀ key ∈ authoritative_keys ++ absence_keys, key ∈ local_locations.map ImapMessageLocation.key) :
    Partitions local_locations new_locations authoritative_keys absence_keys
      (partition_deleted_message_ids_by_origin local_locations (deleted_message_ids_for_deleted_locations local_locations
        (authoritative_keys ++ absence_keys) new_locations) authoritative_keys absence_keys).1
      (partition_deleted_message_ids_by_origin local_locations (deleted_message_ids_for_deleted_locations local_locations
        (authoritative_keys ++ absence_keys) new_locations) authoritative_keys absence_keys).2 where
  exact message_id := by
    rw [mem_partition, mem_deleted_message_ids]
    refine and_congr_left fun _ => ?_
    constructor
    · rintro ⟨key, hkey, rfl⟩
      obtain ⟨location, hlocation, rfl⟩ := List.mem_map.mp (hknown key hkey)
      exact ⟨location, hlocation, rfl, hkey⟩
    · rintro ⟨location, _, rfl, hkey⟩
      exact ⟨location.key, hkey, rfl⟩
  disjoint message_id hasserted hinferred := by
    have hall := (List.mem_filter.mp hasserted).2
    have hnot := (List.mem_filter.mp hinferred).2
    rw [hall] at hnot
    cases hnot
  covered message_id hasserted location hlocation hid _ := by
    obtain ⟨hgone, hall⟩ := List.mem_filter.mp hasserted
    obtain ⟨_, hlost, _⟩ := mem_deleted_message_ids.mp hgone
    exact (allAuthoritative_iff ⟨location, hlocation, hid⟩ hlost).mp hall location hlocation hid

/-- A delta batch partitions its deletions; the first list rests on what the server asserted of a known location,
    the second on what a listing lacked. -/
theorem delta_deletions_partition (discovery : DiscoveredImapAccount) (headers : List ImapMappedHeader)
    (mailbox_states : List ImapMailboxSyncState) (local_locations : List ImapMessageLocation)
    (vanished_uids absence_uids : List UidIdentity) :
    let batch := imap_condstore_delta_sync_batch discovery headers mailbox_states local_locations vanished_uids
      absence_uids
    Partitions local_locations batch.imap_message_locations batch.deleted_imap_message_locations
        batch.absence_deleted_imap_message_locations batch.deleted_message_ids batch.absence_deleted_message_ids ∧
      (∀ key, key ∈ batch.deleted_imap_message_locations ↔ key ∈ local_locations.map ImapMessageLocation.key ∧
        (identityOf key ∈ vanished_uids ∨
          key.place ∈ (messages_and_locations_for_batch discovery headers).provider_absent_mailbox_ids_by_message)) ∧
      ∀ key, key ∈ batch.absence_deleted_imap_message_locations ↔
        key ∈ local_locations.map ImapMessageLocation.key ∧ identityOf key ∈ absence_uids ∧
          key ∉ batch.deleted_imap_message_locations := by
  refine ⟨partitions_of_removed fun key hkey => ?_, fun key => mem_authoritativeKeys, fun key => mem_absenceKeys⟩
  rcases List.mem_append.mp hkey with hauthoritative | habsence
  · exact (mem_authoritativeKeys.mp hauthoritative).1
  · exact (mem_absenceKeys.mp habsence).1

end Partition

end posthaste.imap
