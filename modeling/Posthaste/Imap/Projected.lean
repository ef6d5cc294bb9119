import Posthaste.Imap.Batches

open posthaste.model posthaste.store

namespace posthaste.imap

/-- A header whose location names its message and its mailbox, with a record the store can write. -/
structure ImapMappedHeader.Sound (header : ImapMappedHeader) : Prop where
  named : header.location.message_id = header.message.id
  listed : header.location.mailbox_id ∈ header.message.mailbox_ids
  mailboxes : header.message.mailbox_ids.Nodup
  keywords : header.message.keywords.Nodup

theorem nodup_from_iter {values : List String} : (BTreeSet.from_iter values).toList.Nodup := (BTreeSet.sorted _).nodup

theorem mem_toList_from_iter {values : List String} {value : String} :
    value ∈ (BTreeSet.from_iter values).toList ↔ value ∈ values := BTreeSet.mem_from_iter

section Headers

variable {discovery : DiscoveredImapAccount} {headers group : List ImapMappedHeader} {header : ImapMappedHeader}

theorem sound_mapped (selected : ImapSelectedMailbox) (fetched : ImapFetchedHeader) :
    (imap_header_message_record_with_gmail_metadata selected fetched).Sound where
  named := rfl
  listed := List.mem_singleton_self _
  mailboxes := List.nodup_singleton _
  keywords := (BTreeSet.sorted _).nodup

theorem sound_projectLabels (mailboxes : List DiscoveredImapMailbox) (labels : List GmailLabel)
    (hsound : header.Sound) : (projectLabels mailboxes header labels).Sound where
  named := hsound.named
  listed := mem_toList_from_iter.mpr List.mem_cons_self
  mailboxes := nodup_from_iter
  keywords := nodup_from_iter

theorem sound_canonicalize (mailboxes : List DiscoveredImapMailbox) (hsound : header.Sound) :
    (canonicalize mailboxes header).Sound := by
  have hrenamed : (underCanonicalId header).Sound :=
    { named := rfl, listed := hsound.listed, mailboxes := hsound.mailboxes, keywords := hsound.keywords }
  unfold canonicalize
  cases hlabels : header.gmail_labels with
  | none => exact hrenamed
  | some labels => exact sound_projectLabels mailboxes labels hrenamed

/-- The headers of a group carry one record, under the id of the group. -/
theorem mem_intoHeaders {id : MessageId} (hsound : ∀ other ∈ group, other.Sound)
    (hid : ∀ other ∈ group, other.message.id = id) (hmem : header ∈ intoHeaders group) :
    header.Sound ∧ header.message.id = id ∧ ∀ other ∈ intoHeaders group, other.message = header.message := by
  cases group with
  | nil => exact absurd hmem List.not_mem_nil
  | cons first rest =>
    unfold intoHeaders at hmem ⊢
    simp only at hmem ⊢
    obtain ⟨member, hmember, rfl⟩ := List.mem_map.mp hmem
    refine ⟨⟨?_, ?_, nodup_from_iter, nodup_from_iter⟩, hid first List.mem_cons_self, ?_⟩
    · rw [(hsound member hmember).named, hid member hmember, hid first List.mem_cons_self]
    · exact mem_toList_from_iter.mpr (List.mem_flatMap.mpr ⟨member, hmember, (hsound member hmember).listed⟩)
    · intro other hother
      obtain ⟨_, _, rfl⟩ := List.mem_map.mp hother
      rfl

theorem mem_groupHeaders (hsound : ∀ other ∈ headers, other.Sound) (hmem : header ∈ groupHeaders headers) :
    header.Sound ∧ ∀ other ∈ groupHeaders headers, other.message.id = header.message.id → other.message = header.message := by
  have hgroup : ∀ {id : MessageId} {member : ImapMappedHeader}, member ∈ intoHeaders (headers.filter (·.message.id = id)) →
      member.Sound ∧ member.message.id = id ∧
        ∀ other ∈ intoHeaders (headers.filter (·.message.id = id)), other.message = member.message := by
    intro id member hmember
    refine mem_intoHeaders (fun other hother => hsound other (List.mem_filter.mp hother).1) ?_ hmember
    exact fun other hother => of_decide_eq_true (List.mem_filter.mp hother).2
  unfold groupHeaders at hmem ⊢
  obtain ⟨id, _, hheader⟩ := List.mem_flatMap.mp hmem
  obtain ⟨hheaderSound, hheaderId, hshared⟩ := hgroup hheader
  refine ⟨hheaderSound, fun other hother hsame => ?_⟩
  obtain ⟨otherId, _, hotherGroup⟩ := List.mem_flatMap.mp hother
  have hotherId := (hgroup hotherGroup).2.1
  rw [show otherId = id by rw [← hotherId, hsame, hheaderId]] at hotherGroup
  exact hshared other hotherGroup

theorem sound_canonicalized (mailboxes : List DiscoveredImapMailbox) (hsound : ∀ other ∈ headers, other.Sound) :
    ∀ other ∈ headers.map (canonicalize mailboxes), other.Sound := by
  intro other hother
  obtain ⟨original, horiginal, rfl⟩ := List.mem_map.mp hother
  exact sound_canonicalize mailboxes (hsound original horiginal)

theorem sound_project (hsound : ∀ other ∈ headers, other.Sound) (hmem : header ∈ project_imap_headers discovery headers) :
    header.Sound := by
  unfold project_imap_headers at hmem
  split_ifs at hmem with hgmail
  · exact (mem_groupHeaders (sound_canonicalized discovery.mailboxes hsound) hmem).1
  · exact hsound header hmem

/-- Projection leaves a header in its mailbox. -/
theorem mailbox_project (hmem : header ∈ project_imap_headers discovery headers) :
    ∃ original ∈ headers, original.location.mailbox_id = header.location.mailbox_id := by
  unfold project_imap_headers at hmem
  split_ifs at hmem with hgmail
  · obtain ⟨id, _, hgroup⟩ := List.mem_flatMap.mp hmem
    obtain ⟨member, hmember, hlocation⟩ : ∃ member ∈ headers.map (canonicalize discovery.mailboxes),
        member.location = header.location := by
      unfold intoHeaders at hgroup
      split at hgroup
      · exact absurd hgroup List.not_mem_nil
      · obtain ⟨member, hmember, rfl⟩ := List.mem_map.mp hgroup
        exact ⟨member, (List.mem_filter.mp hmember).1, rfl⟩
    obtain ⟨original, horiginal, rfl⟩ := List.mem_map.mp hmember
    refine ⟨original, horiginal, ?_⟩
    rw [← hlocation]
    unfold canonicalize
    split <;> rfl
  · exact ⟨header, hmem, rfl⟩

/-- The headers of one message, or of one mailbox, list each other's mailboxes. -/
theorem project_shared {mailbox_id : MailboxId} (hsound : ∀ other ∈ headers, other.Sound)
    (hselected : ∀ other ∈ headers, other.location.mailbox_id = mailbox_id)
    (hmem : header ∈ project_imap_headers discovery headers) {other : ImapMappedHeader}
    (hother : other ∈ project_imap_headers discovery headers) (hsame : other.message.id = header.message.id) :
    header.location.mailbox_id ∈ other.message.mailbox_ids := by
  have hheader := sound_project hsound hmem
  unfold project_imap_headers at hmem hother
  split_ifs at hmem hother with hgmail
  · rw [(mem_groupHeaders (sound_canonicalized discovery.mailboxes hsound) hmem).2 other hother hsame]
    exact hheader.listed
  · rw [hselected header hmem, ← hselected other hother]
    exact (hsound other hother).listed

end Headers

section Projected

variable {headers : List ImapMappedHeader} {record : MessageRecord}

theorem mem_projected_messages (hmem : record ∈ (messages_and_locations_from_headers headers).messages) :
    ∃ header ∈ headers, header.message = record := by
  unfold messages_and_locations_from_headers at hmem
  obtain ⟨id, _, hfound⟩ := List.mem_filterMap.mp hmem
  obtain ⟨header, hheader, rfl⟩ := Option.map_eq_some_iff.mp hfound
  exact ⟨header, List.mem_of_find?_eq_some hheader, rfl⟩

/-- Every header has its record in the batch. -/
theorem projected_record {header : ImapMappedHeader} (hmem : header ∈ headers) :
    ∃ found ∈ (messages_and_locations_from_headers headers).messages, found.id = header.message.id := by
  cases hfound : headers.find? (·.message.id = header.message.id) with
  | none => exact absurd rfl (of_decide_eq_false (Bool.eq_false_iff.mpr (List.find?_eq_none.mp hfound header hmem)))
  | some found =>
    refine ⟨found.message, ?_, by simpa using List.find?_some hfound⟩
    unfold messages_and_locations_from_headers
    refine List.mem_filterMap.mpr ⟨header.message.id, mem_toList_from_iter.mpr (List.mem_map_of_mem hmem), ?_⟩
    rw [hfound]
    rfl

/-- A batch has one record for each message. -/
theorem projected_ids_nodup : ((messages_and_locations_from_headers headers).messages.map MessageRecord.id).Nodup := by
  have hids : (messages_and_locations_from_headers headers).messages.map MessageRecord.id =
      (BTreeSet.from_iter (headers.map (·.message.id))).toList.filter fun id =>
        (headers.find? (·.message.id = id)).isSome := by
    unfold messages_and_locations_from_headers
    simp only
    generalize (BTreeSet.from_iter (headers.map (·.message.id))).toList = ids
    induction ids with
    | nil => rfl
    | cons id rest ih =>
      cases hfound : headers.find? (·.message.id = id) with
      | none => simpa [hfound] using ih
      | some found =>
        have hid : found.message.id = id := by simpa using List.find?_some hfound
        simpa [hfound, hid] using ih
  rw [hids]
  exact nodup_from_iter.filter _

end Projected

section Preserved

variable {messages : List MessageRecord} {local_locations new_locations : List ImapMessageLocation}
  {deleted_locations : List ImapMessageLocationKey} {absent : List (MessageId × MailboxId)}

/-- A record of a delta is a projected one, with the mailboxes of its remaining locations. -/
theorem mem_preserve {record : MessageRecord}
    (hmem : record ∈ preserve_delta_mailboxes_from_locations messages local_locations deleted_locations new_locations absent) :
    ∃ original ∈ messages, original.id = record.id ∧ original.keywords = record.keywords ∧
      record.mailbox_ids =
        if (remainingMailboxes local_locations deleted_locations new_locations absent original.id).isEmpty then
          original.mailbox_ids
        else (BTreeSet.from_iter
          (remainingMailboxes local_locations deleted_locations new_locations absent original.id)).toList := by
  unfold preserve_delta_mailboxes_from_locations at hmem
  obtain ⟨original, horiginal, rfl⟩ := List.mem_map.mp hmem
  refine ⟨original, horiginal, ?_⟩
  simp only
  split_ifs <;> exact ⟨rfl, rfl, rfl⟩

theorem preserve_ids : (preserve_delta_mailboxes_from_locations messages local_locations deleted_locations new_locations
    absent).map MessageRecord.id = messages.map MessageRecord.id := by
  unfold preserve_delta_mailboxes_from_locations
  rw [List.map_map]
  apply List.map_congr_left
  intro message _
  simp only [Function.comp_apply]
  split_ifs <;> rfl

end Preserved

end posthaste.imap
