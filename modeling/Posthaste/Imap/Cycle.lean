import Posthaste.Imap.Gateway
import Posthaste.Imap.Deletions

open posthaste.model posthaste.store

namespace posthaste.imap

namespace PlannedImapMailbox

variable (replies : ImapServerReplies) (mailbox : PlannedImapMailbox)

/-- The headers the reply of a mailbox brings. -/
def headers : List ImapMappedHeader :=
  match mailbox.plan with
  | .SkipUnchanged => []
  | .Sync (.FullSnapshot _) => (replies.fetch_mailbox_header_snapshot mailbox.id).headers
  | .Sync (.QresyncDelta ..) => (replies.fetch_mailbox_changed_since_snapshot mailbox.id).headers
  | .Sync (.CondstoreDelta ..) | .Sync (.FetchNewByUid _) => (replies.fetch_mailbox_uid_delta_snapshot mailbox.id).headers

/-- The removals the server asserts for it. -/
def vanished : List UidIdentity :=
  match mailbox.plan with
  | .Sync (.QresyncDelta ..) =>
    let snapshot := replies.fetch_mailbox_changed_since_snapshot mailbox.id
    if snapshot.is_full_snapshot then []
    else snapshot.vanished_uids.map fun uid => (mailbox.id, snapshot.selected.uid_validity, uid)
  | _ => []

/-- The known locations its listing lacks. -/
def unlisted : List UidIdentity :=
  match mailbox.plan with
  | .SkipUnchanged => []
  | .Sync (.FullSnapshot _) =>
    missing_location_identities mailbox.local_locations (replies.fetch_mailbox_header_snapshot mailbox.id).headers
  | .Sync (.QresyncDelta ..) =>
    let snapshot := replies.fetch_mailbox_changed_since_snapshot mailbox.id
    if snapshot.is_full_snapshot then missing_location_identities mailbox.local_locations snapshot.headers else []
  | .Sync (.CondstoreDelta ..) | .Sync (.FetchNewByUid _) =>
    missing_location_identities_from_uids mailbox.local_locations
      (replies.fetch_mailbox_uid_delta_snapshot mailbox.id).current_uids

end PlannedImapMailbox

section Accumulated

variable {replies : ImapServerReplies} {accumulator : SyncBatchAccumulator} {mailbox : PlannedImapMailbox}

/-- What an accumulator holds after the replies of some mailboxes, states apart. -/
structure Accumulates (replies : ImapServerReplies) (before : SyncBatchAccumulator)
    (mailboxes : List PlannedImapMailbox) (after : SyncBatchAccumulator) : Prop where
  headers : after.headers = before.headers ++ mailboxes.flatMap (·.headers replies)
  local_locations : after.local_locations = before.local_locations ++ mailboxes.flatMap (·.local_locations)
  vanished : after.vanished_deleted_uids = before.vanished_deleted_uids ++ mailboxes.flatMap (·.vanished replies)
  unlisted : after.absence_deleted_uids = before.absence_deleted_uids ++ mailboxes.flatMap (·.unlisted replies)

theorem execute_mailbox_plan_accumulates :
    Accumulates replies accumulator [mailbox] (execute_mailbox_plan replies accumulator mailbox) := by
  unfold execute_mailbox_plan
  cases hplan : mailbox.plan with
  | SkipUnchanged =>
    constructor <;> simp [PlannedImapMailbox.headers, PlannedImapMailbox.vanished, PlannedImapMailbox.unlisted, hplan,
      SyncBatchAccumulator.add_local_locations]
  | Sync plan =>
    cases plan with
    | FullSnapshot reason =>
      constructor <;> simp [PlannedImapMailbox.headers, PlannedImapMailbox.vanished, PlannedImapMailbox.unlisted, hplan,
        SyncBatchAccumulator.add_local_locations, SyncBatchAccumulator.add_absence_uid_identities,
        SyncBatchAccumulator.record_header_snapshot]
    | QresyncDelta uid_validity since_modseq after_uid =>
      by_cases hfull : (replies.fetch_mailbox_changed_since_snapshot mailbox.id).is_full_snapshot = true
      · constructor <;> simp [PlannedImapMailbox.headers, PlannedImapMailbox.vanished, PlannedImapMailbox.unlisted, hplan,
          SyncBatchAccumulator.add_local_locations, SyncBatchAccumulator.add_absence_uid_identities,
          SyncBatchAccumulator.record_changed_since_snapshot, hfull]
      · constructor <;> simp [PlannedImapMailbox.headers, PlannedImapMailbox.vanished, PlannedImapMailbox.unlisted, hplan,
          SyncBatchAccumulator.add_local_locations, SyncBatchAccumulator.add_vanished_uid_identities,
          SyncBatchAccumulator.record_changed_since_snapshot, hfull]
    | CondstoreDelta since_modseq after_uid =>
      constructor <;> simp [PlannedImapMailbox.headers, PlannedImapMailbox.vanished, PlannedImapMailbox.unlisted, hplan,
        SyncBatchAccumulator.add_local_locations, SyncBatchAccumulator.add_absence_uid_identities,
        SyncBatchAccumulator.record_uid_delta_snapshot]
    | FetchNewByUid after_uid =>
      constructor <;> simp [PlannedImapMailbox.headers, PlannedImapMailbox.vanished, PlannedImapMailbox.unlisted, hplan,
        SyncBatchAccumulator.add_local_locations, SyncBatchAccumulator.add_absence_uid_identities,
        SyncBatchAccumulator.record_uid_delta_snapshot]

theorem Accumulates.trans {before middle after : SyncBatchAccumulator} {first second : List PlannedImapMailbox}
    (hfirst : Accumulates replies before first middle) (hsecond : Accumulates replies middle second after) :
    Accumulates replies before (first ++ second) after where
  headers := by rw [hsecond.headers, hfirst.headers, List.flatMap_append, List.append_assoc]
  local_locations := by rw [hsecond.local_locations, hfirst.local_locations, List.flatMap_append, List.append_assoc]
  vanished := by rw [hsecond.vanished, hfirst.vanished, List.flatMap_append, List.append_assoc]
  unlisted := by rw [hsecond.unlisted, hfirst.unlisted, List.flatMap_append, List.append_assoc]

theorem foldl_execute_accumulates (mailboxes : List PlannedImapMailbox) :
    Accumulates replies accumulator mailboxes (mailboxes.foldl (execute_mailbox_plan replies) accumulator) := by
  induction mailboxes generalizing accumulator with
  | nil => constructor <;> simp
  | cons mailbox rest ih => exact execute_mailbox_plan_accumulates.trans ih

/-- The accumulated replies are those of the mailboxes, in their order. -/
theorem execute_mailbox_plans_accumulates (mailboxes : List PlannedImapMailbox) :
    Accumulates replies .empty mailboxes (execute_mailbox_plans replies mailboxes) := foldl_execute_accumulates mailboxes

/-- A planned mailbox asks for explicit deletions, or is listed in full. -/
theorem planned_explicit (plan : PlannedImapMailboxSync) :
    plan.requires_partial_delta_batch = true ∨ plan.is_full_snapshot = true := by
  cases plan with
  | SkipUnchanged => exact Or.inl rfl
  | Sync plan =>
    cases plan with
    | FullSnapshot reason => exact Or.inr rfl
    | _ => exact Or.inl rfl

theorem sound_headers : ∀ header ∈ mailbox.headers replies, header.Sound := by
  have hmapped : ∀ (selected : ImapSelectedMailbox) (fetched : List ImapFetchedHeader),
      ∀ header ∈ fetched.map (imap_header_message_record_with_gmail_metadata selected), header.Sound := by
    intro selected fetched header hheader
    obtain ⟨one, _, rfl⟩ := List.mem_map.mp hheader
    exact sound_mapped selected one
  unfold PlannedImapMailbox.headers
  cases mailbox.plan with
  | SkipUnchanged => exact fun header hheader => absurd hheader List.not_mem_nil
  | Sync plan => cases plan <;> exact hmapped _ _

end Accumulated

section Batches

variable {discovery : DiscoveredImapAccount} {headers : List ImapMappedHeader}

/-- Each record of a delta batch can be written. -/
theorem delta_writable {mailbox_states : List ImapMailboxSyncState} {local_locations : List ImapMessageLocation}
    {vanished absence : List UidIdentity} (hsound : ∀ header ∈ headers, header.Sound) :
    ∀ record ∈ (imap_condstore_delta_sync_batch discovery headers mailbox_states local_locations vanished absence).messages,
      record.mailbox_ids.Nodup ∧ record.keywords.Nodup := by
  intro record hrecord
  obtain ⟨original, horiginal, _, hkeywords, hmailboxes⟩ := mem_preserve hrecord
  obtain ⟨header, hheader, rfl⟩ := mem_projected_messages horiginal
  have hheaderSound := sound_project hsound hheader
  refine ⟨?_, hkeywords ▸ hheaderSound.keywords⟩
  rw [hmailboxes]
  split_ifs
  · exact hheaderSound.mailboxes
  · exact nodup_from_iter

theorem chunk_writable {state : ImapMailboxSyncState} (hsound : ∀ header ∈ headers, header.Sound) :
    ∀ record ∈ (imap_initial_snapshot_chunk_batch discovery headers state).messages,
      record.mailbox_ids.Nodup ∧ record.keywords.Nodup := by
  intro record hrecord
  obtain ⟨header, hheader, rfl⟩ := mem_projected_messages hrecord
  have hheaderSound := sound_project hsound hheader
  exact ⟨hheaderSound.mailboxes, hheaderSound.keywords⟩

end Batches

namespace StreamedCycle

variable {cycle : StreamedCycle}

/-- The batch of the mailboxes that are not streamed says where its deletions come from. -/
theorem restBatch_eq (hrest : cycle.rest ≠ []) :
    cycle.restBatch = imap_condstore_delta_sync_batch cycle.discovery (cycle.rest.flatMap (·.headers cycle.replies))
      (execute_mailbox_plans cycle.replies cycle.rest).mailbox_states (cycle.rest.flatMap (·.local_locations))
      (cycle.rest.flatMap (·.vanished cycle.replies)) (cycle.rest.flatMap (·.unlisted cycle.replies)) := by
  have haccumulated := @execute_mailbox_plans_accumulates cycle.replies cycle.rest
  obtain ⟨mailbox, hmailbox⟩ := List.exists_mem_of_ne_nil _ hrest
  have hexplicit : (cycle.rest.any (·.plan.requires_partial_delta_batch) ||
      !(execute_mailbox_plans cycle.replies cycle.rest).vanished_deleted_uids.isEmpty ||
      !(execute_mailbox_plans cycle.replies cycle.rest).absence_deleted_uids.isEmpty ||
      cycle.rest.any (·.plan.is_full_snapshot)) = true := by
    obtain hpartial | hfull := planned_explicit mailbox.plan
    · have hany : cycle.rest.any (·.plan.requires_partial_delta_batch) = true :=
        List.any_eq_true.mpr ⟨mailbox, hmailbox, hpartial⟩
      rw [hany]
      rfl
    · have hany : cycle.rest.any (·.plan.is_full_snapshot) = true := List.any_eq_true.mpr ⟨mailbox, hmailbox, hfull⟩
      rw [hany, Bool.or_true]
  unfold restBatch SyncBatchAccumulator.into_sync_batch
  rw [if_pos hexplicit, haccumulated.headers, haccumulated.local_locations, haccumulated.vanished, haccumulated.unlisted]
  simp only [SyncBatchAccumulator.empty, List.nil_append]

/-- A streamed batch is a chunk of headers of one selected mailbox. -/
theorem mem_streamChunks {discovery : DiscoveredImapAccount} {selected : ImapSelectedMailbox}
    {overall_highest : Option ImapUid} {fetch : List ImapUid → List ImapMappedHeader} {seen : List ImapModSeq}
    {chunks : List (List ImapUid)} {batch : ImapSyncBatch}
    (hmem : batch ∈ streamChunks discovery selected overall_highest fetch seen chunks) :
    ∃ headers state, batch = imap_initial_snapshot_chunk_batch discovery headers state ∧
      (headers = [] ∨ ∃ chunk ∈ chunks, headers = fetch chunk) := by
  induction chunks generalizing seen with
  | nil =>
    rw [streamChunks, List.mem_singleton] at hmem
    exact ⟨_, _, hmem, Or.inl rfl⟩
  | cons chunk rest ih =>
    cases rest with
    | nil =>
      rw [streamChunks, List.mem_singleton] at hmem
      exact ⟨_, _, hmem, Or.inr ⟨chunk, List.mem_cons_self, rfl⟩⟩
    | cons next rest =>
      rw [streamChunks] at hmem
      obtain rfl | hmem := List.mem_cons.mp hmem
      · exact ⟨_, _, rfl, Or.inr ⟨chunk, List.mem_cons_self, rfl⟩⟩
      · obtain ⟨headers, state, hbatch, hheaders⟩ := ih hmem
        refine ⟨headers, state, hbatch, hheaders.imp_right ?_⟩
        rintro ⟨other, hother, rfl⟩
        exact ⟨other, List.mem_cons_of_mem _ hother, rfl⟩

theorem mem_stream {discovery : DiscoveredImapAccount} {replies : ImapServerReplies} {mailbox : PlannedImapMailbox}
    {batch : ImapSyncBatch} (hmem : batch ∈ stream_initial_mailbox_snapshot discovery replies mailbox) :
    ∃ headers state, batch = imap_initial_snapshot_chunk_batch discovery headers state ∧
      (∀ header ∈ headers, header.Sound) ∧ ∀ header ∈ headers, header.location.mailbox_id = mailbox.id := by
  obtain ⟨headers, state, rfl, hheaders⟩ := mem_streamChunks hmem
  refine ⟨headers, state, rfl, ?_, ?_⟩
  · intro header hheader
    obtain rfl | ⟨chunk, _, rfl⟩ := hheaders
    · exact absurd hheader List.not_mem_nil
    · obtain ⟨fetched, _, rfl⟩ := List.mem_map.mp hheader
      exact sound_mapped _ fetched
  · intro header hheader
    obtain rfl | ⟨chunk, _, rfl⟩ := hheaders
    · exact absurd hheader List.not_mem_nil
    · obtain ⟨fetched, _, rfl⟩ := List.mem_map.mp hheader
      rfl

theorem mem_streamed {batch : ImapSyncBatch} (hmem : batch ∈ cycle.streamed) :
    ∃ headers state mailbox_id, batch = imap_initial_snapshot_chunk_batch cycle.discovery headers state ∧
      (∀ header ∈ headers, header.Sound) ∧ ∀ header ∈ headers, header.location.mailbox_id = mailbox_id := by
  obtain ⟨mailbox, _, hbatch⟩ := List.mem_flatMap.mp hmem
  obtain ⟨headers, state, heq, hsound, hselected⟩ := mem_stream hbatch
  exact ⟨headers, state, mailbox.id, heq, hsound, hselected⟩

end StreamedCycle

end posthaste.imap
