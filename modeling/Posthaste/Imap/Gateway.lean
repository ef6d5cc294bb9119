import Posthaste.Imap.Batches

open posthaste.model posthaste.store

namespace posthaste.imap

section Planning

/-- The STATUS reply of a mailbox. -/
structure ImapMailboxStatus where
  messages : Option Nat
  uid_validity : Option ImapUidValidity
  highest_modseq : Option ImapModSeq

inductive PlannedImapMailboxSync where
  | SkipUnchanged
  | Sync (plan : ImapMailboxSyncPlan)

structure PlannedImapMailbox where
  id : MailboxId
  stored_state : Option ImapMailboxSyncState
  local_locations : List ImapMessageLocation
  plan : PlannedImapMailboxSync

def mailbox_status_proves_unchanged (stored : ImapMailboxSyncState) (local_message_count : Nat)
    (status : ImapMailboxStatus) : Bool :=
  status.uid_validity = some stored.uid_validity && status.messages = some local_message_count &&
    stored.highest_modseq.isSome && status.highest_modseq = stored.highest_modseq

/-- The strongest sync mode the stored state and the server allow. No provider requires a full sync. -/
def plan_imap_mailbox_sync (capabilities : ImapCapabilities) (stored : Option ImapMailboxSyncState)
    (selected : ImapSelectedMailbox) : ImapMailboxSyncPlan :=
  match stored with
  | none => .FullSnapshot .InitialSync
  | some stored =>
    if !stored.is_valid_for selected.uid_validity then .FullSnapshot .UidValidityChanged
    else if stored.partial_initial_uid.isSome then .FullSnapshot .ResumeInitialSync
    else
      let fallback : ImapMailboxSyncPlan :=
        .FullSnapshot (if stored.highest_uid.isSome then .FlagDeltaUnavailable else .MissingUidWatermark)
      match stored.highest_modseq, selected.highest_modseq with
      | some since_modseq, some _ =>
        if capabilities.supports_qresync && capabilities.supports_enable then
          .QresyncDelta selected.uid_validity since_modseq stored.highest_uid
        else if capabilities.supports_condstore then .CondstoreDelta since_modseq stored.highest_uid
        else fallback
      | _, _ => fallback

/-- What the server says when a mailbox is examined. -/
structure ExamineState where
  uid_validity : ImapUidValidity
  uid_next : Option ImapUid
  highest_modseq : Option ImapModSeq

/-- The mailbox id comes from the name that was examined. -/
def selected_mailbox_from_examine_state (mailbox_id : MailboxId) (state : ExamineState) : ImapSelectedMailbox where
  mailbox_id := mailbox_id
  uid_validity := state.uid_validity
  uid_next := state.uid_next
  highest_modseq := state.highest_modseq

/-- What the server answers in one cycle. Each fetch examines its mailbox anew. -/
structure ImapServerReplies where
  status : MailboxId → ImapMailboxStatus
  examined : MailboxId → ExamineState
  /-- The answer to a full header fetch. -/
  header_snapshot : MailboxId → ExamineState × List ImapFetchedHeader
  /-- The answer to a QRESYNC fetch: headers, vanished UIDs, and whether it fell back to a full listing. -/
  changed_since : MailboxId → ExamineState × List ImapFetchedHeader × List ImapUid × Bool
  /-- The answer to a UID delta: new or changed headers and the current UIDs. -/
  uid_delta : MailboxId → ExamineState × List ImapFetchedHeader × List ImapUid
  /-- The UID search of a streamed snapshot. -/
  uid_search : MailboxId → ExamineState × List ImapUid
  /-- The headers of one chunk of UIDs. -/
  header_chunk : MailboxId → List ImapUid → List ImapFetchedHeader

structure ImapMailboxHeaderSnapshot where
  selected : ImapSelectedMailbox
  headers : List ImapMappedHeader

structure ImapChangedSinceSnapshot where
  selected : ImapSelectedMailbox
  headers : List ImapMappedHeader
  vanished_uids : List ImapUid
  is_full_snapshot : Bool

structure ImapMailboxUidDeltaSnapshot where
  selected : ImapSelectedMailbox
  headers : List ImapMappedHeader
  current_uids : List ImapUid

namespace ImapServerReplies

variable (replies : ImapServerReplies) (mailbox_id : MailboxId)

def examine_selected_mailbox : ImapSelectedMailbox :=
  selected_mailbox_from_examine_state mailbox_id (replies.examined mailbox_id)

/-- The mailbox examined, and its undeleted UIDs in order. -/
def search_undeleted_uids : ImapSelectedMailbox × List ImapUid :=
  (selected_mailbox_from_examine_state mailbox_id (replies.uid_search mailbox_id).1,
    (BTreeSet.from_iter (replies.uid_search mailbox_id).2).toList)

def fetch_mailbox_header_snapshot : ImapMailboxHeaderSnapshot :=
  let selected := selected_mailbox_from_examine_state mailbox_id (replies.header_snapshot mailbox_id).1
  { selected
    headers := (replies.header_snapshot mailbox_id).2.map (imap_header_message_record_with_gmail_metadata selected) }

def fetch_mailbox_changed_since_snapshot : ImapChangedSinceSnapshot :=
  let selected := selected_mailbox_from_examine_state mailbox_id (replies.changed_since mailbox_id).1
  { selected
    headers := (replies.changed_since mailbox_id).2.1.map (imap_header_message_record_with_gmail_metadata selected)
    vanished_uids := (replies.changed_since mailbox_id).2.2.1
    is_full_snapshot := (replies.changed_since mailbox_id).2.2.2 }

/-- The delta of a CONDSTORE fetch or of a fetch of the new UIDs. -/
def fetch_mailbox_uid_delta_snapshot : ImapMailboxUidDeltaSnapshot :=
  let selected := selected_mailbox_from_examine_state mailbox_id (replies.uid_delta mailbox_id).1
  { selected
    headers := (replies.uid_delta mailbox_id).2.1.map (imap_header_message_record_with_gmail_metadata selected)
    current_uids := (replies.uid_delta mailbox_id).2.2 }

def fetch_header_chunk (selected : ImapSelectedMailbox) (chunk : List ImapUid) : List ImapMappedHeader :=
  (replies.header_chunk mailbox_id chunk).map (imap_header_message_record_with_gmail_metadata selected)

end ImapServerReplies

def plan_mailbox (store : ImapStore) (capabilities : ImapCapabilities) (replies : ImapServerReplies)
    (mailbox : DiscoveredImapMailbox) : PlannedImapMailbox :=
  let stored_state := store.mailbox_state.find mailbox.id
  let local_locations := store.location.rows.filter (·.mailbox_id = mailbox.id)
  let unchanged := stored_state.any fun stored =>
    mailbox_status_proves_unchanged stored local_locations.length (replies.status mailbox.id)
  { id := mailbox.id
    stored_state
    local_locations
    plan := if unchanged then .SkipUnchanged
      else .Sync (plan_imap_mailbox_sync capabilities stored_state (replies.examine_selected_mailbox mailbox.id)) }

def plan_mailboxes (store : ImapStore) (discovery : DiscoveredImapAccount) (replies : ImapServerReplies) :
    List PlannedImapMailbox :=
  (discovery.mailboxes.filter (·.selectable)).map (plan_mailbox store discovery.capabilities replies)

def PlannedImapMailboxSync.requires_partial_delta_batch : PlannedImapMailboxSync → Bool
  | SkipUnchanged | Sync (.QresyncDelta ..) | Sync (.CondstoreDelta ..) | Sync (.FetchNewByUid ..) => true
  | Sync (.FullSnapshot _) => false

def PlannedImapMailboxSync.is_full_snapshot : PlannedImapMailboxSync → Bool
  | Sync (.FullSnapshot _) => true
  | _ => false

def is_streaming_initial_snapshot (mailbox : PlannedImapMailbox) : Bool :=
  match mailbox.plan with
  | .Sync (.FullSnapshot .InitialSync) | .Sync (.FullSnapshot .ResumeInitialSync) => true
  | _ => false

end Planning

section Accumulator

structure SyncBatchAccumulator where
  headers : List ImapMappedHeader
  local_locations : List ImapMessageLocation
  mailbox_states : List ImapMailboxSyncState
  vanished_deleted_uids : List UidIdentity
  absence_deleted_uids : List UidIdentity

def SyncBatchAccumulator.empty : SyncBatchAccumulator := ⟨[], [], [], [], []⟩

def location_identity (location : ImapMessageLocation) : UidIdentity :=
  (location.mailbox_id, location.uid_validity, location.uid)

def missing_location_identities (local_locations : List ImapMessageLocation) (remote_headers : List ImapMappedHeader) :
    List UidIdentity :=
  (local_locations.map location_identity).filter fun identity =>
    identity ∉ remote_headers.map fun header => location_identity header.location

def missing_location_identities_from_uids (local_locations : List ImapMessageLocation) (remote_uids : List ImapUid) :
    List UidIdentity :=
  (local_locations.filter (·.uid ∉ remote_uids)).map location_identity

def imap_mailbox_state_from_header_snapshot (snapshot : ImapMailboxHeaderSnapshot) : ImapMailboxSyncState where
  mailbox_id := snapshot.selected.mailbox_id
  uid_validity := snapshot.selected.uid_validity
  highest_uid := (snapshot.headers.map (·.location.uid)).max?
  highest_modseq := snapshot.selected.highest_modseq <|> (snapshot.headers.filterMap (·.location.modseq)).max?
  partial_initial_uid := none

/-- Record what one header says about the watermarks. -/
def recordHeader (state : ImapMailboxSyncState) (header : ImapMappedHeader) : ImapMailboxSyncState :=
  match header.location.modseq with
  | some modseq => (state.record_seen_uid header.location.uid).record_highest_modseq modseq
  | none => state.record_seen_uid header.location.uid

def imap_mailbox_state_from_changed_since_snapshot (stored : ImapMailboxSyncState)
    (snapshot : ImapChangedSinceSnapshot) : ImapMailboxSyncState :=
  let seen := snapshot.headers.foldl recordHeader
    { stored with mailbox_id := snapshot.selected.mailbox_id, uid_validity := snapshot.selected.uid_validity }
  match snapshot.selected.highest_modseq with
  | some highest_modseq => seen.record_highest_modseq highest_modseq
  | none => seen

namespace SyncBatchAccumulator

variable (accumulator : SyncBatchAccumulator) (mailbox : PlannedImapMailbox)

def add_local_locations (locations : List ImapMessageLocation) : SyncBatchAccumulator :=
  { accumulator with local_locations := accumulator.local_locations ++ locations }

/-- Removals the server asserted. -/
def add_vanished_uid_identities (identities : List UidIdentity) : SyncBatchAccumulator :=
  { accumulator with vanished_deleted_uids := accumulator.vanished_deleted_uids ++ identities }

/-- Removals inferred from a listing. -/
def add_absence_uid_identities (identities : List UidIdentity) : SyncBatchAccumulator :=
  { accumulator with absence_deleted_uids := accumulator.absence_deleted_uids ++ identities }

def record_header_snapshot (snapshot : ImapMailboxHeaderSnapshot) : SyncBatchAccumulator :=
  { accumulator with
    mailbox_states := accumulator.mailbox_states ++ [imap_mailbox_state_from_header_snapshot snapshot]
    headers := accumulator.headers ++ snapshot.headers }

def record_changed_since_snapshot (snapshot : ImapChangedSinceSnapshot) : SyncBatchAccumulator :=
  let recorded := { accumulator with
    mailbox_states := accumulator.mailbox_states ++ mailbox.stored_state.toList.map fun stored =>
      imap_mailbox_state_from_changed_since_snapshot stored snapshot
    headers := accumulator.headers ++ snapshot.headers }
  if snapshot.is_full_snapshot then
    recorded.add_absence_uid_identities (missing_location_identities mailbox.local_locations snapshot.headers)
  else
    recorded.add_vanished_uid_identities
      (snapshot.vanished_uids.map fun uid => (mailbox.id, snapshot.selected.uid_validity, uid))

def record_uid_delta_snapshot (snapshot : ImapMailboxUidDeltaSnapshot) : SyncBatchAccumulator :=
  let recorded := { accumulator with
    mailbox_states := accumulator.mailbox_states ++ mailbox.stored_state.toList.map fun stored =>
      imap_mailbox_state_from_changed_since_snapshot stored
        { selected := snapshot.selected, headers := snapshot.headers, vanished_uids := [], is_full_snapshot := false }
    headers := accumulator.headers ++ snapshot.headers }
  recorded.add_absence_uid_identities
    (missing_location_identities_from_uids mailbox.local_locations snapshot.current_uids)

end SyncBatchAccumulator

/-- Fetch one mailbox by its plan and add what it says. -/
def execute_mailbox_plan (replies : ImapServerReplies) (accumulator : SyncBatchAccumulator)
    (mailbox : PlannedImapMailbox) : SyncBatchAccumulator :=
  let known := accumulator.add_local_locations mailbox.local_locations
  match mailbox.plan with
  | .SkipUnchanged => known
  | .Sync (.FullSnapshot _) =>
    let snapshot := replies.fetch_mailbox_header_snapshot mailbox.id
    (known.add_absence_uid_identities
      (missing_location_identities mailbox.local_locations snapshot.headers)).record_header_snapshot snapshot
  | .Sync (.QresyncDelta ..) =>
    known.record_changed_since_snapshot mailbox (replies.fetch_mailbox_changed_since_snapshot mailbox.id)
  | .Sync (.CondstoreDelta ..) | .Sync (.FetchNewByUid _) =>
    known.record_uid_delta_snapshot mailbox (replies.fetch_mailbox_uid_delta_snapshot mailbox.id)

def execute_mailbox_plans (replies : ImapServerReplies) (planned_mailboxes : List PlannedImapMailbox) :
    SyncBatchAccumulator :=
  planned_mailboxes.foldl (execute_mailbox_plan replies) .empty

/-- The one batch of the accumulated mailboxes, for a gateway that has a store. -/
def SyncBatchAccumulator.into_sync_batch (accumulator : SyncBatchAccumulator) (discovery : DiscoveredImapAccount)
    (requires_partial_delta_batch has_full_mailbox_snapshot : Bool) : ImapSyncBatch :=
  if requires_partial_delta_batch || !accumulator.vanished_deleted_uids.isEmpty ||
      !accumulator.absence_deleted_uids.isEmpty || has_full_mailbox_snapshot then
    imap_condstore_delta_sync_batch discovery accumulator.headers accumulator.mailbox_states accumulator.local_locations
      accumulator.vanished_deleted_uids accumulator.absence_deleted_uids
  else
    imap_delta_sync_batch discovery accumulator.headers accumulator.mailbox_states accumulator.local_locations

end Accumulator

section Streaming

def INITIAL_SNAPSHOT_CHUNK_SIZE : Nat := 128

def uids_above (uids : List ImapUid) (after_uid : ImapUid) : List ImapUid := uids.filter (after_uid < ·)

def partial_state (selected : ImapSelectedMailbox) (checkpoint : Option ImapUid) : ImapMailboxSyncState where
  mailbox_id := selected.mailbox_id
  uid_validity := selected.uid_validity
  highest_uid := none
  highest_modseq := none
  partial_initial_uid := checkpoint

def finalized_state (selected : ImapSelectedMailbox) (highest_uid : Option ImapUid)
    (highest_modseq_seen : Option ImapModSeq) : ImapMailboxSyncState where
  mailbox_id := selected.mailbox_id
  uid_validity := selected.uid_validity
  highest_uid := highest_uid
  highest_modseq := selected.highest_modseq <|> highest_modseq_seen
  partial_initial_uid := none

/-- The batches of the pending chunks: checkpoints, and the completed state with the last. -/
def streamChunks (discovery : DiscoveredImapAccount) (selected : ImapSelectedMailbox) (overall_highest : Option ImapUid)
    (fetch : List ImapUid → List ImapMappedHeader) : List ImapModSeq → List (List ImapUid) → List ImapSyncBatch
  | seen, [] => [imap_initial_snapshot_chunk_batch discovery [] (finalized_state selected overall_highest seen.max?)]
  | seen, [chunk] =>
    let headers := fetch chunk
    [imap_initial_snapshot_chunk_batch discovery headers
      (finalized_state selected overall_highest (seen ++ headers.filterMap (·.location.modseq)).max?)]
  | seen, chunk :: next :: rest =>
    let headers := fetch chunk
    imap_initial_snapshot_chunk_batch discovery headers (partial_state selected chunk.max?) ::
      streamChunks discovery selected overall_highest fetch (seen ++ headers.filterMap (·.location.modseq)) (next :: rest)

/-- Fetch the part of an initial snapshot that is not committed yet, chunk by chunk. -/
def stream_initial_mailbox_snapshot (discovery : DiscoveredImapAccount) (replies : ImapServerReplies)
    (mailbox : PlannedImapMailbox) : List ImapSyncBatch :=
  let after_uid := (mailbox.stored_state.bind ImapMailboxSyncState.partial_initial_uid).getD 0
  let selected := (replies.search_undeleted_uids mailbox.id).1
  let all_uids := (replies.search_undeleted_uids mailbox.id).2
  let pending := uids_above all_uids after_uid
  streamChunks discovery selected all_uids.max? (replies.fetch_header_chunk mailbox.id selected) []
    (pending.toChunks INITIAL_SNAPSHOT_CHUNK_SIZE)

/-- One streamed cycle: what it found at planning time, and the server's answers. -/
structure StreamedCycle where
  store : ImapStore
  discovery : DiscoveredImapAccount
  replies : ImapServerReplies

namespace StreamedCycle

variable (cycle : StreamedCycle)

def initial : List PlannedImapMailbox :=
  (plan_mailboxes cycle.store cycle.discovery cycle.replies).filter is_streaming_initial_snapshot

/-- The mailboxes that are not streamed. -/
def rest : List PlannedImapMailbox :=
  (plan_mailboxes cycle.store cycle.discovery cycle.replies).filter (!is_streaming_initial_snapshot ·)

def restBatch : ImapSyncBatch :=
  (execute_mailbox_plans cycle.replies cycle.rest).into_sync_batch cycle.discovery
    (cycle.rest.any (·.plan.requires_partial_delta_batch)) (cycle.rest.any (·.plan.is_full_snapshot))

/-- The batch of the mailboxes that are not streamed, without the mailbox set that went before. -/
def restOnly : ImapSyncBatch := { cycle.restBatch with mailboxes := [], replace_all_mailboxes := false }

def streamed : List ImapSyncBatch :=
  cycle.initial.flatMap (stream_initial_mailbox_snapshot cycle.discovery cycle.replies)

/-- The batches of the cycle, in the order they are emitted. -/
def batches : List ImapSyncBatch :=
  if cycle.initial.isEmpty then [cycle.restBatch]
  else
    imap_mailbox_sync_batch cycle.discovery :: cycle.streamed ++
      if cycle.rest.isEmpty then []
      else [cycle.restOnly]

end StreamedCycle

end Streaming

end posthaste.imap
