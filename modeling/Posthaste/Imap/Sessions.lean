import Posthaste.Imap.Server
import Posthaste.Library.Batches

open posthaste.model

namespace posthaste.imap

def UID_FETCH_CHUNK_SIZE : Nat := 128

/-- What the store holds of one mailbox: the recorded state, and for each location
    the keywords of its row. -/
structure LocalMailbox where
  state : Option ImapMailboxSyncState
  row : ImapUidValidity → ImapUid → Option (BTreeSet String)

def LocalMailbox.empty : LocalMailbox := ⟨none, fun _ _ => none⟩

/-- What one transaction does to a mailbox: the headers it upserts, the rows it drops
    unless a header brings them, and the state it records. -/
structure MailboxCommit where
  uid_validity : ImapUidValidity
  headers : List ImapFetchedHeader
  dropped : ImapUidValidity → ImapUid → Bool
  state : ImapMailboxSyncState

def MailboxCommit.brought (commit : MailboxCommit) (uid_validity : ImapUidValidity) (uid : ImapUid) :
    Option ImapFetchedHeader :=
  if uid_validity = commit.uid_validity then commit.headers.find? (·.uid = uid) else none

def LocalMailbox.apply (stored : LocalMailbox) (commit : MailboxCommit) : LocalMailbox where
  state := some commit.state
  row uid_validity uid :=
    match commit.brought uid_validity uid with
    | some header => some header.keywords
    | none => if commit.dropped uid_validity uid then none else stored.row uid_validity uid

section Fetching

variable (fetch_modseq : Bool)

/-- The headers of the chunks, each read from the mailbox as it is then. -/
def readChunks : List (List ImapUid) → List ServerMailbox → List ImapFetchedHeader
  | chunk :: chunks, server :: reads => server.fetch fetch_modseq chunk ++ readChunks chunks reads
  | _, _ => []

/-- The mailbox that is read for a UID. -/
def readOf : List (List ImapUid) → List ServerMailbox → ImapUid → Option ServerMailbox
  | chunk :: chunks, server :: reads, uid => if uid ∈ chunk then some server else readOf chunks reads uid
  | _, _, _ => none

/-- A chunk of an initial snapshot drops nothing. -/
def upsertCommit (selected : ImapSelectedMailbox) (headers : List ImapFetchedHeader) (state : ImapMailboxSyncState) :
    MailboxCommit where
  uid_validity := selected.uid_validity
  headers := headers
  dropped _ _ := false
  state := state

/-- The commits of the pending chunks. They end with the reads, when the connection does. -/
def streamCommits (selected : ImapSelectedMailbox) (overall_highest : Option ImapUid) :
    List ImapModSeq → List (List ImapUid) → List ServerMailbox → List MailboxCommit
  | seen, [], _ => [upsertCommit selected [] (finalized_state selected overall_highest seen.max?)]
  | _, _ :: _, [] => []
  | seen, [chunk], server :: _ =>
    [upsertCommit selected (server.fetch fetch_modseq chunk) (finalized_state selected overall_highest
      (seen ++ (server.fetch fetch_modseq chunk).filterMap (·.modseq)).max?)]
  | seen, chunk :: next :: rest, server :: reads =>
    upsertCommit selected (server.fetch fetch_modseq chunk) (partial_state selected chunk.max?) ::
      streamCommits selected overall_highest (seen ++ (server.fetch fetch_modseq chunk).filterMap (·.modseq))
        (next :: rest) reads

end Fetching

/-- How a mailbox is fetched, with the mailbox as each command finds it. `allowed` says
    whether the guard lets inferred removals apply. -/
inductive MailboxFetch where
  | stream (searched : ServerMailbox) (reads : List ServerMailbox)
  | full (searched : ServerMailbox) (reads : List ServerMailbox) (allowed : Bool)
  | qresync (fetched : ServerMailbox)
  | fallback (searched : ServerMailbox) (reads : List ServerMailbox) (allowed : Bool)
  | condstore (searched changed : ServerMailbox) (reads : List ServerMailbox) (allowed : Bool)

/-- What the commands find, in their order. -/
def MailboxFetch.found : MailboxFetch → List ServerMailbox
  | stream searched reads | full searched reads _ | fallback searched reads _ => searched :: reads
  | qresync fetched => [fetched]
  | condstore searched changed reads _ => searched :: changed :: reads

/-- The part of a cycle that is about one mailbox: it is examined for the plan, examined
    again to fetch, and fetched. -/
structure MailboxSync where
  mailbox_id : MailboxId
  capabilities : ImapCapabilities
  fetch_modseq : Bool
  planned : ServerMailbox
  planned_modseq : Bool
  examined : ServerMailbox
  examined_modseq : Bool
  fetch : MailboxFetch

namespace MailboxSync

variable (sync : MailboxSync) (stored : LocalMailbox)

def selected : ImapSelectedMailbox :=
  selected_mailbox_from_examine_state sync.mailbox_id (sync.examined.examine sync.examined_modseq)

def plan : ImapMailboxSyncPlan :=
  plan_imap_mailbox_sync sync.capabilities stored.state
    (selected_mailbox_from_examine_state sync.mailbox_id (sync.planned.examine sync.planned_modseq))

/-- The checkpoint of an interrupted initial snapshot. -/
def checkpoint : ImapUid := (stored.state.bind ImapMailboxSyncState.partial_initial_uid).getD 0

/-- The chunks an initial snapshot still has to fetch. -/
def pending (searched : ServerMailbox) : List (List ImapUid) :=
  (uids_above searched.undeleted (checkpoint stored)).toChunks INITIAL_SNAPSHOT_CHUNK_SIZE

/-- The chunks of a full listing. -/
def listed (searched : ServerMailbox) : List (List ImapUid) := searched.undeleted.toChunks UID_FETCH_CHUNK_SIZE

/-- The new UIDs that the changed headers lack. -/
def missed_new_uids (searched changed : ServerMailbox) (since_modseq : ImapModSeq) (after_uid : Option ImapUid) :
    List ImapUid :=
  (uids_above searched.undeleted (after_uid.getD 0)).filter
    (· ∉ (changed.changedSince since_modseq).map ImapFetchedHeader.uid)

def missed (searched changed : ServerMailbox) (since_modseq : ImapModSeq) (after_uid : Option ImapUid) :
    List (List ImapUid) :=
  (missed_new_uids searched changed since_modseq after_uid).toChunks UID_FETCH_CHUNK_SIZE

def mapped (headers : List ImapFetchedHeader) : List ImapMappedHeader :=
  headers.map (imap_header_message_record_with_gmail_metadata sync.selected)

/-- A commit that replaces the listing. Every location that no header brings is missing from it. -/
def listingCommit (headers : List ImapFetchedHeader) (allowed : Bool) (state : ImapMailboxSyncState) : MailboxCommit where
  uid_validity := sync.selected.uid_validity
  headers := headers
  dropped _ _ := allowed
  state := state

def snapshotState (headers : List ImapFetchedHeader) : ImapMailboxSyncState :=
  imap_mailbox_state_from_header_snapshot { selected := sync.selected, headers := sync.mapped headers }

def deltaState (state : ImapMailboxSyncState) (headers : List ImapFetchedHeader) (vanished_uids : List ImapUid)
    (is_full_snapshot : Bool) : ImapMailboxSyncState :=
  imap_mailbox_state_from_changed_since_snapshot state
    { selected := sync.selected, headers := sync.mapped headers, vanished_uids, is_full_snapshot }

/-- What is committed, by the plan. A listing that is not read to its end commits nothing. -/
def commits : List MailboxCommit :=
  match sync.plan stored, sync.fetch with
  | .FullSnapshot .InitialSync, .stream searched reads | .FullSnapshot .ResumeInitialSync, .stream searched reads =>
    streamCommits sync.fetch_modseq sync.selected searched.undeleted.max? [] (pending stored searched) reads
  | .FullSnapshot _, .full searched reads allowed =>
    let headers := readChunks sync.fetch_modseq (listed searched) reads
    if (listed searched).length ≤ reads.length then [sync.listingCommit headers allowed (sync.snapshotState headers)]
    else []
  | .QresyncDelta _ since_modseq _, .qresync fetched =>
    let headers := fetched.changedSince since_modseq
    let vanished_uids := fetched.vanishedSince since_modseq
    stored.state.toList.map fun state =>
      { uid_validity := sync.selected.uid_validity
        headers
        dropped := fun uid_validity uid => uid_validity = sync.selected.uid_validity && uid ∈ vanished_uids
        state := sync.deltaState state headers vanished_uids false }
  | .QresyncDelta .., .fallback searched reads allowed =>
    let headers := readChunks true (listed searched) reads
    if (listed searched).length ≤ reads.length then
      stored.state.toList.map fun state => sync.listingCommit headers allowed (sync.deltaState state headers [] true)
    else []
  | .CondstoreDelta since_modseq after_uid, .condstore searched changed reads allowed =>
    let chunks := missed searched changed since_modseq after_uid
    let headers := changed.changedSince since_modseq ++ readChunks true chunks reads
    if chunks.length ≤ reads.length then
      stored.state.toList.map fun state =>
        { uid_validity := sync.selected.uid_validity
          headers
          dropped := fun _ uid => allowed && uid ∉ searched.undeleted
          state := sync.deltaState state headers [] false }
    else []
  | _, _ => []

/-- The mailbox after the commits of a cycle. -/
def run : LocalMailbox := (sync.commits stored).foldl LocalMailbox.apply stored

/-- The mailbox as the last command finds it. -/
def closing : ServerMailbox := sync.fetch.found.getLastD sync.examined

end MailboxSync

/-- A header decides a row; else the row is dropped, or stays. -/
theorem LocalMailbox.row_apply (stored : LocalMailbox) (commit : MailboxCommit) (uid_validity : ImapUidValidity)
    (uid : ImapUid) : (stored.apply commit).row uid_validity uid =
      ((commit.brought uid_validity uid).map ImapFetchedHeader.keywords).or
        (if commit.dropped uid_validity uid then none else stored.row uid_validity uid) := by
  unfold LocalMailbox.apply
  simp only
  cases commit.brought uid_validity uid <;> rfl

theorem LocalMailbox.row_apply_selected (stored : LocalMailbox) (commit : MailboxCommit) (uid : ImapUid) :
    (stored.apply commit).row commit.uid_validity uid =
      ((commit.headers.find? (·.uid = uid)).map ImapFetchedHeader.keywords).or
        (if commit.dropped commit.uid_validity uid then none else stored.row commit.uid_validity uid) := by
  rw [row_apply, MailboxCommit.brought, if_pos rfl]

/-- Where there was no row and no header can be, there is none after. -/
theorem LocalMailbox.row_apply_of_none {stored : LocalMailbox} {commit : MailboxCommit} {uid_validity : ImapUidValidity}
    {uid : ImapUid} (hother : uid_validity ≠ commit.uid_validity) (hnone : stored.row uid_validity uid = none) :
    (stored.apply commit).row uid_validity uid = none := by
  rw [row_apply, MailboxCommit.brought, if_neg hother, hnone, ite_self]
  rfl

theorem find_eq_none_iff {headers : List ImapFetchedHeader} {uid : ImapUid} :
    headers.find? (·.uid = uid) = none ↔ uid ∉ headers.map ImapFetchedHeader.uid := by
  rw [List.find?_eq_none, List.mem_map, not_exists]
  apply forall_congr'
  intro header
  rw [decide_eq_true_iff, not_and]

section Reads

variable {fetch_modseq : Bool} {chunks : List (List ImapUid)} {reads : List ServerMailbox} {uid : ImapUid}
  {server : ServerMailbox}

theorem mem_of_readOf (hread : readOf chunks reads uid = some server) : uid ∈ chunks.flatten ∧ server ∈ reads := by
  induction chunks generalizing reads with
  | nil => cases hread
  | cons chunk rest ih =>
    cases reads with
    | nil => cases hread
    | cons first others =>
      rw [readOf] at hread
      rw [List.flatten_cons, List.mem_append, List.mem_cons]
      split_ifs at hread with hchunk
      · cases hread
        exact ⟨Or.inl hchunk, Or.inl rfl⟩
      · exact (ih hread).imp Or.inr Or.inr

/-- A listing that is read to its end has each of its UIDs read. -/
theorem exists_readOf (hcomplete : chunks.length ≤ reads.length) (hmem : uid ∈ chunks.flatten) :
    ∃ server, readOf chunks reads uid = some server := by
  induction chunks generalizing reads with
  | nil => exact absurd hmem List.not_mem_nil
  | cons chunk rest ih =>
    cases reads with
    | nil => exact absurd hcomplete (Nat.not_succ_le_zero _)
    | cons first others =>
      rw [readOf]
      split_ifs with hchunk
      · exact ⟨first, rfl⟩
      · rw [List.flatten_cons, List.mem_append] at hmem
        exact ih (Nat.le_of_succ_le_succ hcomplete) (hmem.resolve_left hchunk)

theorem readOf_eq_none (habsent : uid ∉ chunks.flatten) : readOf chunks reads uid = none :=
  Option.eq_none_iff_forall_ne_some.mpr fun _ hread => habsent (mem_of_readOf hread).1

/-- The header brought of a UID is what its read finds. -/
theorem find_readChunks (hnodup : chunks.flatten.Nodup) :
    (readChunks fetch_modseq chunks reads).find? (·.uid = uid) =
      (readOf chunks reads uid).bind fun server => (server.message uid).map (server.header fetch_modseq uid) := by
  induction chunks generalizing reads with
  | nil => rfl
  | cons chunk rest ih =>
    cases reads with
    | nil => rfl
    | cons first others =>
      rw [List.flatten_cons, List.nodup_append] at hnodup
      rw [readChunks, readOf, List.find?_append, find_fetch, ih hnodup.2.1]
      split_ifs with hchunk
      · have hrest : readOf rest others uid = none :=
          readOf_eq_none fun hmem => hnodup.2.2 uid hchunk uid hmem rfl
        rw [hrest, Option.bind_none, Option.or_none]
        rfl
      · rfl

theorem keywords_readChunks (hnodup : chunks.flatten.Nodup) :
    ((readChunks fetch_modseq chunks reads).find? (·.uid = uid)).map ImapFetchedHeader.keywords =
      (readOf chunks reads uid).bind fun server => (server.message uid).map ServerMessage.keywords := by
  rw [find_readChunks hnodup]
  cases readOf chunks reads uid with
  | none => rfl
  | some server =>
    rw [Option.bind_some, Option.map_map]
    rfl

theorem mem_readChunks {header : ImapFetchedHeader} (hmem : header ∈ readChunks fetch_modseq chunks reads) :
    ∃ server ∈ reads, ∃ chunk, header ∈ server.fetch fetch_modseq chunk := by
  induction chunks generalizing reads with
  | nil => exact absurd hmem List.not_mem_nil
  | cons chunk rest ih =>
    cases reads with
    | nil => exact absurd hmem List.not_mem_nil
    | cons first others =>
      obtain hfirst | hrest := List.mem_append.mp hmem
      · exact ⟨first, List.mem_cons_self, chunk, hfirst⟩
      · obtain ⟨server, hserver, hfound⟩ := ih hrest
        exact ⟨server, List.mem_cons_of_mem _ hserver, hfound⟩

end Reads

section Stream

variable {fetch_modseq : Bool} {selected : ImapSelectedMailbox} {overall_highest : Option ImapUid}
  {seen : List ImapModSeq} {chunks : List (List ImapUid)} {reads : List ServerMailbox} {stored : LocalMailbox}

theorem row_apply_upsertCommit (server : ServerMailbox) (chunk : List ImapUid) (state : ImapMailboxSyncState)
    (uid_validity : ImapUidValidity) (uid : ImapUid) :
    (stored.apply (upsertCommit selected (server.fetch fetch_modseq chunk) state)).row uid_validity uid =
      (if uid_validity = selected.uid_validity ∧ uid ∈ chunk then (server.message uid).map ServerMessage.keywords
        else none).or (stored.row uid_validity uid) := by
  rw [LocalMailbox.row_apply]
  unfold MailboxCommit.brought upsertCommit
  simp only [find_fetch]
  by_cases hselected : uid_validity = selected.uid_validity
  · by_cases hchunk : uid ∈ chunk
    · cases server.message uid <;> simp [hselected, hchunk, ServerMailbox.header]
    · simp [hselected, hchunk]
  · simp [hselected]

/-- The rows of a streamed snapshot are what their reads find. -/
theorem row_streamCommits (hnodup : chunks.flatten.Nodup) (uid_validity : ImapUidValidity) (uid : ImapUid) :
    ((streamCommits fetch_modseq selected overall_highest seen chunks reads).foldl LocalMailbox.apply stored).row
        uid_validity uid =
      (if uid_validity = selected.uid_validity then
        (readOf chunks reads uid).bind fun server => (server.message uid).map ServerMessage.keywords
        else none).or (stored.row uid_validity uid) := by
  induction chunks generalizing seen reads stored with
  | nil =>
    rw [streamCommits]
    unfold readOf
    simp [LocalMailbox.apply, MailboxCommit.brought, upsertCommit]
  | cons chunk rest ih =>
    cases reads with
    | nil =>
      rw [streamCommits]
      unfold readOf
      simp
    | cons server others =>
      rw [List.flatten_cons, List.nodup_append] at hnodup
      cases rest with
      | nil =>
        rw [streamCommits, List.foldl_cons, List.foldl_nil, row_apply_upsertCommit]
        unfold readOf
        by_cases hselected : uid_validity = selected.uid_validity
        · by_cases hchunk : uid ∈ chunk <;> simp [hselected, hchunk, readOf]
        · simp [hselected]
      | cons next rest =>
        rw [streamCommits, List.foldl_cons, ih hnodup.2.1, row_apply_upsertCommit, readOf]
        by_cases hselected : uid_validity = selected.uid_validity
        · by_cases hchunk : uid ∈ chunk
          · have hrest : readOf (next :: rest) others uid = none :=
              readOf_eq_none fun hmem => hnodup.2.2 uid hchunk uid hmem rfl
            simp [hselected, hchunk, hrest]
          · simp [hselected, hchunk]
        · simp [hselected]

/-- A snapshot read to its end records the completed state. -/
theorem state_streamCommits (hcomplete : chunks.length ≤ reads.length) :
    ((streamCommits fetch_modseq selected overall_highest seen chunks reads).foldl LocalMailbox.apply stored).state =
      some (finalized_state selected overall_highest
        (seen ++ (readChunks fetch_modseq chunks reads).filterMap (·.modseq)).max?) := by
  induction chunks generalizing seen reads stored with
  | nil =>
    rw [streamCommits, readChunks, List.filterMap_nil, List.append_nil]
    · rfl
    · intro chunk chunks server reads hnil
      cases hnil
  | cons chunk rest ih =>
    cases reads with
    | nil => exact absurd hcomplete (Nat.not_succ_le_zero _)
    | cons server others =>
      cases rest with
      | nil =>
        rw [streamCommits, readChunks]
        unfold readChunks
        simp [LocalMailbox.apply, upsertCommit]
      | cons next rest =>
        rw [streamCommits, List.foldl_cons, ih (Nat.le_of_succ_le_succ hcomplete), readChunks, List.filterMap_append,
          List.append_assoc]

/-- An interrupted one records a checkpoint that no row it brought passes. -/
theorem interrupted_streamCommits (hshort : reads.length < chunks.length) (hsorted : chunks.flatten.Pairwise (· < ·))
    (hfilled : ∀ chunk ∈ chunks, chunk ≠ []) :
    streamCommits fetch_modseq selected overall_highest seen chunks reads = [] ∧ reads = [] ∨
      ∃ checkpoint ∈ chunks.flatten,
        ((streamCommits fetch_modseq selected overall_highest seen chunks reads).foldl LocalMailbox.apply stored).state =
            some (partial_state selected (some checkpoint)) ∧
          ∀ uid server, readOf chunks reads uid = some server → uid ≤ checkpoint := by
  induction chunks generalizing seen reads stored with
  | nil => exact absurd hshort (Nat.not_lt_zero _)
  | cons chunk rest ih =>
    cases reads with
    | nil =>
      refine Or.inl ⟨?_, rfl⟩
      rw [streamCommits]
    | cons server others =>
      cases rest with
      | nil => exact absurd hshort (by simp)
      | cons next rest =>
        refine Or.inr ?_
        rw [List.flatten_cons, List.pairwise_append] at hsorted
        have hlater := fun chunk hmem => hfilled chunk (List.mem_cons_of_mem _ hmem)
        rw [streamCommits, List.foldl_cons, List.flatten_cons]
        obtain ⟨hnone, rfl⟩ | ⟨checkpoint, hmem, hstate, hbound⟩ := @ih
          (seen ++ (server.fetch fetch_modseq chunk).filterMap (·.modseq)) others
          (stored.apply (upsertCommit selected (server.fetch fetch_modseq chunk) (partial_state selected chunk.max?)))
          (Nat.lt_of_succ_lt_succ hshort) hsorted.2.1 hlater
        · obtain ⟨checkpoint, hmax⟩ := Option.isSome_iff_exists.mp
            (List.isSome_max?_of_ne_nil (hfilled chunk List.mem_cons_self))
          have hgreatest := List.max?_eq_some_iff.mp hmax
          refine ⟨checkpoint, List.mem_append_left _ hgreatest.1, ?_, ?_⟩
          · rw [hnone, ← hmax]
            rfl
          · intro uid found hread
            rw [readOf] at hread
            split_ifs at hread with hchunk
            · exact hgreatest.2 uid hchunk
            · cases hread
        · refine ⟨checkpoint, List.mem_append_right _ hmem, hstate, ?_⟩
          intro uid found hread
          rw [readOf] at hread
          split_ifs at hread with hchunk
          · exact (hsorted.2.2 uid hchunk checkpoint hmem).le
          · exact hbound uid found hread

end Stream

section States

variable {sync : MailboxSync} {state : ImapMailboxSyncState} {headers : List ImapFetchedHeader} {modseq : ImapModSeq}

theorem highest_modseq_recordHeaders {mapped : List ImapMappedHeader}
    (hmodseq : (mapped.foldl recordHeader state).highest_modseq = some modseq) :
    state.highest_modseq = some modseq ∨ ∃ header ∈ mapped, header.location.modseq = some modseq := by
  induction mapped generalizing state with
  | nil => exact Or.inl hmodseq
  | cons header rest ih =>
    obtain hbefore | ⟨other, hother, hseen⟩ := ih hmodseq
    · unfold recordHeader at hbefore
      cases hheader : header.location.modseq with
      | none =>
        rw [hheader] at hbefore
        exact Or.inl hbefore
      | some own =>
        rw [hheader] at hbefore
        unfold ImapMailboxSyncState.record_highest_modseq ImapMailboxSyncState.record_seen_uid at hbefore
        simp only [Option.some.injEq] at hbefore
        cases hstate : state.highest_modseq with
        | none =>
          rw [hstate] at hbefore
          refine Or.inr ⟨header, List.mem_cons_self, ?_⟩
          rw [hheader, ← hbefore]
          rfl
        | some earlier =>
          rw [hstate] at hbefore
          obtain hmax | hmax := max_choice earlier own
          · exact Or.inl (congrArg some (hmax.symm.trans hbefore))
          · refine Or.inr ⟨header, List.mem_cons_self, ?_⟩
            rw [hheader, ← hbefore]
            exact congrArg some hmax.symm
    · exact Or.inr ⟨other, List.mem_cons_of_mem _ hother, hseen⟩

theorem recordHeaders_keeps (mapped : List ImapMappedHeader) :
    (mapped.foldl recordHeader state).uid_validity = state.uid_validity ∧
      (mapped.foldl recordHeader state).partial_initial_uid = state.partial_initial_uid := by
  induction mapped generalizing state with
  | nil => exact ⟨rfl, rfl⟩
  | cons header rest ih =>
    rw [List.foldl_cons, ih.1, ih.2]
    unfold recordHeader
    cases header.location.modseq <;> exact ⟨rfl, rfl⟩

/-- A delta records the stored MODSEQ, that of a header, or that of the EXAMINE. -/
theorem highest_modseq_deltaState {vanished_uids : List ImapUid} {is_full_snapshot : Bool}
    (hmodseq : (sync.deltaState state headers vanished_uids is_full_snapshot).highest_modseq = some modseq) :
    (state.highest_modseq = some modseq ∨ ∃ header ∈ headers, header.modseq = some modseq) ∨
      modseq = sync.examined.highest_modseq := by
  have hseen : ∀ {modseq : ImapModSeq}, ((sync.mapped headers).foldl recordHeader
      { state with mailbox_id := sync.selected.mailbox_id, uid_validity := sync.selected.uid_validity }).highest_modseq =
        some modseq → state.highest_modseq = some modseq ∨ ∃ header ∈ headers, header.modseq = some modseq := by
    intro modseq hfold
    obtain hstate | ⟨mapped, hmapped, hheader⟩ := highest_modseq_recordHeaders hfold
    · exact Or.inl hstate
    · obtain ⟨header, hmem, rfl⟩ := List.mem_map.mp hmapped
      exact Or.inr ⟨header, hmem, hheader⟩
  unfold MailboxSync.deltaState imap_mailbox_state_from_changed_since_snapshot at hmodseq
  simp only at hmodseq
  cases hexamined : sync.selected.highest_modseq with
  | none =>
    rw [hexamined] at hmodseq
    exact Or.inl (hseen hmodseq)
  | some highest =>
    have hhighest : highest = sync.examined.highest_modseq := by
      unfold MailboxSync.selected ServerMailbox.examine at hexamined
      simp only [selected_mailbox_from_examine_state] at hexamined
      split_ifs at hexamined
      exact (Option.some.inj hexamined).symm
    rw [hexamined] at hmodseq
    unfold ImapMailboxSyncState.record_highest_modseq at hmodseq
    simp only [Option.some.injEq] at hmodseq
    cases hfold : ((sync.mapped headers).foldl recordHeader
        { state with mailbox_id := sync.selected.mailbox_id, uid_validity := sync.selected.uid_validity }).highest_modseq with
    | none =>
      rw [hfold] at hmodseq
      exact Or.inr (hmodseq.symm.trans hhighest)
    | some earlier =>
      rw [hfold] at hmodseq
      obtain hmax | hmax := max_choice earlier highest
      · refine Or.inl (hseen ?_)
        rw [hfold, ← hmodseq]
        exact congrArg some hmax.symm
      · exact Or.inr ((hmodseq.symm.trans hmax).trans hhighest)

theorem deltaState_keeps (vanished_uids : List ImapUid) (is_full_snapshot : Bool) :
    (sync.deltaState state headers vanished_uids is_full_snapshot).uid_validity = sync.examined.uid_validity ∧
      (sync.deltaState state headers vanished_uids is_full_snapshot).partial_initial_uid = state.partial_initial_uid := by
  have hkeeps := @recordHeaders_keeps { state with
    mailbox_id := sync.selected.mailbox_id, uid_validity := sync.selected.uid_validity } (sync.mapped headers)
  unfold MailboxSync.deltaState imap_mailbox_state_from_changed_since_snapshot
  simp only
  cases sync.selected.highest_modseq <;> exact hkeeps

/-- A listing records the MODSEQ of the EXAMINE, or else that of a header. -/
theorem highest_modseq_or {modseqs : List ImapModSeq}
    (hmodseq : (sync.selected.highest_modseq <|> modseqs.max?) = some modseq) :
    sync.examined_modseq = true ∧ modseq = sync.examined.highest_modseq ∨
      sync.examined_modseq = false ∧ modseq ∈ modseqs := by
  unfold MailboxSync.selected ServerMailbox.examine at hmodseq
  simp only [selected_mailbox_from_examine_state] at hmodseq
  cases hreported : sync.examined_modseq with
  | false =>
    rw [hreported] at hmodseq
    exact Or.inr ⟨rfl, (List.max?_eq_some_iff.mp hmodseq).1⟩
  | true =>
    rw [hreported] at hmodseq
    exact Or.inl ⟨rfl, (Option.some.inj hmodseq).symm⟩

end States

end posthaste.imap
