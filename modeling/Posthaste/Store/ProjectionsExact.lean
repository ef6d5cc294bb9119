import Posthaste.Library.Transition
import Posthaste.Store.ProjectionRefresh

open posthaste.model

namespace posthaste.store

/-- The batches and final passes of any account, in any order. -/
inductive SyncWrite where
  | apply_sync_batch (account_id : AccountId) (batch : SyncBatch)
  | reconcile_sync (account_id : AccountId) (reconciliation : SyncReconciliation)

namespace ProjectedStore

def empty : ProjectedStore where
  message := .empty
  conversation_message := []
  thread_view _ := none
  conversation _ := none

def write (sha256 : ByteArray → ByteArray) (store : ProjectedStore) : SyncWrite → Option ProjectedStore
  | .apply_sync_batch account_id batch => (store.apply_sync_batch sha256 account_id batch).toOption
  | .reconcile_sync account_id reconciliation => some (store.reconcile_sync account_id reconciliation)

def projections (sha256 : ByteArray → ByteArray) : TransitionSystem ProjectedStore SyncWrite :=
  .ofFunction (· = empty) (write sha256)

/-- A row exactly when a message has the thread id, that lists exactly those messages. -/
structure ThreadExact (store : ProjectedStore) (account_id : AccountId) (thread_id : ThreadId) : Prop where
  present : (store.thread_view (account_id, thread_id)).isSome ↔
    ∃ row ∈ store.message.rows, row.account_id = account_id ∧ row.thread_id = thread_id
  lists : ∀ email_ids, store.thread_view (account_id, thread_id) = some email_ids →
    email_ids.Perm ((store.threadRows account_id thread_id).map ProjectedRow.id)

/-- A row exactly when a message is linked, with the counts and the latest of those messages. -/
structure ConversationExact (store : ProjectedStore) (conversation_id : ConversationId) : Prop where
  present : (store.conversation conversation_id).isSome ↔
    ∃ row ∈ store.message.rows, ⟨conversation_id, row.account_id, row.id⟩ ∈ store.conversation_message
  message_count : ∀ summary, store.conversation conversation_id = some summary →
    summary.message_count = (store.linkedRows conversation_id).length
  unread_count : ∀ summary, store.conversation conversation_id = some summary →
    summary.unread_count = ((store.linkedRows conversation_id).filter fun row => !row.is_read).length
  latest : ∀ summary, store.conversation conversation_id = some summary →
    ∃ latest ∈ store.linkedRows conversation_id,
      summary.latest_source_id = latest.account_id ∧ summary.latest_message_id = latest.id ∧
        summary.latest_received_at = latest.received_at ∧
        ∀ row ∈ store.linkedRows conversation_id, row.received_at ≤ latest.received_at

structure Exact (store : ProjectedStore) : Prop where
  threads : ∀ account_id thread_id, store.ThreadExact account_id thread_id
  conversations : ∀ conversation_id, store.ConversationExact conversation_id

/-- A thread that an upsert takes a message out of is among the collected keys. -/
def CollectsThreadsLeft (store : ProjectedStore) : SyncWrite → Prop
  | .apply_sync_batch account_id batch =>
    ∀ record ∈ batch.messages, ∀ row ∈ store.message.rows, row.key = (account_id, record.id) →
      row.thread_id ∈ batch.messages.map MessageRecord.source_thread_id ∨
        ∃ removed ∈ store.message.rows, removed.account_id = account_id ∧
          removed.id ∈ store.removals account_id batch ∧ removed.thread_id = row.thread_id
  | .reconcile_sync .. => True

section Derived

variable {store : ProjectedStore}

theorem threadExact_of_synced (hsynced : threadPlane.Synced store) (account_id : AccountId) (thread_id : ThreadId) :
    store.ThreadExact account_id thread_id := by
  have hview : store.thread_view (account_id, thread_id) = store.listed (account_id, thread_id) :=
    (Option.some.inj (hsynced (account_id, thread_id))).symm
  have hperm : (store.threadListing account_id thread_id).Perm
      ((store.threadRows account_id thread_id).map ProjectedRow.id) :=
    (List.mergeSort_perm _ _).map _
  have hpresent : store.threadListing account_id thread_id ≠ [] ↔
      ∃ row ∈ store.message.rows, row.account_id = account_id ∧ row.thread_id = thread_id := by
    rw [← List.length_pos_iff, hperm.length_eq, List.length_map, List.length_pos_iff_exists_mem]
    simp only [threadRows, List.mem_filter, Bool.and_eq_true, decide_eq_true_eq]
  unfold listed at hview
  by_cases hempty : store.threadListing account_id thread_id = []
  · have hnone : store.thread_view (account_id, thread_id) = none := by
      rw [hview, hempty]
      rfl
    refine ⟨?_, fun email_ids hlisted => ?_⟩
    · rw [hnone, ← hpresent]
      exact iff_of_false Bool.false_ne_true fun hne => hne hempty
    · rw [hnone] at hlisted
      cases hlisted
  · have hsome : store.thread_view (account_id, thread_id) = some (store.threadListing account_id thread_id) := by
      rw [hview]
      exact if_neg fun hisEmpty => hempty (List.isEmpty_iff.1 hisEmpty)
    refine ⟨?_, fun email_ids hlisted => ?_⟩
    · rw [hsome, ← hpresent]
      exact iff_of_true rfl hempty
    · rw [hsome] at hlisted
      cases hlisted
      exact hperm

theorem pairwise_newestLinked (conversation_id : ConversationId) :
    (store.newestLinked conversation_id).Pairwise fun first second => second.received_at ≤ first.received_at := by
  unfold newestLinked
  refine (List.pairwise_mergeSort ?_ ?_ _).imp fun hle => ?_
  · intro first second third hfirst hsecond
    exact decide_eq_true ((of_decide_eq_true hsecond).trans (of_decide_eq_true hfirst))
  · intro first second
    rw [Bool.or_eq_true, decide_eq_true_eq, decide_eq_true_eq]
    exact le_total _ _
  · exact Prod.Lex.monotone_fst _ _ (of_decide_eq_true hle)

theorem conversationExact_of_synced (hsynced : conversationPlane.Synced store) (conversation_id : ConversationId) :
    store.ConversationExact conversation_id := by
  have hview : store.conversation conversation_id = summarize (store.newestLinked conversation_id) :=
    (Option.some.inj (hsynced conversation_id)).symm
  have hperm : (store.newestLinked conversation_id).Perm (store.linkedRows conversation_id) := List.mergeSort_perm _ _
  have hsorted := store.pairwise_newestLinked conversation_id
  have hlinked : (∃ row, row ∈ store.linkedRows conversation_id) ↔
      ∃ row ∈ store.message.rows, ⟨conversation_id, row.account_id, row.id⟩ ∈ store.conversation_message := by
    simp only [linkedRows, List.mem_filter, decide_eq_true_eq]
  cases hrows : store.newestLinked conversation_id with
  | nil =>
    rw [hrows] at hview hperm
    have hnone : ∀ summary, store.conversation conversation_id ≠ some summary := by
      rw [hview]
      exact fun summary hsome => nomatch hsome
    refine ⟨?_, fun summary hsome => absurd hsome (hnone summary), fun summary hsome => absurd hsome (hnone summary),
      fun summary hsome => absurd hsome (hnone summary)⟩
    rw [hview, ← hlinked, hperm.symm.eq_nil]
    exact iff_of_false Bool.false_ne_true fun ⟨row, hrow⟩ => List.not_mem_nil hrow
  | cons latest rest =>
    rw [hrows] at hview hperm hsorted
    have hlatest : latest ∈ store.linkedRows conversation_id := hperm.subset List.mem_cons_self
    refine ⟨?_, ?_, ?_, ?_⟩
    · rw [hview, ← hlinked]
      exact iff_of_true rfl ⟨latest, hlatest⟩
    all_goals
      intro summary hsome
      rw [hview] at hsome
      cases hsome
    · exact hperm.length_eq
    · exact (hperm.filter _).length_eq
    · refine ⟨latest, hlatest, rfl, rfl, rfl, fun row hrow => ?_⟩
      obtain rfl | hrest := List.mem_cons.1 (hperm.symm.subset hrow)
      · exact le_rfl
      · exact List.rel_of_pairwise_cons hsorted hrest

end Derived

section Writes

variable {sha256 : ByteArray → ByteArray} {store after : ProjectedStore} {account_id : AccountId}

/-- What the writes so far have left: everything served is derived, but for the threads left. -/
structure Maintained (store : ProjectedStore) : Prop where
  threads : threadPlane.Synced store
  conversations : conversationPlane.Synced store
  linked : store.Linked

theorem Maintained.exact (hmaintained : store.Maintained) : store.Exact :=
  ⟨threadExact_of_synced hmaintained.threads, conversationExact_of_synced hmaintained.conversations⟩

theorem maintained_empty : empty.Maintained where
  threads key := by simp [DerivedPlane.SyncedAt, threadPlane, listed, threadListing, threadRows, empty, Table.empty]
  conversations key := by
    simp [DerivedPlane.SyncedAt, conversationPlane, newestLinked, linkedRows, summarize, empty, Table.empty]
  linked row hrow := absurd hrow List.not_mem_nil

theorem apply_sync_batch_ok {batch : SyncBatch} (happly : store.apply_sync_batch sha256 account_id batch = .ok after) :
    let removed := deleteMessages account_id (store.removals account_id batch) store ⟨[], []⟩
    let applied := applyMessages sha256 account_id batch.messages removed.1 removed.2
    after = applied.1.refresh account_id applied.2 := by
  unfold apply_sync_batch at happly
  split_ifs at happly
  exact (Except.ok.inj happly).symm

/-- A batch keeps the projections derived when it collects the threads it takes messages out of. -/
theorem apply_sync_batch_maintained {batch : SyncBatch} (hmaintained : store.Maintained)
    (hcollects : store.CollectsThreadsLeft (.apply_sync_batch account_id batch))
    (happly : store.apply_sync_batch sha256 account_id batch = .ok after) : after.Maintained := by
  obtain rfl := apply_sync_batch_ok happly
  let removed := deleteMessages account_id (store.removals account_id batch) store ⟨[], []⟩
  let left : ThreadId → Prop := fun thread_id => ∃ record ∈ batch.messages, ∃ row ∈ store.message.rows,
    row.key = (account_id, record.id) ∧ row.thread_id = thread_id
  obtain ⟨hremoved, -⟩ := @deleteMessages_tracks account_id store ⟨[], []⟩ (store.removals account_id batch)
    hmaintained.linked
  obtain ⟨happlied, hgrows⟩ := @applyMessages_tracks account_id removed.1 removed.2 sha256 left batch.messages
    hremoved.linked fun record hrecord row hrow hkey =>
      .inr ⟨record, hrecord, row, (deleteMessages_rows.1 hrow).1, hkey, rfl⟩
  have htracks := (hremoved.widen left).trans happlied hgrows
  refine ⟨refresh_threads_synced htracks hmaintained.threads ?_,
    refresh_conversations_synced htracks hmaintained.conversations, refresh_linked htracks.linked⟩
  rintro _ ⟨record, hrecord, row, hrow, hkey, rfl⟩
  rw [applyMessages_threads, List.mem_append]
  obtain hnamed | ⟨gone, hgone, haccount, hid, hthread⟩ := hcollects record hrecord row hrow hkey
  · exact .inr hnamed
  · exact .inl (deleteMessages_threads.2 (.inr ⟨gone, hgone, haccount, hid, hthread⟩))

theorem reconcile_sync_maintained {reconciliation : SyncReconciliation} (hmaintained : store.Maintained) :
    (store.reconcile_sync account_id reconciliation).Maintained := by
  have htracks := fun message_ids =>
    (@deleteMessages_tracks account_id store ⟨[], []⟩ message_ids hmaintained.linked).1
  exact ⟨refresh_threads_synced (htracks _) hmaintained.threads fun _ hleft => hleft.elim,
    refresh_conversations_synced (htracks _) hmaintained.conversations, refresh_linked (htracks _).linked⟩

theorem write_maintained {action : SyncWrite} (hmaintained : store.Maintained)
    (hcollects : store.CollectsThreadsLeft action) (hwrite : write sha256 store action = some after) :
    after.Maintained := by
  cases action with
  | apply_sync_batch account_id batch =>
    cases happly : store.apply_sync_batch sha256 account_id batch with
    | error error => rw [write, happly] at hwrite; cases hwrite
    | ok applied =>
      rw [write, happly] at hwrite
      cases hwrite
      exact apply_sync_batch_maintained hmaintained hcollects happly
  | reconcile_sync account_id reconciliation =>
    cases hwrite
    exact reconcile_sync_maintained hmaintained

/-- A thread left uncollected keeps the listing it had. -/
theorem collects_of_exact {batch : SyncBatch} (hmaintained : store.Maintained) (hexact : after.Exact)
    (happly : store.apply_sync_batch sha256 account_id batch = .ok after) :
    store.CollectsThreadsLeft (.apply_sync_batch account_id batch) := by
  intro record hrecord row hrow hkey
  by_contra hmissed
  obtain ⟨hunnamed, hkept⟩ := not_or.1 hmissed
  obtain rfl := apply_sync_batch_ok happly
  let removed := deleteMessages account_id (store.removals account_id batch) store ⟨[], []⟩
  let applied := applyMessages sha256 account_id batch.messages removed.1 removed.2
  have haccount : row.account_id = account_id := congrArg Prod.fst hkey
  have huncollected : row.thread_id ∉ applied.2.threads := by
    rw [applyMessages_threads, List.mem_append, deleteMessages_threads]
    rintro ((hmem | ⟨gone, hgone, hof, hid, hthread⟩) | hnamed)
    · exact List.not_mem_nil hmem
    · exact hkept ⟨gone, hgone, hof, hid, hthread⟩
    · exact hunnamed hnamed
  have hview : (applied.1.refresh account_id applied.2).thread_view (account_id, row.thread_id) =
      store.thread_view (account_id, row.thread_id) := by
    obtain ⟨hremoved, -⟩ := @deleteMessages_tracks account_id store ⟨[], []⟩ (store.removals account_id batch)
      hmaintained.linked
    obtain ⟨happlied, -⟩ := @applyMessages_tracks account_id removed.1 removed.2 sha256 (fun _ => True) batch.messages
      hremoved.linked fun _ _ _ _ _ => .inr trivial
    rw [refresh_eq]
    refine (if_neg fun hcollected => huncollected hcollected.2).trans ?_
    rw [happlied.thread_view, hremoved.thread_view]
  have hbefore := threadExact_of_synced hmaintained.threads account_id row.thread_id
  obtain ⟨email_ids, hlisted⟩ := Option.isSome_iff_exists.1 (hbefore.present.2 ⟨row, hrow, haccount, rfl⟩)
  have hold : row.id ∈ email_ids := by
    refine (hbefore.lists email_ids hlisted).symm.subset (List.mem_map_of_mem ?_)
    simp [threadRows, hrow, haccount]
  have hnew := ((hexact.threads account_id row.thread_id).lists email_ids (hview.trans hlisted)).subset hold
  obtain ⟨stored, hstored, hid⟩ := List.mem_map.1 hnew
  rw [refresh_eq] at hstored
  simp only [threadRows, List.mem_filter, Bool.and_eq_true, decide_eq_true_eq] at hstored
  obtain ⟨hmem, hof, hthread⟩ := hstored
  have hsame : stored.key = (account_id, record.id) := by
    rw [← hkey]
    exact Prod.ext (hof.trans haccount.symm) hid
  -- the batch names the thread it leaves the message in
  obtain ⟨-, hother⟩ | ⟨later, hlater, -, hnamed⟩ := applyMessages_rows hmem
  · exact hother record hrecord hsame
  · exact hunnamed (List.mem_map.2 ⟨later, hlater, hnamed.symm.trans hthread⟩)

end Writes

/-- In every run that collects the threads it takes messages out of the
    projections are exact, and the first write that leaves one uncollected makes them inexact. -/
theorem projections_are_exact_iff {sha256 : ByteArray → ByteArray} {store : ProjectedStore}
    (hreach : (projections sha256).Reachable CollectsThreadsLeft store) :
    store.Exact ∧ ∀ action after, write sha256 store action = some after →
      (after.Exact ↔ store.CollectsThreadsLeft action) := by
  have hmaintained : store.Maintained := hreach.invariant (fun _ hstart => hstart ▸ maintained_empty)
    fun _ _ _ hmaintained hcollects hwrite => write_maintained hmaintained hcollects hwrite
  refine ⟨hmaintained.exact, fun action after hwrite => ⟨fun hexact => ?_, fun hcollects => ?_⟩⟩
  · cases action with
    | apply_sync_batch account_id batch =>
      cases happly : store.apply_sync_batch sha256 account_id batch with
      | error error => rw [write, happly] at hwrite; cases hwrite
      | ok applied =>
        rw [write, happly] at hwrite
        cases hwrite
        exact collects_of_exact hmaintained hexact happly
    | reconcile_sync account_id reconciliation => trivial
  · exact (write_maintained hmaintained hcollects hwrite).exact

/-- A batch of one message in the thread. -/
def messageIn (thread_id : ThreadId) : SyncBatch :=
  { (default : SyncBatch) with
    messages := [{ (default : MessageRecord) with id := "m1", source_thread_id := thread_id }] }

/-- The store that has received the message in its first thread. -/
def received : ProjectedStore :=
  let applied := applyMessages id "a1" (messageIn "t1").messages empty ⟨[], []⟩
  applied.1.refresh "a1" applied.2

theorem removals_messageIn (store : ProjectedStore) (thread_id : ThreadId) :
    store.removals "a1" (messageIn thread_id) = [] := by
  simp only [removals, messageIn, default, batchDeletions, Bool.false_eq_true, if_false, List.nil_append, ite_self]
  rfl

theorem apply_messageIn (store : ProjectedStore) (thread_id : ThreadId) :
    let applied := applyMessages id "a1" (messageIn thread_id).messages store ⟨[], []⟩
    store.apply_sync_batch id "a1" (messageIn thread_id) = .ok (applied.1.refresh "a1" applied.2) := by
  have hunique : ∀ record ∈ (messageIn thread_id).messages, record.mailbox_ids.Nodup ∧ record.keywords.Nodup := by
    simp [messageIn, default]
  simp only [apply_sync_batch, removals_messageIn, if_pos hunique]
  rfl

theorem write_messageIn (store : ProjectedStore) (thread_id : ThreadId) :
    let applied := applyMessages id "a1" (messageIn thread_id).messages store ⟨[], []⟩
    write id store (.apply_sync_batch "a1" (messageIn thread_id)) = some (applied.1.refresh "a1" applied.2) :=
  congrArg Except.toOption (apply_messageIn store thread_id)

theorem collects_messageIn : empty.CollectsThreadsLeft (.apply_sync_batch "a1" (messageIn "t1")) :=
  fun _ _ _ hrow => absurd hrow List.not_mem_nil

theorem received_reachable : (projections id).Reachable CollectsThreadsLeft received :=
  .next (.start rfl) collects_messageIn (write_messageIn empty "t1")

theorem received_row : ∃ row ∈ received.message.rows, row.key = ("a1", "m1") ∧ row.thread_id = "t1" := by
  unfold received
  rw [refresh_eq]
  exact ⟨_, Table.mem_put.2 (.inl rfl), rfl, rfl⟩

theorem received_is_exact : received.Exact ∧ ∀ action after, write id received action = some after →
    (after.Exact ↔ received.CollectsThreadsLeft action) :=
  projections_are_exact_iff received_reachable

/-- A message that moves to another thread stays listed in the one it left. -/
theorem left_thread_is_still_listed :
    ¬ ∀ (sha256 : ByteArray → ByteArray) (store : ProjectedStore),
      (projections sha256).Reachable TransitionSystem.unguarded store → store.Exact := by
  intro hclaim
  have hexact := hclaim id _ (.next received_reachable.forget trivial (write_messageIn received "t2"))
  have hmaintained := write_maintained maintained_empty collects_messageIn (write_messageIn empty "t1")
  obtain ⟨row, hrow, hkey, hthread⟩ := received_row
  obtain hnamed | ⟨removed, _, _, hid, _⟩ :=
    collects_of_exact hmaintained hexact (apply_messageIn received "t2") _ List.mem_cons_self row hrow hkey
  · have hsame : row.thread_id = "t2" := List.mem_singleton.1 hnamed
    rw [hthread] at hsame
    exact absurd hsame (by decide)
  · rw [removals_messageIn] at hid
    exact List.not_mem_nil hid

end ProjectedStore

end posthaste.store
