import Posthaste.Store.Rows
import Posthaste.Service.Sweep

open posthaste.model posthaste.store

namespace posthaste.service

/-- The rows that the replay of a chunk re-derives from the base it leaves. -/
def rederivedRows (applied : DatabaseStore) (batch : SyncBatch) : List MessageId :=
  (inventory applied).filter (· ∈ writtenRows batch)

/-- A chunk changes a message when its base row, memberships included, is another. -/
def Changes (store applied : DatabaseStore) (message_id : MessageId) : Prop :=
  applied.message.lookup message_id ≠ store.message.lookup message_id

/-- All that an emitted chunk does after it is applied is to re-derive rows, and these
    are all the rows of the inventory that it changed. -/
def ReplayCovers (store : DatabaseStore) (batch : SyncBatch) : Prop :=
  ∀ applied, store.apply_sync_batch batch = .ok applied →
    (emit batch).run store = (refreshAll (rederivedRows applied batch)).run applied ∧
      ∀ message_id ∈ inventory applied, Changes store applied message_id → message_id ∈ rederivedRows applied batch

/-- The mailboxes a chunk takes from every message: pruned by absence, or deleted. -/
def takenMailboxes (store : DatabaseStore) (batch : SyncBatch) : List MailboxId :=
  (if batch.replace_all_mailboxes then store.prunedMailboxes (batch.mailboxes.map Mailbox.id) else []) ++
    batch.deleted_mailbox_ids

/-- The messages a chunk prunes by absence. -/
def takenMessages (store : DatabaseStore) (batch : SyncBatch) : List MessageId :=
  if batch.replace_all_messages then store.prunedMessages (batch.messages.map MessageRecord.id) else []

/-- A chunk takes a stored message away, or a mailbox that holds it. -/
def Takes (store : DatabaseStore) (batch : SyncBatch) (message_id : MessageId) : Prop :=
  ∃ row, store.message.lookup message_id = some row ∧
    (message_id ∈ takenMessages store batch ∨ ∃ mailbox_id ∈ takenMailboxes store batch, mailbox_id ∈ row.mailbox_ids)

section Emitted

variable {store applied after : DatabaseStore} {batch : SyncBatch} {message_id : MessageId}

theorem run_emit (happly : store.apply_sync_batch batch = .ok applied) :
    (emit batch).run store = (refreshAll (rederivedRows applied batch)).run applied := by
  unfold emit
  rw [effects.run_bind_of_ok (run_applyBatch_of_ok happly)]
  unfold replay_base_write
  by_cases hnone : (writtenRows batch).isEmpty
  · have hrows : rederivedRows applied batch = [] := by
      unfold rederivedRows
      rw [List.isEmpty_iff.mp hnone]
      exact List.filter_eq_nil_iff.mpr fun _ _ => by simp
    rw [if_pos hnone, hrows]
    rfl
  · rw [if_neg hnone, effects.run_bind_of_ok run_replay_inventory]
    rfl

end Emitted

section Removals

variable {store applied : DatabaseStore} {batch : SyncBatch} {message_id : MessageId}

/-- The removals of a chunk reach a message it does not name through the prunes and
    the deleted mailboxes only. -/
theorem lookup_applyRemovals_of_unnamed (hunnamed : message_id ∉ writtenRows batch) :
    (store.applyRemovals batch).message.lookup message_id =
      if message_id ∈ takenMessages store batch then none
      else (store.message.lookup message_id).map (·.leaveAll (takenMailboxes store batch)) := by
  unfold writtenRows at hunnamed
  simp only [List.mem_append, List.map_append, not_or] at hunnamed
  obtain ⟨⟨⟨hrecord, hdeleted⟩, habsent⟩, hdeparted, habsentDeparted⟩ := hunnamed
  have hpruned : ∀ {before : DatabaseStore}, (∀ id, (before.message.lookup id).isSome = (store.message.lookup id).isSome) →
      (if batch.replace_all_messages then
        before.prune_messages_absent_from_remote_tx (batch.messages.map MessageRecord.id) else before).message.lookup
          message_id = if message_id ∈ takenMessages store batch then none else before.message.lookup message_id := by
    intro before hsame
    unfold takenMessages
    by_cases hreplace : batch.replace_all_messages = true
    · rw [if_pos hreplace, if_pos hreplace, DatabaseStore.prune_messages_absent_from_remote_tx,
        DatabaseStore.lookup_delete_messages_tx, DatabaseStore.prunedMessages_congr hsame]
    · rw [if_neg hreplace, if_neg hreplace, if_neg List.not_mem_nil]
  have hmailboxes : ∀ id, (if batch.replace_all_mailboxes then
      store.prune_mailboxes_absent_from_remote_tx (batch.mailboxes.map Mailbox.id) else store).message.lookup id =
        (store.message.lookup id).map (·.leaveAll
          (if batch.replace_all_mailboxes then store.prunedMailboxes (batch.mailboxes.map Mailbox.id) else [])) := by
    intro id
    by_cases hreplace : batch.replace_all_mailboxes = true
    · rw [if_pos hreplace, if_pos hreplace, DatabaseStore.prune_mailboxes_eq, DatabaseStore.lookup_delete_mailboxes_tx]
    · rw [if_neg hreplace, if_neg hreplace]
      exact (Option.map_id_apply).symm
  unfold DatabaseStore.applyRemovals
  simp only
  generalize hdecided : DatabaseStore.delete_mailboxes_tx _ batch.deleted_mailbox_ids = decided
  have hkept : message_id ∉ decided.batchDeletions batch := by
    unfold DatabaseStore.batchDeletions
    simp only
    rw [← BTreeSet.mem_iff, BTreeSet.mem_from_iter, List.mem_append, not_or]
    refine ⟨hdeleted, ?_⟩
    split_ifs
    · exact habsent
    · exact List.not_mem_nil
  have hstays : (decided.batchDepartures batch).filter (·.1 = message_id) = [] := by
    apply List.filter_eq_nil_iff.mpr
    intro place hplace hsame
    have hlisted := (List.mem_filter.mp hplace).1
    obtain hlisted | hlisted := List.mem_append.mp hlisted
    · exact hdeparted (of_decide_eq_true hsame ▸ List.mem_map_of_mem hlisted)
    · split_ifs at hlisted
      · exact habsentDeparted (of_decide_eq_true hsame ▸ List.mem_map_of_mem hlisted)
      · exact List.not_mem_nil hlisted
  rw [DatabaseStore.lookup_delete_messages_tx, if_neg hkept, DatabaseStore.lookup_departures, hstays, ← hdecided,
    DatabaseStore.lookup_delete_mailboxes_tx, hpruned fun id => by rw [hmailboxes, Option.isSome_map], hmailboxes]
  by_cases htaken : message_id ∈ takenMessages store batch
  · rw [if_pos htaken, if_pos htaken]
    rfl
  · rw [if_neg htaken, if_neg htaken, Option.map_map, Option.map_map]
    unfold takenMailboxes
    apply Option.map_congr
    intro row _
    show ((row.leaveAll _).leaveAll _).leaveAll [] = _
    unfold MessageRow.leaveAll
    rw [List.foldl_append]
    rfl

/-- A chunk changes a message it does not name exactly when it takes the message, or a
    mailbox that holds it. -/
theorem changes_iff_takes (happly : store.apply_sync_batch batch = .ok applied)
    (hunnamed : message_id ∉ writtenRows batch) : Changes store applied message_id ↔ Takes store batch message_id := by
  have hrecord : ∀ record ∈ batch.messages, record.id ≠ message_id := by
    intro record hmem hid
    apply hunnamed
    unfold writtenRows
    simp only [List.mem_append]
    exact Or.inl (Or.inl (Or.inl (hid ▸ List.mem_map_of_mem hmem)))
  unfold Changes Takes
  rw [DatabaseStore.lookup_apply_sync_batch happly, rowAfter_of_absent hrecord,
    lookup_applyRemovals_of_unnamed hunnamed]
  cases hrow : store.message.lookup message_id with
  | none => simp
  | some row =>
    simp only [Option.some.injEq, exists_eq_left', Option.map_some]
    by_cases htaken : message_id ∈ takenMessages store batch
    · simp [htaken]
    · rw [if_neg htaken, or_iff_right htaken, ne_eq, Option.some.injEq]
      constructor
      · intro hchanged
        by_contra hdisjoint
        push Not at hdisjoint
        exact hchanged (MessageRow.leaveAll_of_disjoint hdisjoint)
      · rintro ⟨mailbox_id, htakes, hholds⟩ hsame
        rw [← hsame, MessageRow.mem_leaveAll] at hholds
        exact hholds.2 htakes

end Removals

/-- The replay of a chunk covers what the chunk changed exactly when every message of
    the inventory that loses its row to a prune by absence, or a mailbox, is one the
    chunk names. -/
theorem replay_covers_iff (store : DatabaseStore) (batch : SyncBatch) :
    ReplayCovers store batch ↔ ∀ applied, store.apply_sync_batch batch = .ok applied →
      ∀ message_id ∈ inventory applied, Takes store batch message_id → message_id ∈ writtenRows batch := by
  constructor
  · intro hcovers applied happly message_id hinventory htakes
    by_contra hunnamed
    have hchanged := (changes_iff_takes happly hunnamed).mpr htakes
    exact hunnamed (of_decide_eq_true (List.mem_filter.mp ((hcovers applied happly).2 message_id hinventory hchanged)).2)
  · intro hnamed applied happly
    refine ⟨run_emit happly, fun message_id hinventory hchanged => ?_⟩
    refine List.mem_filter.mpr ⟨hinventory, decide_eq_true ?_⟩
    by_contra hunnamed
    exact hunnamed (hnamed applied happly message_id hinventory ((changes_iff_takes happly hunnamed).mp hchanged))

section Runs

/-- A message in one mailbox syncs, and a flag is queued on it. -/
def flaggedInWork : DatabaseStore :=
  effects.final ((do
    emit { (default : SyncBatch) with
      mailboxes := [⟨"work", none⟩]
      messages := [{ (default : MessageRecord) with id := "m1", mailbox_ids := ["work"] }] }
    set_keywords "m1" { add := ["$flagged"], remove := [] } { now := "t", mono_now := 0, operation_id := "op1", id := "1" }
    : MailService Unit).run DatabaseStore.empty)

def workDeleted : SyncBatch := { (default : SyncBatch) with deleted_mailbox_ids := ["work"] }

/-- The mailbox is deleted, and the flagged message still shows in it after the chunk is emitted. -/
theorem deleted_mailbox_is_not_replayed : ¬ ReplayCovers flaggedInWork workDeleted ∧
    ∃ after, (emit workDeleted).run flaggedInWork = .ok () after ∧
      (after.message.lookup "m1").map (·.mailbox_ids.toList) = some [] ∧
        (after.effective "m1").map (·.mailbox_ids.toList) = some ["work"] := by
  constructor
  · intro hcovers
    have hcovered := (hcovers _ rfl).2 "m1" (by decide) (fun hsame => ?_)
    · exact absurd hcovered (by decide)
    · have hmailboxes := congrArg (Option.map (·.mailbox_ids.toList)) hsame
      revert hmailboxes
      decide
  · exact ⟨_, rfl, rfl, rfl⟩

end Runs

end posthaste.service
