import Posthaste.Store.Sync

open posthaste.model

namespace posthaste.store

/-- The row without its membership in the mailbox. -/
def MessageRow.leave (row : MessageRow) (mailbox_id : MailboxId) : MessageRow :=
  { row with mailbox_ids := row.mailbox_ids.remove mailbox_id }

def MessageRow.leaveAll (row : MessageRow) (mailbox_ids : List MailboxId) : MessageRow := mailbox_ids.foldl leave row

@[simp] theorem MessageRow.mem_leave {row : MessageRow} {left mailbox_id : MailboxId} :
    mailbox_id ∈ (row.leave left).mailbox_ids ↔ mailbox_id ∈ row.mailbox_ids ∧ mailbox_id ≠ left := by
  unfold leave
  rw [BTreeSet.mem_remove, and_comm]

@[simp] theorem MessageRow.mem_leaveAll {row : MessageRow} {left : List MailboxId} {mailbox_id : MailboxId} :
    mailbox_id ∈ (row.leaveAll left).mailbox_ids ↔ mailbox_id ∈ row.mailbox_ids ∧ mailbox_id ∉ left := by
  induction left generalizing row with
  | nil => simp [leaveAll]
  | cons first rest ih =>
    show mailbox_id ∈ ((row.leave first).leaveAll rest).mailbox_ids ↔ _
    rw [ih, mem_leave, List.mem_cons, not_or]
    tauto

theorem MessageRow.leave_leave (row : MessageRow) (mailbox_id : MailboxId) :
    (row.leave mailbox_id).leave mailbox_id = row.leave mailbox_id := by
  have hsame : (row.mailbox_ids.remove mailbox_id).remove mailbox_id = row.mailbox_ids.remove mailbox_id := by
    apply BTreeSet.ext
    intro value
    simp
  unfold leave
  rw [hsame]

/-- A row that is not in the mailbox has nothing to leave. -/
theorem MessageRow.leave_of_not_mem {row : MessageRow} {mailbox_id : MailboxId} (hout : mailbox_id ∉ row.mailbox_ids) :
    row.leave mailbox_id = row := by
  have hsame : row.mailbox_ids.remove mailbox_id = row.mailbox_ids := by
    apply BTreeSet.ext
    intro value
    rw [BTreeSet.mem_remove]
    constructor
    · exact fun hmem => hmem.2
    · intro hmem
      refine ⟨fun hvalue => hout ?_, hmem⟩
      rw [← hvalue]
      exact hmem
  unfold leave
  rw [hsame]

theorem MessageRow.leaveAll_of_disjoint {row : MessageRow} {left : List MailboxId}
    (hout : ∀ mailbox_id ∈ left, mailbox_id ∉ row.mailbox_ids) : row.leaveAll left = row := by
  induction left with
  | nil => rfl
  | cons first rest ih =>
    show (row.leave first).leaveAll rest = row
    rw [leave_of_not_mem (hout first List.mem_cons_self)]
    exact ih fun mailbox_id hmem => hout mailbox_id (List.mem_cons_of_mem _ hmem)

@[simp] theorem MessageRow.mailbox_ids_upserted (previous : Option MessageRow) (record : MessageRecord) :
    (MessageRow.upserted previous record).mailbox_ids = BTreeSet.from_iter record.mailbox_ids := by
  cases previous <;> rfl

/-- What a run of upserts makes of one row. -/
def rowAfter (messages : List MessageRecord) (id : MessageId) (row : Option MessageRow) : Option MessageRow :=
  messages.foldl (fun row record => if record.id = id then some (.upserted row record) else row) row

theorem rowAfter_of_absent {messages : List MessageRecord} {id : MessageId} {row : Option MessageRow}
    (habsent : ∀ record ∈ messages, record.id ≠ id) : rowAfter messages id row = row := by
  induction messages generalizing row with
  | nil => rfl
  | cons record rest ih =>
    show rowAfter rest id (if record.id = id then some (.upserted row record) else row) = row
    rw [if_neg (habsent record List.mem_cons_self)]
    exact ih fun other hmem => habsent other (List.mem_cons_of_mem _ hmem)

/-- Upserts leave a row as it was, or with the memberships of one of the records. -/
theorem rowAfter_cases {messages : List MessageRecord} {id : MessageId} {row : Option MessageRow} :
    (rowAfter messages id row = row ∧ ∀ record ∈ messages, record.id ≠ id) ∨
      ∃ record ∈ messages, record.id = id ∧ ∃ after, rowAfter messages id row = some after ∧
        after.mailbox_ids = BTreeSet.from_iter record.mailbox_ids := by
  induction messages generalizing row with
  | nil => exact Or.inl ⟨rfl, fun record hmem => absurd hmem List.not_mem_nil⟩
  | cons record rest ih =>
    have hstep : rowAfter (record :: rest) id row =
        rowAfter rest id (if record.id = id then some (.upserted row record) else row) := rfl
    rw [hstep]
    obtain ⟨hsame, habsent⟩ | ⟨other, hother, hid, after, hafter, hmailboxes⟩ :=
      @ih (if record.id = id then some (.upserted row record) else row)
    · by_cases hid : record.id = id
      · refine Or.inr ⟨record, List.mem_cons_self, hid, .upserted row record, ?_, by simp⟩
        rw [hsame, if_pos hid]
      · refine Or.inl ⟨?_, ?_⟩
        · rw [hsame, if_neg hid]
        · intro other hmem
          obtain rfl | hmem := List.mem_cons.mp hmem
          · exact hid
          · exact habsent other hmem
    · exact Or.inr ⟨other, List.mem_cons_of_mem _ hother, hid, after, hafter, hmailboxes⟩

theorem rowAfter_append (first second : List MessageRecord) (id : MessageId) (row : Option MessageRow) :
    rowAfter (first ++ second) id row = rowAfter second id (rowAfter first id row) := List.foldl_append

/-- The last record of a message decides its memberships. -/
theorem mailbox_ids_rowAfter (messages : List MessageRecord) (id : MessageId) (row : Option MessageRow) :
    (rowAfter messages id row).map MessageRow.mailbox_ids =
      ((messages.reverse.find? (·.id = id)).map fun record => BTreeSet.from_iter record.mailbox_ids).or
        (row.map MessageRow.mailbox_ids) := by
  induction messages generalizing row with
  | nil => rfl
  | cons record rest ih =>
    show (rowAfter rest id (if record.id = id then some (.upserted row record) else row)).map _ = _
    rw [ih, List.reverse_cons, List.find?_append]
    cases hlast : rest.reverse.find? (·.id = id) with
    | some last => rfl
    | none =>
      by_cases hid : record.id = id
      · simp [hid]
      · simp [hid]

namespace DatabaseStore

variable {store : DatabaseStore} {id message_id : MessageId} {mailbox_id : MailboxId}

section Memberships

theorem lookup_leave_mailbox_tx :
    (store.leave_mailbox_tx message_id mailbox_id).message.lookup id =
      if id = message_id then (store.message.lookup id).map (·.leave mailbox_id) else store.message.lookup id := by
  unfold leave_mailbox_tx
  cases hrow : store.message.lookup message_id with
  | none =>
    split_ifs with hid
    · rw [hid, hrow]
      rfl
    · rfl
  | some row =>
    split_ifs with hid
    · rw [hid, hrow]
      exact AList.lookup_insert _
    · exact AList.lookup_insert_ne hid

@[simp] theorem mailbox_leave_mailbox_tx : (store.leave_mailbox_tx message_id mailbox_id).mailbox = store.mailbox := by
  unfold leave_mailbox_tx
  cases store.message.lookup message_id <;> rfl

theorem lookup_leaveEach (message_ids : List MessageId) :
    (message_ids.foldl (fun store message_id => store.leave_mailbox_tx message_id mailbox_id) store).message.lookup id =
      if id ∈ message_ids then (store.message.lookup id).map (·.leave mailbox_id) else store.message.lookup id := by
  induction message_ids generalizing store with
  | nil => rfl
  | cons first rest ih =>
    rw [List.foldl_cons, ih, lookup_leave_mailbox_tx]
    by_cases hfirst : id = first
    · rw [if_pos hfirst, if_pos (show id ∈ first :: rest from hfirst ▸ List.mem_cons_self)]
      split_ifs with hrest
      · rw [Option.map_map]
        exact congrFun (congrArg Option.map (funext fun row => row.leave_leave mailbox_id)) _
      · rfl
    · simp [hfirst]

/-- Every row leaves a deleted mailbox. -/
theorem lookup_delete_mailbox_tx :
    (store.delete_mailbox_tx mailbox_id).message.lookup id = (store.message.lookup id).map (·.leave mailbox_id) := by
  show (store.message.keys.foldl (fun store message_id => store.leave_mailbox_tx message_id mailbox_id)
    store).message.lookup id = _
  rw [lookup_leaveEach]
  split_ifs with hmem
  · rfl
  · have hnone : store.message.lookup id = none := AList.lookup_eq_none.mpr fun hkey => hmem hkey
    rw [hnone]
    rfl

theorem lookup_delete_mailboxes_tx (mailbox_ids : List MailboxId) :
    (store.delete_mailboxes_tx mailbox_ids).message.lookup id = (store.message.lookup id).map (·.leaveAll mailbox_ids) := by
  induction mailbox_ids generalizing store with
  | nil => exact (Option.map_id_apply).symm
  | cons first rest ih =>
    show ((store.delete_mailbox_tx first).delete_mailboxes_tx rest).message.lookup id = _
    rw [ih, lookup_delete_mailbox_tx, Option.map_map]
    rfl

theorem mailbox_delete_mailbox_tx :
    (store.delete_mailbox_tx mailbox_id).mailbox = store.mailbox.filter (·.id ≠ mailbox_id) := by
  have hsame : ∀ (message_ids : List MessageId) (store : DatabaseStore),
      (message_ids.foldl (fun store message_id => store.leave_mailbox_tx message_id mailbox_id) store).mailbox =
        store.mailbox := by
    intro message_ids
    induction message_ids with
    | nil => exact fun _ => rfl
    | cons first rest ih =>
      intro store
      rw [List.foldl_cons, ih, mailbox_leave_mailbox_tx]
  show (_ : List Mailbox).filter _ = _
  rw [hsame]

theorem mailbox_delete_mailboxes_tx (mailbox_ids : List MailboxId) :
    (store.delete_mailboxes_tx mailbox_ids).mailbox = store.mailbox.filter (·.id ∉ mailbox_ids) := by
  induction mailbox_ids generalizing store with
  | nil => simp [delete_mailboxes_tx]
  | cons first rest ih =>
    show ((store.delete_mailbox_tx first).delete_mailboxes_tx rest).mailbox = _
    rw [ih, mailbox_delete_mailbox_tx, List.filter_filter]
    refine List.filter_congr fun mailbox _ => ?_
    simp [Bool.and_comm]

theorem mailbox_departures (departures : List (MessageId × MailboxId)) :
    (departures.foldl (fun store location => store.leave_mailbox_tx location.1 location.2) store).mailbox =
      store.mailbox := by
  induction departures generalizing store with
  | nil => rfl
  | cons first rest ih => rw [List.foldl_cons, ih, mailbox_leave_mailbox_tx]

/-- The mailboxes that rows leave one by one. -/
theorem lookup_departures (departures : List (MessageId × MailboxId)) :
    (departures.foldl (fun store location => store.leave_mailbox_tx location.1 location.2) store).message.lookup id =
      (store.message.lookup id).map (·.leaveAll ((departures.filter (·.1 = id)).map Prod.snd)) := by
  induction departures generalizing store with
  | nil => exact (Option.map_id_apply).symm
  | cons first rest ih =>
    rw [List.foldl_cons, ih, lookup_leave_mailbox_tx]
    by_cases hfirst : first.1 = id
    · have hfilter : (first :: rest).filter (·.1 = id) = first :: rest.filter (·.1 = id) :=
        List.filter_cons_of_pos (decide_eq_true hfirst)
      rw [if_pos hfirst.symm, Option.map_map, hfilter]
      rfl
    · have hfilter : (first :: rest).filter (·.1 = id) = rest.filter (·.1 = id) :=
        List.filter_cons_of_neg (by simpa using hfirst)
      rw [if_neg fun hid => hfirst hid.symm, hfilter]

end Memberships

section Deletions

@[simp] theorem message_repoint_draft_key_tx (draft_key : String) :
    (store.repoint_draft_key_tx draft_key).message = store.message := by
  unfold repoint_draft_key_tx
  cases store.survivorOf draft_key <;> rfl

@[simp] theorem mailbox_repoint_draft_key_tx (draft_key : String) :
    (store.repoint_draft_key_tx draft_key).mailbox = store.mailbox := by
  unfold repoint_draft_key_tx
  cases store.survivorOf draft_key <;> rfl

@[simp] theorem message_repointAll (draft_keys : List String) :
    (draft_keys.foldl repoint_draft_key_tx store).message = store.message := by
  induction draft_keys generalizing store with
  | nil => rfl
  | cons first rest ih => rw [List.foldl_cons, ih, message_repoint_draft_key_tx]

@[simp] theorem mailbox_repointAll (draft_keys : List String) :
    (draft_keys.foldl repoint_draft_key_tx store).mailbox = store.mailbox := by
  induction draft_keys generalizing store with
  | nil => rfl
  | cons first rest ih => rw [List.foldl_cons, ih, mailbox_repoint_draft_key_tx]

theorem message_delete_message_tx : (store.delete_message_tx message_id).message = store.message.erase message_id :=
  message_repointAll _

@[simp] theorem mailbox_delete_message_tx : (store.delete_message_tx message_id).mailbox = store.mailbox :=
  mailbox_repointAll _

theorem lookup_delete_message_tx : (store.delete_message_tx message_id).message.lookup id =
    if id = message_id then none else store.message.lookup id := by
  rw [message_delete_message_tx]
  split_ifs with hid
  · rw [hid]
    exact AList.lookup_erase _ _
  · exact AList.lookup_erase_ne hid

theorem lookup_delete_messages_tx (message_ids : List MessageId) :
    (store.delete_messages_tx message_ids).message.lookup id =
      if id ∈ message_ids then none else store.message.lookup id := by
  induction message_ids generalizing store with
  | nil => rfl
  | cons first rest ih =>
    show ((store.delete_message_tx first).delete_messages_tx rest).message.lookup id = _
    rw [ih, lookup_delete_message_tx]
    by_cases hfirst : id = first
    · simp [hfirst]
    · simp [hfirst]

theorem mailbox_delete_messages_tx (message_ids : List MessageId) :
    (store.delete_messages_tx message_ids).mailbox = store.mailbox := by
  induction message_ids generalizing store with
  | nil => rfl
  | cons first rest ih =>
    show ((store.delete_message_tx first).delete_messages_tx rest).mailbox = _
    rw [ih, mailbox_delete_message_tx]

/-- The mailboxes a prune by absence deletes: none when it would pass the floor. -/
def prunedMailboxes (store : DatabaseStore) (remote_mailbox_ids : List MailboxId) : List MailboxId :=
  let absent := (store.mailbox.map Mailbox.id).filter (· ∉ remote_mailbox_ids)
  if !store.mailbox.isEmpty && (remote_mailbox_ids.isEmpty || over_floor absent.length store.mailbox.length) then []
  else absent

theorem not_mem_prunedMailboxes {remote_mailbox_ids : List MailboxId} (hlisted : mailbox_id ∈ remote_mailbox_ids) :
    mailbox_id ∉ store.prunedMailboxes remote_mailbox_ids := by
  unfold prunedMailboxes
  simp only
  split_ifs
  · exact List.not_mem_nil
  · exact fun hmem => of_decide_eq_true (List.mem_filter.mp hmem).2 hlisted

/-- The guard counts the stored messages, whatever their order. -/
theorem imap_absence_prune_allowed_congr {first second : DatabaseStore}
    (hsame : ∀ id, (first.message.lookup id).isSome = (second.message.lookup id).isSome) (count : Nat) :
    first.imap_absence_prune_allowed count = second.imap_absence_prune_allowed count := by
  have hperm : first.message.keys.Perm second.message.keys := by
    refine (List.perm_ext_iff_of_nodup first.message.keys_nodup second.message.keys_nodup).mpr fun id => ?_
    rw [AList.mem_keys.symm, AList.mem_keys.symm, ← AList.lookup_isSome, ← AList.lookup_isSome, hsame]
  unfold imap_absence_prune_allowed
  rw [hperm.length_eq, hperm.isEmpty_eq]

/-- A prune by absence takes the same messages of stores that hold the same. -/
theorem prunedMessages_congr {first second : DatabaseStore}
    (hsame : ∀ id, (first.message.lookup id).isSome = (second.message.lookup id).isSome) (remote : List MessageId) :
    first.prunedMessages remote = second.prunedMessages remote := by
  have hmem : ∀ id, id ∈ first.message.keys ↔ id ∈ second.message.keys := by
    intro id
    rw [AList.mem_keys.symm, AList.mem_keys.symm, ← AList.lookup_isSome, ← AList.lookup_isSome, hsame]
  have hperm : first.message.keys.Perm second.message.keys :=
    (List.perm_ext_iff_of_nodup first.message.keys_nodup second.message.keys_nodup).mpr hmem
  have habsent : first.absentMessages remote = second.absentMessages remote := by
    unfold absentMessages
    congr 1
    apply BTreeSet.ext
    intro id
    rw [BTreeSet.mem_from_iter, BTreeSet.mem_from_iter, List.mem_filter, List.mem_filter, hmem]
  unfold prunedMessages
  rw [habsent, hperm.length_eq]

theorem prune_mailboxes_eq (remote_mailbox_ids : List MailboxId) :
    store.prune_mailboxes_absent_from_remote_tx remote_mailbox_ids =
      store.delete_mailboxes_tx (store.prunedMailboxes remote_mailbox_ids) := by
  unfold prune_mailboxes_absent_from_remote_tx prunedMailboxes
  simp only
  split_ifs <;> rfl

end Deletions

section Upserts

@[simp] theorem message_upsert_mailbox_tx (mailbox : Mailbox) : (store.upsert_mailbox_tx mailbox).message = store.message := by
  unfold upsert_mailbox_tx
  split_ifs <;> rfl

@[simp] theorem message_upsertMailboxes (mailboxes : List Mailbox) :
    (mailboxes.foldl upsert_mailbox_tx store).message = store.message := by
  induction mailboxes generalizing store with
  | nil => rfl
  | cons first rest ih => rw [List.foldl_cons, ih, message_upsert_mailbox_tx]

@[simp] theorem message_upsert_draft_registry (record : MessageRecord) :
    (store.write_through_draft_registry_on_message_upsert_tx record).message = store.message := by
  unfold write_through_draft_registry_on_message_upsert_tx
  cases record.draft_id <;> rfl

@[simp] theorem message_upsertCursors (cursors : List SyncCursor) :
    (cursors.foldl upsert_sync_cursor_tx store).message = store.message := by
  induction cursors generalizing store with
  | nil => rfl
  | cons first rest ih =>
    rw [List.foldl_cons, ih]
    unfold upsert_sync_cursor_tx
    cases first.object_type <;> rfl

/-- What a run of record writes leaves of one row. -/
theorem lookup_applyMessages {messages : List MessageRecord} {after : DatabaseStore}
    (happly : applyMessages messages store = .ok after) :
    after.message.lookup id = rowAfter messages id (store.message.lookup id) := by
  induction messages generalizing store with
  | nil =>
    cases happly
    rfl
  | cons record rest ih =>
    unfold applyMessages apply_message_record_tx at happly
    split_ifs at happly with hunique
    · rw [ih happly, message_upsert_draft_registry]
      show rowAfter rest id ((store.message.insert record.id _).lookup id) =
        rowAfter rest id (if record.id = id then _ else _)
      split_ifs with hid
      · rw [hid, AList.lookup_insert]
      · rw [AList.lookup_insert_ne (Ne.symm hid)]
    · cases happly

/-- Records that list no membership or keyword twice are written. -/
theorem applyMessages_of_nodup {messages : List MessageRecord}
    (hwritable : ∀ record ∈ messages, record.mailbox_ids.Nodup ∧ record.keywords.Nodup) :
    ∃ after, applyMessages messages store = .ok after := by
  induction messages generalizing store with
  | nil => exact ⟨store, rfl⟩
  | cons record rest ih =>
    unfold applyMessages apply_message_record_tx
    rw [if_pos (hwritable record List.mem_cons_self)]
    exact ih fun other hmem => hwritable other (List.mem_cons_of_mem _ hmem)

/-- A batch changes a row by its removals and then by its records. -/
theorem lookup_apply_sync_batch {batch : SyncBatch} {after : DatabaseStore} (happly : store.apply_sync_batch batch = .ok after) :
    after.message.lookup id = rowAfter batch.messages id ((store.applyRemovals batch).message.lookup id) := by
  unfold apply_sync_batch at happly
  cases hmessages : applyMessages batch.messages (batch.mailboxes.foldl upsert_mailbox_tx (store.applyRemovals batch)) with
  | error failure =>
    simp only [hmessages] at happly
    cases happly
  | ok applied =>
    simp only [hmessages] at happly
    cases happly
    rw [message_upsertCursors, lookup_applyMessages hmessages, message_upsertMailboxes]

end Upserts

end DatabaseStore

end posthaste.store
