import Posthaste.Service.Retire
import Posthaste.Service.Writes

open serde posthaste.model posthaste.replica posthaste.store

namespace posthaste.service

open MailService effects

section Base

theorem outbox_foldl {α : Type} {change : DatabaseStore → α → DatabaseStore}
    (hchange : ∀ store value, (change store value).outbox = store.outbox) (values : List α) (store : DatabaseStore) :
    (values.foldl change store).outbox = store.outbox := by
  induction values generalizing store with
  | nil => rfl
  | cons value rest ih => rw [List.foldl_cons, ih, hchange]

variable (store : DatabaseStore)

theorem outbox_delete_messages (message_ids : List MessageId) :
    (store.delete_messages_tx message_ids).outbox = store.outbox := by
  apply outbox_foldl
  intro store message_id
  unfold DatabaseStore.delete_message_tx DatabaseStore.write_through_draft_registry_on_message_delete_tx
  rw [outbox_foldl]
  intro store draft_key
  unfold DatabaseStore.repoint_draft_key_tx
  split
  · rfl
  · rfl

theorem outbox_leave_mailbox (message_id : MessageId) (mailbox_id : MailboxId) :
    (store.leave_mailbox_tx message_id mailbox_id).outbox = store.outbox := by
  unfold DatabaseStore.leave_mailbox_tx
  split
  · rfl
  · rfl

theorem outbox_delete_mailboxes (mailbox_ids : List MailboxId) :
    (store.delete_mailboxes_tx mailbox_ids).outbox = store.outbox := by
  apply outbox_foldl
  intro store mailbox_id
  show (store.message.keys.foldl _ store).outbox = store.outbox
  apply outbox_foldl
  exact fun store message_id => outbox_leave_mailbox store message_id mailbox_id

theorem outbox_prune_mailboxes (remote_mailbox_ids : List MailboxId) :
    (store.prune_mailboxes_absent_from_remote_tx remote_mailbox_ids).outbox = store.outbox := by
  unfold DatabaseStore.prune_mailboxes_absent_from_remote_tx
  dsimp only
  split_ifs
  · rfl
  · exact outbox_delete_mailboxes _ _

theorem outbox_prune_messages (remote_message_ids : List MessageId) :
    (store.prune_messages_absent_from_remote_tx remote_message_ids).outbox = store.outbox :=
  outbox_delete_messages _ _

theorem outbox_upsert_sync_cursor (cursor : SyncCursor) :
    (store.upsert_sync_cursor_tx cursor).outbox = store.outbox := by
  unfold DatabaseStore.upsert_sync_cursor_tx
  split
  · rfl
  · rfl

theorem outbox_applyRemovals (batch : SyncBatch) : (store.applyRemovals batch).outbox = store.outbox := by
  unfold DatabaseStore.applyRemovals
  dsimp only
  have hleave : ∀ (store : DatabaseStore) (location : MessageId × MailboxId),
      (store.leave_mailbox_tx location.1 location.2).outbox = store.outbox :=
    fun store location => outbox_leave_mailbox store location.1 location.2
  rw [outbox_delete_messages, outbox_foldl hleave, outbox_delete_mailboxes]
  split_ifs
  · rw [outbox_prune_messages, outbox_prune_mailboxes]
  · rw [outbox_prune_messages]
  · rw [outbox_prune_mailboxes]
  · rfl

theorem outbox_applyMessages {records : List MessageRecord} {store after : DatabaseStore}
    (happly : DatabaseStore.applyMessages records store = .ok after) : after.outbox = store.outbox := by
  induction records generalizing store with
  | nil =>
    cases happly
    rfl
  | cons record rest ih =>
    obtain ⟨middle, hhead, hrest⟩ := except_bind_eq_ok_iff.mp happly
    unfold DatabaseStore.apply_message_record_tx at hhead
    split_ifs at hhead
    cases hhead
    rw [ih hrest]
    unfold DatabaseStore.write_through_draft_registry_on_message_upsert_tx
    split
    · rfl
    · rfl

/-- A base write leaves the log alone. -/
theorem outbox_apply_sync_batch {batch : SyncBatch} {store after : DatabaseStore}
    (happly : store.apply_sync_batch batch = .ok after) : after.outbox = store.outbox := by
  obtain ⟨applied, hmessages, hcursors⟩ := except_bind_eq_ok_iff.mp happly
  cases hcursors
  rw [outbox_foldl outbox_upsert_sync_cursor, outbox_applyMessages hmessages, outbox_foldl, outbox_applyRemovals]
  intro store mailbox
  unfold DatabaseStore.upsert_mailbox_tx
  split_ifs
  · rfl
  · rfl

theorem outbox_reconcile_sync (reconciliation : SyncReconciliation) :
    (store.reconcile_sync reconciliation).outbox = store.outbox := by
  unfold DatabaseStore.reconcile_sync
  dsimp only
  rw [outbox_foldl outbox_upsert_sync_cursor]
  split_ifs
  · rw [outbox_prune_messages, outbox_prune_mailboxes]
  · rw [outbox_prune_messages]
  · rw [outbox_prune_mailboxes]
  · rfl

end Base

section Pull

theorem writes_applyBatch (batch : SyncBatch) : Writes Write.pulling (applyBatch batch) := by
  intro store
  cases happly : store.apply_sync_batch batch with
  | error error =>
    rw [run_applyBatch_of_error happly]
    exact ⟨[], fun _ hmem => absurd hmem List.not_mem_nil, rfl⟩
  | ok after =>
    rw [run_applyBatch_of_ok happly]
    refine ⟨[.pull after], fun write hmem => ?_, ?_⟩
    · rw [List.mem_singleton.mp hmem]
      rfl
    · show after = { after with outbox := store.outbox }
      rw [← outbox_apply_sync_batch happly]

variable {α : Type}

theorem pulls {call : MailService α} (hcall : Writes Write.beside call) : Writes Write.pulling call :=
  hcall.mono fun _ => Write.pulling_of_beside

theorem settles {call : MailService α} {id : OperationId} {settled_at_mono : Int}
    (hcall : Writes Write.beside call) : Writes (Write.settling id settled_at_mono) call :=
  hcall.mono fun _ hbeside => Write.settling_of_pulling (Write.pulling_of_beside hbeside)

theorem writes_replay_base_write (written_rows : List MessageId) :
    Writes Write.beside (replay_base_write written_rows) := by
  unfold replay_base_write
  split_ifs
  · exact makes_pure ()
  · exact (writes_read _).bind fun inventory => writes_refreshAll _

end Pull

section Flush

theorem writes_settle_failure (operation : Operation) (error : FlushError) (now : Timestamp) :
    Writes Write.beside (settle_failure operation error now) := by
  have hstate : failureState error.disposition ≠ .Applied := by
    cases error.disposition <;> exact OperationState.noConfusion
  refine (writes_update_operation_state operation.id hstate _ _ _).bind fun _ => ?_
  dsimp only
  split
  · exact (writes_refreshTouched operation).bind fun _ => makes_pure _
  · exact (writes_refreshTouched operation).bind fun _ => makes_pure _
  · exact makes_pure _
  · exact makes_pure _

theorem writes_settle_noop (operation : Operation) : Writes Write.beside (settle_noop operation) :=
  (writes_remove_operation _).bind fun _ => (writes_refresh _).bind fun _ => makes_pure ()

variable {settled_at_mono : Int}

theorem writes_mark_operation_settled (id : OperationId) (watermark : Option String) (now : Timestamp) :
    Writes (Write.settling id settled_at_mono) (outbox (·.mark_operation_settled id settled_at_mono watermark now)) := by
  refine writes_outbox (.settle id settled_at_mono watermark now) ?_ fun _ => rfl
  simp [Write.settling]

private theorem writes_readback {id : OperationId} {next : MailService Unit}
    (hnext : Writes (Write.settling id settled_at_mono) next) (readback : Option MessageReadback)
    (message_id : MessageId) :
    Writes (Write.settling id settled_at_mono) (do
      match readback with
      | some readback => applyBatch (readbackBatch readback message_id)
      | none => pure ()
      next) := by
  cases readback with
  | none => exact hnext
  | some record => exact ((writes_applyBatch _).mono fun _ => Write.settling_of_pulling).bind fun _ => hnext

theorem writes_settle_message (operation : Operation) (readback : Option MessageReadback) (rejected : Option String)
    (cursor : Option SyncCursor) (retargeted_to : Option MessageId) (now : Timestamp) :
    Writes (Write.settling operation.id settled_at_mono)
      (settle_message_operation operation readback rejected cursor retargeted_to settled_at_mono now) := by
  have hderive : Writes (Write.settling operation.id settled_at_mono) (do
      let _ ← refresh_message_overlay operation.entity.id
      if retargeted_to.isSome then
        let _ ← refresh_message_overlay (retargeted_to.getD operation.entity.id)) := by
    refine (settles (writes_refresh _)).bind fun _ => ?_
    split_ifs
    · exact (settles (writes_refresh _)).bind fun _ => makes_pure ()
    · exact makes_pure ()
  have hbase := writes_readback hderive readback (retargeted_to.getD operation.entity.id)
  unfold settle_message_operation
  by_cases hdecided : (readback.isSome || rejected.isSome) = true
  · simp only [if_pos hdecided]
    exact (settles (writes_remove_operation _)).bind fun _ => hbase
  · simp only [if_neg hdecided]
    exact (writes_mark_operation_settled _ _ _).bind fun _ => hbase

theorem writes_retireConsumedDraft (key : String) : Writes Write.beside (retireConsumedDraft key) := by
  refine (writes_read _).bind fun live_id => (writes_remove_draft_alias key).bind fun _ => ?_
  refine (writes_read _).bind fun base_has_row => ?_
  split_ifs
  · exact writes_tables fun _ => rfl
  · exact writes_tables fun _ => rfl

theorem writes_settle_content (operation : Operation) (old_live new_live : MessageId) :
    Writes Write.beside (settle_content_op_overlay operation old_live new_live) := by
  have htouched : Writes Write.beside (do refreshAll (← op_touched_row_ids operation)) :=
    (writes_read _).bind writes_refreshAll
  have hrest : Writes Write.beside (do
      if old_live ≠ new_live then
        let _ ← refresh_message_overlay old_live
      refreshAll (← op_touched_row_ids operation)) := by
    split_ifs
    · exact (writes_refresh _).bind fun _ => htouched
    · exact htouched
  unfold settle_content_op_overlay
  by_cases hsend : operation.kind = .Send
  · simp only [if_pos hsend]
    cases (sendRequest operation).bind composeKey with
    | none => exact hrest
    | some key => exact (writes_retireConsumedDraft key).bind fun _ => hrest
  · simp only [if_neg hsend]
    exact hrest

theorem writes_settle_entity (operation : Operation) (assigned_entity_id : Option String) (cursor : Option SyncCursor)
    (now : Timestamp) :
    Writes (Write.settling operation.id settled_at_mono)
      (settle_entity_operation operation assigned_entity_id cursor settled_at_mono now) := by
  refine (writes_read _).bind fun old_live => ?_
  have hsettle : Writes (Write.settling operation.id settled_at_mono) (do
      if operation.kind.is_draft_save ∨ operation.kind = .Send then
        outbox (·.mark_operation_settled operation.id settled_at_mono (watermarkOf cursor) now)
        settle_content_op_overlay operation old_live (assigned_entity_id.getD old_live)
      else outbox (·.remove_operation operation.id)) := by
    split_ifs
    · exact (writes_mark_operation_settled _ _ _).bind fun _ => settles (writes_settle_content _ _ _)
    · exact settles (writes_remove_operation _)
  have hforget : Writes (Write.settling operation.id settled_at_mono) (do
      if operation.kind = .DraftDelete then write (·.remove_draft_alias operation.entity.id)
      if operation.kind.is_draft_save ∨ operation.kind = .Send then
        outbox (·.mark_operation_settled operation.id settled_at_mono (watermarkOf cursor) now)
        settle_content_op_overlay operation old_live (assigned_entity_id.getD old_live)
      else outbox (·.remove_operation operation.id)) := by
    by_cases hdelete : operation.kind = .DraftDelete
    · simp only [if_pos hdelete]
      exact (settles (writes_remove_draft_alias _)).bind fun _ => hsettle
    · simp only [if_neg hdelete]
      exact hsettle
  cases assigned_entity_id with
  | none => exact hforget
  | some new_id =>
    by_cases hrotated : new_id ≠ operation.entity.id
    · simp only [if_pos hrotated]
      exact (settles (writes_set_draft_alias _ _)).bind fun _ => hforget
    · simp only [if_neg hrotated]
      exact hforget

/-- Routing a push result makes at most the one settlement of the pushed operation. -/
theorem writes_settle_push (operation : Operation) (pushed : Except FlushError Pushed) (now : Timestamp) :
    Writes (Write.settling operation.id settled_at_mono) (settle_push operation pushed settled_at_mono now) := by
  unfold settle_push
  split
  · exact (writes_settle_entity _ _ _ _).bind fun _ => makes_pure true
  · exact (writes_settle_message _ _ _ _ _ _).bind fun _ => makes_pure true
  · exact (settles (writes_settle_noop _)).bind fun _ => makes_pure true
  · exact settles (writes_settle_failure _ _ _)

/-- One operation of a pass: writes any call makes, or the claim of the operation and its push. -/
theorem flush_cases (gateway : MailGateway) (id : OperationId) (now : Timestamp) (store : DatabaseStore) :
    (∃ writes : List Write, (∀ write ∈ writes, write.beside = true) ∧
        final ((flush_operation gateway id settled_at_mono now).run store) = writes.foldl Write.apply store) ∨
      store.outbox.matchesState id OperationState.is_flushable = true ∧
        ∃ writes : List Write, (∀ write ∈ writes, write.settling id settled_at_mono = true) ∧
          final ((flush_operation gateway id settled_at_mono now).run store) =
            writes.foldl Write.apply (Write.apply store (.claim id now)) := by
  have hskip : final ((pure true : MailService Bool).run store) = store := rfl
  unfold flush_operation
  rw [run_read_bind]
  cases hget : store.outbox.get_operation id with
  | none => exact Or.inl ⟨[], fun _ hmem => absurd hmem List.not_mem_nil, hskip⟩
  | some operation =>
    obtain rfl : operation.id = id := OutboxTable.id_of_get hget
    dsimp only
    by_cases hflushable : operation.state.is_flushable = true
    · have hmatches : store.outbox.matchesState operation.id OperationState.is_flushable = true :=
        (OutboxTable.matchesState_eq_true_iff _ _).mpr ⟨operation, hget, hflushable⟩
      simp only [hflushable, Bool.not_true, Bool.false_eq_true, if_false]
      by_cases hinterrupted : interruptedSend operation = true
      · rw [if_pos hinterrupted]
        have huncertain : OperationState.DispatchUncertain ≠ .Applied := OperationState.noConfusion
        have hpark := (writes_update_operation_state operation.id huncertain operation.attempts
          (some "send interrupted mid-flush; delivery uncertain") now).bind fun _ => makes_pure true
        exact Or.inl (hpark store)
      · rw [if_neg hinterrupted, run_outboxGuarded_bind]
        have hclaimed : (store.outbox.claim_operation_for_flush operation.id now).1 = true := hmatches
        rw [if_pos hclaimed, run_read_bind]
        exact Or.inr ⟨hmatches, writes_settle_push operation _ now _⟩
    · simp only [hflushable, Bool.not_false, if_true]
      exact Or.inl ⟨[], fun _ hmem => absurd hmem List.not_mem_nil, hskip⟩

theorem writes_ensured (key : String) (new_id : MessageId) : Writes Write.beside (ensured key new_id) := by
  have hnew : Writes Write.beside (refresh_message_overlay new_id >>= fun _ => pure ()) :=
    (writes_refresh new_id).bind fun _ => makes_pure ()
  refine (writes_set_draft_alias key new_id).bind fun _ => ?_
  dsimp only
  split_ifs
  · exact (writes_refresh key).bind fun _ => hnew
  · exact hnew

theorem writes_ensureAll (gateway : MailGateway) (pending : List Operation) (wall_now : String) (mono_now : Int)
    (operations : List Operation) : Writes Write.beside (ensureAll gateway pending wall_now mono_now operations) := by
  induction operations with
  | nil => exact makes_pure ()
  | cons operation rest ih =>
    refine (writes_read _).bind fun held => ?_
    cases held with
    | none => exact ih
    | some draft =>
      obtain ⟨key, request⟩ := draft
      dsimp only
      split
      · exact (writes_ensured _ _).bind fun _ => ih
      · exact ih

theorem writes_ensure_drafts (gateway : MailGateway) (wall_now : String) (mono_now : Int) :
    Writes Write.beside (ensure_drafts_for_held_sends gateway wall_now mono_now) :=
  (writes_read _).bind fun pending => writes_ensureAll gateway pending wall_now mono_now pending

end Flush

section Sweep

theorem writes_retire_operation (op_id : OperationId) (touched : List MessageId) :
    Writes Write.beside (retire_operation op_id touched) := by
  intro store
  obtain ⟨diffs, after, hrun, hretired⟩ | ⟨error, hrun⟩ := retire_cases op_id touched store
  · rw [hrun]
    refine ⟨[.remove op_id, .derive after.message_overlay store.draft_alias store.send_alias], ?_, ?_⟩
    · intro write hmem
      obtain rfl | hmem := List.mem_cons.mp hmem
      · rfl
      · rw [List.mem_singleton.mp hmem]
        rfl
    · exact hretired.rederived.writes
  · rw [hrun]
    exact ⟨[], fun _ hmem => absurd hmem List.not_mem_nil, rfl⟩

theorem writes_adoptAll (sent_mailbox drafts_mailbox : Option MailboxId) (mint : OperationId → Minted)
    (settled : List SettledOperation) : Writes Write.beside (adoptAll sent_mailbox drafts_mailbox mint settled) := by
  induction settled with
  | nil => exact makes_pure ()
  | cons entry rest ih =>
    have hadopt : Writes Write.beside
        (adoptSend entry.operation sent_mailbox drafts_mailbox (mint entry.operation.id)) := by
      refine (writes_read _).bind fun adopted => ?_
      cases adopted with
      | none => exact makes_pure ()
      | some adopted_id =>
        have halias : Writes Write.beside (write (·.set_send_alias entry.operation.entity.id adopted_id)) :=
          writes_tables fun _ => rfl
        refine halias.bind fun _ => (writes_retire_operation _ _).bind fun _ => (writes_read _).bind fun filing => ?_
        cases filing with
        | none => exact makes_pure ()
        | some command => exact writes_replace_mailboxes adopted_id command _
    unfold adoptAll
    by_cases hsend : entry.operation.kind = .Send
    · simp only [if_pos hsend]
      exact hadopt.bind fun _ => ih
    · simp only [if_neg hsend]
      exact ih

theorem writes_adopt_sent_copies (mint : OperationId → Minted) : Writes Write.beside (adopt_sent_copies mint) :=
  (writes_read _).bind fun sent_mailbox => (writes_read _).bind fun drafts_mailbox =>
    (writes_read _).bind fun settled => writes_adoptAll sent_mailbox drafts_mailbox mint settled

theorem writes_try_repair (row_id : MessageId) (minted : Minted) :
    Writes Write.beside (try_repair_lingering_tombstone row_id minted) := by
  have hrepair : Writes Write.beside (do
      let has_op ← read fun store =>
        (store.outbox.list_pending_operations ++ store.outbox.list_unsettled_operations).any (·.entity.id == row_id)
      if has_op then return false
      let _ ← delete_draft row_id true minted
      return true) := by
    refine (writes_read _).bind fun has_op => ?_
    split_ifs
    · exact makes_pure false
    · exact (writes_delete_draft row_id true minted).bind fun _ => makes_pure true
  refine (writes_read _).bind fun entry => ?_
  split
  · refine (writes_read _).bind fun base_has_row => ?_
    by_cases hgone : (!base_has_row) = true
    · simp only [if_pos hgone]
      exact makes_pure false
    · simp only [if_neg hgone]
      exact hrepair
  · exact makes_pure false

theorem writes_sweepRows (mint : MessageId → Minted) (rows : List MessageId) :
    Writes Write.beside (sweepRows mint rows) := by
  induction rows with
  | nil => exact makes_pure ()
  | cons row rest ih =>
    refine Makes.bind ?_ fun _ => ih
    refine (writes_try_repair row (mint row)).bind fun repaired => ?_
    split_ifs
    · exact (writes_refresh row).bind fun _ => makes_pure ()
    · exact makes_pure ()

end Sweep

end posthaste.service
