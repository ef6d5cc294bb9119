import Posthaste.Service.Flush
import Posthaste.Service.SyncWrites

open serde posthaste.model posthaste.store

namespace posthaste.service

open MailService effects

/-- What a call does to the log, also where it fails. -/
def Logs {α : Type} (change : OutboxTable → OutboxTable) (call : MailService α) : Prop :=
  ∀ store, (final (call.run store)).outbox = change store.outbox

/-- A call that leaves the log alone. -/
abbrev KeepsLog {α : Type} (call : MailService α) : Prop := Logs id call

section Parts

variable {α β : Type} {change : OutboxTable → OutboxTable}

theorem Logs.bind {first : MailService α} {next : α → MailService β} (hfirst : Logs change first)
    (hnext : ∀ value, KeepsLog (next value)) : Logs change (first >>= next) := by
  intro store
  have hmiddle := hfirst store
  cases hrun : first.run store with
  | error error middle =>
    rw [hrun] at hmiddle
    rw [run_bind_of_error hrun]
    exact hmiddle
  | ok value middle =>
    rw [hrun] at hmiddle
    rw [run_bind_of_ok hrun]
    exact (hnext value middle).trans hmiddle

theorem keepsLog_pure (value : α) : KeepsLog (pure value : MailService α) := fun _ => rfl

theorem keepsLog_read (select : DatabaseStore → α) : KeepsLog (read select) := fun _ => rfl

theorem keepsLog_write {change : DatabaseStore → DatabaseStore}
    (hchange : ∀ store, (change store).outbox = store.outbox) : KeepsLog (write change) := hchange

theorem logs_outbox (statement : OutboxTable → OutboxTable) : Logs statement (outbox statement) := fun _ => rfl

theorem keepsLog_refresh (message_id : MessageId) : KeepsLog (refresh_message_overlay message_id) := by
  intro store
  obtain ⟨rows, hderived⟩ := onlyDerives_refresh message_id store
  rw [hderived.inputs]
  rfl

theorem keepsLog_refreshAll (rows : List MessageId) : KeepsLog (refreshAll rows) := by
  intro store
  obtain ⟨derived, hderived⟩ := onlyDerives_refreshAll rows store
  rw [hderived.inputs]
  rfl

theorem keepsLog_refreshTouched (operation : Operation) : KeepsLog (refreshTouched operation) :=
  (keepsLog_read _).bind keepsLog_refreshAll

theorem keepsLog_applyBatch (batch : SyncBatch) : KeepsLog (applyBatch batch) := by
  intro store
  cases happly : store.apply_sync_batch batch with
  | error error =>
    rw [run_applyBatch_of_error happly]
    rfl
  | ok after =>
    rw [run_applyBatch_of_ok happly]
    exact outbox_apply_sync_batch happly

end Parts

section Settle

variable (operation : Operation) (settled_at_mono : Int) (now : Timestamp)

/-- What the settlement of a push does to the log. -/
def settleLog (pushed : Except FlushError Pushed) (log : OutboxTable) : OutboxTable :=
  match pushed with
  | .ok (.Entity _ _ cursor) =>
    if operation.kind.is_draft_save ∨ operation.kind = .Send then
      log.mark_operation_settled operation.id settled_at_mono (watermarkOf cursor) now
    else log.remove_operation operation.id
  | .ok (.Message readback rejected cursor _) =>
    if readback.isSome || rejected.isSome then log.remove_operation operation.id
    else log.mark_operation_settled operation.id settled_at_mono (watermarkOf cursor) now
  | .ok .NoOp => log.remove_operation operation.id
  | .error error =>
    log.update_operation_state operation.id (failureState error.disposition)
      (failureAttempts operation error.disposition) (some error.message) now

theorem logs_settle_failure (error : FlushError) :
    Logs (settleLog operation settled_at_mono now (.error error)) (settle_failure operation error now) := by
  refine (logs_outbox _).bind fun _ => ?_
  dsimp only
  split
  · exact (keepsLog_refreshTouched operation).bind fun _ => keepsLog_pure _
  · exact (keepsLog_refreshTouched operation).bind fun _ => keepsLog_pure _
  · exact keepsLog_pure _
  · exact keepsLog_pure _

theorem logs_settle_noop : Logs (settleLog operation settled_at_mono now (.ok .NoOp)) (settle_noop operation) :=
  (logs_outbox _).bind fun _ => (keepsLog_refresh _).bind fun _ => keepsLog_pure ()

private theorem keepsLog_readback {next : MailService Unit} (hnext : KeepsLog next) (readback : Option MessageReadback)
    (message_id : MessageId) :
    KeepsLog (do
      match readback with
      | some readback => applyBatch (readbackBatch readback message_id)
      | none => pure ()
      next) := by
  cases readback with
  | none => exact hnext
  | some record => exact (keepsLog_applyBatch _).bind fun _ => hnext

theorem logs_settle_message (readback : Option MessageReadback) (rejected : Option String) (cursor : Option SyncCursor)
    (retargeted_to : Option MessageId) :
    Logs (settleLog operation settled_at_mono now (.ok (.Message readback rejected cursor retargeted_to)))
      (settle_message_operation operation readback rejected cursor retargeted_to settled_at_mono now) := by
  have hderive : KeepsLog (do
      let _ ← refresh_message_overlay operation.entity.id
      if retargeted_to.isSome then
        let _ ← refresh_message_overlay (retargeted_to.getD operation.entity.id)) := by
    refine (keepsLog_refresh _).bind fun _ => ?_
    split_ifs
    · exact (keepsLog_refresh _).bind fun _ => keepsLog_pure ()
    · exact keepsLog_pure ()
  have hbase := keepsLog_readback hderive readback (retargeted_to.getD operation.entity.id)
  unfold settle_message_operation settleLog
  by_cases hdecided : (readback.isSome || rejected.isSome) = true
  · simp only [if_pos hdecided]
    exact (logs_outbox _).bind fun _ => hbase
  · simp only [if_neg hdecided]
    exact (logs_outbox _).bind fun _ => hbase

theorem keepsLog_settle_content (old_live new_live : MessageId) :
    KeepsLog (settle_content_op_overlay operation old_live new_live) := by
  have htouched : KeepsLog (do refreshAll (← op_touched_row_ids operation)) :=
    (keepsLog_read _).bind keepsLog_refreshAll
  have hrest : KeepsLog (do
      if old_live ≠ new_live then
        let _ ← refresh_message_overlay old_live
      refreshAll (← op_touched_row_ids operation)) := by
    split_ifs
    · exact (keepsLog_refresh _).bind fun _ => htouched
    · exact htouched
  have hretire : ∀ key, KeepsLog (retireConsumedDraft key) := by
    intro key
    have hforget : KeepsLog (write (·.remove_draft_alias key)) := keepsLog_write fun _ => rfl
    refine (keepsLog_read _).bind fun live_id => hforget.bind fun _ => ?_
    refine (keepsLog_read _).bind fun base_has_row => ?_
    split_ifs
    · exact keepsLog_write fun _ => rfl
    · exact keepsLog_write fun _ => rfl
  unfold settle_content_op_overlay
  by_cases hsend : operation.kind = .Send
  · simp only [if_pos hsend]
    cases (sendRequest operation).bind composeKey with
    | none => exact hrest
    | some key => exact (hretire key).bind fun _ => hrest
  · simp only [if_neg hsend]
    exact hrest

/-- The reads and alias writes before a settlement cannot fail. -/
private theorem logs_after_write {change : OutboxTable → OutboxTable} {before : DatabaseStore → DatabaseStore}
    {next : Unit → MailService Unit} (hbefore : ∀ store, (before store).outbox = store.outbox)
    (hnext : Logs change (next ())) : Logs change (write before >>= next) := by
  intro store
  rw [run_write_bind, hnext (before store), hbefore]

theorem logs_settle_entity (assigned_entity_id destroyed_entity_id : Option String) (cursor : Option SyncCursor) :
    Logs (settleLog operation settled_at_mono now (.ok (.Entity assigned_entity_id destroyed_entity_id cursor)))
      (settle_entity_operation operation assigned_entity_id cursor settled_at_mono now) := by
  intro store
  unfold settle_entity_operation
  rw [run_read_bind]
  generalize (if operation.entity.kind = .Draft then liveDraftId store operation.entity.id else operation.entity.id) =
    old_live
  revert store
  show Logs _ _
  have hsettle : Logs (settleLog operation settled_at_mono now (.ok (.Entity assigned_entity_id destroyed_entity_id cursor)))
      (do
        if operation.kind.is_draft_save ∨ operation.kind = .Send then
          outbox (·.mark_operation_settled operation.id settled_at_mono (watermarkOf cursor) now)
          settle_content_op_overlay operation old_live (assigned_entity_id.getD old_live)
        else outbox (·.remove_operation operation.id)) := by
    unfold settleLog
    by_cases hcontent : operation.kind.is_draft_save = true ∨ operation.kind = .Send
    · simp only [if_pos hcontent]
      exact (logs_outbox _).bind fun _ => keepsLog_settle_content operation _ _
    · simp only [if_neg hcontent]
      exact logs_outbox _
  have hforget : Logs (settleLog operation settled_at_mono now (.ok (.Entity assigned_entity_id destroyed_entity_id cursor)))
      (do
        if operation.kind = .DraftDelete then write (·.remove_draft_alias operation.entity.id)
        if operation.kind.is_draft_save ∨ operation.kind = .Send then
          outbox (·.mark_operation_settled operation.id settled_at_mono (watermarkOf cursor) now)
          settle_content_op_overlay operation old_live (assigned_entity_id.getD old_live)
        else outbox (·.remove_operation operation.id)) := by
    by_cases hdelete : operation.kind = .DraftDelete
    · simp only [if_pos hdelete]
      exact logs_after_write (fun _ => rfl) hsettle
    · simp only [if_neg hdelete]
      exact hsettle
  cases assigned_entity_id with
  | none => exact hforget
  | some new_id =>
    by_cases hrotated : new_id ≠ operation.entity.id
    · simp only [if_pos hrotated]
      exact logs_after_write (fun _ => rfl) hforget
    · simp only [if_neg hrotated]
      exact hforget

theorem logs_settle_push (pushed : Except FlushError Pushed) :
    Logs (settleLog operation settled_at_mono now pushed) (settle_push operation pushed settled_at_mono now) := by
  unfold settle_push
  split
  · exact (logs_settle_entity operation settled_at_mono now _ _ _).bind fun _ => keepsLog_pure true
  · exact (logs_settle_message operation settled_at_mono now _ _ _ _).bind fun _ => keepsLog_pure true
  · exact (logs_settle_noop operation settled_at_mono now).bind fun _ => keepsLog_pure true
  · exact logs_settle_failure operation settled_at_mono now _

end Settle

end posthaste.service
