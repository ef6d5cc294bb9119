import Posthaste.Service.Push
import Posthaste.Store.Sync

open serde posthaste.model posthaste.store

namespace posthaste.service

open MailService

def upsert_message_batch (record : MessageRecord) : SyncBatch := { (default : SyncBatch) with messages := [record] }

def delete_message_batch (message_id : MessageId) : SyncBatch :=
  { (default : SyncBatch) with deleted_message_ids := [message_id] }

/-- The sync position an operation rests behind, when the provider returned one for messages. -/
def watermarkOf (cursor : Option SyncCursor) : Option String :=
  (cursor.filter (·.object_type == .Message)).map SyncCursor.state

/-- The base write of a settlement: the readback, raw. -/
def readbackBatch (readback : MessageReadback) (target_id : MessageId) : SyncBatch :=
  match readback with
  | .Present record => upsert_message_batch record
  | .Removed => delete_message_batch target_id

def applyBatch (batch : SyncBatch) : MailService Unit :=
  transaction fun store => (store.apply_sync_batch batch).map fun after => ((), after)

theorem run_applyBatch_of_ok {batch : SyncBatch} {store after : DatabaseStore}
    (happly : store.apply_sync_batch batch = .ok after) : (applyBatch batch).run store = .ok () after := by
  unfold applyBatch
  rw [run_transaction, happly]
  rfl

theorem run_applyBatch_of_error {batch : SyncBatch} {store : DatabaseStore} {error : StoreError}
    (happly : store.apply_sync_batch batch = .error error) :
    (applyBatch batch).run store = .error (.Store error) store := by
  unfold applyBatch
  rw [run_transaction, happly]
  rfl

/-- Settle a message assertion from the provider outcome. -/
def settle_message_operation (operation : Operation) (readback : Option MessageReadback) (rejected : Option String)
    (cursor : Option SyncCursor) (retargeted_to : Option MessageId) (settled_at_mono : Int) (now : Timestamp) :
    MailService Unit := do
  let message_id := operation.entity.id
  let target_id := retargeted_to.getD message_id
  if readback.isSome || rejected.isSome then outbox (·.remove_operation operation.id)
  else outbox (·.mark_operation_settled operation.id settled_at_mono (watermarkOf cursor) now)
  match readback with
  | some readback => applyBatch (readbackBatch readback target_id)
  | none => pure ()
  let _ ← refresh_message_overlay message_id
  if retargeted_to.isSome then
    let _ ← refresh_message_overlay target_id

/-- A settled send retires the draft it consumed: the mapping is forgotten, and
    the live row is hidden until sync prunes it from base. -/
def retireConsumedDraft (key : String) : MailService Unit := do
  let live_id ← live_draft_id key
  write (·.remove_draft_alias key)
  let base_has_row ← read fun store => (store.read_base_on live_id).isSome
  if base_has_row then write (·.tombstone_overlay_tx live_id) else write (·.remove_overlay_tx live_id)

/-- Overlay maintenance after a content operation settled. -/
def settle_content_op_overlay (operation : Operation) (old_live new_live : MessageId) : MailService Unit := do
  if operation.kind = .Send then
    match (sendRequest operation).bind composeKey with
    | some key => retireConsumedDraft key
    | none => pure ()
  if old_live ≠ new_live then
    let _ ← refresh_message_overlay old_live
  refreshAll (← op_touched_row_ids operation)

/-- Settle a draft or send operation the provider accepted. -/
def settle_entity_operation (operation : Operation) (assigned_entity_id : Option String) (cursor : Option SyncCursor)
    (settled_at_mono : Int) (now : Timestamp) : MailService Unit := do
  let old_live ← read fun store =>
    if operation.entity.kind = .Draft then liveDraftId store operation.entity.id else operation.entity.id
  match assigned_entity_id with
  | some new_id =>
    if new_id ≠ operation.entity.id then write (·.set_draft_alias operation.entity.id new_id)
  | none => pure ()
  let new_live := assigned_entity_id.getD old_live
  if operation.kind = .DraftDelete then write (·.remove_draft_alias operation.entity.id)
  if operation.kind.is_draft_save ∨ operation.kind = .Send then
    outbox (·.mark_operation_settled operation.id settled_at_mono (watermarkOf cursor) now)
    settle_content_op_overlay operation old_live new_live
  else outbox (·.remove_operation operation.id)

end posthaste.service
