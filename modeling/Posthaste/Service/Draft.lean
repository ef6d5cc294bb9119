import Posthaste.Service.Mutation

open serde posthaste.model posthaste.store

namespace posthaste.service

open MailService

/-- The live id a stable draft key currently maps to. -/
def liveDraftId (store : DatabaseStore) (draft_key : String) : MessageId :=
  (store.resolve_draft_entity draft_key).getD draft_key

def live_draft_id (draft_key : String) : MailService MessageId := read (liveDraftId · draft_key)

/-- Whether the key names a message the effective plane files in some mailbox. -/
def draftMessageExists (store : DatabaseStore) (draft_key : String) : Bool :=
  (store.effective draft_key).any fun row => !row.mailbox_ids.toList.isEmpty

def draft_message_exists (draft_key : String) : MailService Bool := read (draftMessageExists · draft_key)

/-- The create-or-update choice of a save, which registers an unknown key. -/
def draftSaveKind (key : String) : MailService OperationKind := do
  match ← read (·.resolve_draft_entity key) with
  | some _ => return .DraftUpdate
  | none => do
    write (·.set_draft_alias key key)
    if ← draft_message_exists key then return .DraftUpdate else return .DraftCreate

def isQueuedSave (key : String) (operation : Operation) : Bool :=
  operation.entity == ⟨.Draft, key⟩ && operation.kind.is_draft_save && operation.state == .Pending

/-- Replace the payload of the key's newest queued save, unless a claim won the race. -/
def coalesceSave (key : String) (payload : Value) (now : Timestamp) : MailService (Option Operation) := do
  match ← read fun store => store.outbox.list_pending_operations.reverse.find? (isQueuedSave key) with
  | some queued => do
    if ← outboxGuarded (·.replace_operation_payload queued.id payload now) then
      read (·.outbox.get_operation queued.id)
    else return none
  | none => return none

/-- Save a draft local-first: queue the save, or coalesce it into a queued one, and derive its row. -/
def save_draft (draft_key : Option MessageId) (request : SendMessageRequest) (minted : Minted) :
    MailService Operation := do
  let key := draft_key.getD s!"draft-local-{minted.id}"
  let kind ← draftSaveKind key
  let payload := to_value { request with draft_id := some key }
  let operation ← match ← coalesceSave key payload minted.now with
    | some operation => pure operation
    | none => queue_operation_with_id minted.operation_id ⟨.Draft, key⟩ kind payload none none minted.now
  let live_id ← live_draft_id key
  let _ ← refresh_message_overlay live_id
  return operation

/-- Delete a draft local-first, under its stable key. -/
def delete_draft (draft_key : MessageId) (idempotent_redelivery : Bool) (minted : Minted) :
    MailService Operation := do
  if (← read (·.resolve_draft_entity draft_key)).isNone then write (·.set_draft_alias draft_key draft_key)
  let live_id ← live_draft_id draft_key
  let payload := Value.object [("idempotentRedelivery", .bool idempotent_redelivery)]
  let operation ←
    queue_operation_with_id minted.operation_id ⟨.Draft, draft_key⟩ .DraftDelete payload none none minted.now
  let _ ← refresh_message_overlay live_id
  return operation

/-- Take the key's queued and failed saves out of the log. Whether another save
    may have reached the provider. -/
def supersedeSaves (key : String) : List Operation → MailService Bool
  | [] => return false
  | existing :: rest => do
    if existing.entity = ⟨.Draft, key⟩ ∧ existing.kind.is_draft_save then
      let reached ←
        if existing.state = .Pending ∨ existing.state = .Failed then do
          let removed ← outboxGuarded (·.remove_operation_unless_inflight existing.id)
          pure !removed
        else pure true
      let later ← supersedeSaves key rest
      return reached || later
    else supersedeSaves key rest

/-- Discard a draft, user-initiated. -/
def discard_draft (draft_key : MessageId) (minted : Minted) : MailService Unit := do
  let resolved ← read (·.resolve_draft_entity draft_key)
  let live_id := resolved.getD draft_key
  if (← get_message_summary live_id).isNone then notFound "draft" live_id
  let pending ← read (·.outbox.list_pending_operations)
  let save_may_have_reached_provider ← supersedeSaves draft_key pending
  let base_has_row ← read fun store => (store.read_base_on live_id).isSome
  let rotated := resolved.any (· ≠ draft_key)
  if base_has_row || save_may_have_reached_provider || rotated then
    let _ ← delete_draft draft_key false minted
  else
    write (·.remove_draft_alias draft_key)
    let _ ← refresh_message_overlay live_id

end posthaste.service
