import Posthaste.Service.Draft

open serde posthaste.model posthaste.store

namespace posthaste.service

open MailService

/-- The originating-draft key a send request carries. -/
def composeKey (request : SendMessageRequest) : Option String := request.draft_id.bind str.nonBlank

/-- The gates a send rests behind: an undo hold on the monotonic clock, or a date on the wall clock. -/
def sendGates (request : SendMessageRequest) (normalize_send_at : String → Except String String) (mono_now : Int) :
    Except ServiceError (Option String × Option Int) :=
  match request.undo_window_seconds with
  | some window => .ok (none, some (mono_now + window.toNat))
  | none =>
    match request.send_at with
    | none => .ok (none, none)
    | some raw =>
      match normalize_send_at raw with
      | .ok send_at => .ok (some send_at, none)
      | .error error => .error (.Gateway (.Rejected error))

/-- Materialize what the send consumes: a known key, or on a held send any key, minted if there is none. -/
def materializeKey (compose_key : Option String) (held : Bool) (minted_key : String) : MailService (Option String) := do
  match compose_key with
  | some key => do
    let registered := (← read (·.resolve_draft_entity key)).isSome
    if registered || (← draft_message_exists key) then
      if !registered then write (·.set_draft_alias key key)
      return some key
    else if held then
      write (·.set_draft_alias key key)
      return some key
    else return none
  | none =>
    if held then
      write (·.set_draft_alias minted_key minted_key)
      return some minted_key
    else return none

/-- Enqueue an outgoing message local-first and fold its effects. -/
def enqueue_send_with_operation_id (request : SendMessageRequest)
    (normalize_send_at : String → Except String String) (minted : Minted) : MailService Operation := do
  let (send_at, hold_until_mono) ← fallible (sendGates request normalize_send_at minted.mono_now)
  let held := send_at.isSome || hold_until_mono.isSome
  let consumes_key ← materializeKey (composeKey request) held s!"draft-local-{minted.id}"
  let payload := to_value { request with undo_window_seconds := none, send_at := none, draft_id := consumes_key }
  let operation ←
    queue_operation_with_id minted.operation_id ⟨.Message, SEND_ENTITY_ID_PREFIX ++ minted.id⟩ .Send payload
      send_at hold_until_mono minted.now
  let consumed_live ← read fun store => consumes_key.map (liveDraftId store)
  let _ ← refresh_message_overlay operation.entity.id
  match consumed_live with
  | some live_id => let _ ← refresh_message_overlay live_id
  | none => pure ()
  return operation

/-- The content of a stored send, when it decodes. -/
def sendRequest (operation : Operation) : Option SendMessageRequest :=
  match operation.intent with
  | .ok (.Send request) => some request
  | _ => none

/-- Unwind a discarded send's folded effects. -/
def unwind_send_fold (operation : Operation) : MailService Unit := do
  let _ ← refresh_message_overlay operation.entity.id
  match (sendRequest operation).bind composeKey with
  | some key => do
    let live_id ← live_draft_id key
    let _ ← refresh_message_overlay live_id
  | none => pure ()

/-- What discarding a removed operation re-derives: nothing for an assertion or a draft removal. -/
def afterDiscard (operation : Operation) (minted : Minted) : MailService Unit := do
  if operation.kind = .Send then
    unwind_send_fold operation
    match sendRequest operation with
    | some request =>
      match composeKey request with
      | some key => let _ ← save_draft (some key) request minted
      | none => pure ()
    | none => pure ()
  else if operation.kind.is_draft_save then
    let live_id ← live_draft_id operation.entity.id
    let _ ← refresh_message_overlay live_id

/-- Remove a queued or failed operation. Whether it was there to remove. -/
def discard_operation (operation_id : OperationId) (minted : Minted) : MailService Bool := do
  let snapshot ← read (·.outbox.get_operation operation_id)
  if ← outboxGuarded (·.remove_operation_unless_inflight operation_id) then
    match snapshot with
    | some operation => afterDiscard operation minted
    | none => pure ()
    return true
  else
    match ← read (·.outbox.get_operation operation_id) with
    | some operation =>
      if operation.state = .Inflight then
        raise (.Gateway (.Rejected "cannot discard an in-flight operation"))
      else return false
    | none => return false

end posthaste.service
