import Posthaste.Service.Settle

open serde posthaste.model posthaste.store

namespace posthaste.service

open MailService

def refreshTouched (operation : Operation) : MailService Unit := do
  refreshAll (← op_touched_row_ids operation)

/-- Route a push failure. Whether the drain goes on. -/
def settle_failure (operation : Operation) (error : FlushError) (now : Timestamp) : MailService Bool := do
  outbox (·.update_operation_state operation.id (failureState error.disposition)
    (failureAttempts operation error.disposition) (some error.message) now)
  match error.disposition with
  | .Permanent | .Uncertain => refreshTouched operation
  | .Transient | .Defer => pure ()
  return !stopsDrain operation error.disposition

/-- A no-op assertion on an unadopted send's row leaves the log. -/
def settle_noop (operation : Operation) : MailService Unit := do
  outbox (·.remove_operation operation.id)
  let _ ← refresh_message_overlay operation.entity.id

/-- Route a push outcome. Whether the drain goes on. -/
def settle_push (operation : Operation) (pushed : Except FlushError Pushed) (settled_at_mono : Int) (now : Timestamp) :
    MailService Bool := do
  match pushed with
  | .ok (.Entity assigned_entity_id _ cursor) => do
    settle_entity_operation operation assigned_entity_id cursor settled_at_mono now
    return true
  | .ok (.Message readback rejected cursor retargeted_to) => do
    settle_message_operation operation readback rejected cursor retargeted_to settled_at_mono now
    return true
  | .ok .NoOp => do
    settle_noop operation
    return true
  | .error error => settle_failure operation error now

/-- One operation of a flush pass: re-fetch, park or claim, push, settle. -/
def flush_operation (gateway : MailGateway) (id : OperationId) (settled_at_mono : Int) (now : Timestamp) :
    MailService Bool := do
  match ← read (·.outbox.get_operation id) with
  | none => return true
  | some operation =>
    if !operation.state.is_flushable then return true
    else if interruptedSend operation then
      outbox (·.update_operation_state id .DispatchUncertain operation.attempts
        (some "send interrupted mid-flush; delivery uncertain") now)
      return true
    else if ← outboxGuarded (·.claim_operation_for_flush id now) then
      let pushed ← read (push_operation gateway · operation)
      settle_push operation pushed settled_at_mono now
    else return true

def drain (gateway : MailGateway) (settled_at_mono : Int) (now : Timestamp) : List OperationId → MailService Unit
  | [] => return ()
  | id :: rest => do
    if ← flush_operation gateway id settled_at_mono now then drain gateway settled_at_mono now rest

/-- The draft key a held send must have a provider draft under, when nothing else makes one. -/
def ensureKey (store : DatabaseStore) (pending : List Operation) (wall_now : String) (mono_now : Int)
    (operation : Operation) : Option (String × SendMessageRequest) :=
  if operation.kind ≠ .Send ∨ operation.state ≠ .Pending then none
  else if !(operation.send_at.any (wall_now < ·) || operation.hold_until_mono.any (mono_now < ·)) then none
  else
    match sendRequest operation with
    | none => none
    | some request =>
      match composeKey request with
      | none => none
      | some key =>
        if store.resolve_draft_entity key ≠ some key then none
        else if pending.any fun other =>
          other.entity == ⟨.Draft, key⟩ && other.kind.is_draft_save && other.state.is_flushable then none
        else some (key, request)

/-- Record the provider draft made for a held send and move its row there. -/
def ensured (key : String) (new_id : MessageId) : MailService Unit := do
  write (·.set_draft_alias key new_id)
  if new_id ≠ key then
    let _ ← refresh_message_overlay key
  let _ ← refresh_message_overlay new_id

def ensureAll (gateway : MailGateway) (pending : List Operation) (wall_now : String) (mono_now : Int) :
    List Operation → MailService Unit
  | [] => return ()
  | operation :: rest => do
    match ← read (ensureKey · pending wall_now mono_now operation) with
    | none => pure ()
    | some (key, request) =>
      match gateway.save_draft request none false operation.id with
      | .ok new_id => ensured key new_id
      | .error _ => pure ()
    ensureAll gateway pending wall_now mono_now rest

/-- Held sends get their provider draft eagerly, before the drain. -/
def ensure_drafts_for_held_sends (gateway : MailGateway) (wall_now : String) (mono_now : Int) : MailService Unit := do
  let pending ← read (·.outbox.list_pending_operations)
  ensureAll gateway pending wall_now mono_now pending

/-- Flush every flushable operation, oldest first. -/
def flush_account (gateway : MailGateway) (wall_now : String) (mono_now : Int) (now : Timestamp) :
    MailService Unit := do
  ensure_drafts_for_held_sends gateway wall_now mono_now
  let queued ← read fun store => (store.outbox.list_flushable_operations wall_now mono_now).map Operation.id
  drain gateway mono_now now queued

end posthaste.service
