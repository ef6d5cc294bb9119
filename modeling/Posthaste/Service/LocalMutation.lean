import Posthaste.Service.Mutation

open serde posthaste.model posthaste.store

namespace posthaste.service.local_mutation

/-- The store calls of one mutation; each commits as a whole or fails. -/
inductive StoreCall where
  | list_pending_operations
  /-- The removal of a superseded assertion. -/
  | remove_superseded (id : OperationId)
  | insert_operation
  /-- The read of the row just inserted, on another connection. -/
  | get_operation
  | read_previous
  | derive_overlay
  | delete_snooze
  | read_effective
  | append_event
  /-- The retraction of the operation after a local failure. -/
  | retract_operation
  deriving DecidableEq

/-- Which store calls fail, and with what. -/
abbrev Faults := StoreCall → Option StoreError

/-- The payload of a mutation's echo, with the effective row it carries. -/
inductive EchoPayload where
  | keywords (projection : MessageRow)
  | mailboxes (mailbox_ids arrived_mailbox_ids : List MailboxId) (projection : MessageRow)
  | deleted

/-- A `message.updated` event. -/
structure EchoEvent where
  scope_mailbox : Option MailboxId
  message_id : MessageId
  payload : EchoPayload

/-- What the local mutations read and write. -/
structure LocalPlane where
  store : DatabaseStore
  message_snooze : AList fun _ : MessageId => Int
  event_log : List EchoEvent

abbrev LocalService := EStateM ServiceError LocalPlane

/-- What one call mints, and what its clock answers. -/
structure Minted where
  operation_id : OperationId
  clock : Except String Timestamp

section Calls

variable {α : Type} (fails : Faults) (call : StoreCall)

/-- One store call: it fails and changes nothing, or its body decides. -/
def attempt (body : LocalPlane → Except StoreError (α × LocalPlane)) : LocalService α := fun plane =>
  match fails call with
  | some error => .error (.Store error) plane
  | none =>
    match body plane with
    | .ok (value, after) => .ok value after
    | .error error => .error (.Store error) plane

def reading (select : LocalPlane → α) : LocalService α := attempt fails call fun plane => .ok (select plane, plane)

def writing (change : LocalPlane → LocalPlane) : LocalService Unit :=
  attempt fails call fun plane => .ok ((), change plane)

/-- One outbox statement. -/
def onOutbox (statement : OutboxTable → OutboxTable) : LocalService Unit :=
  writing fails call fun plane =>
    { plane with store := { plane.store with outbox := statement plane.store.outbox } }

def fallible : Except ServiceError α → LocalService α
  | .ok value, plane => .ok value plane
  | .error error, plane => .error error plane

def notFound (message_id : MessageId) : LocalService α :=
  fallible (.error (.Store (.NotFound s!"message:{message_id}")))

end Calls

open effects

section Runs

variable {α β : Type} {fails : Faults} {call : StoreCall} {plane : LocalPlane}

theorem run_attempt_of_fails {body : LocalPlane → Except StoreError (α × LocalPlane)} {error : StoreError}
    (hfails : fails call = some error) : (attempt fails call body).run plane = .error (.Store error) plane := by
  show attempt fails call body plane = _
  rw [attempt, hfails]

theorem run_attempt_of_ok {body : LocalPlane → Except StoreError (α × LocalPlane)} {value : α} {after : LocalPlane}
    (hfails : fails call = none) (hbody : body plane = .ok (value, after)) :
    (attempt fails call body).run plane = .ok value after := by
  show attempt fails call body plane = _
  simp only [attempt, hfails, hbody]

theorem run_attempt_of_error {body : LocalPlane → Except StoreError (α × LocalPlane)} {error : StoreError}
    (hfails : fails call = none) (hbody : body plane = .error error) :
    (attempt fails call body).run plane = .error (.Store error) plane := by
  show attempt fails call body plane = _
  simp only [attempt, hfails, hbody]

theorem run_reading (select : LocalPlane → α) (hfails : fails call = none) :
    (reading fails call select).run plane = .ok (select plane) plane :=
  run_attempt_of_ok hfails rfl

theorem run_writing (change : LocalPlane → LocalPlane) (hfails : fails call = none) :
    (writing fails call change).run plane = .ok () (change plane) :=
  run_attempt_of_ok hfails rfl

theorem run_onOutbox (statement : OutboxTable → OutboxTable) (hfails : fails call = none) :
    (onOutbox fails call statement).run plane =
      .ok () { plane with store := { plane.store with outbox := statement plane.store.outbox } } :=
  run_writing _ hfails

theorem run_onOutbox_of_fails (statement : OutboxTable → OutboxTable) {error : StoreError}
    (hfails : fails call = some error) :
    (onOutbox fails call statement).run plane = .error (.Store error) plane := by
  unfold onOutbox writing
  exact run_attempt_of_fails hfails

theorem run_fallible_ok (value : α) : (fallible (.ok value)).run plane = .ok value plane := rfl

/-- A failed store call leaves everything as it was. -/
theorem final_reading (select : LocalPlane → α) : final ((reading fails call select).run plane) = plane := by
  cases hfails : fails call with
  | none =>
    rw [run_reading select hfails]
    rfl
  | some error =>
    have hrun : (reading fails call select).run plane = .error (.Store error) plane := run_attempt_of_fails hfails
    rw [hrun]
    rfl

theorem final_fallible (outcome : Except ServiceError α) : final ((fallible outcome).run plane) = plane := by
  cases outcome <;> rfl

end Runs

section Mutation

variable (fails : Faults)

/-- The payload with a superseded assertion's own deltas under it. -/
def merged (kind : OperationKind) (existing : Operation) (payload : Value) : Except ServiceError Value :=
  if kind = .SetKeywords ∧ existing.kind = .SetKeywords then merge_set_keywords existing.payload payload
  else .ok payload

/-- Each superseded assertion leaves the log in a transaction of its own. -/
def coalesceInto (kind : OperationKind) : List Operation → Value → LocalService Value
  | [], payload => return payload
  | existing :: rest, payload => do
    let payload ← fallible (merged kind existing payload)
    onOutbox fails (.remove_superseded existing.id) (·.remove_operation existing.id)
    coalesceInto kind rest payload

def superseded (entity : OperationEntity) (kind : OperationKind) (plane : LocalPlane) : List Operation :=
  plane.store.outbox.list_pending_operations.filter (supersedes entity kind)

def coalesce_pending_assertions (entity : OperationEntity) (kind : OperationKind) (payload : Value) :
    LocalService Value := do
  let existing ← reading fails .list_pending_operations (superseded entity kind)
  coalesceInto fails kind existing payload

def now_iso8601 (minted : Minted) : Except ServiceError Timestamp :=
  minted.clock.mapError fun error => .Gateway (.Rejected error)

def persisted : Option Operation → LocalService Operation
  | some stored => return stored
  | none => fallible (.error (.Store (.Failure "outbox operation was not persisted")))

/-- The insert commits before the row is read back. -/
def enqueue_operation (operation : Operation) : LocalService Operation := do
  onOutbox fails .insert_operation (·.enqueue_operation operation)
  persisted (← reading fails .get_operation (·.store.outbox.get_operation operation.id))

def queue_message_operation (message_id : MessageId) (kind : OperationKind) (payload : Value) (minted : Minted) :
    LocalService Operation := do
  let payload ←
    if kind.is_state_assertion then coalesce_pending_assertions fails ⟨.Message, message_id⟩ kind payload
    else pure payload
  let now ← fallible (now_iso8601 minted)
  enqueue_operation fails (newOperation minted.operation_id ⟨.Message, message_id⟩ kind payload none none now)

def refresh_message_overlay (message_id : MessageId) : LocalService DeriveDiff :=
  attempt fails .derive_overlay fun plane => do
    let (diff, store) ← plane.store.derive_overlay message_id fun snapshot => fold_overlay_row snapshot message_id
    return (diff, { plane with store })

/-- The effective row that an echo carries. -/
def read_projection (message_id : MessageId) : LocalService MessageRow := do
  match ← reading fails .read_effective (·.store.effective message_id) with
  | some summary => return summary
  | none => notFound message_id

/-- The mailboxes of a replace that the message was not in before. -/
def arrived (previous : Option MessageRow) (mailbox_ids : List MailboxId) : List MailboxId :=
  mailbox_ids.filter fun id => id ∉ (previous.map fun row => row.mailbox_ids.toList).getD []

/-- The echo's payload and mailbox scope. A replace clears the return time on the way.
    No other kind is queued here, and a decode keeps the kind. -/
def echoOf (message_id : MessageId) (operation : Operation) (previous : Option MessageRow) :
    LocalService (EchoPayload × Option MailboxId) := do
  match operation.kind with
  | .SetKeywords =>
    let summary ← read_projection fails message_id
    return (.keywords summary, summary.mailbox_ids.toList.head?)
  | .ReplaceMailboxes =>
    match operation.intent with
    | .ok (.ReplaceMailboxes command) =>
      writing fails .delete_snooze fun plane =>
        { plane with message_snooze := plane.message_snooze.erase message_id }
      let summary ← read_projection fails message_id
      return (.mailboxes command.mailbox_ids (arrived previous command.mailbox_ids) summary,
        command.mailbox_ids.head?)
    | .ok _ => return (.deleted, none)
    | .error error => fallible (.error (.Gateway (.Internal error)))
  | _ => return (.deleted, previous.bind fun row => row.mailbox_ids.toList.head?)

def append_event (event : EchoEvent) : LocalService EchoEvent := do
  writing fails .append_event fun plane => { plane with event_log := plane.event_log ++ [event] }
  return event

def emitEcho (message_id : MessageId) (operation : Operation) (previous : Option MessageRow) :
    LocalService (List EchoEvent) := do
  let (payload, scope_mailbox) ← echoOf fails message_id operation previous
  let event ← append_event fails { scope_mailbox, message_id, payload }
  return [event]

/-- Derive the message's row and emit the echo of what it now shows. -/
def foldAndEcho (message_id : MessageId) (operation : Operation) (previous : Option MessageRow) :
    LocalService (List EchoEvent) := do
  let _ ← refresh_message_overlay fails message_id
  emitEcho fails message_id operation previous

/-- Fold the just-queued assertion into the overlay, unless it destroys a message that is not there. -/
def apply_assertion_to_overlay (message_id : MessageId) (operation : Operation) : LocalService (List EchoEvent) := do
  if operation.kind.is_state_assertion then
    let previous ← reading fails .read_previous (·.store.effective message_id)
    if operation.kind = .Destroy ∧ previous.isNone then notFound message_id
    else foldAndEcho fails message_id operation previous
  else return []

/-- The retraction's own failure is dropped. -/
def remove_operation_after_local_failure {α : Type} (operation : Operation) (error : ServiceError) : LocalService α := do
  tryCatch (onOutbox fails .retract_operation (·.remove_operation operation.id)) fun _ => pure ()
  fallible (.error error)

def queue_then_emit_message_operation (message_id : MessageId) (kind : OperationKind) (payload : Value)
    (minted : Minted) : LocalService (List EchoEvent) := do
  let operation ← queue_message_operation fails message_id kind payload minted
  tryCatch (apply_assertion_to_overlay fails message_id operation)
    (remove_operation_after_local_failure fails operation)

def set_keywords (message_id : MessageId) (command : SetKeywordsCommand) (minted : Minted) :
    LocalService (List EchoEvent) :=
  queue_then_emit_message_operation fails message_id .SetKeywords (to_value command) minted

def replace_mailboxes (message_id : MessageId) (command : ReplaceMailboxesCommand) (minted : Minted) :
    LocalService (List EchoEvent) :=
  queue_then_emit_message_operation fails message_id .ReplaceMailboxes (to_value command) minted

def destroy_message (message_id : MessageId) (minted : Minted) : LocalService (List EchoEvent) :=
  queue_then_emit_message_operation fails message_id .Destroy (.object []) minted

end Mutation

/-- The local mutations of one message. -/
inductive LocalMutation where
  | set_keywords (command : SetKeywordsCommand)
  | replace_mailboxes (command : ReplaceMailboxesCommand)
  | destroy_message

namespace LocalMutation

def kind : LocalMutation → OperationKind
  | .set_keywords _ => .SetKeywords
  | .replace_mailboxes _ => .ReplaceMailboxes
  | .destroy_message => .Destroy

def payload : LocalMutation → Value
  | .set_keywords command => to_value command
  | .replace_mailboxes command => to_value command
  | .destroy_message => .object []

def call (mutation : LocalMutation) (fails : Faults) (message_id : MessageId) (minted : Minted) :
    LocalService (List EchoEvent) :=
  match mutation with
  | .set_keywords command => local_mutation.set_keywords fails message_id command minted
  | .replace_mailboxes command => local_mutation.replace_mailboxes fails message_id command minted
  | .destroy_message => local_mutation.destroy_message fails message_id minted

theorem call_eq (mutation : LocalMutation) (fails : Faults) (message_id : MessageId) (minted : Minted) :
    mutation.call fails message_id minted =
      queue_then_emit_message_operation fails message_id mutation.kind mutation.payload minted := by
  cases mutation <;> rfl

theorem asserts (mutation : LocalMutation) : mutation.kind.is_state_assertion = true := by
  cases mutation <;> rfl

end LocalMutation

end posthaste.service.local_mutation
