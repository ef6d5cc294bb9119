import Posthaste.Service.Replay

open serde posthaste.model posthaste.replica posthaste.store

namespace posthaste.service

/-- A service call over the account's store. What it wrote before it failed stays written. -/
abbrev MailService := EStateM ServiceError DatabaseStore

namespace MailService

def fallible {α : Type} : Except ServiceError α → MailService α
  | .ok value, store => .ok value store
  | .error error, store => .error error store

def read {α : Type} (select : DatabaseStore → α) : MailService α := fun store => .ok (select store) store

def write (change : DatabaseStore → DatabaseStore) : MailService Unit := fun store => .ok () (change store)

/-- One outbox statement. -/
def outbox (statement : OutboxTable → OutboxTable) : MailService Unit :=
  write fun store => { store with outbox := statement store.outbox }

/-- One guarded outbox statement, with whether it matched. -/
def outboxGuarded (statement : OutboxTable → Bool × OutboxTable) : MailService Bool := fun store =>
  .ok (statement store.outbox).1 { store with outbox := (statement store.outbox).2 }

/-- One store transaction: it commits as a whole or changes nothing. -/
def transaction {α : Type} (body : DatabaseStore → Except StoreError (α × DatabaseStore)) : MailService α := fun store =>
  match body store with
  | .ok (value, after) => .ok value after
  | .error error => .error (.Store error) store

variable {α β : Type}

@[simp] theorem run_pure (value : α) (store : DatabaseStore) :
    (pure value : MailService α).run store = .ok value store := rfl

@[simp] theorem run_pure_bind (value : α) (next : α → MailService β) (store : DatabaseStore) :
    (pure value >>= next).run store = (next value).run store := rfl

@[simp] theorem run_read_bind (select : DatabaseStore → α) (next : α → MailService β) (store : DatabaseStore) :
    (read select >>= next).run store = (next (select store)).run store := rfl

@[simp] theorem run_write_bind (change : DatabaseStore → DatabaseStore) (next : Unit → MailService β)
    (store : DatabaseStore) : (write change >>= next).run store = (next ()).run (change store) := rfl

@[simp] theorem run_outbox_bind (statement : OutboxTable → OutboxTable) (next : Unit → MailService β)
    (store : DatabaseStore) :
    (outbox statement >>= next).run store = (next ()).run { store with outbox := statement store.outbox } := rfl

@[simp] theorem run_outboxGuarded_bind (statement : OutboxTable → Bool × OutboxTable) (next : Bool → MailService β)
    (store : DatabaseStore) :
    (outboxGuarded statement >>= next).run store =
      (next (statement store.outbox).1).run { store with outbox := (statement store.outbox).2 } := rfl

@[simp] theorem run_fallible_ok (value : α) (store : DatabaseStore) :
    (fallible (.ok value) : MailService α).run store = .ok value store := rfl

@[simp] theorem run_fallible_error (error : ServiceError) (store : DatabaseStore) :
    (fallible (.error error) : MailService α).run store = .error error store := rfl

@[simp] theorem run_fallible_ok_bind (value : α) (next : α → MailService β) (store : DatabaseStore) :
    (fallible (.ok value) >>= next).run store = (next value).run store := rfl

@[simp] theorem run_fallible_error_bind (error : ServiceError) (next : α → MailService β) (store : DatabaseStore) :
    (fallible (.error error) >>= next).run store = .error error store := rfl

theorem run_transaction (body : DatabaseStore → Except StoreError (α × DatabaseStore)) (store : DatabaseStore) :
    (transaction body).run store =
      match body store with
      | .ok (value, after) => .ok value after
      | .error error => .error (.Store error) store := rfl

end MailService

open MailService

def decode_payload {α : Type} [Deserialize α] (value : Value) (context : String) : Except ServiceError α :=
  match from_value value with
  | .ok decoded => .ok decoded
  | .error error => .error (.Gateway (.Internal s!"invalid {context}: {error}"))

/-- Merge two keyword patches into one. -/
def merge_set_keywords (older newer : Value) : Except ServiceError Value := do
  let older : SetKeywordsCommand ← decode_payload older "setKeywords payload to coalesce"
  let newer : SetKeywordsCommand ← decode_payload newer "setKeywords payload to coalesce"
  let add := (older.add ++ newer.add).filter fun keyword => keyword ∉ newer.remove
  let remove := (older.remove ++ newer.remove).filter fun keyword => keyword ∉ newer.add
  return to_value ({
    add := (BTreeSet.from_iter add).toList
    remove := (BTreeSet.from_iter remove).toList } : SetKeywordsCommand)

/-- Whether a new assertion of this kind supersedes the stored operation. -/
def supersedes (entity : OperationEntity) (kind : OperationKind) (existing : Operation) : Bool :=
  existing.entity = entity && existing.kind.is_state_assertion && existing.state = .Pending &&
    match kind with
    | .Destroy => true
    | .ReplaceMailboxes => existing.kind = .ReplaceMailboxes
    | .SetKeywords => existing.kind = .SetKeywords
    | _ => false

def coalesceInto (kind : OperationKind) : List Operation → Value → MailService Value
  | [], payload => return payload
  | existing :: rest, payload => do
    let payload ←
      if kind = .SetKeywords ∧ existing.kind = .SetKeywords then
        fallible (merge_set_keywords existing.payload payload)
      else pure payload
    outbox (·.remove_operation existing.id)
    coalesceInto kind rest payload

/-- Supersede pending assertions for an entity, oldest first. -/
def coalesce_pending_assertions (entity : OperationEntity) (kind : OperationKind) (payload : Value) :
    MailService Value := do
  let superseded ← read fun store => store.outbox.list_pending_operations.filter (supersedes entity kind)
  coalesceInto kind superseded payload

/-- Persist an operation, unless its id is stored already. -/
def enqueue_operation (operation : Operation) : MailService Operation := do
  outbox (·.enqueue_operation operation)
  match ← read fun store => store.outbox.get_operation operation.id with
  | some stored => return stored
  | none => fallible (.error (.Store (.Failure "outbox operation was not persisted")))

def newOperation (operation_id : OperationId) (entity : OperationEntity) (kind : OperationKind) (payload : Value)
    (send_at : Option String) (hold_until_mono : Option Int) (now : Timestamp) : Operation where
  id := operation_id
  entity := entity
  kind := kind
  payload := payload
  payload_version := 1
  state := .Pending
  attempts := 0
  last_error := none
  send_at := send_at
  hold_until_mono := hold_until_mono
  created_at := now
  updated_at := now

/-- Construct and enqueue an operation; state assertions coalesce first. -/
def queue_operation_with_id (operation_id : OperationId) (entity : OperationEntity) (kind : OperationKind)
    (payload : Value) (send_at : Option String) (hold_until_mono : Option Int) (now : Timestamp) :
    MailService Operation := do
  let payload ←
    if kind.is_state_assertion then coalesce_pending_assertions entity kind payload else pure payload
  enqueue_operation (newOperation operation_id entity kind payload send_at hold_until_mono now)

/-- Re-arm a failed or parked operation. The state is checked on an earlier read
    than the row the update writes. -/
def retry_operation (operation_id : OperationId) (now : Timestamp) : MailService Bool := do
  match ← read fun store => store.outbox.get_operation operation_id with
  | none => return false
  | some operation =>
    if operation.state = .Failed ∨ operation.state = .DispatchUncertain then do
      outbox (·.update_operation_state operation_id .Pending operation.attempts none now)
      return true
    else
      fallible (.error (.Gateway (.Rejected "only failed or dispatch-uncertain operations can be retried")))

end posthaste.service
