import Posthaste.Library.Table
import Posthaste.DomainModel.Outbox

open serde posthaste.model

namespace posthaste.store

/-- A row of `outbox_operation`: the operation and its truncation markers. -/
structure OperationRow where
  operation : Operation
  settled_at_mono : Option Int
  settled_watermark : Option String

def OperationRow.id (row : OperationRow) : OperationId := row.operation.id

/-- A settled operation with its truncation markers. -/
structure SettledOperation where
  operation : Operation
  settled_at_mono : Option Int
  watermark : Option String

/-- The operation log of one account, in rowid order. -/
abbrev OutboxTable := Table OperationRow OperationRow.id

namespace OutboxTable

def OUTBOX_FLUSH_BATCH_LIMIT : Nat := 200

/-- The stored operations, oldest first. -/
def operations (outbox : OutboxTable) : List Operation := outbox.rows.map OperationRow.operation

def get_operation (outbox : OutboxTable) (id : OperationId) : Option Operation :=
  (outbox.find id).map OperationRow.operation

def enqueue_operation (outbox : OutboxTable) (operation : Operation) : OutboxTable :=
  outbox.insertOrIgnore { operation, settled_at_mono := none, settled_watermark := none }

def list_flushable_operations (outbox : OutboxTable) (wall_now : String) (mono_now : Int) : List Operation :=
  (outbox.operations.filter fun operation =>
    operation.state.is_flushable &&
    operation.send_at.all (· ≤ wall_now) &&
    operation.hold_until_mono.all (· ≤ mono_now)).take OUTBOX_FLUSH_BATCH_LIMIT

def list_pending_operations (outbox : OutboxTable) : List Operation :=
  outbox.operations.filter fun operation => operation.state != .Applied

/-- The fold's source: failed intents drop out, failed content stays. -/
def list_unsettled_operations (outbox : OutboxTable) : List Operation :=
  outbox.operations.filter fun operation =>
    operation.state != .Failed || OperationKind.CONTENT_KINDS.contains operation.kind

def list_settled_operations (outbox : OutboxTable) : List SettledOperation :=
  (outbox.rows.filter fun row => row.operation.state == .Applied).map fun row =>
    { operation := row.operation, settled_at_mono := row.settled_at_mono, watermark := row.settled_watermark }

def find_operation_by_entity_id (outbox : OutboxTable) (entity_id : String) (kind : OperationKind) :
    Option Operation :=
  outbox.operations.find? fun operation => operation.entity.id == entity_id && operation.kind == kind

/-- `UPDATE … WHERE id = ? AND state IN (…)`: rewrites the row in one of the guarded states. -/
def updateWhereState (outbox : OutboxTable) (id : OperationId) (guard : OperationState → Bool)
    (change : OperationRow → OperationRow) (hid : ∀ row, (change row).id = row.id) : OutboxTable :=
  outbox.updateIf id (fun row => guard row.operation.state) change hid

/-- Whether a guarded statement on the row changes anything. -/
def matchesState (outbox : OutboxTable) (id : OperationId) (guard : OperationState → Bool) : Bool :=
  (outbox.get_operation id).any fun operation => guard operation.state

def update_operation_state (outbox : OutboxTable) (id : OperationId) (state : OperationState) (attempts : UInt32)
    (last_error : Option String) (now : Timestamp) : OutboxTable :=
  outbox.updateWhereState id (fun _ => true)
    (fun row => { row with operation := { row.operation with state, attempts, last_error, updated_at := now } })
    fun _ => rfl

def replace_operation_payload (outbox : OutboxTable) (id : OperationId) (payload : Value) (now : Timestamp) :
    Bool × OutboxTable :=
  (outbox.matchesState id (· == .Pending),
    outbox.updateWhereState id (· == .Pending)
      (fun row =>
        { row with operation := { row.operation with payload, attempts := 0, last_error := none, updated_at := now } })
      fun _ => rfl)

def mark_operation_settled (outbox : OutboxTable) (id : OperationId) (settled_at_mono : Int)
    (watermark : Option String) (now : Timestamp) : OutboxTable :=
  outbox.updateWhereState id (fun _ => true)
    (fun row => {
      operation := { row.operation with state := .Applied, updated_at := now }
      settled_at_mono := some settled_at_mono
      settled_watermark := watermark })
    fun _ => rfl

def remove_operation (outbox : OutboxTable) (id : OperationId) : OutboxTable :=
  outbox.deleteIf id fun _ => true

/-- The flusher's half of the cancel-against-flush race. -/
def claim_operation_for_flush (outbox : OutboxTable) (id : OperationId) (now : Timestamp) : Bool × OutboxTable :=
  (outbox.matchesState id OperationState.is_flushable,
    outbox.updateWhereState id OperationState.is_flushable
      (fun row => { row with operation := { row.operation with state := .Inflight, updated_at := now } })
      fun _ => rfl)

def unlessInflight : OperationState → Bool
  | .Inflight | .Applied => false
  | _ => true

/-- The cancel half of the race: neither an inflight nor a settled row is removed. -/
def remove_operation_unless_inflight (outbox : OutboxTable) (id : OperationId) : Bool × OutboxTable :=
  (outbox.matchesState id unlessInflight,
    outbox.deleteIf id fun row => unlessInflight row.operation.state)

section Reads

variable {outbox : OutboxTable} {id : OperationId} {operation : Operation}

theorem get_operation_eq_some_iff :
    outbox.get_operation id = some operation ↔ operation ∈ outbox.operations ∧ operation.id = id := by
  unfold get_operation operations
  rw [Option.map_eq_some_iff]
  constructor
  · rintro ⟨row, hfind, rfl⟩
    have hid : row.id = id := Table.find_key hfind
    exact ⟨List.mem_map_of_mem (Table.mem_of_find hfind), hid⟩
  · rintro ⟨hmem, hid⟩
    obtain ⟨row, hrow, rfl⟩ := List.mem_map.mp hmem
    exact ⟨row, Table.find_eq_some_iff.mpr ⟨hrow, hid⟩, rfl⟩

theorem id_of_get (hget : outbox.get_operation id = some operation) : operation.id = id :=
  (get_operation_eq_some_iff.mp hget).2

theorem mem_of_get (hget : outbox.get_operation id = some operation) : operation ∈ outbox.operations :=
  (get_operation_eq_some_iff.mp hget).1

theorem get_of_mem (hmem : operation ∈ outbox.operations) : outbox.get_operation operation.id = some operation :=
  get_operation_eq_some_iff.mpr ⟨hmem, rfl⟩

theorem get_operation_eq_none_iff :
    outbox.get_operation id = none ↔ ∀ operation ∈ outbox.operations, operation.id ≠ id := by
  constructor
  · intro hget operation hmem hid
    rw [← hid, get_of_mem hmem] at hget
    cases hget
  · intro hnone
    cases hget : outbox.get_operation id with
    | none => rfl
    | some operation => exact absurd (id_of_get hget) (hnone operation (mem_of_get hget))

theorem ids_nodup : (outbox.operations.map Operation.id).Nodup := by
  unfold operations
  rw [List.map_map]
  exact outbox.keys_nodup

end Reads

section Statements

variable (outbox : OutboxTable) (id : OperationId)

theorem operations_enqueue_of_fresh {operation : Operation} (hfresh : outbox.get_operation operation.id = none) :
    (outbox.enqueue_operation operation).operations = outbox.operations ++ [operation] := by
  have hnone : outbox.find operation.id = none := by simpa [get_operation] using hfresh
  unfold operations enqueue_operation
  rw [Table.rows_insertOrIgnore_of_fresh hnone, List.map_append, List.map_singleton]

theorem operations_remove :
    (outbox.remove_operation id).operations = outbox.operations.filter fun operation => operation.id ≠ id := by
  unfold operations remove_operation Table.deleteIf
  simp only [and_true, List.filter_map, Function.comp_def, OperationRow.id, ne_eq, decide_not]

theorem get_updateWhereState {guard : OperationState → Bool} {change : OperationRow → OperationRow}
    {hid : ∀ row, (change row).id = row.id} {rewrite : Operation → Operation}
    (hrewrite : ∀ row, (change row).operation = rewrite row.operation) :
    (outbox.updateWhereState id guard change hid).get_operation =
      Function.update outbox.get_operation id
        ((outbox.get_operation id).map fun operation => if guard operation.state then rewrite operation else operation) := by
  funext other
  unfold get_operation updateWhereState
  by_cases hother : other = id
  · subst hother
    rw [Function.update_self, Table.find_updateIf, Option.map_map, Option.map_map]
    cases hfind : outbox.find other with
    | none => rfl
    | some row =>
      have hrow : row.id = other := Table.find_key hfind
      by_cases hguard : guard row.operation.state = true
      · simp [hrow, hguard, hrewrite]
      · simp [hguard]
  · rw [Function.update_of_ne hother, Table.find_updateIf_ne hother]

theorem get_updateWhereState_always {change : OperationRow → OperationRow} {hid : ∀ row, (change row).id = row.id}
    {rewrite : Operation → Operation} (hrewrite : ∀ row, (change row).operation = rewrite row.operation) :
    (outbox.updateWhereState id (fun _ => true) change hid).get_operation =
      Function.update outbox.get_operation id ((outbox.get_operation id).map rewrite) := by
  rw [get_updateWhereState outbox id hrewrite]
  simp only [if_true]

theorem get_deleteIf {guard : OperationState → Bool} :
    get_operation (outbox.deleteIf id fun row => guard row.operation.state) =
      Function.update outbox.get_operation id
        ((outbox.get_operation id).filter fun operation => !guard operation.state) := by
  funext other
  unfold get_operation
  by_cases hother : other = id
  · subst hother
    rw [Function.update_self, Table.find_deleteIf]
    cases hfind : outbox.find other with
    | none => rfl
    | some row =>
      have hrow : row.id = other := Table.find_key hfind
      cases hguard : guard row.operation.state <;> simp [Option.filter, hrow, hguard]
  · rw [Function.update_of_ne hother, Table.find_deleteIf_ne hother]

/-- What each statement leaves under every id. -/
theorem get_enqueue_operation (operation : Operation) :
    (outbox.enqueue_operation operation).get_operation =
      Function.update outbox.get_operation operation.id
        (some ((outbox.get_operation operation.id).getD operation)) := by
  funext other
  unfold get_operation enqueue_operation
  rw [Table.find_insertOrIgnore]
  by_cases hother : other = operation.id
  · subst hother
    rw [Function.update_self]
    cases hfind : outbox.find operation.id with
    | none => simp [OperationRow.id]
    | some row => rfl
  · have hne : operation.id ≠ other := fun heq => hother heq.symm
    rw [Function.update_of_ne hother]
    cases hfind : outbox.find other with
    | none => simp [OperationRow.id, hne]
    | some row => rfl

theorem get_update_operation_state (state : OperationState) (attempts : UInt32) (last_error : Option String)
    (now : Timestamp) :
    (outbox.update_operation_state id state attempts last_error now).get_operation =
      Function.update outbox.get_operation id ((outbox.get_operation id).map fun operation =>
        { operation with state, attempts, last_error, updated_at := now }) := by
  unfold update_operation_state
  exact get_updateWhereState_always outbox id fun _ => rfl

theorem get_replace_operation_payload (payload : Value) (now : Timestamp) :
    (outbox.replace_operation_payload id payload now).2.get_operation =
      Function.update outbox.get_operation id ((outbox.get_operation id).map fun operation =>
        if operation.state == .Pending then
          { operation with payload, attempts := 0, last_error := none, updated_at := now }
        else operation) := by
  unfold replace_operation_payload
  exact get_updateWhereState outbox id fun _ => rfl

theorem get_mark_operation_settled (settled_at_mono : Int) (watermark : Option String) (now : Timestamp) :
    (outbox.mark_operation_settled id settled_at_mono watermark now).get_operation =
      Function.update outbox.get_operation id ((outbox.get_operation id).map fun operation =>
        { operation with state := .Applied, updated_at := now }) := by
  unfold mark_operation_settled
  exact get_updateWhereState_always outbox id fun _ => rfl

theorem get_claim_operation_for_flush (now : Timestamp) :
    (outbox.claim_operation_for_flush id now).2.get_operation =
      Function.update outbox.get_operation id ((outbox.get_operation id).map fun operation =>
        if operation.state.is_flushable then { operation with state := .Inflight, updated_at := now }
        else operation) := by
  unfold claim_operation_for_flush
  apply get_updateWhereState
  all_goals exact fun _ => rfl

theorem get_remove_operation :
    (outbox.remove_operation id).get_operation = Function.update outbox.get_operation id none := by
  have hdelete := @get_deleteIf outbox id fun _ => true
  unfold remove_operation
  rw [hdelete]
  cases outbox.get_operation id <;> rfl

theorem get_remove_operation_unless_inflight :
    (outbox.remove_operation_unless_inflight id).2.get_operation =
      Function.update outbox.get_operation id
        ((outbox.get_operation id).filter fun operation => !unlessInflight operation.state) := by
  unfold remove_operation_unless_inflight
  exact get_deleteIf outbox id

theorem matchesState_eq_true_iff {guard : OperationState → Bool} :
    outbox.matchesState id guard = true ↔
      ∃ operation, outbox.get_operation id = some operation ∧ guard operation.state = true := by
  unfold matchesState
  rw [Option.any_eq_true]

theorem matchesState_eq_false_iff {guard : OperationState → Bool} :
    outbox.matchesState id guard = false ↔
      ∀ operation, outbox.get_operation id = some operation → guard operation.state = false := by
  unfold matchesState
  rw [Option.any_eq_false]

end Statements

end OutboxTable

end posthaste.store
