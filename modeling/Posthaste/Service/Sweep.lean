import Posthaste.Service.Presence
import Posthaste.Service.Replayed
import Posthaste.Service.SyncOps

open serde posthaste.model posthaste.replica posthaste.store

namespace posthaste.service

open MailService

section Queue

variable {store : DatabaseStore}

/-- Enqueueing never fails: it returns what the id stands for afterwards. -/
theorem run_enqueue_operation (operation : Operation) :
    (enqueue_operation operation).run store =
      .ok ((store.outbox.get_operation operation.id).getD operation)
        { store with outbox := store.outbox.enqueue_operation operation } := by
  unfold enqueue_operation
  rw [run_outbox_bind, run_read_bind]
  simp only [OutboxTable.get_enqueue_operation, Function.update_self, run_pure]

/-- Only state assertions coalesce. -/
theorem run_queue_operation {kind : OperationKind} (hkind : kind.is_state_assertion = false)
    (operation_id : OperationId) (entity : OperationEntity) (payload : Value) (send_at : Option String)
    (hold_until_mono : Option Int) (now : Timestamp) :
    (queue_operation_with_id operation_id entity kind payload send_at hold_until_mono now).run store =
      .ok
        ((store.outbox.get_operation operation_id).getD
          (newOperation operation_id entity kind payload send_at hold_until_mono now))
        { store with
          outbox := store.outbox.enqueue_operation
            (newOperation operation_id entity kind payload send_at hold_until_mono now) } := by
  unfold queue_operation_with_id
  rw [hkind]
  exact run_enqueue_operation _

end Queue

section Drafts

variable {store after : DatabaseStore}

/-- An unknown key maps to itself once it is reserved. -/
def reserveKey (store : DatabaseStore) (key : String) : DatabaseStore :=
  if (store.resolve_draft_entity key).isNone then store.set_draft_alias key key else store

def deleteOperation (key : String) (idempotent_redelivery : Bool) (minted : Minted) : Operation :=
  newOperation minted.operation_id ⟨.Draft, key⟩ .DraftDelete
    (.object [("idempotentRedelivery", .bool idempotent_redelivery)]) none none minted.now

/-- What a draft removal writes before it derives the draft's row. -/
def queuedDelete (store : DatabaseStore) (key : String) (idempotent_redelivery : Bool) (minted : Minted) :
    DatabaseStore :=
  let reserved := reserveKey store key
  { reserved with outbox := reserved.outbox.enqueue_operation (deleteOperation key idempotent_redelivery minted) }

@[simp] theorem liveDraftId_reserveKey (store : DatabaseStore) (key : String) :
    liveDraftId (reserveKey store key) = liveDraftId store := by
  funext other
  unfold reserveKey
  split_ifs with hknown
  · unfold liveDraftId DatabaseStore.resolve_draft_entity DatabaseStore.set_draft_alias
    by_cases hother : other = key
    · subst hother
      have hnone : store.draft_alias.lookup other = none := Option.isNone_iff_eq_none.mp hknown
      rw [AList.lookup_insert, hnone]
      rfl
    · rw [AList.lookup_insert_ne hother]
  · rfl

/-- A draft removal queues its operation and derives the draft's live row. -/
theorem run_delete_draft (key : String) (idempotent_redelivery : Bool) (minted : Minted) :
    ∃ stored, (delete_draft key idempotent_redelivery minted).run store =
      (refresh_message_overlay (liveDraftId store key) >>= fun _ => pure stored).run
        (queuedDelete store key idempotent_redelivery minted) := by
  refine ⟨((reserveKey store key).outbox.get_operation minted.operation_id).getD
    (deleteOperation key idempotent_redelivery minted), ?_⟩
  have hqueue := @run_queue_operation (reserveKey store key) .DraftDelete rfl minted.operation_id
    ⟨.Draft, key⟩ (.object [("idempotentRedelivery", .bool idempotent_redelivery)]) none none minted.now
  have hlive : liveDraftId (reserveKey store key) key = liveDraftId store key := by rw [liveDraftId_reserveKey]
  unfold delete_draft live_draft_id
  rw [run_read_bind]
  unfold reserveKey at hqueue hlive ⊢
  unfold queuedDelete reserveKey
  split_ifs at hqueue hlive ⊢
  · rw [run_write_bind, run_read_bind, effects.run_bind_of_ok hqueue, hlive]
    rfl
  · rw [run_read_bind, effects.run_bind_of_ok hqueue]
    rfl

end Drafts

section Inventory

variable {store : DatabaseStore} {row : MessageId}

/-- The rows a replay visits, in order. -/
def inventory (store : DatabaseStore) : List MessageId :=
  (BTreeSet.from_iter
    ((store.outbox.list_unsettled_operations.filter is_replayable).flatMap (touchedRows store) ++
      store.list_overlay_message_ids)).toList

theorem run_replay_inventory : replay_inventory.run store = .ok (inventory store) store := rfl

theorem inventory_nodup : (inventory store).Nodup := (BTreeSet.sorted _).nodup

/-- A replay visits the rows with a touch in the log and the rows with an overlay entry. -/
theorem mem_inventory_iff :
    row ∈ inventory store ↔
      rowTouches (store.snapshot row) row ≠ [] ∨ (store.message_overlay.lookup row).isSome := by
  unfold inventory
  rw [← BTreeSet.mem_iff, BTreeSet.mem_from_iter, List.mem_append, DatabaseStore.list_overlay_message_ids,
    ← AList.mem_keys, AList.lookup_isSome]
  refine or_congr ?_ Iff.rfl
  rw [replayable_unsettled, List.mem_flatMap]
  constructor
  · rintro ⟨operation, hstored, htouched⟩ hnone
    obtain ⟨hmem, hreplayable⟩ := List.mem_filter.mp hstored
    rw [touchedRows_eq, List.mem_map] at htouched
    obtain ⟨⟨touched, role⟩, htouch, rfl⟩ := htouched
    have hrow : (operation, role) ∈ rowTouches (store.snapshot touched) touched :=
      mem_rowTouches_iff.mpr ⟨hmem, hreplayable, htouch⟩
    rw [hnone] at hrow
    cases hrow
  · intro hsome
    obtain ⟨⟨operation, role⟩, hmem⟩ := List.exists_mem_of_ne_nil _ hsome
    obtain ⟨hstored, hreplayable, htouch⟩ := mem_rowTouches_iff.mp hmem
    refine ⟨operation, List.mem_filter.mpr ⟨hstored, hreplayable⟩, ?_⟩
    rw [touchedRows_eq]
    exact List.mem_map.mpr ⟨_, htouch, rfl⟩

end Inventory

section Repair

variable {store after : DatabaseStore} {row : MessageId} {minted : Minted}

/-- Any stored operation of the id, in any state. -/
def keyed (store : DatabaseStore) (id : String) : Bool := store.outbox.operations.any (·.entity.id == id)

theorem keyed_eq : (store.outbox.list_pending_operations ++ store.outbox.list_unsettled_operations).any
    (·.entity.id == row) = keyed store row := by
  unfold keyed
  rw [Bool.eq_iff_iff, List.any_eq_true, List.any_eq_true]
  constructor
  · rintro ⟨operation, hmem, hkeyed⟩
    obtain hmem | hmem := List.mem_append.mp hmem
    · exact ⟨operation, List.mem_of_mem_filter hmem, hkeyed⟩
    · exact ⟨operation, List.mem_of_mem_filter hmem, hkeyed⟩
  · rintro ⟨operation, hmem, hkeyed⟩
    refine ⟨operation, List.mem_append.mpr ?_, hkeyed⟩
    by_cases happlied : operation.state = .Applied
    · exact Or.inr (List.mem_filter.mpr ⟨hmem, by rw [happlied]; rfl⟩)
    · exact Or.inl (List.mem_filter.mpr ⟨hmem, by simpa using happlied⟩)

/-- Whether the sweep repairs the row: a tombstone over a base row, and no operation of the row's id. -/
def repairs (store : DatabaseStore) (row : MessageId) : Bool :=
  match store.read_overlay_on row with
  | some none => (store.read_base_on row).isSome && !keyed store row
  | _ => false

theorem repairs_eq_true_iff :
    repairs store row = true ↔ store.message_overlay.lookup row = some .tombstone ∧
      (store.message.lookup row).isSome = true ∧ keyed store row = false := by
  rw [← read_overlay_on_eq_tombstone_iff]
  unfold repairs
  split
  · rename_i htombstone
    simp [htombstone, DatabaseStore.read_base_on]
  · rename_i hother
    simp only [Bool.false_eq_true, false_iff, not_and]
    intro htombstone
    exact absurd htombstone hother

/-- The row the sweep derives at its visit: the draft it removes, or the row itself. -/
def sweptRow (store : DatabaseStore) (row : MessageId) : MessageId :=
  if repairs store row then liveDraftId store row else row

/-- The store in which the sweep derives it. -/
def beforeDerive (store : DatabaseStore) (row : MessageId) (minted : Minted) : DatabaseStore :=
  if repairs store row then queuedDelete store row true minted else store

/-- A visit of the sweep queues the repair, if it makes one, and derives one row. -/
theorem run_sweepRow :
    (sweepRow row minted).run store =
      (refresh_message_overlay (sweptRow store row) >>= fun _ => pure ()).run (beforeDerive store row minted) := by
  have hnot : ∀ hrepair : repairs store row = false,
      (refresh_message_overlay (sweptRow store row) >>= fun _ => pure ()).run (beforeDerive store row minted) =
        (refresh_message_overlay row >>= fun _ => pure ()).run store := by
    intro hrepair
    simp only [sweptRow, beforeDerive, hrepair, Bool.false_eq_true, if_false]
  unfold sweepRow try_repair_lingering_tombstone
  cases hentry : store.read_overlay_on row with
  | none =>
    rw [hnot (by simp [repairs, hentry])]
    simp only [bind_assoc, run_read_bind, hentry, pure_bind]
    rfl
  | some entry =>
    cases entry with
    | some record =>
      rw [hnot (by simp [repairs, hentry])]
      simp only [bind_assoc, run_read_bind, hentry, pure_bind]
      rfl
    | none =>
      simp only [bind_assoc, run_read_bind, hentry, keyed_eq]
      cases hbase : (store.read_base_on row).isSome with
      | false =>
        rw [hnot (by simp [repairs, hentry, hbase])]
        rfl
      | true =>
        cases hkeyed : keyed store row with
        | true =>
          rw [hnot (by simp [repairs, hentry, hkeyed])]
          simp only [Bool.not_true, Bool.false_eq_true, if_false, bind_assoc, run_read_bind, hkeyed, if_true, pure_bind]
          rfl
        | false =>
          have hrepair : repairs store row = true := by simp [repairs, hentry, hbase, hkeyed]
          obtain ⟨stored, hdelete⟩ := @run_delete_draft store row true minted
          simp only [sweptRow, beforeDerive, hrepair, if_true]
          cases hrun : (refresh_message_overlay (liveDraftId store row)).run (queuedDelete store row true minted) with
          | ok diff after =>
            rw [effects.run_bind_of_ok hrun] at hdelete ⊢
            simp only [Bool.not_true, Bool.false_eq_true, if_false, bind_assoc, run_read_bind, hkeyed, pure_bind]
            rw [effects.run_bind_of_ok hdelete]
          | error error after =>
            rw [effects.run_bind_of_error hrun] at hdelete ⊢
            simp only [Bool.not_true, Bool.false_eq_true, if_false, bind_assoc, run_read_bind, hkeyed, pure_bind]
            rw [effects.run_bind_of_error hdelete]

end Repair

section Removal

variable {store : DatabaseStore} {row : MessageId} {key : String} {idempotent_redelivery : Bool} {minted : Minted}

@[simp] theorem message_queuedDelete : (queuedDelete store key idempotent_redelivery minted).message = store.message := by
  unfold queuedDelete reserveKey
  split_ifs <;> rfl

@[simp] theorem mailbox_queuedDelete : (queuedDelete store key idempotent_redelivery minted).mailbox = store.mailbox := by
  unfold queuedDelete reserveKey
  split_ifs <;> rfl

@[simp] theorem message_overlay_queuedDelete :
    (queuedDelete store key idempotent_redelivery minted).message_overlay = store.message_overlay := by
  unfold queuedDelete reserveKey
  split_ifs <;> rfl

@[simp] theorem liveDraftId_queuedDelete :
    liveDraftId (queuedDelete store key idempotent_redelivery minted) = liveDraftId store :=
  liveDraftId_reserveKey store key

theorem outbox_queuedDelete :
    (queuedDelete store key idempotent_redelivery minted).outbox =
      store.outbox.enqueue_operation (deleteOperation key idempotent_redelivery minted) := by
  unfold queuedDelete reserveKey
  split_ifs <;> rfl

theorem operations_queuedDelete (hfresh : store.outbox.get_operation minted.operation_id = none) :
    (queuedDelete store key idempotent_redelivery minted).outbox.operations =
      store.outbox.operations ++ [deleteOperation key idempotent_redelivery minted] := by
  rw [outbox_queuedDelete]
  exact OutboxTable.operations_enqueue_of_fresh _ hfresh

theorem decodes_deleteOperation : decodes (deleteOperation key idempotent_redelivery minted) = true := by
  obtain ⟨intent, hintent⟩ := @MailIntent.from_parts_isOk_of_version .DraftDelete 1
    (.object [("idempotentRedelivery", .bool idempotent_redelivery)]) rfl (Or.inr rfl)
  unfold decodes
  rw [show (deleteOperation key idempotent_redelivery minted).intent = .ok intent from hintent]
  rfl

theorem presence_deleteOperation : presence (deleteOperation key idempotent_redelivery minted, .DraftKey) = some false := rfl

theorem touchesAt_deleteOperation (live : String → MessageId) :
    touchesAt live row (deleteOperation key idempotent_redelivery minted) =
      if live key = row then [(deleteOperation key idempotent_redelivery minted, .Entity .DraftKey)] else [] := by
  by_cases hlive : live key = row
  · rw [if_pos hlive]
    simp [touchesAt, op_row_touches_with, deleteOperation, newOperation, is_replayable, hlive]
  · rw [if_neg hlive]
    simp [touchesAt, op_row_touches_with, deleteOperation, newOperation, is_replayable, hlive]

theorem rowTouches_queuedDelete (hfresh : store.outbox.get_operation minted.operation_id = none) :
    rowTouches ((queuedDelete store key idempotent_redelivery minted).snapshot row) row =
      rowTouches (store.snapshot row) row ++
        if liveDraftId store key = row then [(deleteOperation key idempotent_redelivery minted, .Entity .DraftKey)]
        else [] := by
  rw [rowTouches_eq, rowTouches_eq, operations_queuedDelete hfresh, liveDraftId_queuedDelete, List.flatMap_append]
  simp only [List.flatMap_cons, List.flatMap_nil, List.append_nil, touchesAt_deleteOperation]

private theorem entityOps_append (first second : List (Operation × OpRowRole)) :
    entityOps (first ++ second) = entityOps first ++ entityOps second :=
  List.filterMap_append

/-- The log's newest draft removal leaves its row absent. -/
theorem rowPresent_queuedDelete (hfresh : store.outbox.get_operation minted.operation_id = none) :
    rowPresent (queuedDelete store key idempotent_redelivery minted) row =
      (rowPresent store row && liveDraftId store key ≠ row) := by
  have hbase : ((queuedDelete store key idempotent_redelivery minted).snapshot row).base = (store.snapshot row).base := by
    simp [DatabaseStore.snapshot, DatabaseStore.read_base_on]
  unfold rowPresent foldsPresent
  rw [rowTouches_queuedDelete hfresh, hbase]
  by_cases hlive : liveDraftId store key = row
  · rw [if_pos hlive, entityOps_append, List.filterMap_append]
    simp [entityOps, presence_deleteOperation, hlive]
  · rw [if_neg hlive, List.append_nil]
    simp [hlive]

/-- Every row's log can be replayed. -/
def Replays (store : DatabaseStore) : Prop := ∀ row, ∃ shown, view store row = .ok shown

theorem Replays.queuedDelete (hreplays : Replays store)
    (hfresh : store.outbox.get_operation minted.operation_id = none) :
    Replays (queuedDelete store key idempotent_redelivery minted) := by
  intro row
  rw [view_isOk_iff]
  intro operation role hmem
  rw [rowTouches_queuedDelete hfresh, List.mem_append] at hmem
  obtain hmem | hmem := hmem
  · obtain hdecodes | ⟨hrole, habsent⟩ := view_isOk_iff.mp (hreplays row) operation role hmem
    · exact Or.inl hdecodes
    · exact Or.inr ⟨hrole, by rw [rowPresent_queuedDelete hfresh, habsent, Bool.false_and]⟩
  · split_ifs at hmem
    · cases List.mem_singleton.mp hmem
      exact Or.inl decodes_deleteOperation
    · cases hmem

theorem Replays.of_overlay {after : DatabaseStore} (hreplays : Replays store)
    (hinputs : after = { store with message_overlay := after.message_overlay }) : Replays after := by
  intro row
  rw [view_of_overlay hinputs]
  exact hreplays row

end Removal

end posthaste.service
