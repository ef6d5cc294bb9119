import Posthaste.Library.Effects
import Posthaste.Service.Replayed
import Posthaste.Service.SyncOps

open serde posthaste.model posthaste.replica posthaste.store

namespace posthaste.service

open MailService effects

/-- One committed write to the account's store. -/
inductive Write where
  | enqueue (operation : Operation)
  | updateState (id : OperationId) (state : OperationState) (attempts : UInt32) (last_error : Option String)
      (now : Timestamp)
  | replacePayload (id : OperationId) (payload : Value) (now : Timestamp)
  | remove (id : OperationId)
  | removeUnlessInflight (id : OperationId)
  /-- A derivation or an alias write: what it leaves in the tables beside the log and base. -/
  | derive (message_overlay : AList fun _ : MessageId => OverlayEntry) (draft_alias : AList fun _ : String => String)
      (send_alias : AList fun _ : String => MessageId)
  | claim (id : OperationId) (now : Timestamp)
  | settle (id : OperationId) (settled_at_mono : Int) (watermark : Option String) (now : Timestamp)
  /-- A base write: what it leaves in every table but the log. -/
  | pull (after : DatabaseStore)

def Write.apply (store : DatabaseStore) : Write → DatabaseStore
  | .enqueue operation => { store with outbox := store.outbox.enqueue_operation operation }
  | .updateState id state attempts last_error now =>
    { store with outbox := store.outbox.update_operation_state id state attempts last_error now }
  | .replacePayload id payload now =>
    { store with outbox := (store.outbox.replace_operation_payload id payload now).2 }
  | .remove id => { store with outbox := store.outbox.remove_operation id }
  | .removeUnlessInflight id => { store with outbox := (store.outbox.remove_operation_unless_inflight id).2 }
  | .derive message_overlay draft_alias send_alias => { store with message_overlay, draft_alias, send_alias }
  | .claim id now => { store with outbox := (store.outbox.claim_operation_for_flush id now).2 }
  | .settle id settled_at_mono watermark now =>
    { store with outbox := store.outbox.mark_operation_settled id settled_at_mono watermark now }
  | .pull after => { after with outbox := store.outbox }

/-- The writes of any call, at any time. Claims, settlements and pulls are left to the sync. -/
def Write.beside : Write → Bool
  | .enqueue operation => operation.state != .Applied
  | .updateState _ state _ _ _ => state != .Applied
  | .claim _ _ | .settle _ _ _ _ | .pull _ => false
  | _ => true

/-- The writes of a push of the operation, whose settlement takes the given stamp. -/
def Write.settling (id : OperationId) (settled_at_mono : Int) : Write → Bool
  | .settle settled at_mono _ _ => settled == id && at_mono == settled_at_mono
  | .pull _ => true
  | other => other.beside

/-- The writes of a pull. -/
def Write.pulling : Write → Bool
  | .pull _ => true
  | other => other.beside

theorem Write.pulling_of_beside {write : Write} (hbeside : write.beside = true) : write.pulling = true := by
  cases write <;> first | rfl | exact hbeside

theorem Write.settling_of_pulling {write : Write} {id : OperationId} {settled_at_mono : Int}
    (hpulling : write.pulling = true) : write.settling id settled_at_mono = true := by
  cases write with
  | claim | settle => cases hpulling
  | _ => exact hpulling

/-- A call whose effect is a sequence of writes of the given kind. -/
abbrev Writes {α : Type} (kind : Write → Bool) (call : MailService α) : Prop :=
  Makes Write.apply (fun write => kind write = true) call

section Parts

variable {α : Type} {kind : Write → Bool}

theorem writes_read (select : DatabaseStore → α) : Writes kind (read select) :=
  makes_of_unchanged fun _ => rfl

theorem writes_fallible (result : Except ServiceError α) : Writes kind (fallible result) :=
  makes_of_unchanged fun _ => by cases result <;> rfl

theorem writes_outbox {statement : OutboxTable → OutboxTable} (write : Write) (hkind : kind write = true)
    (hwrite : ∀ store, write.apply store = { store with outbox := statement store.outbox }) :
    Writes kind (outbox statement) :=
  makes_of_one fun store => ⟨write, hkind, (hwrite store).symm⟩

theorem writes_outboxGuarded {statement : OutboxTable → Bool × OutboxTable} (write : Write) (hkind : kind write = true)
    (hwrite : ∀ store, write.apply store = { store with outbox := (statement store.outbox).2 }) :
    Writes kind (outboxGuarded statement) :=
  makes_of_one fun store => ⟨write, hkind, (hwrite store).symm⟩

/-- A write to the overlay and the aliases alone. -/
theorem writes_tables {change : DatabaseStore → DatabaseStore}
    (hchange : ∀ store, change store = { store with
      message_overlay := (change store).message_overlay
      draft_alias := (change store).draft_alias
      send_alias := (change store).send_alias }) : Writes Write.beside (write change) := by
  refine makes_of_one fun store => ⟨.derive (change store).message_overlay (change store).draft_alias
    (change store).send_alias, rfl, ?_⟩
  exact hchange store

theorem writes_set_draft_alias (draft_key entity_id : String) :
    Writes Write.beside (write (·.set_draft_alias draft_key entity_id)) :=
  writes_tables fun _ => rfl

theorem writes_remove_draft_alias (draft_key : String) :
    Writes Write.beside (write (·.remove_draft_alias draft_key)) :=
  writes_tables fun _ => rfl

theorem writes_remove_operation (id : OperationId) : Writes Write.beside (outbox (·.remove_operation id)) :=
  writes_outbox (.remove id) rfl fun _ => rfl

theorem writes_update_operation_state (id : OperationId) {state : OperationState} (hstate : state ≠ .Applied)
    (attempts : UInt32) (last_error : Option String) (now : Timestamp) :
    Writes Write.beside (outbox (·.update_operation_state id state attempts last_error now)) :=
  writes_outbox (.updateState id state attempts last_error now) (bne_iff_ne.mpr hstate) fun _ => rfl

theorem Rederived.writes {rows : List MessageId} {store after : DatabaseStore} (hderived : Rederived rows store after) :
    after = Write.apply store (.derive after.message_overlay store.draft_alias store.send_alias) := by
  rw [hderived.inputs]
  rfl

theorem writes_refresh (message_id : MessageId) : Writes Write.beside (refresh_message_overlay message_id) := by
  refine makes_of_one fun store => ?_
  obtain ⟨rows, hderived⟩ := onlyDerives_refresh message_id store
  exact ⟨_, rfl, hderived.writes⟩

theorem writes_refreshAll (rows : List MessageId) : Writes Write.beside (refreshAll rows) := by
  induction rows with
  | nil => exact makes_pure ()
  | cons row rest ih => exact (writes_refresh row).bind fun _ => ih

theorem writes_refreshTouched (operation : Operation) : Writes Write.beside (refreshTouched operation) :=
  (writes_read _).bind writes_refreshAll

end Parts

section Queue

theorem writes_enqueue_operation {operation : Operation} (hstate : operation.state ≠ .Applied) :
    Writes Write.beside (enqueue_operation operation) := by
  have hwrite : Writes Write.beside (outbox (·.enqueue_operation operation)) :=
    writes_outbox (.enqueue operation) (bne_iff_ne.mpr hstate) fun _ => rfl
  refine hwrite.bind fun _ => (writes_read _).bind fun stored => ?_
  cases stored with
  | some operation => exact makes_pure operation
  | none => exact writes_fallible _

theorem writes_coalesceInto (kind : OperationKind) (superseded : List Operation) (payload : Value) :
    Writes Write.beside (coalesceInto kind superseded payload) := by
  induction superseded generalizing payload with
  | nil => exact makes_pure payload
  | cons existing rest ih =>
    have hrest : ∀ merged, Writes Write.beside
        (outbox (·.remove_operation existing.id) >>= fun _ => coalesceInto kind rest merged) :=
      fun merged => (writes_remove_operation existing.id).bind fun _ => ih merged
    unfold coalesceInto
    dsimp only
    split_ifs
    · exact (writes_fallible _).bind hrest
    · exact (makes_pure payload).bind hrest

theorem writes_queue_operation (operation_id : OperationId) (entity : OperationEntity) (kind : OperationKind)
    (payload : Value) (send_at : Option String) (hold_until_mono : Option Int) (now : Timestamp) :
    Writes Write.beside
      (queue_operation_with_id operation_id entity kind payload send_at hold_until_mono now) := by
  have hpending : ∀ merged, Writes Write.beside
      (enqueue_operation (newOperation operation_id entity kind merged send_at hold_until_mono now)) := by
    intro merged
    apply writes_enqueue_operation
    exact OperationState.noConfusion
  unfold queue_operation_with_id
  dsimp only
  split_ifs
  · have hcoalesce : Writes Write.beside (coalesce_pending_assertions entity kind payload) :=
      (writes_read _).bind fun superseded => writes_coalesceInto kind superseded payload
    exact hcoalesce.bind hpending
  · exact (makes_pure payload).bind hpending

end Queue

section Mutations

theorem writes_raise {α : Type} (error : ServiceError) : Writes Write.beside (raise error : MailService α) :=
  writes_fallible (.error error)

theorem writes_notFound {α : Type} (kind id : String) : Writes Write.beside (notFound kind id : MailService α) :=
  writes_raise _

theorem writes_echoAssertion (message_id : MessageId) (operation : Operation) :
    Writes Write.beside (echoAssertion message_id operation) := by
  unfold echoAssertion
  split
  · refine (writes_read _).bind fun shown => ?_
    split_ifs
    · exact writes_notFound _ _
    · exact makes_pure ()
  · split
    · exact writes_fallible _
    · refine (writes_read _).bind fun shown => ?_
      split_ifs
      · exact writes_notFound _ _
      · exact makes_pure ()
  · exact makes_pure ()

theorem writes_apply_assertion (message_id : MessageId) (operation : Operation) :
    Writes Write.beside (apply_assertion_to_overlay message_id operation) := by
  have hfold : Writes Write.beside
      (refresh_message_overlay message_id >>= fun _ => echoAssertion message_id operation) :=
    (writes_refresh message_id).bind fun _ => writes_echoAssertion message_id operation
  unfold apply_assertion_to_overlay
  split_ifs
  · refine (writes_read _).bind fun previous => ?_
    dsimp only
    split_ifs
    · exact (writes_notFound _ _).bind fun _ => hfold
    · exact hfold
  · exact makes_pure ()

theorem writes_queue_then_emit (message_id : MessageId) (kind : OperationKind) (payload : Value) (minted : Minted) :
    Writes Write.beside (queue_then_emit_message_operation message_id kind payload minted) := by
  refine (writes_queue_operation _ _ _ _ _ _ _).bind fun operation => ?_
  refine (writes_apply_assertion message_id operation).tryCatch fun error => ?_
  exact (writes_remove_operation operation.id).bind fun _ => writes_fallible _

theorem writes_replace_mailboxes (message_id : MessageId) (command : ReplaceMailboxesCommand) (minted : Minted) :
    Writes Write.beside (replace_mailboxes message_id command minted) :=
  writes_queue_then_emit _ _ _ _

end Mutations

section Drafts

theorem writes_draftSaveKind (key : String) : Writes Write.beside (draftSaveKind key) := by
  refine (writes_read _).bind fun resolved => ?_
  cases resolved with
  | some live => exact makes_pure _
  | none =>
    refine (writes_set_draft_alias key key).bind fun _ => (writes_read _).bind fun stored => ?_
    split_ifs
    · exact makes_pure _
    · exact makes_pure _

theorem writes_coalesceSave (key : String) (payload : Value) (now : Timestamp) :
    Writes Write.beside (coalesceSave key payload now) := by
  refine (writes_read _).bind fun queued => ?_
  cases queued with
  | none => exact makes_pure none
  | some operation =>
    have hswap : Writes Write.beside (outboxGuarded (·.replace_operation_payload operation.id payload now)) :=
      writes_outboxGuarded (.replacePayload operation.id payload now) rfl fun _ => rfl
    refine hswap.bind fun replaced => ?_
    split_ifs
    · exact writes_read _
    · exact makes_pure none

theorem writes_save_draft (draft_key : Option MessageId) (request : SendMessageRequest) (minted : Minted) :
    Writes Write.beside (save_draft draft_key request minted) := by
  refine (writes_draftSaveKind _).bind fun kind => (writes_coalesceSave _ _ _).bind fun coalesced => ?_
  have hderive : ∀ operation : Operation, Writes Write.beside
      (live_draft_id (draft_key.getD s!"draft-local-{minted.id}") >>= fun live_id =>
        refresh_message_overlay live_id >>= fun _ => pure operation) :=
    fun operation => (writes_read _).bind fun live_id => (writes_refresh live_id).bind fun _ => makes_pure operation
  cases coalesced with
  | some operation => exact (makes_pure operation).bind hderive
  | none => exact (writes_queue_operation _ _ _ _ _ _ _).bind hderive

theorem writes_delete_draft (draft_key : MessageId) (idempotent_redelivery : Bool) (minted : Minted) :
    Writes Write.beside (delete_draft draft_key idempotent_redelivery minted) := by
  refine (writes_read _).bind fun resolved => ?_
  have hqueue : Writes Write.beside (live_draft_id draft_key >>= fun live_id =>
      queue_operation_with_id minted.operation_id ⟨.Draft, draft_key⟩ .DraftDelete
        (Value.object [("idempotentRedelivery", .bool idempotent_redelivery)]) none none minted.now >>=
          fun operation => refresh_message_overlay live_id >>= fun _ => pure operation) :=
    (writes_read _).bind fun live_id => (writes_queue_operation _ _ _ _ _ _ _).bind fun operation =>
      (writes_refresh live_id).bind fun _ => makes_pure operation
  dsimp only
  split_ifs
  · exact (writes_set_draft_alias draft_key draft_key).bind fun _ => hqueue
  · exact hqueue

theorem writes_removeUnlessInflight (id : OperationId) :
    Writes Write.beside (outboxGuarded (·.remove_operation_unless_inflight id)) :=
  writes_outboxGuarded (.removeUnlessInflight id) rfl fun _ => rfl

theorem writes_supersedeSaves (key : String) (pending : List Operation) :
    Writes Write.beside (supersedeSaves key pending) := by
  induction pending with
  | nil => exact makes_pure false
  | cons existing rest ih =>
    have hlater : ∀ reached : Bool, Writes Write.beside
        (supersedeSaves key rest >>= fun later => pure (reached || later)) :=
      fun reached => ih.bind fun later => makes_pure _
    unfold supersedeSaves
    dsimp only
    split_ifs
    · exact (writes_removeUnlessInflight existing.id).bind fun removed => (makes_pure _).bind hlater
    · exact (makes_pure true).bind hlater
    · exact ih

end Drafts

section Sends

theorem writes_materializeKey (compose_key : Option String) (held : Bool) (minted_key : String) :
    Writes Write.beside (materializeKey compose_key held minted_key) := by
  have hreserve : ∀ key : String, Writes Write.beside (write (·.set_draft_alias key key) >>= fun _ => pure (some key)) :=
    fun key => (writes_set_draft_alias key key).bind fun _ => makes_pure _
  cases compose_key with
  | none =>
    unfold materializeKey
    simp only
    split_ifs
    · exact hreserve minted_key
    · exact makes_pure none
  | some key =>
    refine (writes_read _).bind fun registered => (writes_read _).bind fun stored => ?_
    dsimp only
    split_ifs
    · exact hreserve key
    · exact makes_pure (some key)
    · exact hreserve key
    · exact makes_pure none

theorem writes_unwind_send_fold (operation : Operation) : Writes Write.beside (unwind_send_fold operation) := by
  refine (writes_refresh _).bind fun _ => ?_
  cases (sendRequest operation).bind composeKey with
  | none => exact makes_pure ()
  | some key =>
    exact (writes_read _).bind fun live_id => (writes_refresh live_id).bind fun _ => makes_pure ()

theorem writes_afterDiscard (operation : Operation) (minted : Minted) :
    Writes Write.beside (afterDiscard operation minted) := by
  unfold afterDiscard
  split_ifs
  · refine (writes_unwind_send_fold operation).bind fun _ => ?_
    cases sendRequest operation with
    | none => exact makes_pure ()
    | some request =>
      simp only
      cases composeKey request with
      | none => exact makes_pure ()
      | some key => exact (writes_save_draft _ _ _).bind fun _ => makes_pure ()
  · exact (writes_read _).bind fun live_id => (writes_refresh live_id).bind fun _ => makes_pure ()
  · exact makes_pure ()

end Sends

end posthaste.service
