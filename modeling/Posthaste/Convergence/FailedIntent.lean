import Posthaste.Service.Replayed
import Posthaste.Service.SyncOps

open serde posthaste.model posthaste.store posthaste.service

namespace posthaste.convergence

/-- How a queued assertion fails to happen. -/
inductive Failure where
  | rejected (readback : MessageReadback) (reason : String) (retargeted_to : Option MessageId)
  | permanent (message : String)
  | discarded (minted : Minted)

namespace Failure

/-- The service path that handles the failure. -/
def handler (operation : Operation) (settled_at_mono : Int) (now : Timestamp) : Failure → MailService Bool
  | .rejected readback reason retargeted_to =>
    settle_push operation (.ok (.Message (some readback) (some reason) none retargeted_to)) settled_at_mono now
  | .permanent message => settle_push operation (.error (.permanent message)) settled_at_mono now
  | .discarded minted => discard_operation operation.id minted

/-- The store in which the path ends, whether or not it completes. -/
def handled (failure : Failure) (operation : Operation) (settled_at_mono : Int) (now : Timestamp)
    (store : DatabaseStore) : DatabaseStore :=
  effects.final ((failure.handler operation settled_at_mono now).run store)

/-- A discard finds the operation queued. -/
def Applies (store : DatabaseStore) (operation : Operation) : Failure → Prop
  | .discarded _ => store.outbox.get_operation operation.id = some operation ∧ operation.state = .Pending
  | .rejected .. | .permanent .. => True

def withoutOperation (store : DatabaseStore) (operation : Operation) : DatabaseStore :=
  { store with outbox := store.outbox.remove_operation operation.id }

/-- Base with the readback of a rejection written to it. -/
def readBack (store : DatabaseStore) (operation : Operation) (readback : MessageReadback)
    (retargeted_to : Option MessageId) : Except StoreError DatabaseStore :=
  (withoutOperation store operation).apply_sync_batch
    (readbackBatch readback (retargeted_to.getD operation.entity.id))

/-- The log and base as the failure leaves them, under the overlay as it was. -/
def left (operation : Operation) (now : Timestamp) (store : DatabaseStore) : Failure → DatabaseStore
  | .rejected readback _ retargeted_to =>
    match readBack store operation readback retargeted_to with
    | .ok written => written
    | .error _ => withoutOperation store operation
  | .permanent message =>
    { store with
      outbox :=
        store.outbox.update_operation_state operation.id .Failed (operation.attempts + 1) (some message) now }
  | .discarded _ => { store with outbox := (store.outbox.remove_operation_unless_inflight operation.id).2 }

/-- Whether the path goes on to re-derive the row: a discarded assertion's never
    does, and a rejection's does once base takes the readback. -/
def rederives (operation : Operation) (store : DatabaseStore) : Failure → Bool
  | .rejected readback _ retargeted_to => (readBack store operation readback retargeted_to).isOk
  | .permanent _ => true
  | .discarded _ => false

end Failure

/-- The row serves the replay of the operations that remain, over the current base row. -/
def Reverted (store : DatabaseStore) (message_id : MessageId) : Prop :=
  view store message_id = .ok (store.effective message_id)

section Paths

variable {store after : DatabaseStore} {message_id : MessageId} {operation : Operation} {settled_at_mono : Int}
  {now : Timestamp}

/-- A derivation of the row, whatever is derived after it, reverts the row
    exactly when the row replays and no tombstone lingers on it. -/
theorem reverted_of_refresh_iff {α : Type} {rest : DeriveDiff → MailService α}
    (hrest : ∀ diff, OnlyDerives (rest diff)) :
    Reverted (effects.final ((refresh_message_overlay message_id >>= rest).run store)) message_id ↔
      (∃ shown, view store message_id = .ok shown) ∧ ¬ LingeringTombstone store message_id := by
  obtain ⟨shown, diff, middle, hview, hrun, hhead⟩ | ⟨error, raised, hview, hrun⟩ :=
    refresh_cases store message_id
  · rw [effects.run_bind_of_ok hrun]
    obtain ⟨rows, htail⟩ := hrest diff middle
    have hderived := hhead.append htail
    have hsynced := hderived.syncedAt_iff_not_lingering List.mem_cons_self
    rw [syncedAt_iff] at hsynced
    unfold Reverted
    rw [hsynced]
    simp [hview]
  · rw [effects.run_bind_of_error hrun]
    show Reverted store message_id ↔ _
    unfold Reverted
    simp [hview]

theorem touchedRows_of_assertion (hkind : operation.kind.is_state_assertion)
    (hentity : operation.entity = ⟨.Message, message_id⟩) : touchedRows store operation = [message_id] := by
  have hsend : operation.kind ≠ .Send := by
    intro hsend
    rw [hsend] at hkind
    cases hkind
  simp [touchedRows, op_row_touches_with, hentity, hsend, hkind]

variable (hkind : operation.kind.is_state_assertion) (hentity : operation.entity = ⟨.Message, message_id⟩)

include hkind hentity in
theorem reverted_permanent_iff (message : String) :
    Reverted ((Failure.permanent message).handled operation settled_at_mono now store) message_id ↔
      (∃ shown, view ((Failure.permanent message).left operation now store) message_id = .ok shown) ∧
        ¬ LingeringTombstone ((Failure.permanent message).left operation now store) message_id := by
  have hhandled : (Failure.permanent message).handled operation settled_at_mono now store =
      effects.final ((refreshTouched operation).run ((Failure.permanent message).left operation now store)) :=
    effects.final_bind_pure fun _ => true
  rw [hhandled]
  unfold refreshTouched op_touched_row_ids
  rw [MailService.run_read_bind, touchedRows_of_assertion hkind hentity]
  exact reverted_of_refresh_iff fun _ => onlyDerives_refreshAll []

include hentity in
theorem reverted_rejected_iff (readback : MessageReadback) (reason : String) (retargeted_to : Option MessageId) :
    Reverted ((Failure.rejected readback reason retargeted_to).handled operation settled_at_mono now store) message_id ↔
      if (Failure.readBack store operation readback retargeted_to).isOk then
        (∃ shown, view ((Failure.rejected readback reason retargeted_to).left operation now store) message_id = .ok shown) ∧
          ¬ LingeringTombstone ((Failure.rejected readback reason retargeted_to).left operation now store) message_id
      else view ((Failure.rejected readback reason retargeted_to).left operation now store) message_id =
        .ok (store.effective message_id) := by
  have hhandled : (Failure.rejected readback reason retargeted_to).handled operation settled_at_mono now store =
      effects.final ((settle_message_operation operation (some readback) (some reason) none retargeted_to
        settled_at_mono now).run store) :=
    effects.final_bind_pure fun _ => true
  rw [hhandled]
  unfold settle_message_operation
  simp only [Option.isSome_some, Bool.true_or, if_true, MailService.run_outbox_bind]
  obtain rfl : message_id = operation.entity.id := by rw [hentity]
  cases hwritten : Failure.readBack store operation readback retargeted_to with
  | error error =>
    have happly := run_applyBatch_of_error hwritten
    unfold Failure.withoutOperation at happly
    rw [effects.run_bind_of_error happly]
    simp only [Failure.left, hwritten]
    exact Iff.rfl
  | ok written =>
    have happly := run_applyBatch_of_ok hwritten
    unfold Failure.withoutOperation at happly
    rw [effects.run_bind_of_ok happly]
    simp only [Failure.left, hwritten, Except.isOk, Except.toBool, if_true]
    refine reverted_of_refresh_iff fun _ => ?_
    split_ifs
    · exact (onlyDerives_refresh _).bind fun _ => onlyDerives_pure ()
    · exact onlyDerives_pure ()

include hkind in
theorem reverted_discarded_iff (minted : Minted) (hstored : store.outbox.get_operation operation.id = some operation)
    (hpending : operation.state = .Pending) :
    Reverted ((Failure.discarded minted).handled operation settled_at_mono now store) message_id ↔
      Reverted ((Failure.discarded minted).left operation now store) message_id := by
  have hmatches : store.outbox.matchesState operation.id OutboxTable.unlessInflight = true :=
    (OutboxTable.matchesState_eq_true_iff _ _).mpr ⟨operation, hstored, by rw [hpending]; rfl⟩
  have hsend : operation.kind ≠ .Send := by
    intro hsend
    rw [hsend] at hkind
    cases hkind
  have hsave : operation.kind.is_draft_save = false := by
    cases hkinds : operation.kind <;> simp_all [OperationKind.is_draft_save, OperationKind.is_state_assertion]
  have hhandled : (Failure.discarded minted).handled operation settled_at_mono now store =
      (Failure.discarded minted).left operation now store := by
    unfold Failure.handled Failure.handler Failure.left discard_operation
    rw [MailService.run_read_bind, MailService.run_outboxGuarded_bind]
    simp only [OutboxTable.remove_operation_unless_inflight, hmatches, hstored, if_true, afterDiscard, hsend, hsave]
    rfl
  rw [hhandled]

end Paths

section Runs

def syncedRecord : MessageRecord := { (default : MessageRecord) with id := "m1", mailbox_ids := ["inbox"] }

def callMinted : Minted := { now := "t", mono_now := 0, operation_id := "op1", id := "1" }

/-- A synced message, an assertion queued on it, and the flusher's claim of the operation. -/
def claimedAfter (mutation : MailService Unit) : DatabaseStore :=
  effects.final ((do
    emit (upsert_message_batch syncedRecord)
    mutation
    let _ ← MailService.outboxGuarded (·.claim_operation_for_flush "op1" "t")
    : MailService Unit).run DatabaseStore.empty)

def destroyOperation : Operation := newOperation "op1" ⟨.Message, "m1"⟩ .Destroy (.object []) none none "t"

def flagCommand : SetKeywordsCommand := { add := ["$flagged"], remove := [] }

def flagOperation : Operation := newOperation "op1" ⟨.Message, "m1"⟩ .SetKeywords (to_value flagCommand) none none "t"

end Runs

end posthaste.convergence
