import Posthaste.Service.LocalFailure

open serde posthaste.model posthaste.store

namespace posthaste.service.local_mutation

open effects

section Faultless

/-- What a run does to the store alone. -/
def onStore {α β : Type} (drop : α → β) :
    EStateM.Result ServiceError LocalPlane α → EStateM.Result ServiceError DatabaseStore β
  | .ok value after => .ok (drop value) after.store
  | .error error after => .error error after.store

/-- The call does to the store what the plain service's call does. -/
def Simulates {α β : Type} (drop : α → β) (body : LocalService α) (plain : MailService β) : Prop :=
  ∀ plane, plain.run plane.store = onStore drop (body.run plane)

variable {α β γ δ : Type}

theorem Simulates.bind {drop : α → β} {dropNext : γ → δ} {body : LocalService α} {plain : MailService β}
    {next : α → LocalService γ} {plainNext : β → MailService δ} (hbody : Simulates drop body plain)
    (hnext : ∀ value, Simulates dropNext (next value) (plainNext (drop value))) :
    Simulates dropNext (body >>= next) (plain >>= plainNext) := by
  intro plane
  have hfirst := hbody plane
  cases hrun : body.run plane with
  | error error after =>
    rw [hrun] at hfirst
    rw [run_bind_of_error hrun, run_bind_of_error hfirst]
    rfl
  | ok value after =>
    rw [hrun] at hfirst
    rw [run_bind_of_ok hrun, run_bind_of_ok hfirst]
    exact hnext value after

theorem Simulates.tryCatch {drop : α → β} {body : LocalService α} {plain : MailService β}
    {handler : ServiceError → LocalService α} {plainHandler : ServiceError → MailService β}
    (hbody : Simulates drop body plain) (hhandler : ∀ error, Simulates drop (handler error) (plainHandler error)) :
    Simulates drop (tryCatch body handler) (tryCatch plain plainHandler) := by
  intro plane
  have hfirst := hbody plane
  rw [tryCatch_run, tryCatch_run, hfirst]
  cases hrun : body.run plane with
  | ok value after => rfl
  | error error after => exact hhandler error after

theorem simulates_pure (drop : α → β) (value : α) : Simulates drop (pure value) (pure (drop value)) := fun _ => rfl

theorem simulates_fallible (outcome : Except ServiceError α) :
    Simulates id (fallible outcome) (MailService.fallible outcome) := by
  intro plane
  cases outcome <;> rfl

theorem simulates_reading (call : StoreCall) (select : DatabaseStore → α) :
    Simulates id (reading (fun _ => none) call fun plane => select plane.store) (MailService.read select) :=
  fun _ => rfl

theorem simulates_onOutbox (call : StoreCall) (statement : OutboxTable → OutboxTable) :
    Simulates id (onOutbox (fun _ => none) call statement) (MailService.outbox statement) := fun _ => rfl

theorem simulates_coalesceInto (kind : OperationKind) (existing : List Operation) (payload : Value) :
    Simulates id (coalesceInto (fun _ => none) kind existing payload)
      (posthaste.service.coalesceInto kind existing payload) := by
  induction existing generalizing payload with
  | nil => exact simulates_pure id payload
  | cons first rest ih =>
    have hrest : ∀ value, Simulates id
        (onOutbox (fun _ => none) (.remove_superseded first.id) (·.remove_operation first.id) >>= fun _ =>
          coalesceInto (fun _ => none) kind rest value)
        (MailService.outbox (·.remove_operation first.id) >>= fun _ =>
          posthaste.service.coalesceInto kind rest value) :=
      fun value => (simulates_onOutbox _ _).bind fun _ => ih value
    unfold posthaste.service.coalesceInto coalesceInto merged
    split_ifs
    · exact (simulates_fallible _).bind hrest
    · exact (simulates_pure id payload).bind hrest

theorem simulates_enqueue (operation : Operation) :
    Simulates id (enqueue_operation (fun _ => none) operation) (posthaste.service.enqueue_operation operation) := by
  refine (simulates_onOutbox _ _).bind fun _ => (simulates_reading _ _).bind fun stored => ?_
  cases stored with
  | some stored => exact simulates_pure id stored
  | none => exact simulates_fallible _

theorem simulates_refresh (message_id : MessageId) :
    Simulates id (refresh_message_overlay (fun _ => none) message_id)
      (posthaste.service.refresh_message_overlay message_id) := by
  intro plane
  rw [posthaste.service.refresh_message_overlay, MailService.run_transaction]
  cases hderived : derived message_id plane.store with
  | error failure =>
    rw [show plane.store.derive_overlay message_id _ = _ from hderived, run_refresh_of_error rfl hderived]
    rfl
  | ok outcome =>
    obtain ⟨diff, store⟩ := outcome
    rw [show plane.store.derive_overlay message_id _ = _ from hderived, run_refresh_of_ok rfl hderived]
    rfl

theorem simulates_read_projection (message_id : MessageId) :
    Simulates (fun _ => ()) (read_projection (fun _ => none) message_id)
      (do if (← get_message_summary message_id).isNone then posthaste.service.notFound "message" message_id) := by
  refine (simulates_reading .read_effective fun store => store.effective message_id).bind fun shown => ?_
  cases shown with
  | none => exact fun plane => rfl
  | some summary => exact simulates_pure _ summary

theorem run_emitEcho_of_ok {message_id : MessageId} {operation : Operation} {previous : Option MessageRow}
    {echo : EchoPayload × Option MailboxId} {plane after : LocalPlane}
    (hecho : (echoOf (fun _ => none) message_id operation previous).run plane = .ok echo after) :
    onStore (fun _ => ()) ((emitEcho (fun _ => none) message_id operation previous).run plane) = .ok () after.store := by
  rw [emitEcho, run_bind_of_ok hecho]
  rfl

theorem run_emitEcho_of_error {message_id : MessageId} {operation : Operation} {previous : Option MessageRow}
    {error : ServiceError} {plane after : LocalPlane}
    (hecho : (echoOf (fun _ => none) message_id operation previous).run plane = .error error after) :
    onStore (fun _ => ()) ((emitEcho (fun _ => none) message_id operation previous).run plane) =
      .error error after.store := by
  rw [emitEcho, run_bind_of_error hecho]
  rfl

theorem Simulates.dropping {body : LocalService α} {plain : MailService Unit} (value : α → γ)
    (hbody : Simulates (fun _ => ()) body plain) :
    Simulates (fun _ => ()) (body >>= fun found => pure (value found)) plain := by
  intro plane
  rw [hbody plane]
  cases hrun : body.run plane with
  | ok found after =>
    rw [run_bind_of_ok hrun]
    rfl
  | error error after =>
    rw [run_bind_of_error hrun]
    rfl

/-- Clearing the return time is nothing to the store. -/
theorem simulates_echoOf (message_id : MessageId) (operation : Operation) (previous : Option MessageRow) :
    Simulates (fun _ => ()) (echoOf (fun _ => none) message_id operation previous)
      (echoAssertion message_id operation) := by
  unfold echoOf echoAssertion
  cases hkind : operation.kind with
  | SetKeywords => exact (simulates_read_projection message_id).dropping _
  | ReplaceMailboxes =>
    cases hintent : operation.intent with
    | error error => exact fun plane => rfl
    | ok intent =>
      have hreplace : intent.kind = .ReplaceMailboxes := (MailIntent.kind_of_from_parts hintent).trans hkind
      cases intent with
      | ReplaceMailboxes command =>
        intro plane
        exact (simulates_read_projection message_id).dropping _
          { plane with message_snooze := plane.message_snooze.erase message_id }
      | SaveDraft create request => cases create <;> cases hreplace
      | SetKeywords command => cases hreplace
      | Destroy => cases hreplace
      | DiscardDraft redelivery => cases hreplace
      | Send request => cases hreplace
  | Destroy => exact simulates_pure _ _
  | DraftCreate => exact simulates_pure _ _
  | DraftUpdate => exact simulates_pure _ _
  | DraftDelete => exact simulates_pure _ _
  | Send => exact simulates_pure _ _

theorem simulates_emitEcho (message_id : MessageId) (operation : Operation) (previous : Option MessageRow) :
    Simulates (fun _ => ()) (emitEcho (fun _ => none) message_id operation previous)
      (echoAssertion message_id operation) := by
  intro plane
  rw [simulates_echoOf message_id operation previous plane]
  cases hrun : (echoOf (fun _ => none) message_id operation previous).run plane with
  | ok echo after =>
    rw [run_emitEcho_of_ok hrun]
    rfl
  | error error after =>
    rw [run_emitEcho_of_error hrun]
    rfl

theorem simulates_apply (message_id : MessageId) (operation : Operation) :
    Simulates (fun _ => ()) (apply_assertion_to_overlay (fun _ => none) message_id operation)
      (posthaste.service.apply_assertion_to_overlay message_id operation) := by
  have hfold : ∀ previous, Simulates (fun _ => ()) (foldAndEcho (fun _ => none) message_id operation previous)
      (posthaste.service.refresh_message_overlay message_id >>= fun _ => echoAssertion message_id operation) :=
    fun previous => (simulates_refresh message_id).bind fun _ => simulates_emitEcho message_id operation previous
  unfold apply_assertion_to_overlay posthaste.service.apply_assertion_to_overlay
  split_ifs
  · refine (simulates_reading .read_previous fun store => store.effective message_id).bind fun previous => ?_
    dsimp only [id]
    split_ifs
    · exact fun plane => rfl
    · exact hfold previous
  · exact simulates_pure _ _

theorem simulates_retraction (operation : Operation) (error : ServiceError) :
    Simulates (fun _ => ()) (remove_operation_after_local_failure (fun _ => none) operation error : LocalService α)
      (posthaste.service.remove_operation_after_local_failure operation error) :=
  fun _ => rfl

/-- Where no store call fails, a mutation does to the store what the plain service's does. -/
theorem simulates_call (message_id : MessageId) (mutation : LocalMutation) (operation_id : OperationId)
    (now : Timestamp) (mono_now : Int) (fresh : String) :
    Simulates (fun _ => ()) (mutation.call (fun _ => none) message_id ⟨operation_id, .ok now⟩)
      (posthaste.service.queue_then_emit_message_operation message_id mutation.kind mutation.payload
        ⟨now, mono_now, operation_id, fresh⟩) := by
  have hcoalesce : Simulates id
      (coalesce_pending_assertions (fun _ => none) ⟨.Message, message_id⟩ mutation.kind mutation.payload)
      (posthaste.service.coalesce_pending_assertions ⟨.Message, message_id⟩ mutation.kind mutation.payload) :=
    (simulates_reading _ _).bind fun existing => simulates_coalesceInto _ existing _
  have hqueue : Simulates id
      (queue_message_operation (fun _ => none) message_id mutation.kind mutation.payload ⟨operation_id, .ok now⟩)
      (posthaste.service.queue_message_operation message_id mutation.kind mutation.payload
        ⟨now, mono_now, operation_id, fresh⟩) := by
    unfold queue_message_operation posthaste.service.queue_message_operation queue_operation_with_id
    simp only [mutation.asserts, if_true]
    exact hcoalesce.bind fun merged => simulates_enqueue _
  rw [mutation.call_eq]
  refine hqueue.bind fun operation => ?_
  exact (simulates_apply message_id operation).tryCatch fun error => simulates_retraction operation error

end Faultless

end posthaste.service.local_mutation
