import Posthaste.Library.Effects
import Posthaste.Service.LocalMutation

open serde posthaste.model posthaste.store

namespace posthaste.service.local_mutation

open effects

section Apply

variable (fails : Faults) (mutation : LocalMutation) (message_id : MessageId)

def derived (store : DatabaseStore) : Except StoreError (DeriveDiff × DatabaseStore) :=
  store.derive_overlay message_id fun snapshot => fold_overlay_row snapshot message_id

/-- The store once the assertion is folded, where the call comes that far. -/
def folded (store : DatabaseStore) : Option DatabaseStore :=
  if fails .read_previous = none ∧ ¬ (mutation.kind = .Destroy ∧ (store.effective message_id).isNone) ∧
      fails .derive_overlay = none then
    (derived message_id store).toOption.map Prod.snd
  else none

theorem outbox_of_derived {store after : DatabaseStore} {diff : DeriveDiff}
    (hderived : derived message_id store = .ok (diff, after)) : after.outbox = store.outbox := by
  obtain ⟨mutation, -, hreturn⟩ := except_bind_eq_ok_iff.mp hderived
  cases hreturn
  cases mutation <;> rfl

theorem outbox_of_folded {store after : DatabaseStore}
    (hfolded : folded fails mutation message_id store = some after) : after.outbox = store.outbox := by
  unfold folded at hfolded
  split_ifs at hfolded
  cases hderived : derived message_id store with
  | error failure => simp [hderived, Except.toOption] at hfolded
  | ok outcome =>
    obtain ⟨diff, derivedStore⟩ := outcome
    simp only [hderived, Except.toOption, Option.map_some, Option.some.injEq] at hfolded
    rw [← hfolded]
    exact outbox_of_derived message_id hderived

/-- Whether a call that has folded its assertion clears the return time. -/
def clears : Prop := mutation.kind = .ReplaceMailboxes ∧ fails .delete_snooze = none

instance : Decidable (clears fails mutation) := inferInstanceAs (Decidable (_ ∧ _))

/-- What the application of a queued assertion leaves where it fails. -/
def applied (plane : LocalPlane) : LocalPlane :=
  match folded fails mutation message_id plane.store with
  | none => plane
  | some store =>
    { plane with
      store
      message_snooze :=
        if clears fails mutation then plane.message_snooze.erase message_id else plane.message_snooze }

theorem outbox_applied {plane : LocalPlane} :
    (applied fails mutation message_id plane).store.outbox = plane.store.outbox := by
  unfold applied
  cases hfolded : folded fails mutation message_id plane.store with
  | none => rfl
  | some store => exact outbox_of_folded fails mutation message_id hfolded

end Apply

section Failed

variable {fails : Faults} {mutation : LocalMutation} {message_id : MessageId} {operation : Operation}
  {error : ServiceError} {plane after : LocalPlane}

/-- What one call queues. -/
structure QueuedBy (mutation : LocalMutation) (operation : Operation) : Prop where
  kind : operation.kind = mutation.kind
  payload : operation.payload = mutation.payload
  payload_version : operation.payload_version = 1

theorem intent_of_replace {command : ReplaceMailboxesCommand}
    (hqueued : QueuedBy (.replace_mailboxes command) operation) :
    operation.intent = .ok (.ReplaceMailboxes command) := by
  have hkind : operation.kind = .ReplaceMailboxes := hqueued.kind
  have hpayload : operation.payload = to_value command := hqueued.payload
  unfold Operation.intent MailIntent.from_parts
  rw [hkind, hpayload, hqueued.payload_version]
  simp [MailIntent.decode]

theorem run_refresh_of_ok {diff : DeriveDiff} {store : DatabaseStore} (hfails : fails .derive_overlay = none)
    (hderived : derived message_id plane.store = .ok (diff, store)) :
    (refresh_message_overlay fails message_id).run plane = .ok diff { plane with store } := by
  refine run_attempt_of_ok hfails ?_
  rw [show plane.store.derive_overlay message_id _ = _ from hderived]
  rfl

theorem run_refresh_of_error {failure : StoreError} (hfails : fails .derive_overlay = none)
    (hderived : derived message_id plane.store = .error failure) :
    (refresh_message_overlay fails message_id).run plane = .error (.Store failure) plane := by
  refine run_attempt_of_error hfails ?_
  rw [show plane.store.derive_overlay message_id _ = _ from hderived]
  rfl

theorem state_of_append_bind_error {event : EchoEvent}
    (hrun : (append_event fails event >>= fun event => pure [event]).run plane = .error error after) :
    after = plane := by
  cases hfails : fails .append_event with
  | none =>
    have happend : (append_event fails event).run plane =
        .ok event { plane with event_log := plane.event_log ++ [event] } := by
      rw [append_event, run_bind_of_ok (run_writing _ hfails)]
      rfl
    rw [run_bind_of_ok happend] at hrun
    cases hrun
  | some failure =>
    have happend : (append_event fails event).run plane = .error (.Store failure) plane := by
      rw [append_event, writing, run_bind_of_error (run_attempt_of_fails hfails)]
    rw [run_bind_of_error happend] at hrun
    cases hrun
    rfl

theorem final_read_projection : final ((read_projection fails message_id).run plane) = plane := by
  have hread : final ((reading fails .read_effective (·.store.effective message_id)).run plane) = plane :=
    final_reading _
  cases hrun : (reading fails .read_effective (·.store.effective message_id)).run plane with
  | error error after =>
    rw [hrun] at hread
    rw [read_projection, run_bind_of_error hrun]
    exact hread
  | ok shown after =>
    rw [hrun] at hread
    rw [read_projection, run_bind_of_ok hrun]
    cases shown with
    | none => exact hread
    | some summary => exact hread

/-- Only a replace writes while it echoes: it clears the return time, if it can. -/
theorem final_echoOf (hqueued : QueuedBy mutation operation) (previous : Option MessageRow) :
    final ((echoOf fails message_id operation previous).run plane) =
      if clears fails mutation then { plane with message_snooze := plane.message_snooze.erase message_id }
      else plane := by
  unfold echoOf
  rw [hqueued.kind]
  cases mutation with
  | set_keywords command =>
    rw [if_neg (by simp [clears, LocalMutation.kind])]
    exact (final_bind_pure _).trans final_read_projection
  | destroy_message =>
    rw [if_neg (by simp [clears, LocalMutation.kind])]
    rfl
  | replace_mailboxes command =>
    simp only [LocalMutation.kind, intent_of_replace hqueued]
    cases hfails : fails .delete_snooze with
    | some failure =>
      rw [if_neg (by simp [clears, hfails]), writing, run_bind_of_error (run_attempt_of_fails hfails)]
      rfl
    | none =>
      rw [if_pos ⟨rfl, hfails⟩, run_bind_of_ok (run_writing _ hfails)]
      exact (final_bind_pure _).trans final_read_projection

theorem state_of_fold_error (hqueued : QueuedBy mutation operation) {previous : Option MessageRow}
    (hrun : (foldAndEcho fails message_id operation previous).run plane = .error error after) :
    after = match fails .derive_overlay, derived message_id plane.store with
      | none, .ok (_, store) => { plane with
          store
          message_snooze :=
            if clears fails mutation then plane.message_snooze.erase message_id else plane.message_snooze }
      | _, _ => plane := by
  unfold foldAndEcho at hrun
  cases hfails : fails .derive_overlay with
  | some failure =>
    rw [refresh_message_overlay, run_bind_of_error (run_attempt_of_fails hfails)] at hrun
    cases hrun
    rfl
  | none =>
    cases hderived : derived message_id plane.store with
    | error failure =>
      rw [run_bind_of_error (run_refresh_of_error hfails hderived)] at hrun
      cases hrun
      rfl
    | ok outcome =>
      obtain ⟨diff, store⟩ := outcome
      rw [run_bind_of_ok (run_refresh_of_ok hfails hderived), emitEcho] at hrun
      have hecho := @final_echoOf fails mutation message_id operation { plane with store } hqueued previous
      have hsnooze : after = if clears fails mutation then
          { plane with store, message_snooze := plane.message_snooze.erase message_id }
          else { plane with store } := by
        cases hrunEcho : (echoOf fails message_id operation previous).run { plane with store } with
        | error failure middle =>
          rw [hrunEcho] at hecho
          rw [run_bind_of_error hrunEcho] at hrun
          cases hrun
          exact hecho
        | ok echo middle =>
          rw [hrunEcho] at hecho
          rw [run_bind_of_ok hrunEcho] at hrun
          exact (state_of_append_bind_error hrun).trans hecho
      rw [hsnooze]
      by_cases hclears : clears fails mutation
      · simp only [if_pos hclears]
      · simp only [if_neg hclears]

theorem state_of_apply_error (hqueued : QueuedBy mutation operation)
    (hrun : (apply_assertion_to_overlay fails message_id operation).run plane = .error error after) :
    after = applied fails mutation message_id plane := by
  unfold apply_assertion_to_overlay at hrun
  rw [hqueued.kind, if_pos mutation.asserts] at hrun
  cases hprevious : fails .read_previous with
  | some failure =>
    rw [reading, run_bind_of_error (run_attempt_of_fails hprevious)] at hrun
    cases hrun
    simp [applied, folded, hprevious]
  | none =>
    rw [run_bind_of_ok (run_reading _ hprevious)] at hrun
    by_cases hmissing : mutation.kind = .Destroy ∧ (plane.store.effective message_id).isNone
    · rw [if_pos hmissing] at hrun
      cases hrun
      rw [applied, folded, if_neg fun hreached => hreached.2.1 hmissing]
    · rw [if_neg hmissing] at hrun
      rw [state_of_fold_error hqueued hrun]
      cases hderive : fails .derive_overlay with
      | some failure => simp [applied, folded, hderive]
      | none =>
        have hfolded : folded fails mutation message_id plane.store =
            (derived message_id plane.store).toOption.map Prod.snd := if_pos ⟨hprevious, hmissing, hderive⟩
        rw [applied, hfolded]
        cases derived message_id plane.store <;> rfl

end Failed

section Absence

variable {fails : Faults} {mutation : LocalMutation} {message_id : MessageId} {plane : LocalPlane}

/-- The log holds no operation under the id. -/
def Absent (id : OperationId) (plane : LocalPlane) : Prop := plane.store.outbox.get_operation id = none

/-- A call that never brings the operation back. -/
abbrev Leaves {α : Type} (id : OperationId) (call : LocalService α) : Prop :=
  Makes (fun (plane : LocalPlane) (change : LocalPlane → LocalPlane) => change plane)
    (fun change => ∀ plane, Absent id plane → Absent id (change plane)) call

section Leaves

theorem leaves_absent {α : Type} {id : OperationId} {body : LocalService α} (hbody : Leaves id body)
    (habsent : Absent id plane) : Absent id (final (body.run plane)) := by
  obtain ⟨changes, hchanges, hfinal⟩ := hbody plane
  rw [hfinal]
  clear hfinal
  induction changes generalizing plane with
  | nil => exact habsent
  | cons change rest ih =>
    refine ih (hchanges change List.mem_cons_self plane habsent) fun other hother => ?_
    exact hchanges other (List.mem_cons_of_mem change hother)

variable {α : Type} {call : StoreCall} {id other : OperationId}

theorem leaves_fallible (outcome : Except ServiceError α) : Leaves id (fallible outcome) :=
  makes_of_unchanged fun _ => final_fallible outcome

theorem leaves_reading (select : LocalPlane → α) : Leaves id (reading fails call select) :=
  makes_of_unchanged fun _ => final_reading select

theorem leaves_writing {change : LocalPlane → LocalPlane} (hchange : ∀ plane, Absent id plane → Absent id (change plane)) :
    Leaves id (writing fails call change) := by
  refine makes_of_one fun plane => ?_
  cases hfails : fails call with
  | some error =>
    rw [writing, run_attempt_of_fails hfails]
    exact ⟨(fun plane => plane), fun _ habsent => habsent, rfl⟩
  | none =>
    rw [run_writing change hfails]
    exact ⟨change, hchange, rfl⟩

theorem leaves_removal : Leaves id (onOutbox fails call (·.remove_operation other)) := by
  refine leaves_writing fun plane habsent => ?_
  show (plane.store.outbox.remove_operation other).get_operation id = none
  have hnone := OutboxTable.get_operation_eq_none_iff.mp habsent
  refine OutboxTable.get_operation_eq_none_iff.mpr fun operation hmem => ?_
  rw [OutboxTable.operations_remove] at hmem
  exact hnone operation (List.mem_of_mem_filter hmem)

theorem leaves_insert {operation : Operation} (hother : operation.id ≠ id) :
    Leaves id (onOutbox fails call (·.enqueue_operation operation)) := by
  refine leaves_writing fun plane habsent => ?_
  show (plane.store.outbox.enqueue_operation operation).get_operation id = none
  rw [OutboxTable.get_enqueue_operation, Function.update_of_ne hother.symm]
  exact habsent

theorem leaves_coalesceInto (kind : OperationKind) (existing : List Operation) (payload : Value) :
    Leaves id (coalesceInto fails kind existing payload) := by
  induction existing generalizing payload with
  | nil => exact makes_pure payload
  | cons first rest ih =>
    exact (leaves_fallible _).bind fun merged => leaves_removal.bind fun _ => ih merged

theorem leaves_enqueue {operation : Operation} (hother : operation.id ≠ id) :
    Leaves id (enqueue_operation fails operation) := by
  refine (leaves_insert hother).bind fun _ => (leaves_reading _).bind fun stored => ?_
  cases stored with
  | some stored => exact makes_pure stored
  | none => exact leaves_fallible (.error (.Store (.Failure "outbox operation was not persisted")))

theorem leaves_refresh : Leaves id (refresh_message_overlay fails message_id) := by
  refine makes_of_one fun plane => ?_
  cases hfails : fails .derive_overlay with
  | some failure =>
    rw [refresh_message_overlay, run_attempt_of_fails hfails]
    exact ⟨fun plane => plane, fun _ habsent => habsent, rfl⟩
  | none =>
    cases hderived : derived message_id plane.store with
    | error failure =>
      rw [run_refresh_of_error hfails hderived]
      exact ⟨fun plane => plane, fun _ habsent => habsent, rfl⟩
    | ok outcome =>
      obtain ⟨diff, store⟩ := outcome
      rw [run_refresh_of_ok hfails hderived]
      refine ⟨fun other => { other with store := { store with outbox := other.store.outbox } },
        fun _ habsent => habsent, ?_⟩
      show ({ plane with store } : LocalPlane) = { plane with store := { store with outbox := plane.store.outbox } }
      rw [← outbox_of_derived message_id hderived]

theorem leaves_read_projection : Leaves id (read_projection fails message_id) := by
  refine (leaves_reading _).bind fun shown => ?_
  cases shown with
  | some summary => exact makes_pure summary
  | none => exact leaves_fallible _

theorem leaves_echoOf (operation : Operation) (previous : Option MessageRow) :
    Leaves id (echoOf fails message_id operation previous) := by
  unfold echoOf
  split
  · exact leaves_read_projection.bind fun summary => makes_pure _
  · split
    · refine Makes.bind (leaves_writing ?_) fun _ => leaves_read_projection.bind fun summary => makes_pure _
      exact fun plane habsent => habsent
    · exact makes_pure _
    · exact leaves_fallible _
  · exact makes_pure _

theorem leaves_apply (operation : Operation) : Leaves id (apply_assertion_to_overlay fails message_id operation) := by
  have hfold : ∀ previous, Leaves id (foldAndEcho fails message_id operation previous) := by
    intro previous
    refine leaves_refresh.bind fun diff => (leaves_echoOf operation previous).bind fun echo => ?_
    refine Makes.bind (Makes.bind (leaves_writing ?_) fun _ => makes_pure _) fun event => makes_pure [event]
    exact fun plane habsent => habsent
  unfold apply_assertion_to_overlay
  split_ifs
  · refine (leaves_reading _).bind fun previous => ?_
    split_ifs
    · exact leaves_fallible _
    · exact hfold previous
  · exact makes_pure []

theorem leaves_retraction {operation : Operation} (error : ServiceError) :
    Leaves id (remove_operation_after_local_failure fails operation error : LocalService α) := by
  refine Makes.bind ?_ fun _ => leaves_fallible _
  exact leaves_removal.tryCatch fun _ => makes_pure ()

end Leaves

end Absence

end posthaste.service.local_mutation
