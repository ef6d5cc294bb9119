import Posthaste.Service.LocalFailure

open serde posthaste.model posthaste.store

namespace posthaste.service.local_mutation

open effects

/-- What an error must leave alone. -/
structure Unchanged (before after : LocalPlane) : Prop where
  outbox : after.store.outbox = before.store.outbox
  effective : after.store.effective = before.store.effective
  message_snooze : after.message_snooze = before.message_snooze

theorem Unchanged.refl (plane : LocalPlane) : Unchanged plane plane := ⟨rfl, rfl, rfl⟩

section Condition

variable (fails : Faults) (mutation : LocalMutation) (message_id : MessageId) (minted : Minted) (plane : LocalPlane)

/-- The pending assertions that the call would take out of the log. -/
def pendingBefore : List Operation := superseded ⟨.Message, message_id⟩ mutation.kind plane

/-- The call takes the first of them out. -/
def Supersedes : Prop :=
  fails .list_pending_operations = none ∧ ∃ first rest, pendingBefore mutation message_id plane = first :: rest ∧
    (∃ payload, merged mutation.kind first mutation.payload = .ok payload) ∧
    fails (.remove_superseded first.id) = none

def ownOperation (now : Timestamp) : Operation :=
  newOperation minted.operation_id ⟨.Message, message_id⟩ mutation.kind mutation.payload none none now

/-- The call has nothing to supersede and gets its own operation into the log. -/
def Inserts (now : Timestamp) : Prop :=
  fails .list_pending_operations = none ∧ pendingBefore mutation message_id plane = [] ∧ minted.clock = .ok now ∧
    fails .insert_operation = none

def inserted (now : Timestamp) : DatabaseStore :=
  { plane.store with outbox := plane.store.outbox.enqueue_operation (ownOperation mutation message_id minted now) }

/-- The failures that leave no trace. -/
structure Traceless : Prop where
  supersedes : ¬ Supersedes fails mutation message_id plane
  retracts : ∀ now, Inserts fails mutation message_id minted plane now →
    fails .get_operation = none ∧ fails .retract_operation = none
  shows : ∀ now store, Inserts fails mutation message_id minted plane now →
    folded fails mutation message_id (inserted mutation message_id minted plane now) = some store →
    store.effective = plane.store.effective
  snoozes : ∀ now store, Inserts fails mutation message_id minted plane now →
    folded fails mutation message_id (inserted mutation message_id minted plane now) = some store →
    clears fails mutation → message_id ∉ plane.message_snooze

end Condition

section Superseded

variable {fails : Faults} {mutation : LocalMutation} {message_id : MessageId} {plane : LocalPlane}
variable {minted : Minted} {first : Operation} {rest : List Operation}

theorem queue_eq : queue_message_operation fails message_id mutation.kind mutation.payload minted = (do
    let payload ← coalesce_pending_assertions fails ⟨.Message, message_id⟩ mutation.kind mutation.payload
    let now ← fallible (now_iso8601 minted)
    enqueue_operation fails
      (newOperation minted.operation_id ⟨.Message, message_id⟩ mutation.kind payload none none now)) := by
  unfold queue_message_operation
  rw [if_pos mutation.asserts]

/-- A mutation takes an assertion out of the log, stops before it could, or finds none. -/
theorem coalesce_cases :
    Supersedes fails mutation message_id plane ∨
      (∃ error, (coalesce_pending_assertions fails ⟨.Message, message_id⟩ mutation.kind mutation.payload).run plane =
        .error error plane) ∧ ¬ Supersedes fails mutation message_id plane ∧
        (∀ now, ¬ Inserts fails mutation message_id minted plane now) ∨
      fails .list_pending_operations = none ∧ pendingBefore mutation message_id plane = [] ∧
        (coalesce_pending_assertions fails ⟨.Message, message_id⟩ mutation.kind mutation.payload).run plane =
          .ok mutation.payload plane := by
  by_cases hsupersedes : Supersedes fails mutation message_id plane
  · exact .inl hsupersedes
  refine .inr ?_
  unfold coalesce_pending_assertions
  cases hlist : fails .list_pending_operations with
  | some failure =>
    refine .inl ⟨⟨.Store failure, ?_⟩, hsupersedes, fun now hinserts => ?_⟩
    · rw [reading, run_bind_of_error (run_attempt_of_fails hlist)]
    · cases hlist.symm.trans hinserts.1
  | none =>
    rw [run_bind_of_ok (run_reading _ hlist)]
    cases hpending : pendingBefore mutation message_id plane with
    | nil =>
      refine .inr ⟨rfl, rfl, ?_⟩
      rw [show superseded _ _ plane = [] from hpending]
      rfl
    | cons first rest =>
      refine .inl ⟨?_, hsupersedes, fun now hinserts => ?_⟩
      · rw [show superseded _ _ plane = first :: rest from hpending, coalesceInto]
        cases hmerged : merged mutation.kind first mutation.payload with
        | error failure => exact ⟨failure, rfl⟩
        | ok payload =>
          cases hremove : fails (.remove_superseded first.id) with
          | none => exact absurd ⟨hlist, first, rest, hpending, ⟨payload, hmerged⟩, hremove⟩ hsupersedes
          | some failure =>
            rw [run_bind_of_ok (run_fallible_ok payload), run_bind_of_error (run_onOutbox_of_fails _ hremove)]
            exact ⟨.Store failure, rfl⟩
      · cases hpending.symm.trans hinserts.2.1

theorem absent_bind {α β : Type} {id : OperationId} {body : LocalService α} {next : α → LocalService β}
    (hbody : Absent id (final (body.run plane))) (hnext : ∀ value, Leaves id (next value)) :
    Absent id (final ((body >>= next).run plane)) := by
  cases hrun : body.run plane with
  | error error middle =>
    rw [hrun] at hbody
    rw [run_bind_of_error hrun]
    exact hbody
  | ok value middle =>
    rw [hrun] at hbody
    rw [run_bind_of_ok hrun]
    exact leaves_absent (hnext value) hbody

theorem mem_of_pendingBefore (hpending : pendingBefore mutation message_id plane = first :: rest) :
    plane.store.outbox.get_operation first.id = some first := by
  have hmem : first ∈ pendingBefore mutation message_id plane := by
    rw [hpending]
    exact List.mem_cons_self
  exact OutboxTable.get_of_mem (List.mem_of_mem_filter (List.mem_of_mem_filter hmem))

/-- What was taken out of the log stays out, whatever follows. -/
theorem lost_of_supersedes (hfresh : plane.store.outbox.get_operation minted.operation_id = none)
    (hsupersedes : Supersedes fails mutation message_id plane) :
    ∃ lost, plane.store.outbox.get_operation lost.id = some lost ∧
      Absent lost.id (final ((mutation.call fails message_id minted).run plane)) := by
  obtain ⟨hlist, first, rest, hpending, ⟨payload, hmerged⟩, hremove⟩ := hsupersedes
  have hget := mem_of_pendingBefore hpending
  have hother : minted.operation_id ≠ first.id := by
    intro hsame
    rw [hsame, hget] at hfresh
    cases hfresh
  have hcoalesce : Absent first.id (final ((coalesce_pending_assertions fails ⟨.Message, message_id⟩ mutation.kind
      mutation.payload).run plane)) := by
    rw [coalesce_pending_assertions, run_bind_of_ok (run_reading _ hlist),
      show superseded _ _ plane = first :: rest from hpending, coalesceInto, hmerged,
      run_bind_of_ok (run_fallible_ok payload), run_bind_of_ok (run_onOutbox _ hremove)]
    refine leaves_absent (leaves_coalesceInto mutation.kind rest payload) ?_
    show (plane.store.outbox.remove_operation first.id).get_operation first.id = none
    rw [OutboxTable.get_remove_operation, Function.update_self]
  refine ⟨first, hget, ?_⟩
  rw [mutation.call_eq, queue_then_emit_message_operation, queue_eq]
  refine absent_bind (absent_bind hcoalesce fun merged => ?_) fun operation => ?_
  · exact (leaves_fallible _).bind fun now => leaves_enqueue hother
  · exact (leaves_apply operation).tryCatch leaves_retraction

end Superseded

section Outcome

variable {fails : Faults} {mutation : LocalMutation} {message_id : MessageId} {minted : Minted} {plane : LocalPlane}
  {now : Timestamp}

theorem remove_enqueue (outbox : OutboxTable) {operation : Operation}
    (hfresh : outbox.get_operation operation.id = none) :
    (outbox.enqueue_operation operation).remove_operation operation.id = outbox := by
  have hfind : outbox.find operation.id = none := by simpa [OutboxTable.get_operation] using hfresh
  refine Table.ext ?_
  show ((outbox.insertOrIgnore ⟨operation, none, none⟩).rows.filter fun row =>
    !decide (row.id = operation.id ∧ true = true)) = outbox.rows
  rw [Table.rows_insertOrIgnore_of_fresh hfind, List.filter_append]
  have hkept : ∀ row ∈ outbox.rows, (!decide (row.id = operation.id ∧ true = true)) = true := by
    intro row hrow
    simp [Table.find_eq_none_iff.mp hfind row hrow]
  rw [List.filter_eq_self.mpr hkept]
  simp [OperationRow.id]

theorem erase_eq_self_iff {κ : Type} {β : κ → Type} [DecidableEq κ] {rows : AList β} {key : κ} :
    rows.erase key = rows ↔ key ∉ rows := by
  constructor
  · intro hsame hmem
    rw [← hsame] at hmem
    exact (AList.mem_erase.mp hmem).1 rfl
  · intro hnot
    exact AList.ext (List.kerase_of_notMem_keys hnot)

theorem traceless_of_not_inserts (hkept : ¬ Supersedes fails mutation message_id plane)
    (hnone : ∀ now, ¬ Inserts fails mutation message_id minted plane now) :
    Traceless fails mutation message_id minted plane where
  supersedes := hkept
  retracts now hinserts := absurd hinserts (hnone now)
  shows now _ hinserts := absurd hinserts (hnone now)
  snoozes now _ hinserts := absurd hinserts (hnone now)

theorem Inserts.unique {other : Timestamp} (hinserts : Inserts fails mutation message_id minted plane now)
    (hother : Inserts fails mutation message_id minted plane other) : other = now := by
  have hclock := hother.2.2.1.symm.trans hinserts.2.2.1
  exact Except.ok.inj hclock

theorem Inserts.not_supersedes (hinserts : Inserts fails mutation message_id minted plane now) :
    ¬ Supersedes fails mutation message_id plane := by
  rintro ⟨-, first, rest, hpending, -⟩
  cases hinserts.2.1.symm.trans hpending

theorem Inserts.traceless_iff (hinserts : Inserts fails mutation message_id minted plane now) :
    Traceless fails mutation message_id minted plane ↔
      (fails .get_operation = none ∧ fails .retract_operation = none) ∧
        ∀ store, folded fails mutation message_id (inserted mutation message_id minted plane now) = some store →
          store.effective = plane.store.effective ∧ (clears fails mutation → message_id ∉ plane.message_snooze) := by
  constructor
  · intro htraceless
    refine ⟨htraceless.retracts now hinserts, fun store hfolded => ?_⟩
    exact ⟨htraceless.shows now store hinserts hfolded, htraceless.snoozes now store hinserts hfolded⟩
  · rintro ⟨hretracts, hfolds⟩
    refine ⟨hinserts.not_supersedes, fun other hother => hretracts, ?_, ?_⟩
    · intro other store hother hfolded
      rw [hinserts.unique hother] at hfolded
      exact (hfolds store hfolded).1
    · intro other store hother hfolded
      rw [hinserts.unique hother] at hfolded
      exact (hfolds store hfolded).2

theorem run_retraction {α : Type} {operation : Operation} {error : ServiceError} :
    (remove_operation_after_local_failure fails operation error : LocalService α).run plane =
      .error error (if fails .retract_operation = none then
        { plane with store := { plane.store with outbox := plane.store.outbox.remove_operation operation.id } }
        else plane) := by
  unfold remove_operation_after_local_failure
  cases hretract : fails .retract_operation with
  | none =>
    have hcaught : (tryCatch (onOutbox fails .retract_operation (·.remove_operation operation.id))
        fun _ => pure ()).run plane = .ok () { plane with
          store := { plane.store with outbox := plane.store.outbox.remove_operation operation.id } } := by
      rw [tryCatch_run, run_onOutbox _ hretract]
    rw [run_bind_of_ok hcaught]
    rfl
  | some failure =>
    have hcaught : (tryCatch (onOutbox fails .retract_operation (·.remove_operation operation.id))
        fun _ => pure ()).run plane = .ok () plane := by
      rw [tryCatch_run, run_onOutbox_of_fails _ hretract]
      rfl
    rw [run_bind_of_ok hcaught]
    rfl

/-- The state at the application of a mutation that had nothing to supersede. -/
def queued (mutation : LocalMutation) (message_id : MessageId) (minted : Minted) (plane : LocalPlane)
    (now : Timestamp) : LocalPlane :=
  { plane with store := inserted mutation message_id minted plane now }

theorem queuedBy_ownOperation : QueuedBy mutation (ownOperation mutation message_id minted now) := ⟨rfl, rfl, rfl⟩

theorem run_queue (hclock : minted.clock = .ok now)
    (hcoalesce : (coalesce_pending_assertions fails ⟨.Message, message_id⟩ mutation.kind mutation.payload).run plane =
      .ok mutation.payload plane) :
    (queue_message_operation fails message_id mutation.kind mutation.payload minted).run plane =
      (enqueue_operation fails (ownOperation mutation message_id minted now)).run plane := by
  have hnow : now_iso8601 minted = .ok now := by
    rw [now_iso8601, hclock]
    rfl
  rw [queue_eq, run_bind_of_ok hcoalesce, hnow, run_bind_of_ok (run_fallible_ok now)]
  rfl

theorem get_queued (hfresh : plane.store.outbox.get_operation minted.operation_id = none) :
    (inserted mutation message_id minted plane now).outbox.get_operation minted.operation_id =
      some (ownOperation mutation message_id minted now) := by
  show (plane.store.outbox.enqueue_operation (ownOperation mutation message_id minted now)).get_operation
    (ownOperation mutation message_id minted now).id = _
  rw [OutboxTable.get_enqueue_operation, Function.update_self]
  show some ((plane.store.outbox.get_operation minted.operation_id).getD _) = _
  rw [hfresh, Option.getD_none]

theorem outbox_queued_ne (hfresh : plane.store.outbox.get_operation minted.operation_id = none) :
    (inserted mutation message_id minted plane now).outbox ≠ plane.store.outbox := by
  intro hsame
  have hget : (inserted mutation message_id minted plane now).outbox.get_operation minted.operation_id = some _ :=
    get_queued hfresh
  rw [hsame, hfresh] at hget
  cases hget

theorem run_enqueue_of_unread {failure : StoreError} (hinsert : fails .insert_operation = none)
    (hget : fails .get_operation = some failure) :
    (enqueue_operation fails (ownOperation mutation message_id minted now)).run plane =
      .error (.Store failure) (queued mutation message_id minted plane now) := by
  rw [enqueue_operation, run_bind_of_ok (run_onOutbox _ hinsert), reading,
    run_bind_of_error (run_attempt_of_fails hget)]
  rfl

theorem run_enqueue_of_read (hfresh : plane.store.outbox.get_operation minted.operation_id = none)
    (hinsert : fails .insert_operation = none) (hget : fails .get_operation = none) :
    (enqueue_operation fails (ownOperation mutation message_id minted now)).run plane =
      .ok (ownOperation mutation message_id minted now) (queued mutation message_id minted plane now) := by
  have hstored : (queued mutation message_id minted plane now).store.outbox.get_operation
      (ownOperation mutation message_id minted now).id = some (ownOperation mutation message_id minted now) :=
    get_queued hfresh
  rw [enqueue_operation, run_bind_of_ok (run_onOutbox _ hinsert), run_bind_of_ok (run_reading _ hget)]
  show (persisted ((queued mutation message_id minted plane now).store.outbox.get_operation
    (ownOperation mutation message_id minted now).id)).run _ = _
  rw [hstored]
  rfl

variable {error : ServiceError} {after : LocalPlane}

/-- What an error leaves once the operation is in the log and read back. -/
theorem unchanged_iff_of_read (hfresh : plane.store.outbox.get_operation minted.operation_id = none)
    (hinserts : Inserts fails mutation message_id minted plane now) (hget : fails .get_operation = none)
    (hrun : (tryCatch (apply_assertion_to_overlay fails message_id (ownOperation mutation message_id minted now))
        (remove_operation_after_local_failure fails (ownOperation mutation message_id minted now))).run
        (queued mutation message_id minted plane now) = .error error after) :
    Unchanged plane after ↔ Traceless fails mutation message_id minted plane := by
  rw [hinserts.traceless_iff]
  cases happly : (apply_assertion_to_overlay fails message_id (ownOperation mutation message_id minted now)).run
      (queued mutation message_id minted plane now) with
  | ok events middle =>
    rw [tryCatch_run, happly] at hrun
    cases hrun
  | error failure middle =>
    have hmiddle := state_of_apply_error queuedBy_ownOperation happly
    simp only [tryCatch_run, happly, run_retraction] at hrun
    cases hrun
    have houtbox : middle.store.outbox = (inserted mutation message_id minted plane now).outbox := by
      rw [hmiddle]
      exact outbox_applied fails mutation message_id
    cases hretract : fails .retract_operation with
    | some failure =>
      rw [if_neg (by simp)]
      refine iff_of_false (fun hunchanged => ?_) fun htraceless => ?_
      · exact outbox_queued_ne hfresh (houtbox.symm.trans hunchanged.outbox)
      · cases htraceless.1.2
    | none =>
      rw [if_pos rfl]
      have hremoved : middle.store.outbox.remove_operation minted.operation_id = plane.store.outbox := by
        rw [houtbox]
        exact @remove_enqueue plane.store.outbox (ownOperation mutation message_id minted now) hfresh
      refine Iff.trans ?_ (and_iff_right ⟨hget, rfl⟩).symm
      rw [applied] at hmiddle
      cases hfolded : folded fails mutation message_id (queued mutation message_id minted plane now).store with
      | none =>
        rw [hfolded] at hmiddle
        subst hmiddle
        refine iff_of_true ⟨hremoved, rfl, rfl⟩ fun store hsome => ?_
        cases hfolded.symm.trans hsome
      | some store =>
        rw [hfolded] at hmiddle
        subst hmiddle
        constructor
        · intro hunchanged other hsome
          cases hfolded.symm.trans hsome
          refine ⟨hunchanged.effective, fun hclears => erase_eq_self_iff.mp ?_⟩
          have hsnooze := hunchanged.message_snooze
          simp only [if_pos hclears] at hsnooze
          exact hsnooze
        · intro hfolds
          obtain ⟨heffective, hsnooze⟩ := hfolds store hfolded
          refine ⟨hremoved, heffective, ?_⟩
          by_cases hclears : clears fails mutation
          · simp only [if_pos hclears]
            exact erase_eq_self_iff.mpr (hsnooze hclears)
          · simp only [if_neg hclears]
            rfl

theorem unchanged_iff_of_nothing_pending (hfresh : plane.store.outbox.get_operation minted.operation_id = none)
    (hlist : fails .list_pending_operations = none) (hnil : pendingBefore mutation message_id plane = [])
    (hcoalesce : (coalesce_pending_assertions fails ⟨.Message, message_id⟩ mutation.kind mutation.payload).run plane =
      .ok mutation.payload plane)
    (herror : (mutation.call fails message_id minted).run plane = .error error after) :
    Unchanged plane after ↔ Traceless fails mutation message_id minted plane := by
  have hkept : ¬ Supersedes fails mutation message_id plane := by
    rintro ⟨-, first, rest, hpending, -⟩
    cases hnil.symm.trans hpending
  rw [mutation.call_eq, queue_then_emit_message_operation] at herror
  cases hclock : minted.clock with
  | error reason =>
    have hnow : (queue_message_operation fails message_id mutation.kind mutation.payload minted).run plane =
        .error (.Gateway (.Rejected reason)) plane := by
      rw [queue_eq, run_bind_of_ok hcoalesce, now_iso8601, hclock]
      rfl
    rw [run_bind_of_error hnow] at herror
    cases herror
    refine iff_of_true (.refl plane) (traceless_of_not_inserts hkept fun now hinserts => ?_)
    cases hclock.symm.trans hinserts.2.2.1
  | ok now =>
    have hqueue := run_queue hclock hcoalesce
    cases hinsert : fails .insert_operation with
    | some failure =>
      rw [enqueue_operation, run_bind_of_error (run_onOutbox_of_fails _ hinsert)] at hqueue
      rw [run_bind_of_error hqueue] at herror
      cases herror
      refine iff_of_true (.refl plane) (traceless_of_not_inserts hkept fun now hinserts => ?_)
      cases hinsert.symm.trans hinserts.2.2.2
    | none =>
      have hinserts : Inserts fails mutation message_id minted plane now := ⟨hlist, hnil, hclock, hinsert⟩
      cases hget : fails .get_operation with
      | some failure =>
        rw [run_enqueue_of_unread hinsert hget] at hqueue
        rw [run_bind_of_error hqueue] at herror
        cases herror
        refine iff_of_false (fun hunchanged => outbox_queued_ne hfresh hunchanged.outbox) fun htraceless => ?_
        cases hget.symm.trans (htraceless.retracts now hinserts).1
      | none =>
        rw [run_enqueue_of_read hfresh hinsert hget] at hqueue
        rw [run_bind_of_ok hqueue] at herror
        exact unchanged_iff_of_read hfresh hinserts hget herror

end Outcome

section Claim

variable (fails : Faults) (mutation : LocalMutation) (message_id : MessageId) (minted : Minted) (plane : LocalPlane)

end Claim

def emptyPlane : LocalPlane where
  store := DatabaseStore.empty
  message_snooze := ∅
  event_log := []

def secondMint : Minted where
  operation_id := "op-2"
  clock := .ok "2024-01-01T00:00:01Z"

def starred : Operation where
  id := "op-1"
  entity := ⟨.Message, "m1"⟩
  kind := .SetKeywords
  payload := to_value (⟨["$flagged"], []⟩ : SetKeywordsCommand)
  payload_version := 1
  state := .Pending
  attempts := 0
  last_error := none
  send_at := none
  hold_until_mono := none
  created_at := "2024-01-01T00:00:00Z"
  updated_at := "2024-01-01T00:00:00Z"

/-- One pending assertion, on a message that base does not hold. -/
def starredPlane : LocalPlane :=
  { emptyPlane with
    store := { DatabaseStore.empty with outbox := OutboxTable.enqueue_operation Table.empty starred } }

end posthaste.service.local_mutation
