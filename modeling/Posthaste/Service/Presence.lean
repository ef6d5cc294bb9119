import Posthaste.Service.Draft
import Posthaste.Service.Replayed

open posthaste.model posthaste.replica posthaste.store

namespace posthaste.service

/-- The replayable touches one operation makes on a row, under the given draft resolution. -/
def touchesAt (live : String → MessageId) (row : MessageId) (operation : Operation) : List (Operation × OpRowRole) :=
  if is_replayable operation then
    ((op_row_touches_with operation fun key => some (live key)).filter (·.1 = row)).map fun touch => (operation, touch.2)
  else []

section Touches

variable {store after : DatabaseStore} {live : String → MessageId} {row : MessageId} {operation : Operation}

theorem touchedRows_eq :
    touchedRows store operation =
      (op_row_touches_with operation fun key => some (liveDraftId store key)).map Prod.fst := rfl

private theorem unsettled_of_replayable (hreplayable : is_replayable operation = true) :
    (operation.state != .Failed || OperationKind.CONTENT_KINDS.contains operation.kind) = true := by
  cases hstate : operation.state with
  | Failed => simpa [is_replayable, hstate, OperationKind.is_content_op] using hreplayable
  | Pending | Inflight | Applied | DispatchUncertain => rfl

theorem replayable_unsettled (outbox : OutboxTable) :
    outbox.list_unsettled_operations.filter is_replayable = outbox.operations.filter is_replayable := by
  unfold OutboxTable.list_unsettled_operations
  rw [List.filter_filter]
  refine List.filter_congr fun operation _ => ?_
  cases hreplayable : is_replayable operation with
  | false => rfl
  | true => simpa using unsettled_of_replayable hreplayable

/-- The touches of a row, operation by operation through the log. -/
theorem rowTouches_eq (store : DatabaseStore) (row : MessageId) :
    rowTouches (store.snapshot row) row = store.outbox.operations.flatMap (touchesAt (liveDraftId store) row) := by
  unfold rowTouches
  rw [show (store.snapshot row).ops = store.outbox.list_unsettled_operations from rfl, replayable_unsettled]
  induction store.outbox.operations with
  | nil => rfl
  | cons operation rest ih =>
    cases hreplayable : is_replayable operation with
    | false => simp [hreplayable, touchesAt, ih]
    | true =>
      rw [List.filter_cons_of_pos hreplayable, List.flatMap_cons, List.flatMap_cons, ih]
      congr 1
      simp only [touchesAt, hreplayable, if_true]
      rfl

theorem mem_rowTouches_iff {role : OpRowRole} :
    (operation, role) ∈ rowTouches (store.snapshot row) row ↔
      operation ∈ store.outbox.operations ∧ is_replayable operation = true ∧
        (row, role) ∈ op_row_touches_with operation fun key => some (liveDraftId store key) := by
  rw [rowTouches_eq, List.mem_flatMap]
  constructor
  · rintro ⟨other, hmem, htouch⟩
    unfold touchesAt at htouch
    split_ifs at htouch with hreplayable
    · obtain ⟨⟨touched, kind⟩, hfiltered, heq⟩ := List.mem_map.mp htouch
      obtain ⟨hin, hrow⟩ := List.mem_filter.mp hfiltered
      have hrow : touched = row := of_decide_eq_true hrow
      cases heq
      cases hrow
      exact ⟨hmem, hreplayable, hin⟩
    · cases htouch
  · rintro ⟨hmem, hreplayable, hin⟩
    refine ⟨operation, hmem, ?_⟩
    unfold touchesAt
    rw [if_pos hreplayable]
    exact List.mem_map.mpr ⟨(row, role), List.mem_filter.mpr ⟨hin, by simp⟩, rfl⟩

/-- Entries that contribute nothing can be left out. -/
theorem flatMap_filter_of_nil {α β : Type} {contribution : α → List β} (kept : α → Bool) (entries : List α)
    (hdropped : ∀ entry ∈ entries, kept entry = false → contribution entry = []) :
    (entries.filter kept).flatMap contribution = entries.flatMap contribution := by
  induction entries with
  | nil => rfl
  | cons entry rest ih =>
    have hrest := ih fun other hmem => hdropped other (List.mem_cons_of_mem _ hmem)
    cases hkept : kept entry with
    | true => rw [List.filter_cons_of_pos hkept, List.flatMap_cons, List.flatMap_cons, hrest]
    | false =>
      have hnone := hdropped entry List.mem_cons_self hkept
      rw [List.filter_cons_of_neg (by simp [hkept]), List.flatMap_cons, hnone, hrest, List.nil_append]

end Touches

section Decoding

variable {snapshot : DeriveSnapshot} {store : DatabaseStore} {row : MessageId}

/-- Whether the operation's payload decodes at all. -/
def decodes (operation : Operation) : Bool := operation.intent.isOk

theorem intent_of_decodes {operation : Operation} (hdecodes : decodes operation = true) :
    ∃ intent, operation.intent = .ok intent := by
  unfold decodes at hdecodes
  cases hintent : operation.intent with
  | ok intent => exact ⟨intent, rfl⟩
  | error error => rw [hintent] at hdecodes; cases hdecodes

theorem intent_of_not_decodes {operation : Operation} (hdecodes : decodes operation = false) :
    ∃ error, operation.intent = .error error := by
  unfold decodes at hdecodes
  cases hintent : operation.intent with
  | ok intent => rw [hintent] at hdecodes; cases hdecodes
  | error error => exact ⟨error, rfl⟩

theorem foldEntityOp_of_decodes {operation : Operation} (hdecodes : decodes operation = true) (fold : EntityFold)
    (role : EntityFoldRole) : ∃ after, foldEntityOp snapshot row fold operation role = .ok after := by
  obtain ⟨intent, hintent⟩ := intent_of_decodes hdecodes
  unfold foldEntityOp
  simp only [intent_fold_effect, hintent, effects.except_bind_ok]
  split
  · exact ⟨_, rfl⟩
  · exact ⟨_, rfl⟩
  · split_ifs <;> exact ⟨_, rfl⟩
  · split_ifs <;> exact ⟨_, rfl⟩
  · exact ⟨_, rfl⟩

theorem foldEntityOps_of_decodes {operations : List (Operation × EntityFoldRole)}
    (hdecodes : ∀ entry ∈ operations, decodes entry.1 = true) (fold : EntityFold) :
    ∃ after, foldEntityOps snapshot row fold operations = .ok after := by
  induction operations generalizing fold with
  | nil => exact ⟨fold, rfl⟩
  | cons entry rest ih =>
    obtain ⟨operation, role⟩ := entry
    obtain ⟨middle, hmiddle⟩ := foldEntityOp_of_decodes (hdecodes _ List.mem_cons_self) fold role
    obtain ⟨after, hafter⟩ := ih (fun other hmem => hdecodes other (List.mem_cons_of_mem _ hmem)) middle
    refine ⟨after, ?_⟩
    simp only at hmiddle
    rw [foldEntityOps, hmiddle, effects.except_bind_ok, hafter]

/-- An entity operation that does not decode breaks the fold of its row. -/
theorem decodes_of_foldEntityOps {operations : List (Operation × EntityFoldRole)} {fold after : EntityFold}
    (hfold : foldEntityOps snapshot row fold operations = .ok after) : ∀ entry ∈ operations, decodes entry.1 = true := by
  induction operations generalizing fold with
  | nil => simp
  | cons entry rest ih =>
    obtain ⟨operation, role⟩ := entry
    rw [foldEntityOps, effects.except_bind_eq_ok_iff] at hfold
    obtain ⟨middle, hhead, hrest⟩ := hfold
    intro other hmem
    obtain rfl | hmem := List.mem_cons.mp hmem
    · unfold foldEntityOp at hhead
      rw [effects.except_bind_eq_ok_iff] at hhead
      obtain ⟨effect, heffect, _⟩ := hhead
      obtain ⟨intent, hintent, _⟩ := intent_fold_effect_eq_ok_iff.mp heffect
      unfold decodes
      rw [hintent]
      rfl
    · exact ih hrest other hmem

theorem message_assertions_of_decodes {operations : List Operation} (message_id : String)
    (hdecodes : ∀ operation ∈ operations, decodes operation = true) :
    ∃ assertions, message_assertions operations message_id = .ok assertions := by
  induction operations with
  | nil => exact ⟨[], rfl⟩
  | cons operation rest ih =>
    obtain ⟨later, hlater⟩ := ih fun other hmem => hdecodes other (List.mem_cons_of_mem _ hmem)
    obtain ⟨intent, hintent⟩ := intent_of_decodes (hdecodes operation List.mem_cons_self)
    unfold message_assertions
    split_ifs
    · simp only [intent_fold_effect, hintent, effects.except_bind_ok, hlater]
      split <;> exact ⟨_, rfl⟩
    · exact ⟨later, hlater⟩

end Decoding

/-- Whether a decoded entity operation leaves the row present or absent; `none`
    where it leaves the row as it was. -/
def presence (entry : Operation × EntityFoldRole) : Option Bool :=
  match intent_fold_effect entry.1, entry.2 with
  | .ok (.UpsertDraft _), .DraftKey => some true
  | .ok .TombstoneDraft, .DraftKey => some false
  | .ok (.SendEffects _ _), .SendRow => if send_is_held entry.1 then none else some true
  | .ok (.SendEffects _ _), .SendConsumedDraft => some (send_is_held entry.1)
  | _, _ => none

/-- Whether the entity operations leave the row a state for assertions to fold
    over: the newest one with a say decides, and base where none has one. -/
def foldsPresent (snapshot : DeriveSnapshot) (message_id : MessageId) : Bool :=
  ((entityOps (rowTouches snapshot message_id)).filterMap presence).getLast?.getD snapshot.base.isSome

section Presence

variable {snapshot : DeriveSnapshot} {message_id : MessageId}

theorem isSome_of_foldEntityOp {fold after : EntityFold} {operation : Operation} {role : EntityFoldRole}
    (hfold : foldEntityOp snapshot message_id fold operation role = .ok after) :
    after.state.isSome = (presence (operation, role)).getD fold.state.isSome := by
  unfold foldEntityOp at hfold
  obtain ⟨effect, heffect, hfold⟩ := effects.except_bind_eq_ok_iff.mp hfold
  unfold presence
  rw [heffect]
  split at hfold
  · cases hfold
    rfl
  · cases hfold
    rfl
  · split_ifs at hfold with hheld
    · cases hfold
      simp [hheld]
    · cases hfold
      simp [hheld]
  · split_ifs at hfold with hheld
    · cases hfold
      simp [hheld]
    · cases hfold
      simp [hheld]
  · rename_i hupsert htombstone hrow hconsumed
    cases hfold
    cases effect with
    | Assert assertion => rfl
    | UpsertDraft request =>
      cases role with
      | DraftKey => exact absurd rfl (hupsert request rfl)
      | SendRow | SendConsumedDraft => rfl
    | TombstoneDraft =>
      cases role with
      | DraftKey => exact absurd rfl (htombstone rfl)
      | SendRow | SendConsumedDraft => rfl
    | SendEffects key request =>
      cases role with
      | DraftKey => rfl
      | SendRow => exact absurd rfl (hrow key request rfl)
      | SendConsumedDraft => exact absurd rfl (hconsumed key request rfl)

theorem isSome_of_foldEntityOps {fold after : EntityFold} {operations : List (Operation × EntityFoldRole)}
    (hfold : foldEntityOps snapshot message_id fold operations = .ok after) :
    after.state.isSome = (operations.filterMap presence).getLast?.getD fold.state.isSome := by
  induction operations generalizing fold with
  | nil =>
    cases hfold
    rfl
  | cons entry rest ih =>
    obtain ⟨operation, role⟩ := entry
    rw [foldEntityOps, effects.except_bind_eq_ok_iff] at hfold
    obtain ⟨middle, hhead, hrest⟩ := hfold
    have hmiddle := isSome_of_foldEntityOp hhead
    rw [ih hrest, hmiddle]
    cases hpresence : presence (operation, role) with
    | none => rw [List.filterMap_cons_none hpresence, Option.getD_none]
    | some present => rw [List.filterMap_cons_some hpresence, List.getLast?_cons, Option.getD_some, Option.getD_some]

private theorem assertsOn_of_messageOps {operation : Operation}
    (hmem : operation ∈ messageOps (rowTouches snapshot message_id)) :
    operation.entity.id = message_id ∧ operation.kind.is_state_assertion := by
  rw [messageOps_rowTouches] at hmem
  have hasserts := (List.mem_filter.mp hmem).2
  simp only [assertsOn, Bool.and_eq_true, decide_eq_true_eq] at hasserts
  exact ⟨by rw [hasserts.1.2], hasserts.2⟩

private theorem project_isOk_iff {record : MessageRecord} (hid : record.id = message_id) :
    (∃ projected, project_record record (messageOps (rowTouches snapshot message_id)) = .ok projected) ↔
      ∀ operation ∈ messageOps (rowTouches snapshot message_id), decodes operation = true := by
  constructor
  · rintro ⟨projected, hproject⟩ operation hmem
    obtain ⟨assertions, hassertions, _⟩ := message_assertions_of_project hproject
    have hasserts := asserts_of_message_assertions
      (fun other hother => (assertsOn_of_messageOps hother).1.trans hid.symm)
      (fun other hother => (assertsOn_of_messageOps hother).2) hassertions operation hmem
    obtain ⟨intent, hintent, _⟩ := intent_fold_effect_eq_ok_iff.mp hasserts
    unfold decodes
    rw [hintent]
    rfl
  · intro hdecodes
    obtain ⟨assertions, hassertions⟩ := message_assertions_of_decodes record.id hdecodes
    exact ⟨_, project_record_eq hassertions⟩

/-- A row replays exactly when its entity operations decode and, if they leave it
    present, its assertions decode too. -/
theorem replayRecord_isOk_iff (hid : ∀ record, snapshot.base = some record → record.id = message_id) :
    (∃ replayed, replayRecord snapshot message_id = .ok replayed) ↔
      (∀ entry ∈ entityOps (rowTouches snapshot message_id), decodes entry.1 = true) ∧
        (foldsPresent snapshot message_id = true →
          ∀ operation ∈ messageOps (rowTouches snapshot message_id), decodes operation = true) := by
  unfold replayRecord
  cases hops : foldEntityOps snapshot message_id { state := snapshot.base, discarded_by_draft_op := false }
    (entityOps (rowTouches snapshot message_id)) with
  | error error =>
    simp only [reduceCtorEq, exists_false, false_iff, not_and]
    intro hdecodes
    obtain ⟨after, hafter⟩ := @foldEntityOps_of_decodes snapshot message_id _ hdecodes
      { state := snapshot.base, discarded_by_draft_op := false }
    rw [hops] at hafter
    cases hafter
  | ok fold =>
    have hentity := decodes_of_foldEntityOps hops
    have hpresent : fold.state.isSome = foldsPresent snapshot message_id := isSome_of_foldEntityOps hops
    obtain ⟨state, discarded⟩ := fold
    cases state with
    | none =>
      rw [← hpresent]
      exact ⟨fun _ => ⟨hentity, fun hsome => nomatch hsome⟩, fun _ => ⟨none, rfl⟩⟩
    | some record =>
      have hrecord := id_of_foldEntityOps (fun base hbase => hid base hbase) hops record rfl
      rw [← hpresent]
      simp only [Option.isSome_some, forall_const]
      rw [← project_isOk_iff hrecord]
      constructor
      · rintro ⟨replayed, hreplayed⟩
        refine ⟨hentity, ?_⟩
        cases hproject : project_record record (messageOps (rowTouches snapshot message_id)) with
        | error error =>
          rw [hproject] at hreplayed
          cases hreplayed
        | ok projected => exact ⟨projected, rfl⟩
      · rintro ⟨_, projected, hproject⟩
        rw [hproject]
        exact ⟨projected, rfl⟩

end Presence

section Rows

variable {store : DatabaseStore} {row : MessageId}

/-- The row has a state for assertions to fold over. -/
def rowPresent (store : DatabaseStore) (row : MessageId) : Bool := foldsPresent (store.snapshot row) row

/-- The operation cannot break the replay of the row: it decodes, or it asserts on a row that is not there. -/
def Harmless (store : DatabaseStore) (row : MessageId) (operation : Operation) (role : OpRowRole) : Prop :=
  decodes operation = true ∨ role = .Assertion ∧ rowPresent store row = false

/-- A row replays exactly when every operation that touches it is harmless there. -/
theorem view_isOk_iff :
    (∃ shown, view store row = .ok shown) ↔
      ∀ operation role, (operation, role) ∈ rowTouches (store.snapshot row) row → Harmless store row operation role := by
  have hreplay : (∃ shown, view store row = .ok shown) ↔
      ∃ replayed, replayRecord (store.snapshot row) row = .ok replayed := by
    unfold view
    constructor
    · rintro ⟨shown, hshown⟩
      obtain ⟨replayed, hreplayed, _⟩ := effects.except_map_eq_ok_iff.mp hshown
      exact ⟨replayed, hreplayed⟩
    · rintro ⟨replayed, hreplayed⟩
      exact ⟨_, effects.except_map_eq_ok_iff.mpr ⟨replayed, hreplayed, rfl⟩⟩
  rw [hreplay, replayRecord_isOk_iff fun _ hbase => id_of_snapshot hbase]
  constructor
  · rintro ⟨hentity, hmessage⟩ operation role hmem
    cases role with
    | Entity role => exact Or.inl (hentity (operation, role) (List.mem_filterMap.mpr ⟨_, hmem, rfl⟩))
    | Assertion =>
      cases hpresent : rowPresent store row with
      | false => exact Or.inr ⟨rfl, hpresent⟩
      | true => exact Or.inl (hmessage hpresent operation (List.mem_filterMap.mpr ⟨_, hmem, rfl⟩))
  · intro hharmless
    constructor
    · intro entry hmem
      obtain ⟨⟨operation, role⟩, htouch, hrole⟩ := List.mem_filterMap.mp hmem
      cases role with
      | Assertion => cases hrole
      | Entity role =>
        cases hrole
        obtain hdecodes | ⟨hassertion, _⟩ := hharmless operation _ htouch
        · exact hdecodes
        · cases hassertion
    · intro hpresent operation hmem
      obtain ⟨⟨other, role⟩, htouch, hrole⟩ := List.mem_filterMap.mp hmem
      cases role with
      | Entity role => cases hrole
      | Assertion =>
        cases hrole
        obtain hdecodes | ⟨_, habsent⟩ := hharmless other _ htouch
        · exact hdecodes
        · rw [rowPresent, hpresent] at habsent
          cases habsent

end Rows

end posthaste.service
