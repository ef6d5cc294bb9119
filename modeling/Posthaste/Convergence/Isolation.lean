import Posthaste.Convergence.FailedIntent
import Posthaste.Library.Transition
import Posthaste.Service.Sweep

open serde posthaste.model posthaste.store posthaste.service

namespace posthaste.convergence

section Addressed

/-- The ids of the operations, and the rows the draft registry makes of them. -/
def Addressed (store : DatabaseStore) (absent : Operation → Bool) (row : MessageId) : Prop :=
  ∃ operation ∈ store.outbox.operations, absent operation = true ∧
    ∃ turns : Nat, (liveDraftId store)^[turns] operation.entity.id = row

/-- The log without the operations, everything else as it is. -/
def without (store : DatabaseStore) (absent : Operation → Bool) : DatabaseStore :=
  { store with
    outbox := (store.outbox.operations.filter absent).foldl (fun outbox operation => outbox.remove_operation operation.id)
      store.outbox }

variable {store : DatabaseStore} {absent : Operation → Bool} {row : MessageId}

theorem operations_without :
    (without store absent).outbox.operations = store.outbox.operations.filter fun operation => !absent operation := by
  have hremoved : ∀ (removed : List Operation) (outbox : OutboxTable),
      (removed.foldl (fun outbox operation => outbox.remove_operation operation.id) outbox).operations =
        outbox.operations.filter fun operation => operation.id ∉ removed.map Operation.id := by
    intro removed
    induction removed with
    | nil => simp
    | cons operation rest ih =>
      intro outbox
      rw [List.foldl_cons, ih, OutboxTable.operations_remove, List.filter_filter]
      refine List.filter_congr fun other _ => ?_
      by_cases hsame : other.id = operation.id <;> simp [hsame]
  unfold without
  rw [hremoved]
  refine List.filter_congr fun operation hmem => ?_
  have hiff : operation.id ∈ (store.outbox.operations.filter absent).map Operation.id ↔ absent operation = true := by
    constructor
    · intro hid
      obtain ⟨other, hother, hsame⟩ := List.mem_map.mp hid
      obtain ⟨hstored, habsent⟩ := List.mem_filter.mp hother
      rwa [List.inj_on_of_nodup_map OutboxTable.ids_nodup hmem hstored hsame.symm]
    · intro habsent
      exact List.mem_map_of_mem (List.mem_filter.mpr ⟨hmem, habsent⟩)
  cases habsent : absent operation <;> simp [hiff, habsent]

theorem addressed_live (haddressed : Addressed store absent row) : Addressed store absent (liveDraftId store row) := by
  obtain ⟨operation, hmem, habsent, turns, rfl⟩ := haddressed
  refine ⟨operation, hmem, habsent, turns + 1, ?_⟩
  rw [Function.iterate_succ_apply']

end Addressed

section Marking

variable {marked : MessageId → Prop} {absent : Operation → Bool} {store : DatabaseStore} {row : MessageId}
  {operation : Operation}

/-- The marked rows hold every absent operation's id and are closed under the registry. -/
structure Marking (marked : MessageId → Prop) (absent : Operation → Bool) (store : DatabaseStore) : Prop where
  absent : ∀ operation ∈ store.outbox.operations, absent operation = true → marked operation.entity.id
  live : ∀ row, marked row → marked (liveDraftId store row)

/-- An operation whose touches the marking does not already confine. -/
def Kept (marked : MessageId → Prop) (absent : Operation → Bool) (operation : Operation) : Prop :=
  absent operation = false ∧ (operation.entity.kind = .Draft → ¬ marked operation.entity.id)

private theorem marked_of_touch (hmarking : Marking marked absent store)
    (habsent : ∀ operation, absent operation = true → decodes operation = false)
    (hmem : operation ∈ store.outbox.operations) (hkept : ¬ Kept marked absent operation) {touch : MessageId × OpRowRole}
    (htouch : touch ∈ op_row_touches_with operation fun key => some (liveDraftId store key)) : marked touch.1 := by
  unfold op_row_touches_with at htouch
  cases hkind : operation.entity.kind with
  | Draft =>
    have hentity : marked operation.entity.id := by
      by_contra hunmarked
      cases hgone : absent operation with
      | true => exact hunmarked (hmarking.absent operation hmem hgone)
      | false => exact hkept ⟨hgone, fun _ => hunmarked⟩
    simp only [hkind, List.mem_singleton] at htouch
    rw [htouch]
    exact hmarking.live _ hentity
  | Message =>
    have hgone : absent operation = true := by
      by_contra hpresent
      refine hkept ⟨by simpa using hpresent, fun hdraft => ?_⟩
      rw [hkind] at hdraft
      cases hdraft
    have hentity := hmarking.absent operation hmem hgone
    obtain ⟨error, herror⟩ := intent_of_not_decodes (habsent operation hgone)
    have hconsumed : consumedKey operation = none := by simp [consumedKey, intent_fold_effect, herror]
    simp only [hkind, hconsumed] at htouch
    split_ifs at htouch
    · rw [List.mem_singleton.mp htouch]
      exact hentity
    · rw [List.mem_singleton.mp htouch]
      exact hentity
    · cases htouch

private theorem touchesAt_of_not_kept (hmarking : Marking marked absent store)
    (habsent : ∀ operation, absent operation = true → decodes operation = false) (hrow : ¬ marked row)
    (hmem : operation ∈ store.outbox.operations) (hkept : ¬ Kept marked absent operation) :
    touchesAt (liveDraftId store) row operation = [] := by
  unfold touchesAt
  split_ifs
  · rw [List.map_eq_nil_iff, List.filter_eq_nil_iff]
    intro touch htouch hsame
    have htouched := marked_of_touch hmarking habsent hmem hkept htouch
    rw [of_decide_eq_true hsame] at htouched
    exact hrow htouched
  · rfl

end Marking

section Alike

open scoped Classical in
/-- Two stores that differ in what the marking confines only. -/
structure Alike (marked : MessageId → Prop) (absent : Operation → Bool) (left right : DatabaseStore) : Prop where
  message : left.message = right.message
  mailbox : left.mailbox = right.mailbox
  live : liveDraftId left = liveDraftId right
  log : left.outbox.operations.filter (fun operation => Kept marked absent operation) =
    right.outbox.operations.filter (fun operation => Kept marked absent operation)
  overlay : ∀ row, ¬ marked row → left.message_overlay.lookup row = right.message_overlay.lookup row
  leftMarking : Marking marked absent left
  rightMarking : Marking marked absent right

variable {marked : MessageId → Prop} {absent : Operation → Bool} {left right leftAfter rightAfter : DatabaseStore}
  {row : MessageId} {minted : Minted}

theorem Alike.symm (halike : Alike marked absent left right) : Alike marked absent right left where
  message := halike.message.symm
  mailbox := halike.mailbox.symm
  live := halike.live.symm
  log := halike.log.symm
  overlay row hrow := (halike.overlay row hrow).symm
  leftMarking := halike.rightMarking
  rightMarking := halike.leftMarking

variable (habsent : ∀ operation, absent operation = true → decodes operation = false)

include habsent in
open scoped Classical in
/-- Outside the marking the log touches every row the same way. -/
theorem Alike.rowTouches (halike : Alike marked absent left right) (hrow : ¬ marked row) :
    rowTouches (left.snapshot row) row = rowTouches (right.snapshot row) row := by
  rw [rowTouches_eq, rowTouches_eq]
  rw [← flatMap_filter_of_nil (fun operation => decide (Kept marked absent operation)) left.outbox.operations,
    ← flatMap_filter_of_nil (fun operation => decide (Kept marked absent operation)) right.outbox.operations,
    halike.log, halike.live]
  · intro operation hmem hkept
    exact touchesAt_of_not_kept halike.rightMarking habsent hrow hmem (of_decide_eq_false hkept)
  · intro operation hmem hkept
    exact touchesAt_of_not_kept halike.leftMarking habsent hrow hmem (of_decide_eq_false hkept)

open scoped Classical in
theorem Alike.keyed (halike : Alike marked absent left right) (hrow : ¬ marked row) :
    keyed left row = keyed right row := by
  have hside : ∀ store, Marking marked absent store →
      (posthaste.service.keyed store row = true ↔ ∃ operation ∈ store.outbox.operations.filter
        (fun operation => Kept marked absent operation), (operation.entity.id == row) = true) := by
    intro store hmarking
    unfold posthaste.service.keyed
    rw [List.any_eq_true]
    constructor
    · rintro ⟨operation, hmem, hkeyed⟩
      have hid : operation.entity.id = row := beq_iff_eq.mp hkeyed
      refine ⟨operation, List.mem_filter.mpr ⟨hmem, decide_eq_true ⟨?_, fun _ => hid ▸ hrow⟩⟩, hkeyed⟩
      by_contra hgone
      exact hrow (hid ▸ hmarking.absent operation hmem (by simpa using hgone))
    · rintro ⟨operation, hmem, hkeyed⟩
      exact ⟨operation, List.mem_of_mem_filter hmem, hkeyed⟩
  rw [Bool.eq_iff_iff, hside left halike.leftMarking, hside right halike.rightMarking, halike.log]

theorem Alike.repairs (halike : Alike marked absent left right) (hrow : ¬ marked row) :
    repairs left row = repairs right row := by
  rw [Bool.eq_iff_iff, repairs_eq_true_iff, repairs_eq_true_iff, halike.overlay row hrow, halike.message,
    halike.keyed hrow]

/-- A derivation of a marked row is confined. -/
theorem Alike.derive_marked (halike : Alike marked absent left right) (hrow : marked row)
    (hderived : Rederived [row] left leftAfter) : Alike marked absent leftAfter right where
  message := by rw [hderived.inputs]; exact halike.message
  mailbox := by rw [hderived.inputs]; exact halike.mailbox
  live := by rw [hderived.inputs]; exact halike.live
  log := by rw [hderived.inputs]; exact halike.log
  overlay other hother := by
    rw [hderived.elsewhere other fun hmem => hother (List.mem_singleton.mp hmem ▸ hrow)]
    exact halike.overlay other hother
  leftMarking := by
    rw [hderived.inputs]
    exact ⟨halike.leftMarking.absent, halike.leftMarking.live⟩
  rightMarking := halike.rightMarking

include habsent in
/-- A derivation outside the marking decides the same on both sides. -/
theorem Alike.derive_same (halike : Alike marked absent left right) (hrow : ¬ marked row) {leftDiff rightDiff : DeriveDiff}
    (hleft : (refresh_message_overlay row).run left = .ok leftDiff leftAfter)
    (hright : (refresh_message_overlay row).run right = .ok rightDiff rightAfter) :
    Alike marked absent leftAfter rightAfter := by
  obtain ⟨mutation, hleftFold, _, rfl⟩ := run_refresh_eq_ok_iff.mp hleft
  obtain ⟨other, hrightFold, _, rfl⟩ := run_refresh_eq_ok_iff.mp hright
  have hfold : fold_overlay_row (left.snapshot row) row = fold_overlay_row (right.snapshot row) row := by
    apply fold_overlay_row_congr
    · simp only [DatabaseStore.snapshot, DatabaseStore.read_base_on, halike.message]
    · simp only [DatabaseStore.snapshot, DatabaseStore.read_overlay_on, halike.overlay row hrow]
    · exact halike.rowTouches habsent hrow
    · simp only [DatabaseStore.snapshot, DatabaseStore.read_mailbox_id_by_role_on, halike.mailbox]
    · simp only [DatabaseStore.snapshot, DatabaseStore.read_mailbox_id_by_role_on, halike.mailbox]
  rw [hfold, hrightFold] at hleftFold
  cases hleftFold
  obtain ⟨hmessage, hmailbox, hlive, hlog, hoverlay, hleftMarking, hrightMarking⟩ := halike
  cases mutation with
  | Keep => exact ⟨hmessage, hmailbox, hlive, hlog, hoverlay, hleftMarking, hrightMarking⟩
  | Upsert record =>
    refine ⟨hmessage, hmailbox, hlive, hlog, fun other hother => ?_, ⟨hleftMarking.absent, hleftMarking.live⟩,
      ⟨hrightMarking.absent, hrightMarking.live⟩⟩
    show AList.lookup other (AList.insert _ _ _) = AList.lookup other (AList.insert _ _ _)
    by_cases hsame : other = record.id
    · rw [hsame, AList.lookup_insert, AList.lookup_insert]
    · rw [AList.lookup_insert_ne hsame, AList.lookup_insert_ne hsame, hoverlay other hother]
  | Tombstone =>
    refine ⟨hmessage, hmailbox, hlive, hlog, fun other hother => ?_, ⟨hleftMarking.absent, hleftMarking.live⟩,
      ⟨hrightMarking.absent, hrightMarking.live⟩⟩
    show AList.lookup other (AList.insert _ _ _) = AList.lookup other (AList.insert _ _ _)
    by_cases hsame : other = row
    · rw [hsame, AList.lookup_insert, AList.lookup_insert]
    · rw [AList.lookup_insert_ne hsame, AList.lookup_insert_ne hsame, hoverlay other hother]
  | Remove =>
    refine ⟨hmessage, hmailbox, hlive, hlog, fun other hother => ?_, ⟨hleftMarking.absent, hleftMarking.live⟩,
      ⟨hrightMarking.absent, hrightMarking.live⟩⟩
    show AList.lookup other (AList.erase _ _) = AList.lookup other (AList.erase _ _)
    by_cases hsame : other = row
    · rw [hsame, AList.lookup_erase, AList.lookup_erase]
    · rw [AList.lookup_erase_ne hsame, AList.lookup_erase_ne hsame, hoverlay other hother]

private theorem absent_deleteOperation {key : String}
    (habsent : ∀ operation, absent operation = true → decodes operation = false) :
    absent (deleteOperation key true minted) = false := by
  by_contra hgone
  have hbroken := habsent _ (by simpa using hgone)
  rw [decodes_deleteOperation] at hbroken
  cases hbroken

include habsent in
private theorem Marking.queuedDelete {store : DatabaseStore} {key : String} (hmarking : Marking marked absent store)
    (hfresh : store.outbox.get_operation minted.operation_id = none) :
    Marking marked absent (queuedDelete store key true minted) where
  absent operation hmem hgone := by
    rw [operations_queuedDelete hfresh, List.mem_append, List.mem_singleton] at hmem
    obtain hmem | rfl := hmem
    · exact hmarking.absent operation hmem hgone
    · rw [absent_deleteOperation habsent] at hgone
      cases hgone
  live := by
    rw [liveDraftId_queuedDelete]
    exact hmarking.live

include habsent in
/-- A draft removal queued on a marked key is confined. -/
theorem Alike.queue_marked {key : String} (halike : Alike marked absent left right) (hkey : marked key)
    (hfresh : left.outbox.get_operation minted.operation_id = none) :
    Alike marked absent (queuedDelete left key true minted) right where
  message := by rw [message_queuedDelete]; exact halike.message
  mailbox := by rw [mailbox_queuedDelete]; exact halike.mailbox
  live := by rw [liveDraftId_queuedDelete]; exact halike.live
  log := by
    have hdropped : ¬ Kept marked absent (deleteOperation key true minted) := fun hkept => hkept.2 rfl hkey
    rw [operations_queuedDelete hfresh, List.filter_append, ← halike.log]
    simp [hdropped]
  overlay other hother := by rw [message_overlay_queuedDelete]; exact halike.overlay other hother
  leftMarking := halike.leftMarking.queuedDelete habsent hfresh
  rightMarking := halike.rightMarking

include habsent in
/-- A draft removal queued on both sides keeps them alike. -/
theorem Alike.queue_same {key : String} (halike : Alike marked absent left right)
    (hleft : left.outbox.get_operation minted.operation_id = none)
    (hright : right.outbox.get_operation minted.operation_id = none) :
    Alike marked absent (queuedDelete left key true minted) (queuedDelete right key true minted) where
  message := by rw [message_queuedDelete, message_queuedDelete]; exact halike.message
  mailbox := by rw [mailbox_queuedDelete, mailbox_queuedDelete]; exact halike.mailbox
  live := by rw [liveDraftId_queuedDelete, liveDraftId_queuedDelete]; exact halike.live
  log := by
    rw [operations_queuedDelete hleft, operations_queuedDelete hright, List.filter_append, List.filter_append,
      halike.log]
  overlay other hother := by
    rw [message_overlay_queuedDelete, message_overlay_queuedDelete]
    exact halike.overlay other hother
  leftMarking := halike.leftMarking.queuedDelete habsent hleft
  rightMarking := halike.rightMarking.queuedDelete habsent hright

end Alike

section Sweep

/-- The replay that ends a sync cycle. -/
def replaySweep (mint : MessageId → Minted) : MailService Unit := do sweepRows mint (← replay_inventory)

/-- One visit of the sweep. -/
def Visit (mint : MessageId → Minted) (row : MessageId) (before after : DatabaseStore) : Prop :=
  (sweepRow row (mint row)).run before = .ok () after

/-- What a sweep through the rows needs: every row replays, and the ids it will mint are unused. -/
structure Ready (mint : MessageId → Minted) (rows : List MessageId) (store : DatabaseStore) : Prop where
  nodup : rows.Nodup
  replays : Replays store
  fresh : ∀ row ∈ rows, store.outbox.get_operation (mint row).operation_id = none

variable {mint : MessageId → Minted} {store before after : DatabaseStore} {row : MessageId} {rows : List MessageId}

theorem through_visits_iff : Through (Visit mint) rows before after ↔ (sweepRows mint rows).run before = .ok () after := by
  induction rows generalizing before with
  | nil =>
    constructor
    · intro hsame
      rw [show after = before from hsame]
      rfl
    · intro hrun
      cases hrun
      rfl
  | cons row rest ih =>
    rw [sweepRows, effects.run_bind_eq_ok_iff]
    constructor
    · rintro ⟨middle, hvisit, hrest⟩
      exact ⟨(), middle, hvisit, ih.mp hrest⟩
    · rintro ⟨_, middle, hvisit, hrest⟩
      exact ⟨middle, hvisit, ih.mpr hrest⟩

theorem visit_iff :
    Visit mint row before after ↔ ∃ diff,
      (refresh_message_overlay (sweptRow before row)).run (beforeDerive before row (mint row)) = .ok diff after := by
  unfold Visit
  rw [run_sweepRow, effects.run_bind_eq_ok_iff]
  constructor
  · rintro ⟨diff, middle, hrun, hpure⟩
    cases hpure
    exact ⟨diff, hrun⟩
  · rintro ⟨diff, hrun⟩
    exact ⟨diff, after, hrun, rfl⟩

private theorem replays_beforeDerive (hready : Ready mint (row :: rows) before) :
    Replays (beforeDerive before row (mint row)) := by
  unfold beforeDerive
  split_ifs
  · exact hready.replays.queuedDelete (hready.fresh row List.mem_cons_self)
  · exact hready.replays

theorem exists_visit (hready : Ready mint (row :: rows) before) : ∃ after, Visit mint row before after := by
  obtain ⟨shown, hview⟩ := replays_beforeDerive hready (sweptRow before row)
  obtain ⟨diff, after, hrun, _⟩ := refresh_of_view hview
  exact ⟨after, visit_iff.mpr ⟨diff, hrun⟩⟩

theorem Ready.visit (hmint : Function.Injective fun row => (mint row).operation_id)
    (hready : Ready mint (row :: rows) before) (hvisit : Visit mint row before after) : Ready mint rows after := by
  obtain ⟨diff, hrun⟩ := visit_iff.mp hvisit
  have hinputs := (rederived_of_refresh hrun).inputs
  refine ⟨hready.nodup.of_cons, (replays_beforeDerive hready).of_overlay hinputs, fun other hother => ?_⟩
  have hfresh := hready.fresh other (List.mem_cons_of_mem _ hother)
  have hne : (mint other).operation_id ≠ (mint row).operation_id := by
    intro hsame
    have hrow : other = row := hmint hsame
    exact (List.nodup_cons.mp hready.nodup).1 (hrow ▸ hother)
  rw [hinputs]
  show (beforeDerive before row (mint row)).outbox.get_operation _ = none
  unfold beforeDerive
  split_ifs
  · rw [outbox_queuedDelete, OutboxTable.get_enqueue_operation]
    exact (Function.update_of_ne hne _ _).trans hfresh
  · exact hfresh

variable {marked : MessageId → Prop} {absent : Operation → Bool}

/-- Two sweeps that start alike, over inventories that agree outside the marking, end alike. -/
theorem sweeps_unwind (hmint : Function.Injective fun row => (mint row).operation_id)
    (habsent : ∀ operation, absent operation = true → decodes operation = false) :
    Unwinding (Visit mint) marked (Ready mint) (Alike marked absent) where
  symm := Alike.symm
  advance := exists_visit
  ready_step hready hvisit := hready.visit hmint hvisit
  hidden := by
    intro row rows left right after hrow hready halike hvisit
    obtain ⟨diff, hrun⟩ := visit_iff.mp hvisit
    have hfresh := hready.fresh row List.mem_cons_self
    unfold sweptRow beforeDerive at hrun
    split_ifs at hrun
    · exact (halike.queue_marked habsent hrow hfresh).derive_marked (halike.leftMarking.live row hrow)
        (rederived_of_refresh hrun)
    · exact halike.derive_marked hrow (rederived_of_refresh hrun)
  joint := by
    intro row first second left right leftAfter rightAfter hrow hleft hright halike hleftVisit hrightVisit
    obtain ⟨leftDiff, hleftRun⟩ := visit_iff.mp hleftVisit
    obtain ⟨rightDiff, hrightRun⟩ := visit_iff.mp hrightVisit
    unfold sweptRow beforeDerive at hleftRun hrightRun
    rw [halike.repairs hrow] at hleftRun
    split_ifs at hleftRun hrightRun with hrepairs
    · have hqueued : Alike marked absent (queuedDelete left row true (mint row)) (queuedDelete right row true (mint row)) :=
        halike.queue_same habsent (hleft.fresh row List.mem_cons_self) (hright.fresh row List.mem_cons_self)
      rw [halike.live] at hleftRun
      by_cases hlive : marked (liveDraftId right row)
      · -- the removed draft is itself confined: each side derives it on its own
        have hone := hqueued.derive_marked hlive (rederived_of_refresh hleftRun)
        exact (hone.symm.derive_marked hlive (rederived_of_refresh hrightRun)).symm
      · exact hqueued.derive_same habsent hlive hleftRun hrightRun
    · exact halike.derive_same habsent hrow hleftRun hrightRun

end Sweep

section Isolation

variable {mint : MessageId → Minted} {store : DatabaseStore}

/-- Operations that do not decode stay on their own rows: the replays of a cycle
    complete, and whichever of them are taken away, the sweep derives every row
    they do not address the same way. -/
structure Isolated (mint : MessageId → Minted) (store : DatabaseStore) : Prop where
  chunks : ∀ written_rows, ∃ after, (replay_base_write written_rows).run store = .ok () after
  sweep : ∃ after, (replaySweep mint).run store = .ok () after
  alike : ∀ absent : Operation → Bool, (∀ operation, absent operation = true → decodes operation = false) →
    ∃ after bare, (replaySweep mint).run store = .ok () after ∧ (replaySweep mint).run (without store absent) = .ok () bare ∧
      ∀ row, ¬ Addressed store absent row → after.message_overlay.lookup row = bare.message_overlay.lookup row

/-- What the log may hold: a replayable operation that does not decode only
    asserts, and only on rows that are not there. -/
def UndecodableHarmless (store : DatabaseStore) : Prop :=
  ∀ operation ∈ store.outbox.operations, is_replayable operation = true →
    ∀ row role, (row, role) ∈ (op_row_touches_with operation fun key => some (liveDraftId store key)) →
      Harmless store row operation role

theorem replays_iff : Replays store ↔ UndecodableHarmless store := by
  constructor
  · intro hreplays operation hmem hreplayable row role htouch
    exact view_isOk_iff.mp (hreplays row) operation role (mem_rowTouches_iff.mpr ⟨hmem, hreplayable, htouch⟩)
  · intro hharmless row
    rw [view_isOk_iff]
    intro operation role hmem
    obtain ⟨hstored, hreplayable, htouch⟩ := mem_rowTouches_iff.mp hmem
    exact hharmless operation hstored hreplayable row role htouch

/-- With nothing overlaid the sweep repairs nothing, and completes only if the rows it visits replay. -/
private theorem views_of_sweep {rows : List MessageId} {before after : DatabaseStore} (hnodup : rows.Nodup)
    (hentries : ∀ row ∈ rows, before.message_overlay.lookup row = none)
    (hrun : (sweepRows mint rows).run before = .ok () after) : ∀ row ∈ rows, ∃ shown, view before row = .ok shown := by
  induction rows generalizing before with
  | nil => simp
  | cons row rest ih =>
    rw [sweepRows, effects.run_bind_eq_ok_iff] at hrun
    obtain ⟨_, middle, hvisit, hrest⟩ := hrun
    have hnone : repairs before row = false := by
      rw [← Bool.not_eq_true, repairs_eq_true_iff]
      rintro ⟨hentry, _⟩
      rw [hentries row List.mem_cons_self] at hentry
      cases hentry
    obtain ⟨diff, hrefresh⟩ := visit_iff.mp (show Visit mint row before middle from hvisit)
    simp only [sweptRow, beforeDerive, hnone, Bool.false_eq_true, if_false] at hrefresh
    have hderived := rederived_of_refresh hrefresh
    have hlater : ∀ other ∈ rest, middle.message_overlay.lookup other = none := by
      intro other hother
      have hne : other ∉ [row] := by
        intro hsame
        exact (List.nodup_cons.mp hnodup).1 (List.mem_singleton.mp hsame ▸ hother)
      rw [hderived.elsewhere other hne]
      exact hentries other (List.mem_cons_of_mem _ hother)
    intro other hother
    obtain rfl | hother := List.mem_cons.mp hother
    · obtain ⟨shown, _, _, hview, _⟩ | ⟨_, _, _, hfailed⟩ := refresh_cases before other
      · exact ⟨shown, hview⟩
      · rw [hrefresh] at hfailed
        cases hfailed
    · obtain ⟨shown, hview⟩ := ih hnodup.of_cons hlater hrest other hother
      rw [view_of_overlay hderived.inputs] at hview
      exact ⟨shown, hview⟩

private theorem harmless_of_isolated (hisolated : Isolated mint { store with message_overlay := ∅ }) :
    UndecodableHarmless store := by
  obtain ⟨after, hrun⟩ := hisolated.sweep
  unfold replaySweep at hrun
  rw [effects.run_bind_of_ok run_replay_inventory] at hrun
  have hviews := views_of_sweep inventory_nodup (fun _ _ => rfl) hrun
  intro operation hmem hreplayable row role htouch
  have hrow : (operation, role) ∈ rowTouches (({ store with message_overlay := ∅ } : DatabaseStore).snapshot row) row :=
    mem_rowTouches_iff.mpr ⟨hmem, hreplayable, htouch⟩
  have hvisited := mem_inventory_iff.mpr (Or.inl (List.ne_nil_of_mem hrow))
  exact view_isOk_iff.mp (hviews row hvisited) operation role hrow

private theorem presence_of_not_decodes {operation : Operation} {role : EntityFoldRole}
    (hbroken : decodes operation = false) : presence (operation, role) = none := by
  obtain ⟨error, herror⟩ := intent_of_not_decodes hbroken
  unfold presence
  simp only [intent_fold_effect, herror]

/-- What does not decode has no say in whether a row is there. -/
private theorem rowPresent_without {absent : Operation → Bool}
    (habsent : ∀ operation, absent operation = true → decodes operation = false) (row : MessageId) :
    rowPresent (without store absent) row = rowPresent store row := by
  have hsay : ∀ operations : List Operation,
      (entityOps (operations.flatMap (touchesAt (liveDraftId store) row))).filterMap presence =
        operations.flatMap fun operation =>
          (entityOps (touchesAt (liveDraftId store) row operation)).filterMap presence := by
    intro operations
    unfold entityOps
    rw [List.filterMap_flatMap, List.filterMap_flatMap]
  unfold rowPresent foldsPresent
  rw [rowTouches_eq, rowTouches_eq, operations_without]
  change ((entityOps ((store.outbox.operations.filter _).flatMap (touchesAt (liveDraftId store) row))).filterMap
    presence).getLast?.getD _ = _
  rw [hsay, hsay, flatMap_filter_of_nil]
  · rfl
  · intro operation _ hgone
    have hbroken := habsent operation (by simpa using hgone)
    rw [List.filterMap_eq_nil_iff]
    intro entry hmem
    obtain ⟨touch, htouch, hentry⟩ := List.mem_filterMap.mp hmem
    obtain ⟨other, role⟩ := touch
    have hsame : other = operation := by
      unfold touchesAt at htouch
      split_ifs at htouch
      · obtain ⟨_, _, heq⟩ := List.mem_map.mp htouch
        cases heq
        rfl
      · cases htouch
    cases role with
    | Assertion => cases hentry
    | Entity role =>
      cases hentry
      rw [hsame]
      exact presence_of_not_decodes hbroken

private theorem replays_without {absent : Operation → Bool}
    (habsent : ∀ operation, absent operation = true → decodes operation = false) (hreplays : Replays store) :
    Replays (without store absent) := by
  rw [replays_iff] at hreplays ⊢
  intro operation hmem hreplayable row role htouch
  rw [operations_without] at hmem
  obtain hdecodes | ⟨hrole, hgone⟩ := hreplays operation (List.mem_of_mem_filter hmem) hreplayable row role htouch
  · exact Or.inl hdecodes
  · exact Or.inr ⟨hrole, by rw [rowPresent_without habsent, hgone]⟩

private theorem alike_without {absent : Operation → Bool} :
    Alike (Addressed store absent) absent store (without store absent) where
  message := rfl
  mailbox := rfl
  live := rfl
  log := by
    rw [operations_without, List.filter_filter]
    refine List.filter_congr fun operation _ => ?_
    cases hgone : absent operation <;> simp [Kept, hgone]
  overlay _ _ := rfl
  leftMarking := ⟨fun operation hmem hgone => ⟨operation, hmem, hgone, 0, rfl⟩, fun _ => addressed_live⟩
  rightMarking := by
    refine ⟨fun operation hmem hgone => ?_, fun _ => addressed_live⟩
    rw [operations_without] at hmem
    have hkept := (List.mem_filter.mp hmem).2
    rw [hgone] at hkept
    cases hkept

/-- Outside the addressed rows both inventories visit the same rows. -/
private theorem inventory_without {absent : Operation → Bool}
    (habsent : ∀ operation, absent operation = true → decodes operation = false)
    [DecidablePred (Addressed store absent)] :
    (inventory store).filter (¬ Addressed store absent ·) =
      (inventory (without store absent)).filter (¬ Addressed store absent ·) := by
  have hsorted : ∀ store : DatabaseStore, (inventory store).SortedLT := fun store => BTreeSet.sorted _
  apply List.SortedLT.eq_of_mem_iff
  · exact ((hsorted store).pairwise.filter _).sortedLT
  · exact ((hsorted (without store absent)).pairwise.filter _).sortedLT
  · intro row
    rw [List.mem_filter, List.mem_filter]
    refine and_congr_left fun hrow => ?_
    rw [mem_inventory_iff, mem_inventory_iff, alike_without.rowTouches habsent (of_decide_eq_true hrow)]
    rfl

/-- On a log that holds nothing harmful, the replays of a cycle are isolated from what does not decode. -/
theorem isolated_of_harmless (hmint : Function.Injective fun row => (mint row).operation_id)
    (hfresh : ∀ row, store.outbox.get_operation (mint row).operation_id = none)
    (hharmless : UndecodableHarmless store) : Isolated mint store := by
  classical
  have hreplays := replays_iff.mpr hharmless
  have hready : Ready mint (inventory store) store := ⟨inventory_nodup, hreplays, fun row _ => hfresh row⟩
  have hboth : ∀ absent : Operation → Bool, (∀ operation, absent operation = true → decodes operation = false) →
      ∃ after bare, (replaySweep mint).run store = .ok () after ∧
        (replaySweep mint).run (without store absent) = .ok () bare ∧
          ∀ row, ¬ Addressed store absent row → after.message_overlay.lookup row = bare.message_overlay.lookup row := by
    intro absent habsent
    have hbare : Ready mint (inventory (without store absent)) (without store absent) := by
      refine ⟨inventory_nodup, replays_without habsent hreplays, fun row _ => ?_⟩
      rw [OutboxTable.get_operation_eq_none_iff, operations_without]
      intro operation hmem
      exact OutboxTable.get_operation_eq_none_iff.mp (hfresh row) operation (List.mem_of_mem_filter hmem)
    obtain ⟨after, bare, hrun, hother, halike⟩ :=
      (sweeps_unwind hmint habsent).run (inventory_without habsent) hready hbare alike_without
    refine ⟨after, bare, ?_, ?_, halike.overlay⟩
    · unfold replaySweep
      rw [effects.run_bind_of_ok run_replay_inventory]
      exact through_visits_iff.mp hrun
    · unfold replaySweep
      rw [effects.run_bind_of_ok run_replay_inventory]
      exact through_visits_iff.mp hother
  refine ⟨fun written_rows => ?_, ?_, hboth⟩
  · unfold replay_base_write
    split_ifs
    · exact ⟨store, rfl⟩
    · rw [effects.run_bind_of_ok run_replay_inventory]
      have hrows : ∀ row ∈ (inventory store).filter (· ∈ written_rows), ∃ shown, view store row = .ok shown :=
        fun row _ => hreplays row
      obtain ⟨after, hrun, _⟩ := refreshAll_of_view hrows
      exact ⟨after, hrun⟩
  · obtain ⟨after, _, hrun, _⟩ := hboth (fun _ => false) fun _ hgone => nomatch hgone
    exact ⟨after, hrun⟩

end Isolation

section Runs

def repairMint (row : MessageId) : Minted :=
  { now := "t", mono_now := 0, operation_id := "repair-" ++ row, id := row }

theorem repairMint_injective : Function.Injective fun row => (repairMint row).operation_id := by
  intro first second hsame
  exact (String.append_right_inj "repair-").mp hsame

/-- A flag queued by another build on a message that base does not hold. -/
def goneFlag : Operation := { flagOperation with payload_version := 2 }

def goneFlagLog : DatabaseStore :=
  { DatabaseStore.empty with outbox := DatabaseStore.empty.outbox.enqueue_operation goneFlag }

/-- A failed draft save that another build wrote, under a flag on a synced message. -/
def brokenSave : Operation :=
  { newOperation "op0" ⟨.Draft, "d1"⟩ .DraftUpdate (.object []) none none "t" with
    payload_version := 2, state := .Failed, attempts := 1 }

def brokenSaveLog : DatabaseStore :=
  { effects.final ((emit (upsert_message_batch syncedRecord)).run DatabaseStore.empty) with
    outbox := (DatabaseStore.empty.outbox.enqueue_operation brokenSave).enqueue_operation flagOperation }

end Runs

end posthaste.convergence
