import Posthaste.Interleaving.PushLog
import Posthaste.Interleaving.Steps

open serde posthaste.model posthaste.store posthaste.service

namespace posthaste.interleaving

/-- What no statement rewrites of a queued operation. -/
def tag (operation : Operation) : OperationId × List OperationEntity := (operation.id, subjects operation)

/-- The operation can still be pushed: it is flushable, or the pass has it in hand. -/
def Machine.IsLive (machine : Machine) (id : OperationId) : Prop :=
  ∃ stored, machine.rows id = some stored ∧
    (stored.state.is_flushable = true ∨ machine.flusher.held.map Operation.id = some id)

/-- The log as a queue of jobs and the pass as its worker. -/
def PushLog.view (log : PushLog) : Drain OperationId OperationEntity where
  queued := log.queued.map tag
  live := log.machine.IsLive
  hand := log.machine.flusher.held.map Operation.id
  agenda := log.machine.flusher.queue
  done := log.applied.map Operation.id

theorem subjects_of_is_draft_save {operation : Operation} (hkind : operation.kind.is_draft_save = true) :
    subjects operation = [operation.entity] := by
  unfold subjects
  cases hintent : operation.intent with
  | error message => rfl
  | ok intent =>
    cases intent with
    | Send request =>
      have hsend : MailIntent.kind (.Send request) = operation.kind := MailIntent.kind_of_from_parts hintent
      rw [← hsend] at hkind
      cases hkind
    | _ => rfl

section Tags

variable {machine after : Machine}

theorem tags_updateWhereState {outbox : OutboxTable} {id : OperationId} {guard : OperationState → Bool}
    {change : OperationRow → OperationRow} {hid : ∀ row, (change row).id = row.id}
    (hsame : ∀ row ∈ outbox.rows, row.id = id → guard row.operation.state = true →
      tag (change row).operation = tag row.operation) :
    (outbox.updateWhereState id guard change hid).operations.map tag = outbox.operations.map tag := by
  unfold OutboxTable.operations OutboxTable.updateWhereState Table.updateIf
  simp only [List.map_map]
  refine List.map_congr_left fun row hrow => ?_
  simp only [Function.comp_apply]
  split_ifs with hchanged
  · exact hsame row hrow hchanged.1 hchanged.2
  · rfl

theorem tags_deleteIf (outbox : OutboxTable) (id : OperationId) (guard : OperationRow → Bool) :
    ((OutboxTable.operations (outbox.deleteIf id guard)).map tag).Sublist (outbox.operations.map tag) := by
  unfold OutboxTable.operations Table.deleteIf
  exact (List.filter_sublist.map _).map _

theorem tags_update_operation_state (outbox : OutboxTable) (id : OperationId) (state : OperationState)
    (attempts : UInt32) (last_error : Option String) (now : Timestamp) :
    (outbox.update_operation_state id state attempts last_error now).operations.map tag = outbox.operations.map tag := by
  unfold OutboxTable.update_operation_state
  exact tags_updateWhereState fun _ _ _ _ => rfl

theorem tags_mark_operation_settled (outbox : OutboxTable) (id : OperationId) (settled_at_mono : Int)
    (watermark : Option String) (now : Timestamp) :
    (outbox.mark_operation_settled id settled_at_mono watermark now).operations.map tag = outbox.operations.map tag := by
  unfold OutboxTable.mark_operation_settled
  exact tags_updateWhereState fun _ _ _ _ => rfl

theorem tags_claim_operation_for_flush (outbox : OutboxTable) (id : OperationId) (now : Timestamp) :
    (outbox.claim_operation_for_flush id now).2.operations.map tag = outbox.operations.map tag := by
  unfold OutboxTable.claim_operation_for_flush
  apply tags_updateWhereState
  · exact fun _ => rfl
  · exact fun _ _ _ _ => rfl

/-- A swapped payload is a draft save's, which is about its own entity whatever it carries. -/
theorem tags_replace_operation_payload {outbox : OutboxTable} {id : OperationId} {payload : Value} {now : Timestamp}
    (hdraft : ((outbox.get_operation id).all fun operation => operation.kind.is_draft_save) = true) :
    (outbox.replace_operation_payload id payload now).2.operations.map tag = outbox.operations.map tag := by
  unfold OutboxTable.replace_operation_payload
  refine tags_updateWhereState fun row hrow hid _ => ?_
  have hget : outbox.get_operation id = some row.operation := by
    rw [← hid]
    exact OutboxTable.get_of_mem (List.mem_map_of_mem hrow)
  have hkind : row.operation.kind.is_draft_save = true := by simpa [hget] using hdraft
  have hbefore : subjects row.operation = [row.operation.entity] := subjects_of_is_draft_save hkind
  have hafter : subjects { row.operation with payload, attempts := 0, last_error := none, updated_at := now } =
      [row.operation.entity] := subjects_of_is_draft_save hkind
  exact Prod.ext rfl (hafter.trans hbefore.symm)

end Tags

section Live

variable {machine after : Machine} {id key : OperationId} {value : Option Operation}

/-- Rewriting one row makes nothing live, when what it leaves flushable was flushable and the pass takes
    nothing new in hand. -/
theorem isLive_of_rewrite (hlive : after.IsLive key)
    (hrows : after.outbox.get_operation = Function.update machine.outbox.get_operation id value)
    (hheld : after.flusher.held = machine.flusher.held ∨ after.flusher.held = none)
    (hvalue : ∀ written, value = some written → ∃ stored, machine.outbox.get_operation id = some stored ∧
      (written.state.is_flushable = true → machine.IsLive id)) : machine.IsLive key := by
  obtain ⟨written, hwritten, hcan⟩ := hlive
  unfold Machine.rows at hwritten
  rw [hrows] at hwritten
  by_cases hkey : key = id
  · subst hkey
    rw [Function.update_self] at hwritten
    obtain ⟨stored, hstored, hflushable⟩ := hvalue written hwritten
    rcases hcan with hcan | hhand
    · exact hflushable hcan
    · rcases hheld with hsame | hnone
      · exact ⟨stored, hstored, Or.inr (hsame ▸ hhand)⟩
      · rw [hnone] at hhand
        cases hhand
  · rw [Function.update_of_ne hkey] at hwritten
    refine ⟨written, hwritten, hcan.imp_right fun hhand => ?_⟩
    rcases hheld with hsame | hnone
    · exact hsame ▸ hhand
    · rw [hnone] at hhand
      cases hhand

theorem not_isLive_of_rewrite
    (hrows : after.outbox.get_operation = Function.update machine.outbox.get_operation id value)
    (hheld : after.flusher.held = none)
    (hvalue : ∀ written, value = some written → written.state.is_flushable = false) : ¬ after.IsLive id := by
  rintro ⟨written, hwritten, hcan⟩
  unfold Machine.rows at hwritten
  rw [hrows, Function.update_self] at hwritten
  rw [hheld, hvalue written hwritten] at hcan
  rcases hcan with hcan | hcan <;> cases hcan

end Live

/-- What every run keeps beside the order: the rows and what the pass holds were queued, and the
    operation that is with the gateway is the newest push. -/
structure Tracked (log : PushLog) : Prop where
  minted {operation : Operation} : operation ∈ log.queued → .enqueued operation.id ∈ log.machine.history
  stored : (log.machine.outbox.operations.map tag).Sublist (log.queued.map tag)
  held {operation : Operation} : log.machine.flusher.held = some operation → tag operation ∈ log.queued.map tag
  applied {operation : Operation} : operation ∈ log.applied → tag operation ∈ log.queued.map tag
  pushing {operation : Operation} : log.machine.flusher.withGateway = some operation →
    ∃ earlier, log.pushes = { operation, applied := false } :: earlier
  ordered : log.view.Ordered

section Simulation

variable {log : PushLog} {after : Machine}

/-- A step of the machine that queues and pushes nothing is one of the worker's steps. -/
theorem Tracked.advance (htracked : Tracked log) (hhistory : log.machine.history <:+ after.history)
    (htags : (after.outbox.operations.map tag).Sublist (log.machine.outbox.operations.map tag))
    (hheld : ∀ operation, after.flusher.held = some operation →
      log.machine.flusher.held = some operation ∨ operation ∈ log.machine.outbox.operations)
    (hgateway : ∀ operation, after.flusher.withGateway = some operation →
      log.machine.flusher.withGateway = some operation)
    (hsteps : Relation.ReflTransGen Drain.Step log.view { log with machine := after }.view) :
    Tracked { log with machine := after } where
  minted hqueued := hhistory.subset (htracked.minted hqueued)
  stored := htags.trans htracked.stored
  held hhand := by
    rcases hheld _ hhand with hbefore | hrow
    · exact htracked.held hbefore
    · exact htracked.stored.subset (List.mem_map_of_mem hrow)
  applied := htracked.applied
  pushing hpushed := htracked.pushing (hgateway _ hpushed)
  ordered := htracked.ordered.steps hsteps

/-- A statement beside the pass, which makes nothing live, only takes jobs away. -/
theorem Tracked.beside (htracked : Tracked log) (hhistory : log.machine.history <:+ after.history)
    (htags : (after.outbox.operations.map tag).Sublist (log.machine.outbox.operations.map tag))
    (hflusher : after.flusher = log.machine.flusher)
    (hlive : ∀ key, after.IsLive key → log.machine.IsLive key) : Tracked { log with machine := after } := by
  refine htracked.advance hhistory htags ?_ ?_ (.single ?_)
  · intro operation hheld
    exact Or.inl (hflusher ▸ hheld)
  · intro operation hpushed
    exact hflusher ▸ hpushed
  · have hview : PushLog.view { log with machine := after } = { log.view with live := after.IsLive } := by
      simp only [PushLog.view, hflusher]
      rfl
    rw [hview]
    exact .drop _ hlive

theorem Tracked.remove (htracked : Tracked log) (id : OperationId) :
    Tracked { log with machine := { log.machine with outbox := log.machine.outbox.remove_operation id } } := by
  refine htracked.beside List.suffix_rfl (tags_deleteIf _ _ _) rfl ?_
  intro key hlive
  refine isLive_of_rewrite hlive (OutboxTable.get_remove_operation _ id) (Or.inl rfl) ?_
  intro written hwritten
  cases hwritten

theorem Tracked.discard (htracked : Tracked log) (id : OperationId) :
    Tracked { log with machine := log.machine.discard id } := by
  refine htracked.beside (move_of_step (show log.machine.step (.discard id) = some (log.machine.discard id) from rfl)).history_suffix (tags_deleteIf _ _ _) rfl ?_
  intro key hlive
  refine isLive_of_rewrite hlive (OutboxTable.get_remove_operation_unless_inflight _ id) (Or.inl rfl) ?_
  intro written hwritten
  obtain ⟨hstored, _⟩ := Option.filter_eq_some_iff.mp hwritten
  exact ⟨written, hstored, fun hflushable => ⟨written, hstored, Or.inl hflushable⟩⟩

theorem Tracked.swap (htracked : Tracked log) {id : OperationId} {payload : Value} {now : Timestamp}
    (hstep : log.machine.swap id payload now = some after) : Tracked { log with machine := after } := by
  have hsuffix :=
    (move_of_step (show log.machine.step (.swap id payload now) = some after from hstep)).history_suffix
  unfold Machine.swap at hstep
  split_ifs at hstep with hdraft
  obtain rfl := Option.some.inj hstep
  refine htracked.beside hsuffix ((tags_replace_operation_payload hdraft).symm ▸ List.Sublist.refl _) rfl ?_
  intro key hlive
  refine isLive_of_rewrite hlive (OutboxTable.get_replace_operation_payload _ id payload now) (Or.inl rfl) ?_
  intro written hwritten
  obtain ⟨stored, hstored, rfl⟩ := Option.map_eq_some_iff.mp hwritten
  refine ⟨stored, hstored, fun hflushable => ⟨stored, hstored, Or.inl ?_⟩⟩
  split_ifs at hflushable
  · exact hflushable
  · exact hflushable

theorem keys_view : log.view.keys = log.queued.map Operation.id := by
  simp [PushLog.view, Drain.keys, tag, Function.comp_def]

theorem rank_view (operation : Operation) : log.view.rank operation.id = log.turn operation := by
  unfold Drain.rank PushLog.turn
  rw [keys_view]

theorem mem_keys_of_tag {operation : Operation} (htag : tag operation ∈ log.queued.map tag) :
    operation.id ∈ log.view.keys :=
  List.mem_map_of_mem htag

/-- Operations on a common entity share a subject. -/
theorem shares_view {first second : Operation} {entity : OperationEntity} (hfirst : tag first ∈ log.queued.map tag)
    (hsecond : tag second ∈ log.queued.map tag) (hone : entity ∈ subjects first) (hother : entity ∈ subjects second) :
    log.view.Shares first.id second.id :=
  ⟨entity, ⟨subjects first, hfirst, hone⟩, ⟨subjects second, hsecond, hother⟩⟩

/-- Subjects are shared only by operations on a common entity. -/
theorem shares_of_view (htracked : Tracked log) {first second : Operation} (hfirst : tag first ∈ log.queued.map tag)
    (hsecond : tag second ∈ log.queued.map tag) (hshares : log.view.Shares first.id second.id) :
    shares first second = true := by
  have hsame : ∀ operation entities, tag operation ∈ log.queued.map tag →
      (operation.id, entities) ∈ log.view.queued → entities = subjects operation := by
    intro operation entities htag hqueued
    have hnodup := htracked.ordered.keys_nodup
    exact congrArg Prod.snd (List.inj_on_of_nodup_map hnodup hqueued htag rfl)
  obtain ⟨entity, ⟨ones, hone, hin⟩, ⟨others, hother, hon⟩⟩ := hshares
  rw [hsame _ _ hfirst hone] at hin
  rw [hsame _ _ hsecond hother] at hon
  unfold shares
  rw [List.any_eq_true]
  exact ⟨entity, hin, decide_eq_true hon⟩

theorem Tracked.enqueue (htracked : Tracked log) {operation : Operation}
    (hstep : log.machine.enqueue operation = some after) :
    Tracked { log with machine := after, queued := log.queued ++ [operation] } := by
  unfold Machine.enqueue at hstep
  split_ifs at hstep with hnew
  have hafter := (Option.some.inj hstep).symm
  have hflusher : after.flusher = log.machine.flusher := by rw [hafter]
  have hhistory : after.history = .enqueued operation.id :: log.machine.history := by rw [hafter]
  have houtbox : after.outbox = log.machine.outbox.enqueue_operation operation := by rw [hafter]
  have hunseen : operation.id ∉ log.view.keys := by
    rw [keys_view]
    intro hmem
    obtain ⟨earlier, hearlier, hid⟩ := List.mem_map.mp hmem
    exact isNew_eq_true_iff.mp hnew.1 (hid ▸ htracked.minted hearlier)
  have hfresh : log.machine.outbox.get_operation operation.id = none := by
    rw [OutboxTable.get_operation_eq_none_iff]
    rintro row hrow hid
    exact hunseen (hid ▸ mem_keys_of_tag (htracked.stored.subset (List.mem_map_of_mem hrow)))
  have hkept : ∀ other, tag other ∈ log.queued.map tag → tag other ∈ (log.queued ++ [operation]).map tag := by
    intro other hother
    rw [List.map_append]
    exact List.mem_append_left _ hother
  have hlive : ∀ key, after.IsLive key → log.machine.IsLive key ∨ key = operation.id := by
    rintro key ⟨stored, hstored, hcan⟩
    unfold Machine.rows at hstored
    rw [houtbox, OutboxTable.get_enqueue_operation] at hstored
    by_cases hkey : key = operation.id
    · exact Or.inr hkey
    · rw [Function.update_of_ne hkey] at hstored
      exact Or.inl ⟨stored, hstored, hflusher ▸ hcan⟩
  have hview : PushLog.view { log with machine := after, queued := log.queued ++ [operation] } =
      { log.view with queued := log.view.queued ++ [(operation.id, subjects operation)], live := after.IsLive } := by
    simp only [PushLog.view, hflusher, List.map_append, List.map_singleton]
    rfl
  refine { minted := ?_, stored := ?_, held := ?_, applied := ?_, pushing := ?_, ordered := ?_ }
  · intro other hother
    simp only at hother ⊢
    rw [hhistory]
    rcases List.mem_append.mp hother with hold | hlast
    · exact List.mem_cons_of_mem _ (htracked.minted hold)
    · rw [List.mem_singleton.mp hlast]
      exact List.mem_cons_self
  · simp only
    rw [houtbox, OutboxTable.operations_enqueue_of_fresh _ hfresh, List.map_append, List.map_append]
    exact htracked.stored.append (List.Sublist.refl _)
  · exact fun hheld => hkept _ (htracked.held (hflusher ▸ hheld))
  · exact fun happlied => hkept _ (htracked.applied happlied)
  · exact fun hpushed => htracked.pushing (hflusher ▸ hpushed)
  · rw [hview]
    exact (htracked.ordered.step (.submit operation.id (subjects operation) hunseen)).step (.drop _ hlive)

theorem listed_sublist (outbox : OutboxTable) (wall_now : String) (mono_now : Int) :
    (outbox.list_flushable_operations wall_now mono_now).Sublist outbox.operations :=
  (List.take_sublist _ _).trans List.filter_sublist

/-- The rows lie in the order of the queue. -/
theorem Tracked.keys_sublist (htracked : Tracked log) {operations : List Operation}
    (hrows : operations.Sublist log.machine.outbox.operations) : (operations.map Operation.id).Sublist log.view.keys := by
  have hids := ((hrows.map tag).trans htracked.stored).map Prod.fst
  rw [List.map_map, List.map_map] at hids
  rw [keys_view]
  exact hids

/-- What stands before a listed operation on one of its entities is listed, unless it is held back. -/
theorem mem_listed_of_before (htracked : Tracked log) {wall_now : String} {mono_now : Int} {first second : Operation}
    (hguard : log.holdsBack wall_now mono_now = false) (hfirst : first ∈ log.machine.outbox.operations)
    (hflushable : first.state.is_flushable = true)
    (hlisted : second ∈ log.machine.outbox.list_flushable_operations wall_now mono_now)
    (hshares : shares first second = true) (hbefore : log.turn first < log.turn second) :
    first ∈ log.machine.outbox.list_flushable_operations wall_now mono_now := by
  have hdue : (first.send_at.all (· ≤ wall_now) && first.hold_until_mono.all (· ≤ mono_now)) = true := by
    by_contra hheld
    rw [Bool.not_eq_true] at hheld
    have hblocked : log.holdsBack wall_now mono_now = true := by
      unfold PushLog.holdsBack
      rw [List.any_eq_true]
      refine ⟨first, hfirst, ?_⟩
      rw [hflushable, hheld, Bool.true_and, Bool.not_false, Bool.true_and, List.any_eq_true]
      exact ⟨second, hlisted, by simp [hshares, hbefore]⟩
    rw [hguard] at hblocked
    cases hblocked
  have hsorted : log.machine.outbox.operations.Pairwise fun one other => log.turn one < log.turn other := by
    have hranks := Drain.pairwise_rank_of_sublist htracked.ordered.keys_nodup
      (htracked.keys_sublist (List.Sublist.refl _))
    rw [List.pairwise_map] at hranks
    refine hranks.imp fun {one other} hlt => ?_
    rwa [rank_view, rank_view] at hlt
  unfold OutboxTable.list_flushable_operations at hlisted ⊢
  have hmem : first ∈ log.machine.outbox.operations.filter fun operation =>
      operation.state.is_flushable && operation.send_at.all (· ≤ wall_now) &&
        operation.hold_until_mono.all (· ≤ mono_now) := by
    rw [List.mem_filter]
    refine ⟨hfirst, ?_⟩
    rw [hflushable, Bool.true_and]
    exact hdue
  rw [← List.take_append_drop OutboxTable.OUTBOX_FLUSH_BATCH_LIMIT (List.filter _ _), List.mem_append] at hmem
  rcases hmem with htaken | hdropped
  · exact htaken
  · have hlater := (hsorted.filter _).rel_of_mem_take_of_mem_drop hlisted hdropped
    omega

/-- Only the work list shows when neither the rows nor the operation in hand change. -/
theorem view_of_same (hrows : after.rows = log.machine.rows) (hheld : after.flusher.held = log.machine.flusher.held) :
    PushLog.view { log with machine := after } = { log.view with agenda := after.flusher.queue } := by
  unfold PushLog.view Machine.IsLive
  rw [hrows, hheld]
  rfl

theorem hand_view (hheld : log.machine.flusher.held = none) : log.view.hand = none := by
  unfold PushLog.view
  rw [hheld]
  rfl

/-- With nothing in hand, what is live is flushable. -/
theorem flushable_of_isLive {machine : Machine} {id : OperationId} (hheld : machine.flusher.held = none)
    (hlive : machine.IsLive id) : ∃ stored, machine.rows id = some stored ∧ stored.state.is_flushable = true := by
  obtain ⟨stored, hstored, hcan | hhand⟩ := hlive
  · exact ⟨stored, hstored, hcan⟩
  · rw [hheld] at hhand
    cases hhand

theorem Tracked.passBegin (htracked : Tracked log) {wall_now : String} {mono_now : Int}
    (hguard : log.holdsBack wall_now mono_now = false) (hstep : log.machine.passBegin wall_now mono_now = some after) :
    Tracked { log with machine := after } := by
  unfold Machine.passBegin at hstep
  cases hflusher : log.machine.flusher with
  | draining | fetched | claimed | pushed => simp [hflusher] at hstep
  | idle =>
    simp only [hflusher] at hstep
    have hafter := (Option.some.inj hstep).symm
    have hbefore : log.machine.flusher.held = none := by rw [hflusher]; rfl
    have hheld : after.flusher.held = none := by rw [hafter]; rfl
    have hqueue : after.flusher.queue =
        (log.machine.outbox.list_flushable_operations wall_now mono_now).map Operation.id := by rw [hafter]; rfl
    refine htracked.advance (by simp [hafter]) (by rw [hafter]) ?_ ?_ (.single ?_)
    · intro operation hhand
      rw [hheld] at hhand
      cases hhand
    · intro operation hpushed
      rw [hafter] at hpushed
      cases hpushed
    · rw [view_of_same (by rw [hafter]; rfl) (hheld.trans hbefore.symm), hqueue]
      refine .start _ (hand_view hbefore) (htracked.keys_sublist (listed_sublist _ wall_now mono_now)) ?_
      intro first second hsecond _ hfirst hshares hlt
      obtain ⟨later, hlater, rfl⟩ := List.mem_map.mp hsecond
      obtain ⟨earlier, hearlier, hflushable⟩ := flushable_of_isLive hbefore hfirst
      obtain rfl := id_of_rows hearlier
      have hrow := OutboxTable.mem_of_get hearlier
      have hcommon := shares_of_view htracked (htracked.stored.subset (List.mem_map_of_mem hrow))
        (htracked.stored.subset (List.mem_map_of_mem ((listed_sublist _ wall_now mono_now).subset hlater))) hshares
      rw [rank_view, rank_view] at hlt
      exact List.mem_map_of_mem (mem_listed_of_before htracked hguard hrow hflushable hlater hcommon hlt)

/-- A pass that lets go of everything. -/
theorem Tracked.stop (htracked : Tracked log) (hhistory : after.history = log.machine.history)
    (houtbox : after.outbox = log.machine.outbox) (hflusher : after.flusher = .idle) :
    Tracked { log with machine := after } := by
  have hlive : ∀ key, after.IsLive key → log.machine.IsLive key := by
    intro key hlive
    obtain ⟨stored, hstored, hflushable⟩ := flushable_of_isLive (by rw [hflusher]; rfl) hlive
    refine ⟨stored, ?_, Or.inl hflushable⟩
    unfold Machine.rows at hstored
    rwa [houtbox] at hstored
  have hview : PushLog.view { log with machine := after } =
      { log.view with hand := none, agenda := [], live := after.IsLive } := by
    unfold PushLog.view
    rw [hflusher]
    rfl
  refine htracked.advance (by simp [hhistory]) (by rw [houtbox]) ?_ ?_ ?_
  · intro operation hheld
    rw [hflusher] at hheld
    cases hheld
  · intro operation hpushed
    rw [hflusher] at hpushed
    cases hpushed
  · rw [hview]
    exact (Relation.ReflTransGen.single .stop).tail (.drop _ hlive)

/-- A dead operation at the head of the list is passed over, and a flushable one is taken in hand. -/
theorem Tracked.passRead (htracked : Tracked log) (hstep : log.machine.passRead = some after) :
    Tracked { log with machine := after } := by
  unfold Machine.passRead at hstep
  cases hflusher : log.machine.flusher with
  | idle | fetched | claimed | pushed => simp [hflusher] at hstep
  | draining queue =>
    have hbefore : log.machine.flusher.held = none := by rw [hflusher]; rfl
    have hagenda : log.view.agenda = queue := by unfold PushLog.view; rw [hflusher]; rfl
    cases queue with
    | nil =>
      simp only [hflusher] at hstep
      obtain rfl := Option.some.inj hstep
      exact htracked.stop rfl rfl rfl
    | cons id queue =>
      have hskip : ¬ log.machine.IsLive id → some { log.machine with flusher := .draining queue } = some after →
          Tracked { log with machine := after } := by
        intro hdead hskipped
        have hafter := (Option.some.inj hskipped).symm
        have hheld : after.flusher.held = none := by rw [hafter]; rfl
        refine htracked.advance (by simp [hafter]) (by rw [hafter]) ?_ ?_ (.single ?_)
        · intro operation hhand
          rw [hheld] at hhand
          cases hhand
        · intro operation hpushed
          rw [hafter] at hpushed
          cases hpushed
        · rw [view_of_same (by rw [hafter]; rfl) (hheld.trans hbefore.symm),
            show after.flusher.queue = queue by rw [hafter]; rfl]
          exact .skip id queue (hand_view hbefore) hagenda hdead
      cases hstored : log.machine.outbox.get_operation id with
      | none =>
        simp only [hflusher, hstored] at hstep
        refine hskip ?_ hstep
        rintro ⟨stored, hrow, _⟩
        unfold Machine.rows at hrow
        rw [hstored] at hrow
        cases hrow
      | some operation =>
        simp only [hflusher, hstored] at hstep
        obtain rfl := OutboxTable.id_of_get hstored
        split_ifs at hstep with hflushable
        · have hafter := (Option.some.inj hstep).symm
          have hlive : ∀ key, after.IsLive key → log.machine.IsLive key := by
            rintro key ⟨stored, hrow, hcan⟩
            rw [hafter] at hrow hcan
            refine ⟨stored, hrow, Or.inl ?_⟩
            rcases hcan with hcan | hhand
            · exact hcan
            · obtain rfl := Option.some.inj hhand
              obtain rfl := Option.some.inj (hstored.symm.trans hrow)
              exact hflushable
          have hview : PushLog.view { log with machine := after } =
              { log.view with hand := some operation.id, agenda := queue, live := after.IsLive } := by
            rw [hafter]
            rfl
          refine htracked.advance (by simp [hafter]) (by rw [hafter]) ?_ ?_ ?_
          · intro held hhand
            rw [hafter] at hhand
            obtain rfl := Option.some.inj hhand
            exact Or.inr (OutboxTable.mem_of_get hstored)
          · intro held hpushed
            rw [hafter] at hpushed
            cases hpushed
          · rw [hview]
            exact (Relation.ReflTransGen.single (.take operation.id queue (hand_view hbefore) hagenda
              ⟨operation, hstored, Or.inl hflushable⟩)).tail (.drop _ hlive)
        · refine hskip (fun hlive => hflushable ?_) hstep
          obtain ⟨stored, hrow, hcan⟩ := flushable_of_isLive hbefore hlive
          obtain rfl := Option.some.inj (hstored.symm.trans hrow)
          exact hcan

theorem view_of_let_go (hheld : after.flusher.held = none) :
    PushLog.view { log with machine := after } =
      { log.view with hand := none, agenda := after.flusher.queue, live := after.IsLive } := by
  unfold PushLog.view
  rw [hheld]
  rfl

theorem hand_view_of_held {operation : Operation} (hheld : log.machine.flusher.held = some operation) :
    log.view.hand = some operation.id := by
  unfold PushLog.view
  rw [hheld]
  rfl

/-- The pass puts back what it has in hand and goes on, or ends: what it puts back is dead, or nothing
    to come shares a subject with it. -/
theorem steps_letGo {operation : Operation} (hbefore : log.machine.flusher.held = some operation)
    (hheld : after.flusher.held = none) (hlive : ∀ key, after.IsLive key → log.machine.IsLive key)
    (hqueue : after.flusher.queue = [] ∨ after.flusher.queue = log.machine.flusher.queue ∧
      (after.IsLive operation.id → ∀ other ∈ log.machine.flusher.queue, log.machine.IsLive other →
        ¬ log.view.Shares operation.id other)) :
    Relation.ReflTransGen Drain.Step log.view (PushLog.view { log with machine := after }) := by
  rw [view_of_let_go hheld]
  have hdropped : Relation.ReflTransGen Drain.Step log.view { log.view with live := after.IsLive } :=
    .single (.drop _ hlive)
  rcases hqueue with hempty | ⟨hsame, hbehind⟩
  · rw [hempty]
    exact hdropped.tail .stop
  · rw [hsame]
    refine hdropped.tail (.putBack operation.id (hand_view_of_held hbefore) ?_)
    exact fun hstill other hother hcan => hbehind hstill other hother (hlive other hcan)

theorem withGateway_of_held_none {flusher : Flusher} (hheld : flusher.held = none) : flusher.withGateway = none := by
  cases flusher with
  | pushed => cases hheld
  | _ => rfl

theorem Tracked.letGo (htracked : Tracked log) {operation : Operation} (hhistory : log.machine.history <:+ after.history)
    (htags : after.outbox.operations.map tag = log.machine.outbox.operations.map tag)
    (hbefore : log.machine.flusher.held = some operation) (hheld : after.flusher.held = none)
    (hlive : ∀ key, after.IsLive key → log.machine.IsLive key)
    (hqueue : after.flusher.queue = [] ∨ after.flusher.queue = log.machine.flusher.queue ∧
      (after.IsLive operation.id → ∀ other ∈ log.machine.flusher.queue, log.machine.IsLive other →
        ¬ log.view.Shares operation.id other)) : Tracked { log with machine := after } := by
  refine htracked.advance hhistory (htags ▸ List.Sublist.refl _) ?_ ?_ (steps_letGo hbefore hheld hlive hqueue)
  · intro other hhand
    rw [hheld] at hhand
    cases hhand
  · intro other hpushed
    rw [withGateway_of_held_none hheld] at hpushed
    cases hpushed

theorem Tracked.passPark (htracked : Tracked log) {now : Timestamp} (hstep : log.machine.passPark now = some after) :
    Tracked { log with machine := after } := by
  unfold Machine.passPark at hstep
  cases hflusher : log.machine.flusher with
  | idle | draining | claimed | pushed => simp [hflusher] at hstep
  | fetched operation queue =>
    simp only [hflusher] at hstep
    split_ifs at hstep with hinterrupted
    have hafter := (Option.some.inj hstep).symm
    have hheld : after.flusher.held = none := by rw [hafter]; rfl
    have hqueue : after.flusher.queue = log.machine.flusher.queue := by rw [hafter, hflusher]; rfl
    have houtbox : after.outbox = log.machine.outbox.update_operation_state operation.id .DispatchUncertain
        operation.attempts (some "send interrupted mid-flush; delivery uncertain") now := by rw [hafter]
    have hrows := OutboxTable.get_update_operation_state log.machine.outbox operation.id .DispatchUncertain
      operation.attempts (some "send interrupted mid-flush; delivery uncertain") now
    rw [← houtbox] at hrows
    refine htracked.letGo (by simp [hafter]) ?_ (by rw [hflusher]; rfl) hheld ?_
      (Or.inr ⟨hqueue, ?_⟩)
    · rw [houtbox]
      exact tags_update_operation_state _ _ _ _ _ _
    · intro key hlive
      refine isLive_of_rewrite hlive hrows (Or.inr hheld) ?_
      intro written hwritten
      obtain ⟨stored, hstored, rfl⟩ := Option.map_eq_some_iff.mp hwritten
      exact ⟨stored, hstored, fun hflushable => by cases hflushable⟩
    · intro hlive
      refine absurd hlive (not_isLive_of_rewrite hrows hheld ?_)
      intro written hwritten
      obtain ⟨stored, _, rfl⟩ := Option.map_eq_some_iff.mp hwritten
      rfl

/-- A lost claim puts back what is no longer flushable. -/
theorem Tracked.passClaim (htracked : Tracked log) {now : Timestamp} (hstep : log.machine.passClaim now = some after) :
    Tracked { log with machine := after } := by
  have hsuffix :=
    (move_of_step (show log.machine.step (.passClaim now) = some after from hstep)).history_suffix
  unfold Machine.passClaim at hstep
  cases hflusher : log.machine.flusher with
  | idle | draining | claimed | pushed => simp [hflusher] at hstep
  | fetched operation queue =>
    have hbefore : log.machine.flusher.held = some operation := by rw [hflusher]; rfl
    have hrows := OutboxTable.get_claim_operation_for_flush log.machine.outbox operation.id now
    have htags := tags_claim_operation_for_flush log.machine.outbox operation.id now
    have hflag : (log.machine.outbox.claim_operation_for_flush operation.id now).1 =
      log.machine.outbox.matchesState operation.id OperationState.is_flushable := rfl
    have hvalue : ∀ written, ((log.machine.outbox.get_operation operation.id).map fun operation =>
          if operation.state.is_flushable then { operation with state := .Inflight, updated_at := now }
          else operation) = some written →
        ∃ stored, log.machine.outbox.get_operation operation.id = some stored ∧
          (written.state.is_flushable = true → log.machine.IsLive operation.id) := by
      intro written hwritten
      obtain ⟨stored, hstored, rfl⟩ := Option.map_eq_some_iff.mp hwritten
      exact ⟨stored, hstored, fun _ => ⟨stored, hstored, Or.inr (by rw [hbefore]; rfl)⟩⟩
    simp only [hflusher] at hstep
    split_ifs at hstep with hinterrupted hwon
    · have hafter := (Option.some.inj hstep).symm
      have houtbox : after.outbox = (log.machine.outbox.claim_operation_for_flush operation.id now).2 := by rw [hafter]
      have hheld : after.flusher.held = log.machine.flusher.held := by rw [hafter, hflusher]; rfl
      have hqueue : after.flusher.queue = log.machine.flusher.queue := by rw [hafter, hflusher]; rfl
      rw [← houtbox] at hrows htags
      have hlive : ∀ key, after.IsLive key → log.machine.IsLive key :=
        fun key hlive => isLive_of_rewrite hlive hrows (Or.inl hheld) hvalue
      refine htracked.advance hsuffix (htags ▸ List.Sublist.refl _) ?_ ?_ (.single ?_)
      · intro other hhand
        exact Or.inl (hheld ▸ hhand)
      · intro other hpushed
        rw [hafter] at hpushed
        cases hpushed
      · have hview : PushLog.view { log with machine := after } = { log.view with live := after.IsLive } := by
          unfold PushLog.view
          rw [hheld, hqueue]
          rfl
        rw [hview]
        exact .drop _ hlive
    · have hafter := (Option.some.inj hstep).symm
      have houtbox : after.outbox = (log.machine.outbox.claim_operation_for_flush operation.id now).2 := by rw [hafter]
      have hheld : after.flusher.held = none := by rw [hafter]; rfl
      have hqueue : after.flusher.queue = log.machine.flusher.queue := by rw [hafter, hflusher]; rfl
      rw [← houtbox] at hrows htags
      rw [hflag, Bool.not_eq_true] at hwon
      have hlost := (OutboxTable.matchesState_eq_false_iff _ _).mp hwon
      refine htracked.letGo hsuffix htags hbefore hheld ?_ (Or.inr ⟨hqueue, ?_⟩)
      · exact fun key hlive => isLive_of_rewrite hlive hrows (Or.inr hheld) hvalue
      · intro hlive
        refine absurd hlive (not_isLive_of_rewrite hrows hheld ?_)
        intro written hwritten
        obtain ⟨stored, hstored, rfl⟩ := Option.map_eq_some_iff.mp hwritten
        rw [if_neg (by rw [hlost stored hstored]; exact Bool.false_ne_true)]
        exact hlost stored hstored

theorem applied_cons (log : PushLog) (newest : Push) (earlier : List Push) :
    PushLog.applied { log with pushes := newest :: earlier } =
      PushLog.applied { log with pushes := earlier } ++ if newest.applied then [newest.operation] else [] := by
  unfold PushLog.applied
  rw [List.reverse_cons, List.filter_append, List.map_append]
  congr 1
  cases happlied : newest.applied <;> simp [happlied]

theorem Tracked.passPush (htracked : Tracked log) (hstep : log.machine.passPush = some after) :
    Tracked (log.record after .passPush) := by
  have hsuffix := (move_of_step (show log.machine.step .passPush = some after from hstep)).history_suffix
  unfold Machine.passPush at hstep
  cases hflusher : log.machine.flusher with
  | idle | draining | fetched | pushed => simp [hflusher] at hstep
  | claimed operation queue =>
    simp only [hflusher] at hstep
    have hafter := (Option.some.inj hstep).symm
    have houtbox : after.outbox = log.machine.outbox := by rw [hafter]
    have hheld : after.flusher.held = log.machine.flusher.held := by rw [hafter, hflusher]; rfl
    have hqueue : after.flusher.queue = log.machine.flusher.queue := by rw [hafter, hflusher]; rfl
    have hrecord : log.record after .passPush =
        { log with machine := after, pushes := { operation, applied := false } :: log.pushes } := by
      rw [hafter]
      rfl
    have happlied : (log.record after .passPush).applied = log.applied := by
      rw [hrecord]
      exact (applied_cons _ _ _).trans (List.append_nil _)
    have hview : (log.record after .passPush).view = log.view := by
      have hsame : after.IsLive = log.machine.IsLive := by
        unfold Machine.IsLive Machine.rows
        rw [houtbox, hheld]
      unfold PushLog.view
      rw [happlied, hrecord]
      simp only [hsame, hheld, hqueue]
    rw [hrecord] at happlied hview ⊢
    refine { minted := ?_, stored := ?_, held := ?_, applied := ?_, pushing := ?_, ordered := hview ▸ htracked.ordered }
    · exact fun hqueued => hsuffix.subset (htracked.minted hqueued)
    · exact houtbox ▸ htracked.stored
    · exact fun hhand => htracked.held (hheld ▸ hhand)
    · exact fun hmem => htracked.applied (happlied ▸ hmem)
    · intro other hpushed
      rw [hafter] at hpushed
      obtain rfl := Option.some.inj hpushed
      exact ⟨log.pushes, rfl⟩

/-- The operation that took effect was in hand, and leaves the live ones. -/
theorem Tracked.settle (htracked : Tracked log) {operation : Operation} {queue : List OperationId}
    (hhistory : log.machine.history <:+ after.history) (hflusher : log.machine.flusher = .pushed operation queue)
    (htags : (after.outbox.operations.map tag).Sublist (log.machine.outbox.operations.map tag))
    (hdraining : after.flusher = .draining queue) (hlive : ∀ key, after.IsLive key → log.machine.IsLive key)
    (hdead : ¬ after.IsLive operation.id) :
    Tracked { log with machine := after, pushes := PushLog.marked true log.pushes } := by
  have hbefore : log.machine.flusher.held = some operation := by rw [hflusher]; rfl
  have hgateway : log.machine.flusher.withGateway = some operation := by rw [hflusher]; rfl
  obtain ⟨earlier, hpushes⟩ := htracked.pushing hgateway
  have happlied : PushLog.applied { log with machine := after, pushes := PushLog.marked true log.pushes } =
      log.applied ++ [operation] := by
    have hnow := applied_cons log { operation, applied := true } earlier
    have hthen : log.applied = PushLog.applied { log with pushes := earlier } := by
      have hlog := applied_cons log { operation, applied := false } earlier
      rw [← hpushes, if_neg Bool.false_ne_true, List.append_nil] at hlog
      exact hlog
    rw [hthen, hpushes]
    exact hnow
  have hview : PushLog.view { log with machine := after, pushes := PushLog.marked true log.pushes } =
      { log.view with hand := none, live := after.IsLive, done := log.view.done ++ [operation.id] } := by
    have hqueue : log.machine.flusher.queue = queue := by rw [hflusher]; rfl
    unfold PushLog.view
    rw [happlied, List.map_append, hdraining, hqueue]
    rfl
  refine { minted := ?_, stored := htags.trans htracked.stored, held := ?_, applied := ?_, pushing := ?_, ordered := ?_ }
  · exact fun hqueued => hhistory.subset (htracked.minted hqueued)
  · intro other hhand
    rw [hdraining] at hhand
    cases hhand
  · intro other hmem
    rw [happlied] at hmem
    rcases List.mem_append.mp hmem with hold | hnew
    · exact htracked.applied hold
    · rw [List.mem_singleton.mp hnew]
      exact htracked.held hbefore
  · intro other hpushed
    rw [hdraining] at hpushed
    cases hpushed
  · rw [hview]
    exact (htracked.ordered.step (.drop after.IsLive hlive)).step
      (.finish operation.id (hand_view_of_held hbefore) hdead)

/-- What is put back and flushable has nothing to come that shares a subject with it, when the guard holds. -/
theorem Tracked.unshared (htracked : Tracked log) {reply : Reply} {operation : Operation} {queue : List OperationId}
    {error : FlushError} (hguard : log.leavesBehind reply = false) (hflusher : log.machine.flusher = .pushed operation queue)
    (hsettlement : settlementOf operation reply = some (.failure error))
    (hpending : failureState error.disposition = .Pending) (hgoes : stopsDrain operation error.disposition = false)
    {other : OperationId} (hother : other ∈ queue) (hlive : log.machine.IsLive other) :
    ¬ log.view.Shares operation.id other := by
  intro hshares
  have hbefore : log.machine.flusher.held = some operation := by rw [hflusher]; rfl
  obtain ⟨later, hlater, hcan⟩ := hlive
  obtain rfl := id_of_rows hlater
  have htag := htracked.stored.subset (List.mem_map_of_mem (OutboxTable.mem_of_get hlater))
  have hcommon := shares_of_view htracked (htracked.held hbefore) htag hshares
  have hflushable : later.state.is_flushable = true := by
    rcases hcan with hcan | hhand
    · exact hcan
    · -- The list never names the operation in hand again.
      have hworking := htracked.ordered.working
      have hqueue : log.view.agenda = queue := by unfold PushLog.view; rw [hflusher]; rfl
      rw [hand_view_of_held hbefore, hqueue] at hworking
      rw [hbefore] at hhand
      have hlt := (List.pairwise_cons.mp hworking).1 _ hother
      rw [Option.some.inj hhand] at hlt
      omega
  have hleft : log.leavesBehind reply = true := by
    simp only [PushLog.leavesBehind, hflusher, hsettlement, hpending, hgoes, beq_self_eq_true, Bool.not_false,
      Bool.true_and, List.any_eq_true, Option.any_eq_true, Bool.and_eq_true]
    exact ⟨later.id, hother, later, hlater, hflushable, hcommon⟩
  rw [hguard] at hleft
  cases hleft

theorem Tracked.passSettle (htracked : Tracked log) {reply : Reply} {settled_at_mono : Int} {now : Timestamp}
    (hguard : log.leavesBehind reply = false) (hstep : log.machine.passSettle reply settled_at_mono now = some after) :
    Tracked (log.record after (.passSettle reply settled_at_mono now)) := by
  have hsuffix :=
    (move_of_step (show log.machine.step (.passSettle reply settled_at_mono now) = some after from hstep)).history_suffix
  unfold Machine.passSettle at hstep
  cases hflusher : log.machine.flusher with
  | idle | draining | fetched | claimed => simp [hflusher] at hstep
  | pushed operation queue =>
    simp only [hflusher] at hstep
    have hbefore : log.machine.flusher.held = some operation := by rw [hflusher]; rfl
    have hgateway : log.machine.flusher.withGateway = some operation := by rw [hflusher]; rfl
    cases hsettlement : settlementOf operation reply with
    | none => simp [hsettlement] at hstep
    | some settlement =>
      cases settlement with
      | settled watermark =>
        simp only [hsettlement] at hstep
        have hafter := (Option.some.inj hstep).symm
        have houtbox : after.outbox =
            log.machine.outbox.mark_operation_settled operation.id settled_at_mono watermark now := by rw [hafter]
        have hdraining : after.flusher = .draining queue := by rw [hafter]
        have hheld : after.flusher.held = none := by rw [hdraining]; rfl
        have hrows := OutboxTable.get_mark_operation_settled log.machine.outbox operation.id settled_at_mono watermark now
        have htags := tags_mark_operation_settled log.machine.outbox operation.id settled_at_mono watermark now
        rw [← houtbox] at hrows htags
        have hrecord : log.record after (.passSettle reply settled_at_mono now) =
            { log with machine := after, pushes := PushLog.marked true log.pushes } := by
          simp [PushLog.record, hgateway, settledAsApplied, hsettlement]
        rw [hrecord]
        refine htracked.settle hsuffix hflusher (htags ▸ List.Sublist.refl _) hdraining ?_ ?_
        · intro key hlive
          refine isLive_of_rewrite hlive hrows (Or.inr hheld) ?_
          intro written hwritten
          obtain ⟨stored, hstored, rfl⟩ := Option.map_eq_some_iff.mp hwritten
          exact ⟨stored, hstored, fun hflushable => by cases hflushable⟩
        · refine not_isLive_of_rewrite hrows hheld ?_
          intro written hwritten
          obtain ⟨stored, _, rfl⟩ := Option.map_eq_some_iff.mp hwritten
          rfl
      | removed =>
        simp only [hsettlement] at hstep
        have hafter := (Option.some.inj hstep).symm
        have houtbox : after.outbox = log.machine.outbox.remove_operation operation.id := by rw [hafter]
        have hdraining : after.flusher = .draining queue := by rw [hafter]
        have hheld : after.flusher.held = none := by rw [hdraining]; rfl
        have hrows := OutboxTable.get_remove_operation log.machine.outbox operation.id
        have htags := tags_deleteIf log.machine.outbox operation.id fun _ => true
        change ((log.machine.outbox.remove_operation operation.id).operations.map tag).Sublist _ at htags
        rw [← houtbox] at hrows htags
        have hrecord : log.record after (.passSettle reply settled_at_mono now) =
            { log with machine := after, pushes := PushLog.marked true log.pushes } := by
          simp [PushLog.record, hgateway, settledAsApplied, hsettlement]
        rw [hrecord]
        refine htracked.settle hsuffix hflusher htags hdraining ?_ ?_
        · intro key hlive
          refine isLive_of_rewrite hlive hrows (Or.inr hheld) ?_
          intro written hwritten
          cases hwritten
        · refine not_isLive_of_rewrite hrows hheld ?_
          intro written hwritten
          cases hwritten
      | failure error =>
        simp only [hsettlement] at hstep
        have hafter := (Option.some.inj hstep).symm
        have houtbox : after.outbox = log.machine.outbox.update_operation_state operation.id
            (failureState error.disposition) (failureAttempts operation error.disposition) (some error.message) now := by
          rw [hafter]
        have hheld : after.flusher.held = none := by
          rw [hafter]
          change (if stopsDrain operation error.disposition then Flusher.idle else .draining queue).held = none
          split_ifs <;> rfl
        have hrows := OutboxTable.get_update_operation_state log.machine.outbox operation.id
          (failureState error.disposition) (failureAttempts operation error.disposition) (some error.message) now
        have htags := tags_update_operation_state log.machine.outbox operation.id
          (failureState error.disposition) (failureAttempts operation error.disposition) (some error.message) now
        rw [← houtbox] at hrows htags
        have hrecord : log.record after (.passSettle reply settled_at_mono now) = { log with machine := after } := by
          obtain ⟨earlier, hpushes⟩ := htracked.pushing hgateway
          simp [PushLog.record, hgateway, settledAsApplied, hsettlement, hpushes, PushLog.marked]
        rw [hrecord]
        refine htracked.letGo hsuffix htags hbefore hheld ?_ ?_
        · intro key hlive
          refine isLive_of_rewrite hlive hrows (Or.inr hheld) ?_
          intro written hwritten
          obtain ⟨stored, hstored, rfl⟩ := Option.map_eq_some_iff.mp hwritten
          exact ⟨stored, hstored, fun _ => ⟨stored, hstored, Or.inr (by rw [hbefore]; rfl)⟩⟩
        · cases hgoes : stopsDrain operation error.disposition with
          | true =>
            left
            rw [hafter]
            simp only [hgoes, if_true]
            rfl
          | false =>
            right
            refine ⟨?_, ?_⟩
            · rw [hafter, hflusher]
              simp only [hgoes, Bool.false_eq_true, if_false]
              rfl
            · intro hlive other hother hcan
              rw [hflusher] at hother
              by_cases hpending : failureState error.disposition = .Pending
              · exact htracked.unshared hguard hflusher hsettlement hpending hgoes hother hcan
              · refine absurd hlive (not_isLive_of_rewrite hrows hheld ?_)
                intro written hwritten
                obtain ⟨stored, _, rfl⟩ := Option.map_eq_some_iff.mp hwritten
                cases hdisposition : error.disposition with
                | Transient | Defer => exact absurd (by rw [hdisposition]; rfl) hpending
                | Permanent | Uncertain => rfl

theorem Tracked.initial : Tracked .initial where
  minted hqueued := by cases hqueued
  stored := List.Sublist.refl _
  held hheld := by cases hheld
  applied happlied := by cases happlied
  pushing hpushed := by cases hpushed
  ordered := {
    keys_nodup := List.nodup_nil
    live_queued := by
      rintro key ⟨stored, hstored, _⟩
      cases hstored
    done_queued := fun hdone => by cases hdone
    working_queued := fun hworking => by cases hworking
    working := List.Pairwise.nil
    fair := fun hagenda => by cases hagenda
    clear := fun hhand => by cases hhand
    ahead := fun hdone => by cases hdone
    behind := fun hdone => by cases hdone
    inOrder := List.Pairwise.nil }

theorem Tracked.step (htracked : Tracked log) {action : LogAction} {next : PushLog}
    (hguard : log.passesOverNone action = true) (hstep : log.step action = some next) : Tracked next := by
  cases action with
  | remove id =>
    obtain rfl := Option.some.inj hstep
    exact htracked.remove id
  | machine action =>
    obtain ⟨after, hafter, rfl⟩ := Option.map_eq_some_iff.mp hstep
    cases action with
    | retryRead | retryWrite => cases hguard
    | enqueue operation => exact htracked.enqueue hafter
    | discard id =>
      obtain rfl := Option.some.inj hafter
      exact htracked.discard id
    | swap id payload now => exact htracked.swap hafter
    | passBegin wall_now mono_now => exact htracked.passBegin (by simpa [PushLog.passesOverNone] using hguard) hafter
    | passRead => exact htracked.passRead hafter
    | passPark now => exact htracked.passPark hafter
    | passClaim now => exact htracked.passClaim hafter
    | passPush => exact htracked.passPush hafter
    | passSettle reply settled_at_mono now =>
      exact htracked.passSettle (by simpa [PushLog.passesOverNone] using hguard) hafter
    | abandon | restart =>
      obtain rfl := Option.some.inj hafter
      exact htracked.stop rfl rfl rfl

theorem tracked_of_reachable
    (hreach : logSystem.Reachable (fun log action => log.passesOverNone action = true) log) : Tracked log := by
  refine hreach.invariant ?_ ?_
  · rintro _ rfl
    exact .initial
  · intro before action next htracked hguard hstep
    exact htracked.step hguard hstep

end Simulation

/-- Where a list of actions leads, with its guard checked at each step. -/
def PushLog.ran (guard : PushLog → LogAction → Bool) (actions : List LogAction) : PushLog :=
  (TransitionSystem.runActions PushLog.step guard .initial actions).getD .initial

theorem reachable_ranLog {guard : PushLog → LogAction → Bool} {actions : List LogAction}
    (hruns : (TransitionSystem.runActions PushLog.step guard .initial actions).isSome = true) :
    logSystem.Reachable (fun log action => guard log action = true) (PushLog.ran guard actions) := by
  obtain ⟨log, hrun⟩ := Option.isSome_iff_exists.mp hruns
  have hran : PushLog.ran guard actions = log := by
    unfold PushLog.ran
    rw [hrun]
    rfl
  rw [hran]
  exact TransitionSystem.reachable_of_runActions (fun _ _ hcheck => hcheck) (.start rfl) hrun

def keptDraft : OperationEntity := ⟨.Draft, "draft-local-1"⟩

def queuedSave : Operation :=
  newOperation "o1" keptDraft .DraftUpdate (to_value (default : SendMessageRequest)) none none "2026-01-01T00:00:00Z"

def queuedDelete : Operation :=
  newOperation "o2" keptDraft .DraftDelete (.object [("idempotentRedelivery", .bool false)]) none none
    "2026-01-01T00:00:00Z"

def passStarts : LogAction := .machine (.passBegin "2026-01-01T00:00:00Z" 0)

def handNext : List LogAction :=
  [.machine .passRead, .machine (.passClaim "2026-01-01T00:00:00Z"), .machine .passPush]

def answer (reply : Reply) : LogAction := .machine (.passSettle reply 0 "2026-01-01T00:00:00Z")

/-- The draft is deleted while its save is with the gateway, and the connection drops. -/
def deletedMidSave : List LogAction :=
  [.machine (.enqueue queuedSave), passStarts] ++ handNext ++
    [.machine (.enqueue queuedDelete), answer (.failed (.Network "connection lost"))]

/-- The next pass goes through. -/
def deletedAfterSave : List LogAction :=
  deletedMidSave ++ [passStarts] ++ handNext ++ [answer (.accepted none)] ++ handNext ++ [answer (.accepted none)]

/-- The save fails twice more, the delete behind it goes through, and the next pass saves the draft again. -/
def savedAfterDelete : List LogAction :=
  deletedMidSave ++ [passStarts] ++ handNext ++ [answer (.failed (.Network "connection lost")), passStarts] ++
    handNext ++ [answer (.failed (.Network "connection lost"))] ++ handNext ++
    [answer (.accepted none), .machine .passRead, passStarts] ++ handNext ++ [answer (.accepted none)]

end posthaste.interleaving
