import Posthaste.Service.FlushRuns

open serde posthaste.model posthaste.store

namespace posthaste.service

open MailService effects

/-- One flush pass: the provider as it answers then, and the clocks. -/
structure FlushPass where
  gateway : MailGateway
  wall_now : String
  mono_now : Int
  now : Timestamp

namespace FlushPass

variable (pass : FlushPass)

/-- Both readiness gates of an operation. -/
def due (operation : Operation) : Bool :=
  operation.send_at.all (· ≤ pass.wall_now) && operation.hold_until_mono.all (· ≤ pass.mono_now)

/-- The operations the pass lists. -/
def queued (log : OutboxTable) : List OperationId :=
  (log.list_flushable_operations pass.wall_now pass.mono_now).map Operation.id

def after (store : DatabaseStore) : DatabaseStore :=
  final ((flush_account pass.gateway pass.wall_now pass.mono_now pass.now).run store)

/-- The operations the pass attempts, in order, with what came of each. -/
def attempts (store : DatabaseStore) : List (OperationId × Except FlushError Pushed) :=
  match (ensure_drafts_for_held_sends pass.gateway pass.wall_now pass.mono_now).run store with
  | .ok _ ensured => pushes pass.gateway pass.mono_now pass.now (pass.queued ensured.outbox) ensured
  | .error _ _ => []

end FlushPass

/-- The store before each pass. -/
def storeAt (passes : Nat → FlushPass) (start : DatabaseStore) : Nat → DatabaseStore
  | 0 => start
  | pass + 1 => (passes pass).after (storeAt passes start pass)

/-- The payload of every logged operation decodes. -/
def Decodes (log : OutboxTable) : Prop := ∀ operation ∈ log.operations, decodes operation = true

section Ensure

variable {store : DatabaseStore}

/-- A call that succeeds and leaves the log alone. -/
def Succeeds {α : Type} (call : MailService α) (store : DatabaseStore) : Prop :=
  ∃ value after, call.run store = .ok value after ∧ after.outbox = store.outbox

theorem Succeeds.bind {α β : Type} {first : MailService α} {next : α → MailService β} (hfirst : Succeeds first store)
    (hnext : ∀ value after, after.outbox = store.outbox → Succeeds (next value) after) :
    Succeeds (first >>= next) store := by
  obtain ⟨value, middle, hrun, hmiddle⟩ := hfirst
  obtain ⟨result, after, hrest, hafter⟩ := hnext value middle hmiddle
  exact ⟨result, after, by rw [run_bind_of_ok hrun, hrest], hafter.trans hmiddle⟩

/-- Over a log that decodes every row can be derived. -/
theorem succeeds_refresh (hdecodes : Decodes store.outbox) (message_id : MessageId) :
    Succeeds (refresh_message_overlay message_id) store := by
  have hmem : ∀ operation, (∃ role, (operation, role) ∈ rowTouches (store.snapshot message_id) message_id) →
      decodes operation = true := by
    rintro operation ⟨role, htouch⟩
    obtain ⟨logged, hlogged, hrow⟩ := List.mem_flatMap.mp htouch
    obtain ⟨touch, _, hsame⟩ := List.mem_map.mp hrow
    obtain rfl : logged = operation := congrArg Prod.fst hsame
    exact hdecodes logged (List.mem_filter.mp (List.mem_filter.mp hlogged).1).1
  have hentities : ∀ entry ∈ entityOps (rowTouches (store.snapshot message_id) message_id), decodes entry.1 = true := by
    intro entry hentry
    obtain ⟨⟨operation, role⟩, htouch, hsome⟩ := List.mem_filterMap.mp hentry
    cases role with
    | Assertion => cases hsome
    | Entity role =>
      obtain rfl := Option.some.inj hsome
      exact hmem operation ⟨_, htouch⟩
  have hassertions : ∀ operation ∈ messageOps (rowTouches (store.snapshot message_id) message_id),
      decodes operation = true := by
    intro operation hoperation
    obtain ⟨⟨held, role⟩, htouch, hsome⟩ := List.mem_filterMap.mp hoperation
    cases role with
    | Assertion =>
      obtain rfl := Option.some.inj hsome
      exact hmem held ⟨_, htouch⟩
    | Entity role => cases hsome
  have hreplays : ∃ replayed, replayRecord (store.snapshot message_id) message_id = .ok replayed :=
    (replayRecord_isOk_iff fun _ hbase => id_of_snapshot hbase).mpr ⟨hentities, fun _ => hassertions⟩
  obtain ⟨replayed, hreplayed⟩ := hreplays
  have hview : view store message_id = .ok (replayed.map MessageRow.of_record) := by
    unfold view
    rw [hreplayed]
    rfl
  obtain ⟨diff, after, hrun, hderived⟩ := refresh_of_view hview
  exact ⟨diff, after, hrun, by rw [hderived.inputs]⟩

theorem succeeds_ensured (hdecodes : Decodes store.outbox) (key : String) (new_id : MessageId) :
    Succeeds (ensured key new_id) store := by
  have hwrite : Succeeds (write (·.set_draft_alias key new_id)) store := ⟨(), _, rfl, rfl⟩
  refine hwrite.bind fun _ aliased haliased => ?_
  have hnew : ∀ middle : DatabaseStore, middle.outbox = store.outbox →
      Succeeds (refresh_message_overlay new_id >>= fun _ => pure ()) middle := by
    intro middle hmiddle
    exact (succeeds_refresh (hmiddle ▸ hdecodes) new_id).bind fun _ after _ => ⟨(), after, rfl, rfl⟩
  dsimp only
  split_ifs
  · exact (succeeds_refresh (haliased ▸ hdecodes) key).bind fun _ after hafter => hnew after (hafter.trans haliased)
  · exact hnew aliased haliased

theorem succeeds_ensureAll (hdecodes : Decodes store.outbox) (gateway : MailGateway) (pending : List Operation)
    (wall_now : String) (mono_now : Int) (operations : List Operation) :
    Succeeds (ensureAll gateway pending wall_now mono_now operations) store := by
  induction operations generalizing store with
  | nil => exact ⟨(), store, rfl, rfl⟩
  | cons operation rest ih =>
    have hread : Succeeds (read (ensureKey · pending wall_now mono_now operation)) store := ⟨_, store, rfl, rfl⟩
    refine hread.bind fun held middle hmiddle => ?_
    have hrest := @ih middle (hmiddle ▸ hdecodes)
    cases held with
    | none => exact hrest
    | some draft =>
      obtain ⟨key, request⟩ := draft
      dsimp only
      split
      · exact (succeeds_ensured (hmiddle ▸ hdecodes) _ _).bind fun _ after hafter =>
          ih ((hafter.trans hmiddle) ▸ hdecodes)
      · exact hrest

theorem succeeds_ensure_drafts (hdecodes : Decodes store.outbox) (gateway : MailGateway) (wall_now : String)
    (mono_now : Int) : Succeeds (ensure_drafts_for_held_sends gateway wall_now mono_now) store :=
  succeeds_ensureAll hdecodes gateway store.outbox.list_pending_operations wall_now mono_now _

end Ensure

section Pass

variable {log : OutboxTable} {store : DatabaseStore}

/-- A pass lists the due operations of the queue, up to the limit. -/
theorem queued_eq (pass : FlushPass) {ready : OperationId → Bool}
    (hready : ∀ operation ∈ log.operations, ready operation.id = pass.due operation) :
    pass.queued log = ((queueOf log).filter ready).take OutboxTable.OUTBOX_FLUSH_BATCH_LIMIT := by
  unfold FlushPass.queued queueOf OutboxTable.list_flushable_operations
  rw [List.map_take, List.filter_map, List.filter_filter]
  congr 2
  refine List.filter_congr fun operation hoperation => ?_
  rw [Function.comp_apply, hready operation hoperation, FlushPass.due, Bool.and_assoc, Bool.and_comm]

theorem queued_nodup (log : OutboxTable) (pass : FlushPass) : (pass.queued log).Nodup :=
  (@OutboxTable.ids_nodup log).sublist (((List.take_sublist _ _).trans List.filter_sublist).map _)

/-- A pass over a log that decodes drains the batch it lists. -/
theorem drained_pass (hdecodes : Decodes store.outbox) (pass : FlushPass) :
    Drained (pass.queued store.outbox) store.outbox (pass.after store).outbox (pass.attempts store) := by
  obtain ⟨value, ensured, hensure, hlog⟩ :=
    succeeds_ensure_drafts hdecodes pass.gateway pass.wall_now pass.mono_now
  have hdrained := drained pass.gateway pass.mono_now pass.now (queued_nodup ensured.outbox pass) ensured
  have hafter : pass.after store =
      final ((drain pass.gateway pass.mono_now pass.now (pass.queued ensured.outbox)).run ensured) := by
    unfold FlushPass.after flush_account
    rw [run_bind_of_ok hensure, run_read_bind]
    rfl
  have hattempts : pass.attempts store =
      pushes pass.gateway pass.mono_now pass.now (pass.queued ensured.outbox) ensured := by
    unfold FlushPass.attempts
    rw [hensure]
  rw [hafter, hattempts, ← hlog]
  exact hdrained

theorem push_of_attempt (hdecodes : Decodes store.outbox) (pass : FlushPass) {id : OperationId}
    {result : Except FlushError Pushed} (hmem : (id, result) ∈ pass.attempts store) :
    ∃ held operation, store.outbox.get_operation id = some operation ∧
      result = push_operation pass.gateway held operation := by
  obtain ⟨value, ensured, hensure, hlog⟩ :=
    succeeds_ensure_drafts hdecodes pass.gateway pass.wall_now pass.mono_now
  unfold FlushPass.attempts at hmem
  rw [hensure] at hmem
  rw [← hlog]
  exact push_of_mem (queued_nodup ensured.outbox pass) hmem

end Pass

section Run

variable (passes : Nat → FlushPass) (start : DatabaseStore)

/-- Some pass attempts the operation. -/
def Attempted (id : OperationId) : Prop :=
  ∃ pass result, (id, result) ∈ (passes pass).attempts (storeAt passes start pass)

/-- Whatever pass attempts it, the operation is left to a later one. -/
def KeepsFailing (operation : Operation) : Prop :=
  interruptedSend operation = false ∧ ∀ pass result,
    (operation.id, result) ∈ (passes pass).attempts (storeAt passes start pass) → fails_again result = true

/-- From some pass on an attempt of the operation is its last. -/
def Recovers (operation : Operation) : Prop :=
  ∃ first, ∀ pass, first ≤ pass → ∀ result,
    (operation.id, result) ∈ (passes pass).attempts (storeAt passes start pass) → fails_again result = false

/-- The passes of a provider under which every queued operation either keeps failing
    or recovers, and none of those logged comes due that was not. -/
structure Standing : Prop where
  decodes : Decodes start.outbox
  clock : ∀ pass, ∀ operation ∈ start.outbox.operations, (passes pass).due operation = (passes 0).due operation
  settles : ∀ operation ∈ start.outbox.operations, operation.state.is_flushable = true →
    KeepsFailing passes start operation ∨ Recovers passes start operation

variable {passes start}

theorem decodes_retried {before after : Operation} (hretried : Retried before after) : decodes after = decodes before := by
  obtain ⟨_, _, _, _, rfl⟩ := hretried
  rfl

theorem due_retried (pass : FlushPass) {before after : Operation} (hretried : Retried before after) :
    pass.due after = pass.due before := by
  obtain ⟨_, _, _, _, rfl⟩ := hretried
  rfl

/-- The rows of a later log are those of the first, attempted some more times. -/
theorem retried_at (hdecodes : Decodes start.outbox) (pass : Nat) : Decodes (storeAt passes start pass).outbox ∧
    ∀ id operation, (storeAt passes start pass).outbox.get_operation id = some operation →
      ∃ before, start.outbox.get_operation id = some before ∧ Retried before operation := by
  induction pass with
  | zero => exact ⟨hdecodes, fun id operation hget => ⟨operation, hget, Retried.refl _⟩⟩
  | succ pass ih =>
    obtain ⟨hstill, hbefore⟩ := ih
    have hdrained := drained_pass hstill (passes pass)
    have hrows : ∀ id operation, (storeAt passes start (pass + 1)).outbox.get_operation id = some operation →
        ∃ before, start.outbox.get_operation id = some before ∧ Retried before operation := by
      intro id operation hget
      obtain ⟨middle, hmiddle, hretried, _⟩ := hdrained.retried id operation hget
      obtain ⟨before, hget, hfirst⟩ := hbefore id middle hmiddle
      exact ⟨before, hget, hfirst.trans hretried⟩
    refine ⟨fun operation hmem => ?_, hrows⟩
    obtain ⟨before, hget, hretried⟩ := hrows operation.id operation (OutboxTable.get_of_mem hmem)
    rw [decodes_retried hretried]
    exact hdecodes before (OutboxTable.mem_of_get hget)

/-- Whether an operation of the log is due, by id. -/
def ready (passes : Nat → FlushPass) (start : DatabaseStore) (id : OperationId) : Bool :=
  (start.outbox.get_operation id).any (passes 0).due

/-- An operation that was not interrupted never looks so later. -/
theorem calm_at (hdecodes : Decodes start.outbox) (pass : Nat) {id : OperationId} {before operation : Operation}
    (hbefore : start.outbox.get_operation id = some before) (hwhole : interruptedSend before = false)
    (hget : (storeAt passes start pass).outbox.get_operation id = some operation) : interruptedSend operation = false := by
  induction pass generalizing operation with
  | zero => exact Option.some.inj (hbefore.symm.trans hget) ▸ hwhole
  | succ pass ih =>
    have hdrained := drained_pass (@retried_at passes start hdecodes pass).1 (passes pass)
    obtain ⟨middle, hmiddle, _⟩ := hdrained.retried id operation hget
    exact hdrained.calm id middle operation hmiddle (ih hmiddle) hget

/-- An operation whose attempts of a pass fail again stays queued over it. -/
theorem stays_at (hdecodes : Decodes start.outbox) (pass : Nat) {id : OperationId} {before : Operation}
    (hbefore : start.outbox.get_operation id = some before) (hwhole : interruptedSend before = false)
    (hqueued : id ∈ queueOf (storeAt passes start pass).outbox)
    (hagain : ∀ result, (id, result) ∈ (passes pass).attempts (storeAt passes start pass) → fails_again result = true) :
    id ∈ queueOf (storeAt passes start (pass + 1)).outbox := by
  obtain ⟨operation, hget, hflushable⟩ := mem_queueOf.mp hqueued
  exact (drained_pass (retried_at hdecodes pass).1 (passes pass)).kept id operation hget hflushable
    (calm_at hdecodes pass hbefore hwhole hget) hagain

variable (hdecodes : Decodes start.outbox)
  (hclock : ∀ pass, ∀ operation ∈ start.outbox.operations, (passes pass).due operation = (passes 0).due operation)

include hdecodes hclock

theorem queued_at (pass : Nat) : (passes pass).queued (storeAt passes start pass).outbox =
    ((queueOf (storeAt passes start pass).outbox).filter (ready passes start)).take
      OutboxTable.OUTBOX_FLUSH_BATCH_LIMIT := by
  refine queued_eq (passes pass) fun operation hoperation => ?_
  obtain ⟨before, hget, hretried⟩ :=
    (retried_at hdecodes pass).2 operation.id operation (OutboxTable.get_of_mem hoperation)
  rw [ready, hget, Option.any_some, due_retried _ hretried, hclock pass before (OutboxTable.mem_of_get hget)]

/-- A batch that stands still does not halt its pass for ever: each operation halts it a few times only. -/
theorem patient_at (pass : Nat)
    (hstill : ∀ later, pass ≤ later → queueOf (storeAt passes start later).outbox = queueOf (storeAt passes start pass).outbox) :
    ∃ later, pass ≤ later ∧ ¬ ∃ id ∈ (passes later).queued (storeAt passes start later).outbox, ∃ before operation,
      (storeAt passes start later).outbox.get_operation id = some before ∧
        before.attempts + 1 < TRANSIENT_STOP_THRESHOLD ∧
        (storeAt passes start (later + 1)).outbox.get_operation id = some operation ∧
        operation.attempts = before.attempts + 1 := by
  by_contra hhalted
  have hbatch : ∀ count, (passes (pass + count)).queued (storeAt passes start (pass + count)).outbox =
      (passes pass).queued (storeAt passes start pass).outbox := by
    intro count
    rw [queued_at hdecodes hclock, queued_at hdecodes hclock, hstill (pass + count) (by omega)]
  have hshort : ((passes pass).queued (storeAt passes start pass).outbox).length ≤ 200 := by
    rw [queued_at hdecodes hclock]
    exact List.length_take_le _ _
  refine @not_always_halted OperationId 3 ((passes pass).queued (storeAt passes start pass).outbox)
    (fun count id => ((storeAt passes start (pass + count)).outbox.get_operation id).elim 0 Operation.attempts)
    (by omega) (fun count id hid => ?_) fun count => ?_
  · have hqueued : id ∈ queueOf (storeAt passes start (pass + count + 1)).outbox := by
      rw [queued_at hdecodes hclock] at hid
      rw [hstill (pass + count + 1) (by omega)]
      exact (List.mem_filter.mp (List.mem_of_mem_take hid)).1
    obtain ⟨operation, hget, _⟩ := mem_queueOf.mp hqueued
    obtain ⟨before, hbefore, _, hattempts⟩ :=
      (drained_pass (retried_at hdecodes (pass + count)).1 (passes (pass + count))).retried id operation hget
    have hafter : (storeAt passes start (pass + (count + 1))).outbox.get_operation id = some operation := hget
    rw [hafter, hbefore]
    exact hattempts
  · have hmore : ∃ id ∈ (passes (pass + count)).queued (storeAt passes start (pass + count)).outbox, ∃ before operation,
        (storeAt passes start (pass + count)).outbox.get_operation id = some before ∧
          before.attempts + 1 < TRANSIENT_STOP_THRESHOLD ∧
          (storeAt passes start (pass + count + 1)).outbox.get_operation id = some operation ∧
          operation.attempts = before.attempts + 1 :=
      Classical.byContradiction fun hgoing => hhalted ⟨pass + count, by omega, hgoing⟩
    obtain ⟨id, hid, before, operation, hbefore, hfew, hafter, hcounted⟩ := hmore
    have hlater : (storeAt passes start (pass + (count + 1))).outbox.get_operation id = some operation := hafter
    refine ⟨id, hbatch count ▸ hid, ?_, ?_⟩
    · rw [hbefore]
      exact UInt32.lt_iff_toNat_lt.mp hfew
    · rw [hlater, hbefore]
      exact hcounted

/-- The passes over the log as a queue drained in batches. -/
def batchedRun : BatchedQueue OperationId where
  limit := OutboxTable.OUTBOX_FLUSH_BATCH_LIMIT
  ready := ready passes start
  queue pass := queueOf (storeAt passes start pass).outbox
  served pass id := ∃ result, (id, result) ∈ (passes pass).attempts (storeAt passes start pass)
  halted pass := ∃ id ∈ (passes pass).queued (storeAt passes start pass).outbox, ∃ before operation,
    (storeAt passes start pass).outbox.get_operation id = some before ∧
      before.attempts + 1 < TRANSIENT_STOP_THRESHOLD ∧
      (storeAt passes start (pass + 1)).outbox.get_operation id = some operation ∧
      operation.attempts = before.attempts + 1
  nodup := queueOf_nodup
  shrinks pass := (drained_pass (retried_at hdecodes pass).1 (passes pass)).shrinks
  within pass id := by
    rintro ⟨result, hmem⟩
    rw [← queued_at hdecodes hclock]
    exact (drained_pass (retried_at hdecodes pass).1 (passes pass)).within id result hmem
  reached pass hsame hgoing id hid := by
    have hqueued : id ∈ queueOf (storeAt passes start pass).outbox :=
      (List.mem_filter.mp (List.mem_of_mem_take hid)).1
    rw [← queued_at hdecodes hclock] at hid
    rcases (drained_pass (retried_at hdecodes pass).1 (passes pass)).still hsame with hall | hhalted
    · exact hall id hid hqueued
    · exact absurd hhalted hgoing
  patient := patient_at hdecodes hclock

end Run

section HeadOfLine

variable {passes : Nat → FlushPass} {start : DatabaseStore} {id : OperationId} {operation : Operation}

/-- A due operation of the queue that keeps failing. -/
def Undeliverable (passes : Nat → FlushPass) (start : DatabaseStore) (operation : Operation) : Prop :=
  operation.state.is_flushable = true ∧ (passes 0).due operation = true ∧ KeepsFailing passes start operation

/-- What was logged before an operation. -/
def loggedBefore (log : OutboxTable) (id : OperationId) : List Operation := log.operations.takeWhile (·.id ≠ id)

theorem ahead_queueOf {log : OutboxTable} (hget : log.get_operation id = some operation)
    (hflushable : operation.state.is_flushable = true) : BatchedQueue.ahead (queueOf log) id =
      ((loggedBefore log id).filter fun other => other.state.is_flushable).map Operation.id := by
  have hid := OutboxTable.id_of_get hget
  obtain ⟨before, after, hsplit⟩ := List.append_of_mem (OutboxTable.mem_of_get hget)
  have hnodup := @OutboxTable.ids_nodup log
  rw [hsplit, List.map_append, List.map_cons, hid] at hnodup
  have hnotin : ∀ other ∈ before, other.id ≠ id := by
    intro other hother hsame
    exact (List.nodup_append.mp hnodup).2.2 id (hsame ▸ List.mem_map_of_mem hother) id List.mem_cons_self rfl
  have hbefore : loggedBefore log id = before := by
    unfold loggedBefore
    rw [hsplit, List.takeWhile_append_of_pos fun other hother => decide_eq_true (hnotin other hother),
      List.takeWhile_cons_of_neg (by simp [hid]), List.append_nil]
  rw [hbefore]
  unfold queueOf
  rw [hsplit, List.filter_append, List.filter_cons, if_pos hflushable, List.map_append, List.map_cons, hid]
  refine BatchedQueue.ahead_append fun hmem => ?_
  obtain ⟨other, hother, hsame⟩ := List.mem_map.mp hmem
  exact hnotin other (List.mem_filter.mp hother).1 hsame

/-- A batch's worth of undeliverable operations logged before one blocks it, and nothing else does. -/
theorem blocked_iff (hdecodes : Decodes start.outbox)
    (hclock : ∀ pass, ∀ operation ∈ start.outbox.operations, (passes pass).due operation = (passes 0).due operation)
    (hget : start.outbox.get_operation id = some operation) (hflushable : operation.state.is_flushable = true) :
    (batchedRun hdecodes hclock).Blocked
        (fun id => ∃ operation, start.outbox.get_operation id = some operation ∧ KeepsFailing passes start operation) id ↔
      ∃ blocking : List Operation, blocking.Sublist (loggedBefore start.outbox id) ∧
        blocking.length = OutboxTable.OUTBOX_FLUSH_BATCH_LIMIT ∧ ∀ other ∈ blocking, Undeliverable passes start other := by
  have hahead := ahead_queueOf hget hflushable
  constructor
  · rintro ⟨blocking, hsub, hlength, hblocking⟩
    have hqueue : blocking.Sublist (((loggedBefore start.outbox id).filter fun other => other.state.is_flushable).map
        Operation.id) := hahead ▸ hsub
    obtain ⟨operations, hoperations, rfl⟩ := List.sublist_map_iff.mp hqueue
    refine ⟨operations, hoperations.trans List.filter_sublist, ?_, fun other hother => ?_⟩
    · rw [List.length_map] at hlength
      exact hlength
    · obtain ⟨hready, held, hheld, hfails⟩ := hblocking other.id (List.mem_map_of_mem hother)
      obtain ⟨hlogged, hqueued⟩ := List.mem_filter.mp (hoperations.subset hother)
      have hrow := OutboxTable.get_of_mem ((List.takeWhile_sublist _).subset hlogged)
      obtain rfl : other = held := Option.some.inj (hrow.symm.trans hheld)
      have hdue : (start.outbox.get_operation other.id).any (passes 0).due = true := hready
      rw [hrow, Option.any_some] at hdue
      exact ⟨hqueued, hdue, hfails⟩
  · rintro ⟨blocking, hsub, hlength, hblocking⟩
    have hwhole : blocking.filter (fun other => other.state.is_flushable) = blocking :=
      List.filter_eq_self.mpr fun other hother => (hblocking other hother).1
    refine ⟨blocking.map Operation.id, ?_, ?_, fun other hother => ?_⟩
    · show (blocking.map Operation.id).Sublist (BatchedQueue.ahead (queueOf start.outbox) id)
      rw [hahead, ← hwhole]
      exact (hsub.filter _).map _
    · rw [List.length_map, hlength]
      rfl
    · obtain ⟨held, hheld, rfl⟩ := List.mem_map.mp hother
      obtain ⟨_, hdue, hfails⟩ := hblocking held hheld
      have hrow := OutboxTable.get_of_mem ((List.takeWhile_sublist _).subset (hsub.subset hheld))
      refine ⟨?_, held, hrow, hfails⟩
      show (start.outbox.get_operation held.id).any (passes 0).due = true
      rw [hrow, Option.any_some]
      exact hdue

/-- A batch's worth of undeliverable operations starves whatever was logged behind them. -/
theorem not_attempted_of_blocked (hdecodes : Decodes start.outbox)
    (hclock : ∀ pass, ∀ operation ∈ start.outbox.operations, (passes pass).due operation = (passes 0).due operation)
    (hblocked : (batchedRun hdecodes hclock).Blocked
      (fun id => ∃ operation, start.outbox.get_operation id = some operation ∧ KeepsFailing passes start operation) id) :
    ¬ Attempted passes start id := by
  rintro ⟨pass, hattempted⟩
  refine hblocked.not_served (fun other hother hfails pass => ?_) pass hattempted
  obtain ⟨operation, hget, hwhole, hagain⟩ := hfails
  obtain rfl := OutboxTable.id_of_get hget
  induction pass with
  | zero => exact hother
  | succ pass ih => exact stays_at hdecodes pass hget hwhole ih (hagain pass)

/-- A deletion in the log. -/
def queuedDestroy (id : OperationId) (message_id : MessageId) : OperationRow :=
  ⟨{ id, entity := ⟨.Message, message_id⟩, kind := .Destroy, payload := .null, payload_version := 1, state := .Pending,
     attempts := 3, last_error := none, send_at := none, hold_until_mono := none, created_at := "", updated_at := "" },
    none, none⟩

/-- A provider that times out over one message. -/
def timingOut : MailGateway where
  save_draft _ _ _ _ := .error (.Rejected "")
  delete_draft _ _ := .error (.Rejected "")
  send_message _ _ _ := .error (.Rejected "")
  set_keywords _ _ := .error (.Rejected "")
  replace_mailboxes _ _ := .error (.Rejected "")
  destroy_message message_id := if message_id = "poisoned" then .error (.Network "timed out") else .ok ⟨none, none⟩

def timingOutPass : FlushPass := ⟨timingOut, "2026-01-01T00:00:00Z", 0, "2026-01-01T00:00:00Z"⟩

def poisonedId (index : Nat) : OperationId := String.ofList ('p' :: List.replicate index 'p')

theorem poisonedId_injective : Function.Injective poisonedId := by
  intro first second hsame
  have hlength := congrArg List.length (String.ofList_injective hsame)
  simpa using hlength

/-- So many deletions of the poisoned message, and a healthy one behind them. -/
def behindPoisoned (count : Nat) : DatabaseStore :=
  { DatabaseStore.empty with outbox := {
      rows := (List.range count).map (fun index => queuedDestroy (poisonedId index) "poisoned") ++ [queuedDestroy "h" "healthy"]
      keys_nodup := by
        rw [List.map_append, List.map_map]
        have hpoisoned : (List.range count).map (OperationRow.id ∘ fun index => queuedDestroy (poisonedId index) "poisoned") =
            (List.range count).map poisonedId := rfl
        rw [hpoisoned]
        refine List.Nodup.append (List.nodup_range.map poisonedId_injective) (List.nodup_singleton _) ?_
        refine List.disjoint_singleton.mpr fun hmem => ?_
        obtain ⟨index, _, hsame⟩ := List.mem_map.mp hmem
        have hhead := congrArg List.head? (String.ofList_injective hsame)
        rw [List.head?_cons, List.head?_cons] at hhead
        revert hhead
        decide } }

theorem mem_behindPoisoned {count : Nat} {operation : Operation} :
    operation ∈ (behindPoisoned count).outbox.operations ↔
      (∃ index < count, operation = (queuedDestroy (poisonedId index) "poisoned").operation) ∨
        operation = (queuedDestroy "h" "healthy").operation := by
  unfold OutboxTable.operations behindPoisoned
  rw [List.map_append, List.map_map, List.mem_append, List.mem_map, List.map_singleton, List.mem_singleton]
  simp only [List.mem_range, Function.comp_apply, eq_comm]

/-- The answer to a logged deletion is the provider's, whatever the store. -/
theorem push_queuedDestroy {row : OperationRow} {after : Operation} {message_id : MessageId}
    (hrow : row = queuedDestroy row.id message_id) (hplain : is_provisional_sent_id message_id = false)
    (hretried : Retried row.operation after) (held : DatabaseStore) :
    push_operation timingOut held after = message_pushed (timingOut.destroy_message message_id) none := by
  rw [hrow] at hretried
  obtain ⟨_, _, _, _, rfl⟩ := hretried
  show pushAssertion held _ timingOut.destroy_message = _
  unfold pushAssertion resolve_assertion_target
  show (if !is_provisional_sent_id message_id then (.ok (some (message_id, none)) : Except FlushError _) else _) >>= _ = _
  rw [hplain]
  rfl

theorem result_behindPoisoned {count pass : Nat} {operation : Operation} {result : Except FlushError Pushed}
    (hmem : operation ∈ (behindPoisoned count).outbox.operations)
    (hattempt : (operation.id, result) ∈ timingOutPass.attempts (storeAt (fun _ => timingOutPass) (behindPoisoned count) pass)) :
    fails_again result = true ↔ operation.entity.id = "poisoned" := by
  have hdecodes : Decodes (behindPoisoned count).outbox := by
    intro other hother
    rcases mem_behindPoisoned.mp hother with ⟨index, _, rfl⟩ | rfl
    · rfl
    · rfl
  obtain ⟨hlater, hrows⟩ := @retried_at (fun _ => timingOutPass) (behindPoisoned count) hdecodes pass
  obtain ⟨held, after, hget, rfl⟩ := push_of_attempt hlater timingOutPass hattempt
  obtain ⟨before, hbefore, hretried⟩ := hrows operation.id after hget
  obtain rfl : operation = before := Option.some.inj ((OutboxTable.get_of_mem hmem).symm.trans hbefore)
  rcases mem_behindPoisoned.mp hmem with ⟨index, _, rfl⟩ | rfl
  · have hpush := @push_queuedDestroy (queuedDestroy (poisonedId index) "poisoned") after "poisoned" rfl (by decide) hretried held
    show fails_again (push_operation timingOut held after) = true ↔ _
    rw [hpush]
    exact ⟨fun _ => rfl, fun _ => rfl⟩
  · have hpush := @push_queuedDestroy (queuedDestroy "h" "healthy") after "healthy" rfl (by decide) hretried held
    show fails_again (push_operation timingOut held after) = true ↔ _
    rw [hpush]
    decide

theorem recovers_healthy (count : Nat) :
    Recovers (fun _ => timingOutPass) (behindPoisoned count) (queuedDestroy "h" "healthy").operation := by
  refine ⟨0, fun pass _ result hattempt => ?_⟩
  have hresult := result_behindPoisoned (mem_behindPoisoned.mpr (.inr rfl)) hattempt
  by_contra hagain
  exact absurd (hresult.mp (by simpa using hagain)) (by decide)

/-- The poisoned deletions keep failing, the healthy one recovers. -/
theorem standing_behindPoisoned (count : Nat) : Standing (fun _ => timingOutPass) (behindPoisoned count) where
  decodes other hother := by
    rcases mem_behindPoisoned.mp hother with ⟨index, _, rfl⟩ | rfl
    · rfl
    · rfl
  clock _ _ _ := rfl
  settles operation hmem _ := by
    rcases mem_behindPoisoned.mp hmem with ⟨index, _, rfl⟩ | rfl
    · exact .inl ⟨rfl, fun pass result hattempt => (result_behindPoisoned hmem hattempt).mpr rfl⟩
    · exact .inr (recovers_healthy count)

theorem loggedBefore_behindPoisoned (count : Nat) : loggedBefore (behindPoisoned count).outbox "h" =
    (List.range count).map fun index => (queuedDestroy (poisonedId index) "poisoned").operation := by
  have hoperations : (behindPoisoned count).outbox.operations =
      ((List.range count).map fun index => (queuedDestroy (poisonedId index) "poisoned").operation) ++
        [(queuedDestroy "h" "healthy").operation] := by
    unfold OutboxTable.operations behindPoisoned
    rw [List.map_append, List.map_map]
    rfl
  unfold loggedBefore
  rw [hoperations, List.takeWhile_append_of_pos fun other hother => ?_, List.takeWhile_cons_of_neg (by decide),
    List.append_nil]
  obtain ⟨index, _, rfl⟩ := List.mem_map.mp hother
  refine decide_eq_true fun hsame => ?_
  have hhead := congrArg List.head? (String.ofList_injective hsame)
  rw [List.head?_cons, List.head?_cons] at hhead
  revert hhead
  decide

theorem get_healthy (count : Nat) :
    (behindPoisoned count).outbox.get_operation "h" = some (queuedDestroy "h" "healthy").operation :=
  OutboxTable.get_of_mem (mem_behindPoisoned.mpr (.inr rfl))

/-- A pending operation that is due is attempted by some pass exactly when fewer than a
    batch's worth of undeliverable operations were logged before it. -/
theorem attempted_iff (hstanding : Standing passes start) (hget : start.outbox.get_operation id = some operation)
    (hpending : operation.state = .Pending) (hdue : (passes 0).due operation = true) :
    Attempted passes start id ↔ ∀ blocking : List Operation, blocking.Sublist (loggedBefore start.outbox id) →
      (∀ other ∈ blocking, Undeliverable passes start other) →
        blocking.length < OutboxTable.OUTBOX_FLUSH_BATCH_LIMIT := by
  obtain ⟨hdecodes, hclock, hsettles⟩ := hstanding
  have hflushable : operation.state.is_flushable = true := by rw [hpending]; rfl
  have hwhole : interruptedSend operation = false := by
    unfold interruptedSend
    rw [hpending]
    exact Bool.and_false _
  have hblocked := blocked_iff hdecodes hclock hget hflushable
  constructor
  · intro hattempted blocking hsub hundeliverable
    by_contra hmany
    refine not_attempted_of_blocked hdecodes hclock (hblocked.mpr
      ⟨blocking.take OutboxTable.OUTBOX_FLUSH_BATCH_LIMIT, (List.take_sublist _ _).trans hsub, ?_, fun other hother => ?_⟩)
      hattempted
    · rw [List.length_take, Nat.min_eq_left (by omega)]
    · exact hundeliverable other (List.mem_of_mem_take hother)
  · intro hfew
    have hkey : id ∈ queueOf start.outbox := mem_queueOf.mpr ⟨operation, hget, hflushable⟩
    have hready : ready passes start id = true := by
      rw [ready, hget, Option.any_some]
      exact hdue
    refine @BatchedQueue.served_of_not_blocked _ _ (batchedRun hdecodes hclock)
      (fun id => ∃ operation, start.outbox.get_operation id = some operation ∧ KeepsFailing passes start operation) id
      hkey hready (fun pass hqueued hmissed => stays_at hdecodes pass hget hwhole hqueued
        fun result hmem => absurd ⟨result, hmem⟩ hmissed) (fun other hother hrecovers => ?_) fun hblocks => ?_
    · obtain ⟨held, hheld, hqueued⟩ := mem_queueOf.mp hother
      obtain rfl := OutboxTable.id_of_get hheld
      rcases hsettles held (OutboxTable.mem_of_get hheld) hqueued with hfails | ⟨first, hfirst⟩
      · exact absurd ⟨held, hheld, hfails⟩ hrecovers
      · refine ⟨first, fun pass hpass => ?_⟩
        rintro ⟨result, hmem⟩
        exact (drained_pass (retried_at hdecodes pass).1 (passes pass)).left held.id result hmem
          (hfirst pass hpass result hmem)
    · obtain ⟨blocking, hsub, hlength, hundeliverable⟩ := hblocked.mp hblocks
      have hless := hfew blocking hsub hundeliverable
      omega

/-- One poisoned deletion is passed over in the end. -/
theorem attempted_behind_one : Attempted (fun _ => timingOutPass) (behindPoisoned 1) "h" :=
  (attempted_iff (standing_behindPoisoned 1) (get_healthy 1) rfl rfl).mpr fun blocking hsub _ => by
    have hlength := hsub.length_le
    rw [loggedBefore_behindPoisoned] at hlength
    exact Nat.lt_of_le_of_lt hlength (by decide)

/-- Behind a batch of poisoned deletions a healthy one is never attempted. -/
theorem healthy_is_starved : ¬ ∀ (passes : Nat → FlushPass) (start : DatabaseStore), Standing passes start →
    ∀ id operation, start.outbox.get_operation id = some operation → operation.state = .Pending →
      (passes 0).due operation = true → Recovers passes start operation → Attempted passes start id := by
  intro hclaim
  have hstanding := standing_behindPoisoned 200
  have hlength : (loggedBefore (behindPoisoned 200).outbox "h").length = OutboxTable.OUTBOX_FLUSH_BATCH_LIMIT := by
    rw [loggedBefore_behindPoisoned, List.length_map, List.length_range]
    rfl
  have hundeliverable : ∀ other ∈ loggedBefore (behindPoisoned 200).outbox "h",
      Undeliverable (fun _ => timingOutPass) (behindPoisoned 200) other := by
    intro other hother
    rw [loggedBefore_behindPoisoned] at hother
    obtain ⟨index, hindex, rfl⟩ := List.mem_map.mp hother
    have hlogged := (@mem_behindPoisoned 200 _).mpr (.inl ⟨index, List.mem_range.mp hindex, rfl⟩)
    exact ⟨rfl, rfl, rfl, fun pass result hattempt => (result_behindPoisoned hlogged hattempt).mpr rfl⟩
  have hblocked := (blocked_iff hstanding.decodes hstanding.clock (get_healthy 200) rfl).mpr
    ⟨_, List.Sublist.refl _, hlength, hundeliverable⟩
  exact not_attempted_of_blocked hstanding.decodes hstanding.clock hblocked
    (hclaim _ _ hstanding "h" _ (get_healthy 200) rfl rfl (recovers_healthy 200))

end HeadOfLine

end posthaste.service
