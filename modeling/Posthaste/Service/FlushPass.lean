import Posthaste.Service.FlushLog
import Posthaste.Service.Presence

open serde posthaste.model posthaste.store

namespace posthaste.service

open MailService effects

/-- The operations a pass could push, in log order. -/
def queueOf (log : OutboxTable) : List OperationId :=
  (log.operations.filter fun operation => operation.state.is_flushable).map Operation.id

/-- The same operation at a later attempt. -/
def Retried (before after : Operation) : Prop :=
  ∃ state attempts last_error updated_at, after = { before with state, attempts, last_error, updated_at }

theorem Retried.refl (operation : Operation) : Retried operation operation := ⟨_, _, _, _, rfl⟩

theorem Retried.trans {first second third : Operation} (hfirst : Retried first second) (hsecond : Retried second third) :
    Retried first third := by
  obtain ⟨_, _, _, _, rfl⟩ := hfirst
  obtain ⟨state, attempts, last_error, updated_at, rfl⟩ := hsecond
  exact ⟨state, attempts, last_error, updated_at, rfl⟩

section Queue

variable {log : OutboxTable} {id : OperationId} {operation : Operation}

theorem mem_queueOf : id ∈ queueOf log ↔
    ∃ operation, log.get_operation id = some operation ∧ operation.state.is_flushable = true := by
  unfold queueOf
  rw [List.mem_map]
  constructor
  · rintro ⟨operation, hmem, rfl⟩
    obtain ⟨hlogged, hflushable⟩ := List.mem_filter.mp hmem
    exact ⟨operation, OutboxTable.get_of_mem hlogged, hflushable⟩
  · rintro ⟨operation, hget, hflushable⟩
    exact ⟨operation, List.mem_filter.mpr ⟨OutboxTable.mem_of_get hget, hflushable⟩, OutboxTable.id_of_get hget⟩

theorem queueOf_nodup : (queueOf log).Nodup :=
  (@OutboxTable.ids_nodup log).sublist (List.filter_sublist.map _)

/-- A rewritten row keeps its place while its state is one that is pushed, and loses it otherwise. -/
private theorem queue_rewrite {operations : List Operation} (change : Operation → Operation) {flushable : Bool}
    (hid : ∀ operation, (change operation).id = operation.id)
    (hchange : ∀ operation, (change operation).state.is_flushable = flushable)
    (hrow : ∀ operation ∈ operations, operation.id = id → operation.state.is_flushable = true) :
    ((operations.map fun operation => if operation.id = id then change operation else operation).filter
        fun operation => operation.state.is_flushable).map Operation.id =
      ((operations.filter fun operation => operation.state.is_flushable).map Operation.id).filter
        fun other => flushable || other ≠ id := by
  induction operations with
  | nil => rfl
  | cons operation rest ih =>
    have hrest := ih fun other hother => hrow other (List.mem_cons_of_mem _ hother)
    rw [List.map_cons]
    by_cases hsame : operation.id = id
    · have hflushes := hrow operation List.mem_cons_self hsame
      rw [if_pos hsame, List.filter_cons, List.filter_cons, if_pos hflushes, List.map_cons, List.filter_cons, hchange]
      cases flushable with
      | true =>
        rw [if_pos rfl, if_pos (by simp), List.map_cons, hid, hrest]
      | false =>
        rw [if_neg Bool.false_ne_true, if_neg (by simp [hsame]), hrest]
    · rw [if_neg hsame, List.filter_cons, List.filter_cons]
      split_ifs with hflushes
      · rw [List.map_cons, List.map_cons, List.filter_cons, if_pos (by simp [hsame]), hrest]
      · exact hrest

theorem operations_updateWhereState {guard : OperationState → Bool} {change : OperationRow → OperationRow}
    {hid : ∀ row, (change row).id = row.id} {rewrite : Operation → Operation}
    (hrewrite : ∀ row, (change row).operation = rewrite row.operation) :
    (log.updateWhereState id guard change hid).operations = log.operations.map fun operation =>
      if operation.id = id ∧ guard operation.state then rewrite operation else operation := by
  unfold OutboxTable.operations OutboxTable.updateWhereState Table.updateIf
  rw [List.map_map, List.map_map]
  refine List.map_congr_left fun row _ => ?_
  show (if row.operation.id = id ∧ guard row.operation.state = true then change row else row).operation =
    if row.operation.id = id ∧ guard row.operation.state = true then rewrite row.operation else row.operation
  by_cases hrow : row.operation.id = id ∧ guard row.operation.state = true
  · rw [if_pos hrow, if_pos hrow]
    exact hrewrite row
  · rw [if_neg hrow, if_neg hrow]

/-- The row of a get is the only one of its id. -/
private theorem flushable_of_get (hget : log.get_operation id = some operation)
    (hflushable : operation.state.is_flushable = true) :
    ∀ other ∈ log.operations, other.id = id → other.state.is_flushable = true := by
  intro other hother hid
  have hsame := OutboxTable.get_of_mem hother
  rw [hid, hget] at hsame
  rw [← Option.some.inj hsame]
  exact hflushable

theorem queueOf_update (hget : log.get_operation id = some operation) (hflushable : operation.state.is_flushable = true)
    (state : OperationState) (attempts : UInt32) (last_error : Option String) (now : Timestamp) :
    queueOf (log.update_operation_state id state attempts last_error now) =
      (queueOf log).filter fun other => state.is_flushable || other ≠ id := by
  have hoperations : (log.update_operation_state id state attempts last_error now).operations =
      log.operations.map fun operation => if operation.id = id ∧ true = true then
        { operation with state, attempts, last_error, updated_at := now } else operation :=
    operations_updateWhereState fun _ => rfl
  unfold queueOf
  rw [hoperations]
  simp only [and_true]
  exact queue_rewrite (fun operation => { operation with state, attempts, last_error, updated_at := now })
    (fun _ => rfl) (fun _ => rfl) (flushable_of_get hget hflushable)

theorem queueOf_settled (hget : log.get_operation id = some operation) (hflushable : operation.state.is_flushable = true)
    (settled_at_mono : Int) (watermark : Option String) (now : Timestamp) :
    queueOf (log.mark_operation_settled id settled_at_mono watermark now) = (queueOf log).filter (· ≠ id) := by
  have hoperations : (log.mark_operation_settled id settled_at_mono watermark now).operations =
      log.operations.map fun operation => if operation.id = id ∧ true = true then
        { operation with state := .Applied, updated_at := now } else operation :=
    operations_updateWhereState fun _ => rfl
  unfold queueOf
  rw [hoperations]
  simp only [and_true]
  exact queue_rewrite (fun operation => { operation with state := .Applied, updated_at := now })
    (fun _ => rfl) (fun _ => rfl) (flushable_of_get hget hflushable)

/-- A claimed row keeps its place. -/
theorem queueOf_claimed (hget : log.get_operation id = some operation) (hflushable : operation.state.is_flushable = true)
    (now : Timestamp) : queueOf (log.claim_operation_for_flush id now).2 = queueOf log := by
  have hoperations : (log.claim_operation_for_flush id now).2.operations =
      log.operations.map fun operation => if operation.id = id ∧ operation.state.is_flushable = true then
        { operation with state := .Inflight, updated_at := now } else operation :=
    @operations_updateWhereState log id OperationState.is_flushable
      (fun row => { row with operation := { row.operation with state := .Inflight, updated_at := now } }) (fun _ => rfl)
      (fun operation => { operation with state := .Inflight, updated_at := now }) fun _ => rfl
  have hrow := flushable_of_get hget hflushable
  have hguard : (log.operations.map fun operation => if operation.id = id ∧ operation.state.is_flushable = true then
      { operation with state := .Inflight, updated_at := now } else operation) =
        log.operations.map fun operation => if operation.id = id then
          { operation with state := .Inflight, updated_at := now } else operation := by
    refine List.map_congr_left fun other hother => ?_
    by_cases hid : other.id = id
    · rw [if_pos hid, if_pos ⟨hid, hrow other hother hid⟩]
    · rw [if_neg hid, if_neg fun hboth => hid hboth.1]
  have hsame := queue_rewrite (fun operation => { operation with state := .Inflight, updated_at := now })
    (fun _ => rfl) (fun _ => rfl) hrow
  unfold queueOf
  rw [hoperations, hguard, hsame]
  exact List.filter_true _

theorem queueOf_remove : queueOf (log.remove_operation id) = (queueOf log).filter (· ≠ id) := by
  unfold queueOf
  rw [OutboxTable.operations_remove, List.filter_comm, List.filter_map]
  rfl

end Queue

/-- The push leaves its operation to a later pass. -/
def fails_again : Except FlushError Pushed → Bool
  | .error error => error.disposition = .Transient || error.disposition = .Defer
  | .ok _ => false

def claimed (store : DatabaseStore) (id : OperationId) (now : Timestamp) : DatabaseStore :=
  { store with outbox := (store.outbox.claim_operation_for_flush id now).2 }

/-- The push that one operation of a pass comes to, if it comes to one. -/
def pushOf (gateway : MailGateway) (id : OperationId) (now : Timestamp) (store : DatabaseStore) :
    Option (Except FlushError Pushed) :=
  match store.outbox.get_operation id with
  | none => none
  | some operation =>
    if !operation.state.is_flushable then none
    else if interruptedSend operation then none
    else some (push_operation gateway (claimed store id now) operation)

/-- Whether the drain goes on after this. -/
def goesOn : EStateM.Result ServiceError DatabaseStore Bool → Bool
  | .ok more _ => more
  | .error _ _ => false

/-- What one operation of a pass does to the log. -/
structure Flushed (id : OperationId) (store after : DatabaseStore) (more : Bool)
    (pushed : Option (Except FlushError Pushed)) : Prop where
  others : ∀ other, other ≠ id → after.outbox.get_operation other = store.outbox.get_operation other
  retried : ∀ operation, after.outbox.get_operation id = some operation →
    ∃ before, store.outbox.get_operation id = some before ∧ Retried before operation ∧
      (operation.attempts = before.attempts ∨ operation.attempts = before.attempts + 1)
  calm : ∀ before operation, store.outbox.get_operation id = some before → interruptedSend before = false →
    after.outbox.get_operation id = some operation → interruptedSend operation = false
  shrinks : (queueOf after.outbox).Sublist (queueOf store.outbox)
  idle : pushed = none → id ∉ queueOf store.outbox ∧ after = store ∧ more = true ∨
    id ∈ queueOf store.outbox ∧ id ∉ queueOf after.outbox ∧
      ∃ operation, store.outbox.get_operation id = some operation ∧ interruptedSend operation = true
  kept : ∀ result, pushed = some result → fails_again result = true →
    queueOf after.outbox = queueOf store.outbox ∧
      (more = false → ∃ before operation, store.outbox.get_operation id = some before ∧
        before.attempts + 1 < TRANSIENT_STOP_THRESHOLD ∧ after.outbox.get_operation id = some operation ∧
        operation.attempts = before.attempts + 1)
  left : ∀ result, pushed = some result → fails_again result = false →
    id ∈ queueOf store.outbox ∧ id ∉ queueOf after.outbox

section Flush

variable {gateway : MailGateway} {id : OperationId} {settled_at_mono : Int} {now : Timestamp} {store : DatabaseStore}
  {operation : Operation}

theorem flush_absent (habsent : id ∉ queueOf store.outbox) :
    (flush_operation gateway id settled_at_mono now).run store = .ok true store ∧ pushOf gateway id now store = none := by
  rw [mem_queueOf] at habsent
  unfold flush_operation pushOf
  rw [run_read_bind]
  cases hget : store.outbox.get_operation id with
  | none => exact ⟨rfl, rfl⟩
  | some operation =>
    have hnot : operation.state.is_flushable = false := by
      by_contra hflushable
      exact habsent ⟨operation, hget, by simpa using hflushable⟩
    simp only [hnot, Bool.not_false, if_true]
    exact ⟨rfl, trivial⟩

theorem flush_interrupted (hget : store.outbox.get_operation id = some operation)
    (hflushable : operation.state.is_flushable = true) (hinterrupted : interruptedSend operation = true) :
    (flush_operation gateway id settled_at_mono now).run store =
        .ok true { store with outbox :=
          (store.outbox.update_operation_state id .DispatchUncertain operation.attempts
            (some "send interrupted mid-flush; delivery uncertain") now) } ∧
      pushOf gateway id now store = none := by
  unfold flush_operation pushOf
  rw [run_read_bind, hget]
  simp only [hflushable, Bool.not_true, Bool.false_eq_true, if_false, hinterrupted, if_true]
  exact ⟨rfl, trivial⟩

theorem flush_pushed (hget : store.outbox.get_operation id = some operation)
    (hflushable : operation.state.is_flushable = true) (hinterrupted : interruptedSend operation = false) :
    (flush_operation gateway id settled_at_mono now).run store =
        (settle_push operation (push_operation gateway (claimed store id now) operation) settled_at_mono now).run
          (claimed store id now) ∧
      pushOf gateway id now store = some (push_operation gateway (claimed store id now) operation) := by
  have hclaim : (store.outbox.claim_operation_for_flush id now).1 = true :=
    (OutboxTable.matchesState_eq_true_iff _ _).mpr ⟨operation, hget, hflushable⟩
  unfold flush_operation pushOf
  rw [run_read_bind, hget]
  simp only [hflushable, Bool.not_true, Bool.false_eq_true, if_false, hinterrupted]
  rw [run_outboxGuarded_bind, if_pos hclaim, run_read_bind]
  exact ⟨rfl, trivial⟩

theorem get_claimed (hget : store.outbox.get_operation id = some operation)
    (hflushable : operation.state.is_flushable = true) : (claimed store id now).outbox.get_operation =
      Function.update store.outbox.get_operation id (some { operation with state := .Inflight, updated_at := now }) := by
  unfold claimed
  dsimp only
  rw [OutboxTable.get_claim_operation_for_flush, hget, Option.map_some, if_pos hflushable]

/-- A push that does not fail again ends with its operation settled, failed, parked or gone. -/
theorem settleLog_left {pushed : Except FlushError Pushed} {log : OutboxTable} (hid : operation.id = id)
    {row : Operation} (hget : log.get_operation id = some row) (hflushable : row.state.is_flushable = true)
    (hdone : fails_again pushed = false) :
    queueOf (settleLog operation settled_at_mono now pushed log) = (queueOf log).filter (· ≠ id) := by
  subst hid
  unfold settleLog
  cases pushed with
  | ok result =>
    cases result with
    | Entity assigned_entity_id destroyed_entity_id cursor =>
      dsimp only
      split_ifs
      · exact queueOf_settled hget hflushable _ _ _
      · exact queueOf_remove
    | Message readback rejected cursor retargeted_to =>
      dsimp only
      split_ifs
      · exact queueOf_remove
      · exact queueOf_settled hget hflushable _ _ _
    | NoOp => exact queueOf_remove
  | error error =>
    dsimp only
    rw [queueOf_update hget hflushable]
    have hstate : (failureState error.disposition).is_flushable = false := by
      unfold fails_again at hdone
      cases hdisposition : error.disposition with
      | Transient => simp [hdisposition] at hdone
      | Defer => simp [hdisposition] at hdone
      | Permanent => rfl
      | Uncertain => rfl
    rw [hstate]
    simp only [Bool.false_or]

theorem settleLog_others {pushed : Except FlushError Pushed} {log : OutboxTable} {other : OperationId}
    (hother : other ≠ operation.id) :
    (settleLog operation settled_at_mono now pushed log).get_operation other = log.get_operation other := by
  have hremove : (log.remove_operation operation.id).get_operation other = log.get_operation other := by
    rw [OutboxTable.get_remove_operation, Function.update_of_ne hother]
  have hsettled : ∀ watermark, (log.mark_operation_settled operation.id settled_at_mono watermark now).get_operation other =
      log.get_operation other := by
    intro watermark
    rw [OutboxTable.get_mark_operation_settled, Function.update_of_ne hother]
  unfold settleLog
  cases pushed with
  | ok result =>
    cases result with
    | Entity assigned_entity_id destroyed_entity_id cursor =>
      dsimp only
      split_ifs
      · exact hsettled _
      · exact hremove
    | Message readback rejected cursor retargeted_to =>
      dsimp only
      split_ifs
      · exact hremove
      · exact hsettled _
    | NoOp => exact hremove
  | error error =>
    dsimp only
    rw [OutboxTable.get_update_operation_state, Function.update_of_ne hother]

/-- A settlement leaves of the row the same operation, no longer inflight, with one attempt more at most. -/
theorem settleLog_own {pushed : Except FlushError Pushed} {log : OutboxTable} {row after : Operation}
    (hget : log.get_operation operation.id = some row)
    (hafter : (settleLog operation settled_at_mono now pushed log).get_operation operation.id = some after) :
    Retried row after ∧ after.state ≠ .Inflight ∧ (after.attempts = row.attempts ∨ after.attempts = operation.attempts ∨
      after.attempts = operation.attempts + 1) := by
  have hremove : (log.remove_operation operation.id).get_operation operation.id ≠ some after := by
    rw [OutboxTable.get_remove_operation, Function.update_self]
    exact fun hsome => by cases hsome
  have hsettled : ∀ watermark, (log.mark_operation_settled operation.id settled_at_mono watermark now).get_operation
      operation.id = some after → Retried row after ∧ after.state ≠ .Inflight ∧ after.attempts = row.attempts := by
    intro watermark hsome
    rw [OutboxTable.get_mark_operation_settled, Function.update_self, hget] at hsome
    obtain rfl := Option.some.inj hsome
    exact ⟨⟨_, _, _, _, rfl⟩, OperationState.noConfusion, rfl⟩
  unfold settleLog at hafter
  cases pushed with
  | ok result =>
    cases result with
    | Entity assigned_entity_id destroyed_entity_id cursor =>
      dsimp only at hafter
      split_ifs at hafter
      · exact ⟨(hsettled _ hafter).1, (hsettled _ hafter).2.1, .inl (hsettled _ hafter).2.2⟩
      · exact absurd hafter hremove
    | Message readback rejected cursor retargeted_to =>
      dsimp only at hafter
      split_ifs at hafter
      · exact absurd hafter hremove
      · exact ⟨(hsettled _ hafter).1, (hsettled _ hafter).2.1, .inl (hsettled _ hafter).2.2⟩
    | NoOp => exact absurd hafter hremove
  | error error =>
    dsimp only at hafter
    rw [OutboxTable.get_update_operation_state, Function.update_self, hget] at hafter
    obtain rfl := Option.some.inj hafter
    refine ⟨⟨_, _, _, _, rfl⟩, ?_, .inr ?_⟩
    · show failureState error.disposition ≠ .Inflight
      cases error.disposition <;> exact OperationState.noConfusion
    show failureAttempts operation error.disposition = _ ∨ failureAttempts operation error.disposition = _
    cases error.disposition with
    | Defer => exact .inl rfl
    | Transient => exact .inr rfl
    | Permanent => exact .inr rfl
    | Uncertain => exact .inr rfl

/-- A failure that is left to a later pass does nothing but requeue its operation. -/
theorem run_settle_again {pushed : Except FlushError Pushed} (hagain : fails_again pushed = true) :
    ∃ error, pushed = .error error ∧ (failureState error.disposition).is_flushable = true ∧
      (settle_push operation pushed settled_at_mono now).run store = .ok (!stopsDrain operation error.disposition)
        { store with outbox := settleLog operation settled_at_mono now pushed store.outbox } := by
  cases pushed with
  | ok result => cases hagain
  | error error =>
    obtain ⟨disposition, message⟩ := error
    refine ⟨_, rfl, ?_⟩
    cases disposition with
    | Transient => exact ⟨rfl, rfl⟩
    | Defer => exact ⟨rfl, rfl⟩
    | Permanent => cases hagain
    | Uncertain => cases hagain

theorem flushed_interrupted (hget : store.outbox.get_operation id = some operation)
    (hflushable : operation.state.is_flushable = true) (hinterrupted : interruptedSend operation = true) :
    Flushed id store (final ((flush_operation gateway id settled_at_mono now).run store))
      (goesOn ((flush_operation gateway id settled_at_mono now).run store)) (pushOf gateway id now store) := by
  obtain ⟨hrun, hpush⟩ := @flush_interrupted gateway id settled_at_mono now store operation hget hflushable hinterrupted
  rw [hrun, hpush]
  have hqueue := queueOf_update hget hflushable .DispatchUncertain operation.attempts
    (some "send interrupted mid-flush; delivery uncertain") now
  have hrows := OutboxTable.get_update_operation_state store.outbox id .DispatchUncertain operation.attempts
    (some "send interrupted mid-flush; delivery uncertain") now
  refine ⟨fun other hother => ?_, fun after hafter => ?_, fun before _ hbefore hwhole _ => ?_, ?_,
    fun _ => .inr ⟨mem_queueOf.mpr ⟨operation, hget, hflushable⟩, ?_, operation, hget, hinterrupted⟩,
    fun _ hsome => (by cases hsome), fun _ hsome => (by cases hsome)⟩
  · exact (congrFun hrows other).trans (Function.update_of_ne hother _ _)
  · have hrow := (congrFun hrows id).symm.trans hafter
    rw [Function.update_self, hget] at hrow
    obtain rfl := Option.some.inj hrow
    exact ⟨operation, hget, ⟨_, _, _, _, rfl⟩, .inl rfl⟩
  · rw [hget] at hbefore
    rw [← Option.some.inj hbefore, hinterrupted] at hwhole
    cases hwhole
  · show (queueOf (store.outbox.update_operation_state _ _ _ _ _)).Sublist _
    rw [hqueue]
    exact List.filter_sublist
  · show id ∉ queueOf (store.outbox.update_operation_state _ _ _ _ _)
    rw [hqueue]
    simp [OperationState.is_flushable]

/-- A drain halts only on a transient failure below the threshold, which it counts. -/
theorem halts_counted {error : FlushError} (hget : store.outbox.get_operation operation.id = some operation)
    (hflushable : operation.state.is_flushable = true) (hstop : stopsDrain operation error.disposition = true)
    (hagain : (failureState error.disposition).is_flushable = true) :
    ∃ after, operation.attempts + 1 < TRANSIENT_STOP_THRESHOLD ∧
      (settleLog operation settled_at_mono now (.error error) (claimed store operation.id now).outbox).get_operation
        operation.id = some after ∧ after.attempts = operation.attempts + 1 := by
  have hafter : (settleLog operation settled_at_mono now (.error error)
      (claimed store operation.id now).outbox).get_operation operation.id = some { operation with
        state := failureState error.disposition
        attempts := failureAttempts operation error.disposition
        last_error := some error.message
        updated_at := now } := by
    unfold settleLog
    dsimp only
    rw [OutboxTable.get_update_operation_state, Function.update_self, get_claimed hget hflushable, Function.update_self]
    rfl
  cases hdisposition : error.disposition with
  | Transient =>
    rw [hdisposition] at hstop hafter
    exact ⟨_, of_decide_eq_true hstop, hafter, rfl⟩
  | Uncertain => rw [hdisposition] at hagain; cases hagain
  | Permanent => rw [hdisposition] at hagain; cases hagain
  | Defer => rw [hdisposition] at hstop; cases hstop

theorem flushed_pushed (hget : store.outbox.get_operation id = some operation)
    (hflushable : operation.state.is_flushable = true) (hinterrupted : interruptedSend operation = false) :
    Flushed id store (final ((flush_operation gateway id settled_at_mono now).run store))
      (goesOn ((flush_operation gateway id settled_at_mono now).run store)) (pushOf gateway id now store) := by
  obtain rfl : operation.id = id := OutboxTable.id_of_get hget
  obtain ⟨hrun, hpush⟩ := @flush_pushed gateway _ settled_at_mono now store operation hget hflushable hinterrupted
  have hclaimed := @get_claimed _ now store operation hget hflushable
  have hrow : (claimed store operation.id now).outbox.get_operation operation.id =
      some { operation with state := .Inflight, updated_at := now } := by rw [hclaimed, Function.update_self]
  have hqueue : queueOf (claimed store operation.id now).outbox = queueOf store.outbox := queueOf_claimed hget hflushable now
  rw [hrun, hpush]
  generalize push_operation gateway (claimed store operation.id now) operation = pushed
  have hlog := logs_settle_push operation settled_at_mono now pushed (claimed store operation.id now)
  have hleft (hdone : fails_again pushed = false) :
      queueOf (settleLog operation settled_at_mono now pushed (claimed store operation.id now).outbox) =
        (queueOf store.outbox).filter (· ≠ operation.id) := by
    rw [settleLog_left rfl hrow rfl hdone, hqueue]
  have hkept (hagain : fails_again pushed = true) :
      queueOf (settleLog operation settled_at_mono now pushed (claimed store operation.id now).outbox) =
        queueOf store.outbox := by
    obtain ⟨error, rfl, hstate, _⟩ := @run_settle_again settled_at_mono now store operation pushed hagain
    unfold settleLog
    rw [queueOf_update hrow rfl, hqueue, hstate]
    exact List.filter_true _
  refine ⟨fun other hother => ?_, fun after hafter => ?_, fun _ after _ _ hafter => ?_, ?_,
    fun hnone => (by cases hnone), fun result hsome hagain => ?_, fun result hsome hdone => ⟨mem_queueOf.mpr ⟨operation, hget, hflushable⟩, ?_⟩⟩
  · rw [hlog, settleLog_others hother, hclaimed, Function.update_of_ne hother]
  · rw [hlog] at hafter
    obtain ⟨hretried, _, hattempts⟩ := settleLog_own hrow hafter
    refine ⟨operation, hget, Retried.trans ⟨_, _, _, _, rfl⟩ hretried, ?_⟩
    rcases hattempts with hsame | hsame | hmore
    · exact .inl hsame
    · exact .inl hsame
    · exact .inr hmore
  · rw [hlog] at hafter
    unfold interruptedSend
    rw [decide_eq_false (settleLog_own hrow hafter).2.1, Bool.and_false]
  · rw [hlog]
    cases hagain : fails_again pushed with
    | false =>
      rw [hleft hagain]
      exact List.filter_sublist
    | true => rw [hkept hagain]
  · obtain rfl := Option.some.inj hsome
    rw [hlog]
    refine ⟨hkept hagain, fun hstops => ?_⟩
    obtain ⟨error, rfl, hstate, hsettle⟩ :=
      @run_settle_again settled_at_mono now (claimed store operation.id now) operation pushed hagain
    rw [hsettle] at hstops
    obtain ⟨after, hfew, hafter, hmore⟩ := @halts_counted settled_at_mono now store operation error hget hflushable
      (by simpa [goesOn] using hstops) hstate
    exact ⟨operation, after, hget, hfew, hafter, hmore⟩
  · obtain rfl := Option.some.inj hsome
    rw [hlog, hleft hdone]
    simp

/-- Every case of one operation: it is passed over, parked, left to a later pass, or done with. -/
theorem flushed (gateway : MailGateway) (id : OperationId) (settled_at_mono : Int) (now : Timestamp)
    (store : DatabaseStore) :
    Flushed id store (final ((flush_operation gateway id settled_at_mono now).run store))
      (goesOn ((flush_operation gateway id settled_at_mono now).run store)) (pushOf gateway id now store) := by
  by_cases hqueued : id ∈ queueOf store.outbox
  · obtain ⟨operation, hget, hflushable⟩ := mem_queueOf.mp hqueued
    cases hinterrupted : interruptedSend operation with
    | true => exact flushed_interrupted hget hflushable hinterrupted
    | false => exact flushed_pushed hget hflushable hinterrupted
  · obtain ⟨hrun, hpush⟩ := @flush_absent gateway id settled_at_mono now store hqueued
    rw [hrun, hpush]
    refine ⟨fun _ _ => rfl, fun operation hget => ⟨operation, hget, Retried.refl _, .inl rfl⟩,
      fun before operation hbefore hwhole hafter => ?_, List.Sublist.refl _, fun _ => .inl ⟨hqueued, rfl, rfl⟩,
      fun _ hsome => (by cases hsome), fun _ hsome => (by cases hsome)⟩
    have hsame : before = operation := Option.some.inj (hbefore.symm.trans hafter)
    rw [← hsame]
    exact hwhole

end Flush

end posthaste.service
