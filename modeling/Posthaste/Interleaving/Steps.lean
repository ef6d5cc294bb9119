import Posthaste.Interleaving.Machine

open serde posthaste.model posthaste.store posthaste.service

namespace posthaste.interleaving

/-- Everything one action can do to the rows, the pass and the events. -/
inductive Move (machine : Machine) : Action → Machine → Prop where
  | quiet {action : Action} {after : Machine} (hrows : after.rows = machine.rows)
      (hflusher : after.flusher.held = none ∨ after.flusher = machine.flusher)
      (hhistory : after.history = machine.history) : Move machine action after
  | enqueued {operation : Operation} {after : Machine} (hnew : machine.isNew operation.id = true)
      (hstate : operation.state = .Pending) (hattempts : operation.attempts = 0)
      (hrows : after.rows =
        Function.update machine.rows operation.id (some ((machine.rows operation.id).getD operation)))
      (hflusher : after.flusher = machine.flusher)
      (hhistory : after.history = .enqueued operation.id :: machine.history) :
      Move machine (.enqueue operation) after
  | discarded {id : OperationId} {stored : Operation} {after : Machine} (hstored : machine.rows id = some stored)
      (hstate : OutboxTable.unlessInflight stored.state = true)
      (hrows : after.rows = Function.update machine.rows id none) (hflusher : after.flusher = machine.flusher)
      (hhistory : after.history = .removed id :: machine.history) : Move machine (.discard id) after
  | swapped {id : OperationId} {payload : Value} {now : Timestamp} {stored : Operation} {after : Machine}
      (hstored : machine.rows id = some stored) (hkind : stored.kind.is_draft_save = true)
      (hstate : stored.state = .Pending)
      (hrows : after.rows = Function.update machine.rows id
        (some { stored with payload, attempts := 0, last_error := none, updated_at := now }))
      (hflusher : after.flusher = machine.flusher)
      (hhistory : after.history = .swapped id payload :: machine.history) :
      Move machine (.swap id payload now) after
  | retried {index : Nat} {now : Timestamp} {call : RetryCall} {after : Machine}
      (hcall : machine.retries[index]? = some call)
      (hrows : after.rows = Function.update machine.rows call.id ((machine.rows call.id).map fun stored =>
        { stored with state := .Pending, attempts := call.attempts, last_error := none, updated_at := now }))
      (hflusher : after.flusher = machine.flusher)
      (hhistory : after.history = .retried call.id :: machine.history) :
      Move machine (.retryWrite index now) after
  | fetched {operation : Operation} {queue : List OperationId} {after : Machine}
      (hstored : machine.rows operation.id = some operation) (hflushable : operation.state.is_flushable = true)
      (hrows : after.rows = machine.rows) (hflusher : after.flusher = .fetched operation queue)
      (hhistory : after.history = machine.history) : Move machine .passRead after
  | parked {now : Timestamp} {operation : Operation} {queue : List OperationId} {after : Machine}
      (hfetched : machine.flusher = .fetched operation queue) (hinterrupted : interruptedSend operation = true)
      (hrows : after.rows =
        Function.update machine.rows operation.id ((machine.rows operation.id).map fun stored =>
          { stored with
            state := .DispatchUncertain, attempts := operation.attempts
            last_error := some "send interrupted mid-flush; delivery uncertain", updated_at := now }))
      (hflusher : after.flusher = .draining queue)
      (hhistory : after.history = machine.history) :
      Move machine (.passPark now) after
  | claimed {now : Timestamp} {operation stored : Operation} {queue : List OperationId} {after : Machine}
      (hfetched : machine.flusher = .fetched operation queue) (hfresh : interruptedSend operation = false)
      (hstored : machine.rows operation.id = some stored) (hflushable : stored.state.is_flushable = true)
      (hrows : after.rows =
        Function.update machine.rows operation.id (some { stored with state := .Inflight, updated_at := now }))
      (hflusher : after.flusher = .claimed operation queue)
      (hhistory : after.history = .claimed operation.id :: machine.history) :
      Move machine (.passClaim now) after
  | handed {operation : Operation} {queue : List OperationId} {after : Machine}
      (hclaimed : machine.flusher = .claimed operation queue) (hrows : after.rows = machine.rows)
      (hflusher : after.flusher = .pushed operation queue)
      (hhistory : after.history =
        if handsOver operation then .handed operation :: machine.history else machine.history) :
      Move machine .passPush after
  | settled {reply : Reply} {settled_at_mono : Int} {now : Timestamp} {operation : Operation}
      {queue : List OperationId} {watermark : Option String} {after : Machine}
      (hpushed : machine.flusher = .pushed operation queue)
      (hsettlement : settlementOf operation reply = some (.settled watermark))
      (hrows : after.rows =
        Function.update machine.rows operation.id ((machine.rows operation.id).map fun stored =>
          { stored with state := .Applied, updated_at := now }))
      (hflusher : after.flusher = .draining queue)
      (hhistory : after.history = .settled operation :: machine.history) :
      Move machine (.passSettle reply settled_at_mono now) after
  | dropped {reply : Reply} {settled_at_mono : Int} {now : Timestamp} {operation : Operation}
      {queue : List OperationId} {after : Machine} (hpushed : machine.flusher = .pushed operation queue)
      (hsettlement : settlementOf operation reply = some .removed)
      (hrows : after.rows = Function.update machine.rows operation.id none)
      (hflusher : after.flusher = .draining queue) (hhistory : after.history = machine.history) :
      Move machine (.passSettle reply settled_at_mono now) after
  | failed {reply : Reply} {settled_at_mono : Int} {now : Timestamp} {operation : Operation}
      {queue : List OperationId} {error : FlushError} {after : Machine}
      (hpushed : machine.flusher = .pushed operation queue)
      (hsettlement : settlementOf operation reply = some (.failure error))
      (hrows : after.rows =
        Function.update machine.rows operation.id ((machine.rows operation.id).map fun stored =>
          { stored with
            state := failureState error.disposition
            attempts := failureAttempts operation error.disposition
            last_error := some error.message, updated_at := now }))
      (hflusher : after.flusher.held = none)
      (hhistory : after.history =
        if error.disposition = .Transient then .transientFailure operation.id :: machine.history
        else machine.history) :
      Move machine (.passSettle reply settled_at_mono now) after

section

variable {machine after : Machine}

private theorem rows_of_lost {rows : OperationId → Option Operation} {id : OperationId}
    {guard : OperationState → Bool} {rewrite : Operation → Operation}
    (hlost : ∀ stored, rows id = some stored → guard stored.state = false) :
    Function.update rows id ((rows id).map fun stored => if guard stored.state then rewrite stored else stored) =
      rows := by
  refine Function.update_eq_self_iff.mpr ?_
  cases hstored : rows id with
  | none => rfl
  | some stored => simp [hlost stored hstored]

private theorem move_discard (id : OperationId) : Move machine (.discard id) (machine.discard id) := by
  have hrows := OutboxTable.get_remove_operation_unless_inflight machine.outbox id
  have hflag : (machine.outbox.remove_operation_unless_inflight id).1 =
    machine.outbox.matchesState id OutboxTable.unlessInflight := rfl
  unfold Machine.discard
  cases hwon : machine.outbox.matchesState id OutboxTable.unlessInflight with
  | true =>
    obtain ⟨stored, hstored, hstate⟩ := (OutboxTable.matchesState_eq_true_iff _ _).mp hwon
    refine .discarded hstored hstate ?_ rfl ?_
    · unfold Machine.rows
      rw [hrows, hstored]
      simp [Option.filter, hstate]
    · simp [hflag, hwon]
  | false =>
    have hlost := (OutboxTable.matchesState_eq_false_iff _ _).mp hwon
    refine .quiet ?_ (.inr rfl) ?_
    · unfold Machine.rows
      rw [hrows]
      refine Function.update_eq_self_iff.mpr ?_
      cases hstored : machine.outbox.get_operation id with
      | none => rfl
      | some stored => simp [Option.filter, hlost stored hstored]
    · simp [hflag, hwon]

private theorem move_swap {id : OperationId} {payload : Value} {now : Timestamp}
    (hstep : machine.swap id payload now = some after) : Move machine (.swap id payload now) after := by
  have hrows := OutboxTable.get_replace_operation_payload machine.outbox id payload now
  have hflag : (machine.outbox.replace_operation_payload id payload now).1 =
    machine.outbox.matchesState id (· == .Pending) := rfl
  unfold Machine.swap at hstep
  split_ifs at hstep with hdraft
  rcases hwrite : machine.outbox.replace_operation_payload id payload now with ⟨replaced, outbox⟩
  rw [hwrite] at hstep hrows hflag
  obtain rfl := Option.some.inj hstep
  simp only at hrows hflag
  cases replaced with
  | true =>
    obtain ⟨stored, hstored, hstate⟩ := (OutboxTable.matchesState_eq_true_iff _ _).mp hflag.symm
    have hkind : stored.kind.is_draft_save = true := by simpa [hstored] using hdraft
    refine .swapped hstored hkind (by simpa using hstate) ?_ rfl rfl
    unfold Machine.rows
    rw [hrows, hstored]
    simp only [Option.map_some, hstate, if_true]
  | false =>
    have hlost := (OutboxTable.matchesState_eq_false_iff _ _).mp hflag.symm
    refine .quiet ?_ (.inr rfl) rfl
    unfold Machine.rows
    rw [hrows]
    exact @rows_of_lost _ id (· == .Pending) _ hlost

private theorem move_enqueue {operation : Operation} (hstep : machine.enqueue operation = some after) :
    Move machine (.enqueue operation) after := by
  unfold Machine.enqueue at hstep
  split_ifs at hstep with hfresh
  obtain rfl := Option.some.inj hstep
  obtain ⟨hnew, hstate, hattempts⟩ := hfresh
  exact .enqueued hnew hstate hattempts (OutboxTable.get_enqueue_operation _ _) rfl rfl

private theorem move_retryRead {id : OperationId} (hstep : machine.retryRead id = some after) :
    Move machine (.retryRead id) after := by
  unfold Machine.retryRead at hstep
  cases hstored : machine.outbox.get_operation id with
  | none => simp [hstored] at hstep
  | some stored =>
    simp only [hstored] at hstep
    split_ifs at hstep with hparked
    obtain rfl := Option.some.inj hstep
    exact .quiet rfl (.inr rfl) rfl

private theorem move_retryWrite {index : Nat} {now : Timestamp} (hstep : machine.retryWrite index now = some after) :
    Move machine (.retryWrite index now) after := by
  unfold Machine.retryWrite at hstep
  cases hcall : machine.retries[index]? with
  | none => simp [hcall] at hstep
  | some call =>
    simp only [hcall] at hstep
    obtain rfl := Option.some.inj hstep
    exact .retried hcall (OutboxTable.get_update_operation_state _ _ _ _ _ _) rfl rfl

private theorem move_passBegin {wall_now : String} {mono_now : Int}
    (hstep : machine.passBegin wall_now mono_now = some after) :
    Move machine (.passBegin wall_now mono_now) after := by
  unfold Machine.passBegin at hstep
  cases hflusher : machine.flusher with
  | idle =>
    simp only [hflusher] at hstep
    obtain rfl := Option.some.inj hstep
    exact .quiet rfl (.inl rfl) rfl
  | draining | fetched | claimed | pushed => simp [hflusher] at hstep

private theorem move_passRead (hstep : machine.passRead = some after) : Move machine .passRead after := by
  unfold Machine.passRead at hstep
  cases hflusher : machine.flusher with
  | idle | fetched | claimed | pushed => simp [hflusher] at hstep
  | draining queue =>
    cases queue with
    | nil =>
      simp only [hflusher] at hstep
      obtain rfl := Option.some.inj hstep
      exact .quiet rfl (.inl rfl) rfl
    | cons id queue =>
      cases hstored : machine.outbox.get_operation id with
      | none =>
        simp only [hflusher, hstored] at hstep
        obtain rfl := Option.some.inj hstep
        exact .quiet rfl (.inl rfl) rfl
      | some operation =>
        simp only [hflusher, hstored] at hstep
        have hid : operation.id = id := OutboxTable.id_of_get hstored
        split_ifs at hstep with hflushable
        · obtain rfl := Option.some.inj hstep
          exact .fetched (by rw [hid]; exact hstored) hflushable rfl rfl rfl
        · obtain rfl := Option.some.inj hstep
          exact .quiet rfl (.inl rfl) rfl

private theorem move_passPark {now : Timestamp} (hstep : machine.passPark now = some after) :
    Move machine (.passPark now) after := by
  unfold Machine.passPark at hstep
  cases hflusher : machine.flusher with
  | idle | draining | claimed | pushed => simp [hflusher] at hstep
  | fetched operation queue =>
    simp only [hflusher] at hstep
    split_ifs at hstep with hinterrupted
    obtain rfl := Option.some.inj hstep
    exact .parked hflusher hinterrupted (OutboxTable.get_update_operation_state _ _ _ _ _ _) rfl rfl

private theorem move_passClaim {now : Timestamp} (hstep : machine.passClaim now = some after) :
    Move machine (.passClaim now) after := by
  unfold Machine.passClaim at hstep
  cases hflusher : machine.flusher with
  | idle | draining | claimed | pushed => simp [hflusher] at hstep
  | fetched operation queue =>
    have hrows := OutboxTable.get_claim_operation_for_flush machine.outbox operation.id now
    have hflag : (machine.outbox.claim_operation_for_flush operation.id now).1 =
      machine.outbox.matchesState operation.id OperationState.is_flushable := rfl
    simp only [hflusher] at hstep
    split_ifs at hstep with hinterrupted hwon
    · obtain rfl := Option.some.inj hstep
      rw [hflag] at hwon
      obtain ⟨stored, hstored, hflushable⟩ := (OutboxTable.matchesState_eq_true_iff _ _).mp hwon
      refine .claimed hflusher (by simpa using hinterrupted) hstored hflushable ?_ rfl rfl
      unfold Machine.rows
      rw [hrows, hstored]
      simp only [Option.map_some, hflushable, if_true]
    · obtain rfl := Option.some.inj hstep
      rw [hflag, Bool.not_eq_true] at hwon
      have hlost := (OutboxTable.matchesState_eq_false_iff _ _).mp hwon
      refine .quiet ?_ (.inl rfl) rfl
      unfold Machine.rows
      rw [hrows]
      exact rows_of_lost hlost

private theorem move_passPush (hstep : machine.passPush = some after) : Move machine .passPush after := by
  unfold Machine.passPush at hstep
  cases hflusher : machine.flusher with
  | idle | draining | fetched | pushed => simp [hflusher] at hstep
  | claimed operation queue =>
    simp only [hflusher] at hstep
    obtain rfl := Option.some.inj hstep
    exact .handed hflusher rfl rfl rfl

private theorem move_passSettle {reply : Reply} {settled_at_mono : Int} {now : Timestamp}
    (hstep : machine.passSettle reply settled_at_mono now = some after) :
    Move machine (.passSettle reply settled_at_mono now) after := by
  unfold Machine.passSettle at hstep
  cases hflusher : machine.flusher with
  | idle | draining | fetched | claimed => simp [hflusher] at hstep
  | pushed operation queue =>
    simp only [hflusher] at hstep
    cases hsettlement : settlementOf operation reply with
    | none => simp [hsettlement] at hstep
    | some settlement =>
      cases settlement with
      | settled watermark =>
        simp only [hsettlement] at hstep
        obtain rfl := Option.some.inj hstep
        exact .settled hflusher hsettlement (OutboxTable.get_mark_operation_settled _ _ _ _ _) rfl rfl
      | removed =>
        simp only [hsettlement] at hstep
        obtain rfl := Option.some.inj hstep
        exact .dropped hflusher hsettlement (OutboxTable.get_remove_operation _ _) rfl rfl
      | failure error =>
        simp only [hsettlement] at hstep
        obtain rfl := Option.some.inj hstep
        refine .failed hflusher hsettlement (OutboxTable.get_update_operation_state _ _ _ _ _ _) ?_ rfl
        show (if stopsDrain operation error.disposition then Flusher.idle else .draining queue).held = none
        split_ifs <;> rfl

/-- Every step is one of the moves. -/
theorem move_of_step {action : Action} (hstep : machine.step action = some after) : Move machine action after := by
  cases action with
  | enqueue operation => exact move_enqueue hstep
  | discard id =>
    obtain rfl := Option.some.inj hstep
    exact move_discard id
  | swap id payload now => exact move_swap hstep
  | retryRead id => exact move_retryRead hstep
  | retryWrite index now => exact move_retryWrite hstep
  | passBegin wall_now mono_now => exact move_passBegin hstep
  | passRead => exact move_passRead hstep
  | passPark now => exact move_passPark hstep
  | passClaim now => exact move_passClaim hstep
  | passPush => exact move_passPush hstep
  | passSettle reply settled_at_mono now => exact move_passSettle hstep
  | abandon | restart =>
    obtain rfl := Option.some.inj hstep
    exact .quiet rfl (.inl rfl) rfl

/-- The fields of a stored operation that no statement rewrites. -/
structure SameRequest (first second : Operation) : Prop where
  kind : first.kind = second.kind
  send_at : first.send_at = second.send_at
  hold_until_mono : first.hold_until_mono = second.hold_until_mono

theorem SameRequest.refl (operation : Operation) : SameRequest operation operation := ⟨rfl, rfl, rfl⟩

theorem isNew_eq_true_iff {id : OperationId} : machine.isNew id = true ↔ .enqueued id ∉ machine.history := by
  unfold Machine.isNew
  rw [List.all_eq_true]
  constructor
  · intro hall hmem
    simpa using hall _ hmem
  · intro hnot event hevent
    cases event with
    | enqueued other =>
      have hother : other ≠ id := by
        rintro rfl
        exact hnot hevent
      simpa using hother
    | _ => rfl

theorem id_of_rows {id : OperationId} {stored : Operation} (hstored : machine.rows id = some stored) :
    stored.id = id :=
  OutboxTable.id_of_get hstored

variable {action : Action}

/-- A move only adds events. -/
theorem Move.history_suffix (hmove : Move machine action after) : machine.history <:+ after.history := by
  cases hmove with
  | quiet hrows hflusher hhistory => exact hhistory ▸ List.suffix_rfl
  | fetched hstored hflushable hrows hflusher hhistory => exact hhistory ▸ List.suffix_rfl
  | dropped hpushed hsettlement hrows hflusher hhistory => exact hhistory ▸ List.suffix_rfl
  | enqueued hnew hstate hattempts hrows hflusher hhistory =>
    rw [hhistory]
    exact List.suffix_cons _ _
  | discarded hstored hstate hrows hflusher hhistory =>
    rw [hhistory]
    exact List.suffix_cons _ _
  | swapped hstored hkind hstate hrows hflusher hhistory =>
    rw [hhistory]
    exact List.suffix_cons _ _
  | retried hcall hrows hflusher hhistory =>
    rw [hhistory]
    exact List.suffix_cons _ _
  | parked hfetched hinterrupted hrows hflusher hhistory => exact hhistory ▸ List.suffix_rfl
  | claimed hfetched hfresh hstored hflushable hrows hflusher hhistory =>
    rw [hhistory]
    exact List.suffix_cons _ _
  | handed hclaimed hrows hflusher hhistory =>
    rw [hhistory]
    split_ifs
    · exact List.suffix_cons _ _
    · exact List.suffix_rfl
  | settled hpushed hsettlement hrows hflusher hhistory =>
    rw [hhistory]
    exact List.suffix_cons _ _
  | failed hpushed hsettlement hrows hflusher hhistory =>
    rw [hhistory]
    split_ifs
    · exact List.suffix_cons _ _
    · exact List.suffix_rfl

theorem Move.mem_history (hmove : Move machine action after) {event : Event} (hevent : event ∈ machine.history) :
    event ∈ after.history :=
  hmove.history_suffix.subset hevent

theorem stored_of_map {rows written : OperationId → Option Operation} {target id : OperationId}
    {rewrite : Operation → Operation} {keeps : Operation → Operation → Prop}
    (hwritten : written = Function.update rows target ((rows target).map rewrite)) {operation : Operation}
    (hstored : written id = some operation) (hrefl : ∀ operation, keeps operation operation)
    (hrewrite : ∀ operation, keeps operation (rewrite operation)) :
    ∃ stored, rows id = some stored ∧ keeps stored operation := by
  rw [hwritten] at hstored
  by_cases hid : id = target
  · subst hid
    rw [Function.update_self] at hstored
    obtain ⟨stored, hbefore, rfl⟩ := Option.map_eq_some_iff.mp hstored
    exact ⟨stored, hbefore, hrewrite stored⟩
  · rw [Function.update_of_ne hid] at hstored
    exact ⟨operation, hstored, hrefl operation⟩

theorem stored_of_remove {rows written : OperationId → Option Operation} {target id : OperationId}
    (hwritten : written = Function.update rows target none) {operation : Operation}
    (hstored : written id = some operation) : rows id = some operation := by
  rw [hwritten] at hstored
  by_cases hid : id = target
  · subst hid
    rw [Function.update_self] at hstored
    cases hstored
  · rwa [Function.update_of_ne hid] at hstored

/-- A stored operation was stored before with the same request, or it was just queued. -/
theorem Move.stored_kept (hmove : Move machine action after) {id : OperationId} {written : Operation}
    (hwritten : after.rows id = some written) :
    (∃ stored, machine.rows id = some stored ∧ SameRequest stored written) ∨
      machine.rows id = none ∧ machine.isNew id = true ∧ .enqueued id ∈ after.history ∧ written.state = .Pending := by
  cases hmove with
  | quiet hrows hflusher hhistory =>
    rw [hrows] at hwritten
    exact .inl ⟨written, hwritten, .refl written⟩
  | fetched hstored hflushable hrows hflusher hhistory =>
    rw [hrows] at hwritten
    exact .inl ⟨written, hwritten, .refl written⟩
  | handed hclaimed hrows hflusher hhistory =>
    rw [hrows] at hwritten
    exact .inl ⟨written, hwritten, .refl written⟩
  | discarded hstored hstate hrows hflusher hhistory =>
    exact .inl ⟨written, stored_of_remove hrows hwritten, .refl written⟩
  | dropped hpushed hsettlement hrows hflusher hhistory =>
    exact .inl ⟨written, stored_of_remove hrows hwritten, .refl written⟩
  | retried hcall hrows hflusher hhistory => exact .inl (stored_of_map hrows hwritten .refl fun _ => ⟨rfl, rfl, rfl⟩)
  | parked hfetched hinterrupted hrows hflusher hhistory =>
    exact .inl (stored_of_map hrows hwritten .refl fun _ => ⟨rfl, rfl, rfl⟩)
  | settled hpushed hsettlement hrows hflusher hhistory =>
    exact .inl (stored_of_map hrows hwritten .refl fun _ => ⟨rfl, rfl, rfl⟩)
  | failed hpushed hsettlement hrows hflusher hhistory =>
    exact .inl (stored_of_map hrows hwritten .refl fun _ => ⟨rfl, rfl, rfl⟩)
  | @swapped target payload now stored _ hstored hkind hstate hrows hflusher hhistory =>
    have hmap : after.rows = Function.update machine.rows target ((machine.rows target).map fun stored =>
        { stored with payload, attempts := 0, last_error := none, updated_at := now }) := by
      rw [hrows, hstored]
      rfl
    exact .inl (stored_of_map hmap hwritten .refl fun _ => ⟨rfl, rfl, rfl⟩)
  | @claimed now operation stored queue _ hfetched hfresh hstored hflushable hrows hflusher hhistory =>
    have hmap : after.rows = Function.update machine.rows operation.id ((machine.rows operation.id).map fun stored =>
        { stored with state := .Inflight, updated_at := now }) := by
      rw [hrows, hstored]
      rfl
    exact .inl (stored_of_map hmap hwritten .refl fun _ => ⟨rfl, rfl, rfl⟩)
  | @enqueued operation _ hnew hstate hattempts hrows hflusher hhistory =>
    rw [hrows] at hwritten
    by_cases hid : id = operation.id
    · subst hid
      rw [Function.update_self] at hwritten
      cases hbefore : machine.rows operation.id with
      | some stored =>
        rw [hbefore] at hwritten
        cases hwritten
        exact .inl ⟨_, rfl, .refl _⟩
      | none =>
        rw [hbefore] at hwritten
        cases hwritten
        refine .inr ⟨rfl, hnew, ?_, hstate⟩
        rw [hhistory]
        exact List.mem_cons_self
    · rw [Function.update_of_ne hid] at hwritten
      exact .inl ⟨written, hwritten, .refl written⟩

/-- What the pass holds it held before, or has just read from its row. -/
theorem Move.held_kept (hmove : Move machine action after) {operation : Operation}
    (hheld : after.flusher.held = some operation) :
    machine.flusher.held = some operation ∨ machine.rows operation.id = some operation := by
  cases hmove with
  | quiet hrows hflusher hhistory =>
    rcases hflusher with hnone | hsame
    · rw [hnone] at hheld
      cases hheld
    · rw [hsame] at hheld
      exact .inl hheld
  | enqueued hnew hstate hattempts hrows hflusher hhistory =>
    rw [hflusher] at hheld
    exact .inl hheld
  | discarded hstored hstate hrows hflusher hhistory =>
    rw [hflusher] at hheld
    exact .inl hheld
  | swapped hstored hkind hstate hrows hflusher hhistory =>
    rw [hflusher] at hheld
    exact .inl hheld
  | retried hcall hrows hflusher hhistory =>
    rw [hflusher] at hheld
    exact .inl hheld
  | fetched hstored hflushable hrows hflusher hhistory =>
    rw [hflusher] at hheld
    cases hheld
    exact .inr hstored
  | claimed hfetched hfresh hstored hflushable hrows hflusher hhistory =>
    rw [hflusher] at hheld
    cases hheld
    rw [hfetched]
    exact .inl rfl
  | handed hclaimed hrows hflusher hhistory =>
    rw [hflusher] at hheld
    cases hheld
    rw [hclaimed]
    exact .inl rfl
  | parked hfetched hinterrupted hrows hflusher hhistory =>
    rw [hflusher] at hheld
    cases hheld
  | settled hpushed hsettlement hrows hflusher hhistory =>
    rw [hflusher] at hheld
    cases hheld
  | dropped hpushed hsettlement hrows hflusher hhistory =>
    rw [hflusher] at hheld
    cases hheld
  | failed hpushed hsettlement hrows hflusher hhistory =>
    rw [hflusher] at hheld
    cases hheld

/-- A removal is either old or the discard of a row that was not inflight. -/
theorem Move.removed_kept (hmove : Move machine action after) {id : OperationId}
    (hremoved : .removed id ∈ after.history) :
    .removed id ∈ machine.history ∨
      ∃ stored, machine.rows id = some stored ∧ OutboxTable.unlessInflight stored.state = true ∧
        after.rows id = none ∧ after.flusher = machine.flusher := by
  cases hmove with
  | quiet hrows hflusher hhistory => exact .inl (hhistory ▸ hremoved)
  | fetched hstored hflushable hrows hflusher hhistory => exact .inl (hhistory ▸ hremoved)
  | parked hfetched hinterrupted hrows hflusher hhistory => exact .inl (hhistory ▸ hremoved)
  | dropped hpushed hsettlement hrows hflusher hhistory => exact .inl (hhistory ▸ hremoved)
  | enqueued _ _ _ _ _ hhistory | swapped _ _ _ _ _ hhistory | retried _ _ _ hhistory
    | claimed _ _ _ _ _ _ hhistory | settled _ _ _ _ hhistory =>
    rw [hhistory] at hremoved
    exact .inl (List.mem_of_ne_of_mem (by simp) hremoved)
  | handed _ _ _ hhistory | failed _ _ _ _ hhistory =>
    rw [hhistory] at hremoved
    split_ifs at hremoved
    · exact .inl (List.mem_of_ne_of_mem (by simp) hremoved)
    · exact .inl hremoved
  | @discarded target stored _ hstored hstate hrows hflusher hhistory =>
    rw [hhistory] at hremoved
    rcases List.mem_cons.mp hremoved with heq | hbefore
    · cases heq
      exact .inr ⟨stored, hstored, hstate, by rw [hrows, Function.update_self], hflusher⟩
    · exact .inl hbefore

/-- What the pass has claimed it had claimed before, or the row was there to claim. -/
theorem Move.claimed_kept (hmove : Move machine action after) {operation : Operation} {queue : List OperationId}
    (hclaimed : after.flusher = .claimed operation queue) :
    machine.flusher = .claimed operation queue ∨ ∃ stored, machine.rows operation.id = some stored := by
  cases hmove with
  | quiet hrows hflusher hhistory =>
    rcases hflusher with hnone | hsame
    · rw [hclaimed] at hnone
      cases hnone
    · exact .inl (hsame ▸ hclaimed)
  | enqueued _ _ _ _ hflusher | swapped _ _ _ _ hflusher | discarded _ _ _ hflusher | retried _ _ hflusher =>
    exact .inl (hflusher ▸ hclaimed)
  | claimed hfetched hfresh hstored hflushable hrows hflusher hhistory =>
    rw [hflusher] at hclaimed
    cases hclaimed
    exact .inr ⟨_, hstored⟩
  | fetched _ _ _ hflusher | handed _ _ hflusher | parked _ _ _ hflusher | settled _ _ _ hflusher
    | dropped _ _ _ hflusher =>
    rw [hclaimed] at hflusher
    cases hflusher
  | failed _ _ _ hflusher =>
    rw [hclaimed] at hflusher
    cases hflusher

/-- A push failure of a send that leaves it pending is a transient one. -/
theorem transient_of_send_requeued {operation : Operation} {reply : Reply} {error : FlushError}
    (hkind : operation.kind = .Send) (hsettlement : settlementOf operation reply = some (.failure error))
    (hpending : failureState error.disposition = .Pending) : error.disposition = .Transient := by
  have hdefer : error.disposition ≠ .Defer := by
    unfold settlementOf at hsettlement
    cases hintent : operation.intent with
    | error message =>
      simp only [hintent, Option.some.injEq, Settlement.failure.injEq] at hsettlement
      subst hsettlement
      simp [FlushError.permanent]
    | ok intent =>
      have hsame := MailIntent.kind_of_from_parts hintent
      rw [hkind] at hsame
      cases intent with
      | Send request =>
        cases reply with
        | failed failure =>
          simp only [hintent, Option.some.injEq, Settlement.failure.injEq] at hsettlement
          subst hsettlement
          exact classify_gateway_error_ne_defer failure
        | accepted | readback | noop | deferred => simp [hintent] at hsettlement
      | SaveDraft create request => cases create <;> cases hsame
      | SetKeywords | ReplaceMailboxes | Destroy | DiscardDraft => cases hsame
  cases hdisposition : error.disposition with
  | Transient => rfl
  | Defer => exact absurd hdisposition hdefer
  | Permanent | Uncertain =>
    rw [hdisposition] at hpending
    cases hpending

/-- What every run keeps: operations come from the queue, and the pass holds the stored kind. -/
structure Traced (machine : Machine) : Prop where
  stored_enqueued {id : OperationId} {stored : Operation} :
    machine.rows id = some stored → .enqueued id ∈ machine.history
  held_enqueued {operation : Operation} :
    machine.flusher.held = some operation → .enqueued operation.id ∈ machine.history
  removed_enqueued {id : OperationId} : .removed id ∈ machine.history → .enqueued id ∈ machine.history
  held_request {operation stored : Operation} :
    machine.flusher.held = some operation → machine.rows operation.id = some stored → SameRequest operation stored

theorem Traced.initial : Traced Machine.initial where
  stored_enqueued hstored := by cases hstored
  held_enqueued hheld := by cases hheld
  removed_enqueued hremoved := by cases hremoved
  held_request hheld := by cases hheld

theorem Traced.move (htraced : Traced machine) (hmove : Move machine action after) : Traced after where
  stored_enqueued {id stored} hstored := by
    rcases hmove.stored_kept hstored with ⟨before, hbefore, _⟩ | ⟨_, _, henqueued, _⟩
    · exact hmove.mem_history (htraced.stored_enqueued hbefore)
    · exact henqueued
  held_enqueued {operation} hheld := by
    rcases hmove.held_kept hheld with hbefore | hstored
    · exact hmove.mem_history (htraced.held_enqueued hbefore)
    · exact hmove.mem_history (htraced.stored_enqueued hstored)
  removed_enqueued {id} hremoved := by
    rcases hmove.removed_kept hremoved with hbefore | ⟨stored, hstored, _⟩
    · exact hmove.mem_history (htraced.removed_enqueued hbefore)
    · exact hmove.mem_history (htraced.stored_enqueued hstored)
  held_request {operation stored} hheld hstored := by
    rcases hmove.stored_kept hstored with ⟨before, hbefore, hsame⟩ | ⟨_, hnew, _, _⟩
    · have hrequest : SameRequest operation before := by
        rcases hmove.held_kept hheld with hheldBefore | hread
        · exact htraced.held_request hheldBefore hbefore
        · rw [hread] at hbefore
          cases hbefore
          exact .refl _
      exact ⟨hrequest.kind.trans hsame.kind, hrequest.send_at.trans hsame.send_at,
        hrequest.hold_until_mono.trans hsame.hold_until_mono⟩
    · have henqueued : .enqueued operation.id ∈ machine.history := by
        rcases hmove.held_kept hheld with hheldBefore | hread
        · exact htraced.held_enqueued hheldBefore
        · exact htraced.stored_enqueued hread
      exact absurd henqueued (isNew_eq_true_iff.mp hnew)

theorem traced_of_reachable {guard : Machine → Action → Prop} (hreach : flushSystem.Reachable guard machine) :
    Traced machine := by
  refine hreach.invariant ?_ ?_
  · rintro _ rfl
    exact .initial
  · intro before action after hbefore _ hstep
    exact hbefore.move (move_of_step hstep)

/-- An invariant of the machine only has to start and survive every guarded move. -/
theorem invariant_of_move {guard : Machine → Action → Prop} {property : Machine → Prop}
    (hinitial : property Machine.initial)
    (hmoves : ∀ machine action after, Traced machine → property machine → guard machine action →
      Move machine action after → property after)
    (hreach : flushSystem.Reachable guard machine) : property machine := by
  refine hreach.invariant_of (fun _ => traced_of_reachable) ?_ ?_
  · rintro _ rfl
    exact hinitial
  · intro before action after hbefore hholds hguard hstep
    exact hmoves before action after hbefore hholds hguard (move_of_step hstep)

end

/-- Where a list of actions leads from the start, with its guard checked at each step. -/
def Machine.ran (guard : Machine → Action → Bool) (actions : List Action) : Machine :=
  (TransitionSystem.runActions Machine.step guard .initial actions).getD .initial

private theorem runActions_ran {guard : Machine → Action → Bool} {actions : List Action}
    (hruns : (TransitionSystem.runActions Machine.step guard .initial actions).isSome = true) :
    TransitionSystem.runActions Machine.step guard .initial actions = some (Machine.ran guard actions) := by
  obtain ⟨machine, hrun⟩ := Option.isSome_iff_exists.mp hruns
  unfold Machine.ran
  rw [hrun]
  rfl

theorem reachable_ran {guard : Machine → Action → Bool} {actions : List Action}
    (hruns : (TransitionSystem.runActions Machine.step guard .initial actions).isSome = true) :
    flushSystem.Reachable (fun machine action => guard machine action = true) (Machine.ran guard actions) :=
  TransitionSystem.reachable_of_runActions (fun _ _ hcheck => hcheck) (.start rfl) (runActions_ran hruns)

theorem step_ran {guard : Machine → Action → Bool} {actions : List Action} {action : Action}
    (hruns : (TransitionSystem.runActions Machine.step guard .initial (actions ++ [action])).isSome = true) :
    flushSystem.step (Machine.ran guard actions) action (Machine.ran guard (actions ++ [action])) := by
  have hrun := runActions_ran hruns
  rw [TransitionSystem.runActions_append] at hrun
  obtain ⟨machine, hfirst, hlast⟩ := Option.bind_eq_some_iff.mp hrun
  have hran : Machine.ran guard actions = machine := by
    unfold Machine.ran
    rw [hfirst]
    rfl
  unfold TransitionSystem.runActions at hlast
  split_ifs at hlast
  obtain ⟨after, hstep, hend⟩ := Option.bind_eq_some_iff.mp hlast
  cases hend
  rw [hran]
  exact hstep

end posthaste.interleaving
