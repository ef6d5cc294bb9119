import Posthaste.Interleaving.Steps
import Posthaste.Service.Replay

open serde posthaste.model posthaste.store posthaste.service

namespace posthaste.interleaving

/-- A send with an undo hold or a send time. -/
def isScheduledSend (operation : Operation) : Bool :=
  operation.kind = .Send && (operation.send_at.isSome || operation.hold_until_mono.isSome)

/-- Whether making the row pending with this attempt count gives a scheduled send its held form. -/
def Machine.rearmsHeld (machine : Machine) (id : OperationId) (attempts : UInt32) : Bool :=
  attempts == 0 && (machine.rows id).any isScheduledSend

/-- No write re-arms a scheduled send with an attempt counter of zero: a retry's counter
    was read above zero, and a failure does not wrap it around. -/
def countsAttempts (machine : Machine) : Action → Bool
  | .retryWrite index _ => machine.retries[index]?.all fun call => !machine.rearmsHeld call.id call.attempts
  | .passSettle _ _ _ =>
    match machine.flusher with
    | .pushed operation _ => !machine.rearmsHeld operation.id (operation.attempts + 1)
    | _ => true
  | _ => true

/-- A claimed send is not held, whatever happened to it since. -/
structure Dispatched (machine : Machine) : Prop where
  enqueued {id : OperationId} : .claimed id ∈ machine.history → .enqueued id ∈ machine.history
  released {id : OperationId} {stored : Operation} :
    .claimed id ∈ machine.history → machine.rows id = some stored → stored.kind = .Send →
      send_is_held stored = false

section

variable {machine after : Machine} {action : Action} {id : OperationId}

theorem send_is_held_of_ne_pending {operation : Operation} (hstate : operation.state ≠ .Pending) :
    send_is_held operation = false := by
  simp [send_is_held, hstate]

/-- Re-arming keeps a send released when it leaves a positive counter or has no schedule. -/
private theorem released_of_rearm {stored written : Operation} {attempts : UInt32}
    (hstored : machine.rows id = some stored) (hrequest : SameRequest stored written)
    (hattempts : written.attempts = attempts) (hkind : written.kind = .Send)
    (hrearm : machine.rearmsHeld id attempts = false) : send_is_held written = false := by
  have hsend : stored.kind = .Send := hrequest.kind.trans hkind
  simp only [Machine.rearmsHeld, hstored, Option.any_some, isScheduledSend, hsend, decide_true, Bool.true_and,
    hrequest.send_at, hrequest.hold_until_mono] at hrearm
  unfold send_is_held
  rw [hattempts, Bool.and_assoc, hrearm, Bool.and_false]

/-- A claim is either old or the one this move makes on a stored row. -/
private theorem Move.claim_kept (hmove : Move machine action after) (hclaimed : .claimed id ∈ after.history) :
    .claimed id ∈ machine.history ∨
      (∃ stored, machine.rows id = some stored) ∧ ∀ stored, after.rows id = some stored → stored.state = .Inflight := by
  cases hmove with
  | quiet _ _ hhistory | fetched _ _ _ _ hhistory | parked _ _ _ _ hhistory | dropped _ _ _ _ hhistory =>
    exact .inl (hhistory ▸ hclaimed)
  | enqueued _ _ _ _ _ hhistory | discarded _ _ _ _ hhistory | retried _ _ _ hhistory
    | swapped _ _ _ _ _ hhistory | settled _ _ _ _ hhistory =>
    rw [hhistory] at hclaimed
    exact .inl (List.mem_of_ne_of_mem (by simp) hclaimed)
  | handed _ _ _ hhistory | failed _ _ _ _ hhistory =>
    rw [hhistory] at hclaimed
    split_ifs at hclaimed
    · exact .inl (List.mem_of_ne_of_mem (by simp) hclaimed)
    · exact .inl hclaimed
  | @claimed now operation stored queue _ hfetched hfresh hstored hflushable hrows hflusher hhistory =>
    rw [hhistory] at hclaimed
    rcases List.mem_cons.mp hclaimed with heq | hbefore
    · cases heq
      refine .inr ⟨⟨stored, hstored⟩, ?_⟩
      intro written hwritten
      rw [hrows, Function.update_self] at hwritten
      cases hwritten
      rfl
    · exact .inl hbefore

private theorem Dispatched.released_move (htraced : Traced machine) (hdispatched : Dispatched machine)
    (hguard : countsAttempts machine action = true) (hmove : Move machine action after) {written : Operation}
    (hbefore : .claimed id ∈ machine.history) (hwritten : after.rows id = some written)
    (hkind : written.kind = .Send) : send_is_held written = false := by
  have hsame : machine.rows id = some written → send_is_held written = false :=
    fun hstored => hdispatched.released hbefore hstored hkind
  have hwrite : ∀ {target : OperationId} {rewrite : Operation → Operation},
      after.rows = Function.update machine.rows target ((machine.rows target).map rewrite) →
      (∀ stored, target = id → machine.rows id = some stored → written = rewrite stored →
        send_is_held written = false) → send_is_held written = false := by
    intro target rewrite hrows hrewritten
    rw [hrows] at hwritten
    by_cases hid : id = target
    · subst hid
      rw [Function.update_self] at hwritten
      obtain ⟨stored, hstored, hchanged⟩ := Option.map_eq_some_iff.mp hwritten
      exact hrewritten stored rfl hstored hchanged.symm
    · rw [Function.update_of_ne hid] at hwritten
      exact hsame hwritten
  cases hmove with
  | quiet hrows | fetched _ _ hrows | handed _ hrows => exact hsame (hrows ▸ hwritten)
  | discarded _ _ hrows | dropped _ _ hrows => exact hsame (stored_of_remove hrows hwritten)
  | @enqueued operation _ hnew hstate hattempts hrows hflusher hhistory =>
    rw [hrows] at hwritten
    have hne : id ≠ operation.id := by
      rintro rfl
      exact isNew_eq_true_iff.mp hnew (hdispatched.enqueued hbefore)
    rw [Function.update_of_ne hne] at hwritten
    exact hsame hwritten
  | @swapped target payload now stored _ hstored hdraft hstate hrows hflusher hhistory =>
    rw [hrows] at hwritten
    by_cases hid : id = target
    · rw [hid, Function.update_self] at hwritten
      cases hwritten
      have hsend : stored.kind = .Send := hkind
      rw [hsend] at hdraft
      cases hdraft
    · rw [Function.update_of_ne hid] at hwritten
      exact hsame hwritten
  | @claimed now operation stored queue _ hfetched hfresh hstored hflushable hrows hflusher hhistory =>
    rw [hrows] at hwritten
    by_cases hid : id = operation.id
    · rw [hid, Function.update_self] at hwritten
      cases hwritten
      exact send_is_held_of_ne_pending (by simp)
    · rw [Function.update_of_ne hid] at hwritten
      exact hsame hwritten
  | parked _ _ hrows =>
    refine hwrite hrows ?_
    rintro stored _ _ rfl
    exact send_is_held_of_ne_pending (by simp)
  | settled _ _ hrows =>
    refine hwrite hrows ?_
    rintro stored _ _ rfl
    exact send_is_held_of_ne_pending (by simp)
  | @retried index now call _ hcall hrows hflusher hhistory =>
    refine hwrite hrows ?_
    rintro stored rfl hstored rfl
    have hrearm : machine.rearmsHeld call.id call.attempts = false := by simpa [countsAttempts, hcall] using hguard
    exact released_of_rearm hstored ⟨rfl, rfl, rfl⟩ rfl hkind hrearm
  | @failed reply settled_at_mono now operation queue error _ hpushed hsettlement hrows hflusher hhistory =>
    refine hwrite hrows ?_
    rintro stored rfl hstored rfl
    by_cases hpending : failureState error.disposition = .Pending
    · -- Only a transient failure leaves a send pending, and it counts the attempt.
      have hheld : machine.flusher.held = some operation := by rw [hpushed]; rfl
      have hsend : operation.kind = .Send := (htraced.held_request hheld hstored).kind.trans hkind
      have htransient := transient_of_send_requeued hsend hsettlement hpending
      have hrearm : machine.rearmsHeld operation.id (operation.attempts + 1) = false := by
        simpa [countsAttempts, hpushed] using hguard
      refine released_of_rearm hstored ⟨rfl, rfl, rfl⟩ ?_ hkind hrearm
      rw [htransient]
      rfl
    · exact send_is_held_of_ne_pending hpending

theorem dispatched_of_reachable
    (hreach : flushSystem.Reachable (fun machine action => countsAttempts machine action = true) machine) :
    Dispatched machine := by
  refine invariant_of_move ?_ ?_ hreach
  · refine { enqueued := ?_, released := ?_ }
    · intro id hclaimed
      cases hclaimed
    · intro id stored hclaimed
      cases hclaimed
  · intro before action after htraced hdispatched hguard hmove
    refine { enqueued := ?_, released := ?_ }
    · intro id hclaimed
      rcases hmove.claim_kept hclaimed with hbefore | ⟨⟨stored, hstored⟩, _⟩
      · exact hmove.mem_history (hdispatched.enqueued hbefore)
      · exact hmove.mem_history (htraced.stored_enqueued hstored)
    · intro id stored hclaimed hstored hkind
      rcases hmove.claim_kept hclaimed with hbefore | ⟨_, hinflight⟩
      · exact hdispatched.released_move htraced hguard hmove hbefore hstored hkind
      · exact send_is_held_of_ne_pending (by simp [hinflight stored hstored])

/-- As long as no write re-arms a scheduled send with a zero attempt counter, a send that
    was claimed once is never held again. -/
theorem claimed_send_is_never_held
    (hreach : flushSystem.Reachable (fun machine action => countsAttempts machine action = true) machine)
    {stored : Operation} (hclaimed : .claimed id ∈ machine.history) (hstored : machine.rows id = some stored)
    (hkind : stored.kind = .Send) : send_is_held stored = false :=
  (dispatched_of_reachable hreach).released hclaimed hstored hkind

end

/-- A queued send with an undo window. -/
def undoableSend : Operation :=
  newOperation "o1" ⟨.Message, "m1"⟩ .Send (to_value (default : SendMessageRequest)) none (some 10)
    "2026-01-01T00:00:00Z"

/-- The window runs out, the send is claimed, the pass is cut off, the next pass parks
    the send and the user retries it. -/
def retriedAfterCrash : List Action :=
  [.enqueue undoableSend, .passBegin "2026-01-01T00:00:00Z" 20, .passRead, .passClaim "2026-01-01T00:00:00Z",
    .abandon, .passBegin "2026-01-01T00:00:00Z" 20, .passRead, .passPark "2026-01-01T00:00:00Z",
    .retryRead "o1", .retryWrite 0 "2026-01-01T00:00:00Z"]

theorem claimed_send_is_never_held_afterPark :
    ∃ machine stored, flushSystem.Reachable (fun machine action => countsAttempts machine action = true) machine ∧
      .claimed "o1" ∈ machine.history ∧ machine.rows "o1" = some stored ∧ stored.kind = .Send ∧
      send_is_held stored = false := by
  have hreach := @reachable_ran countsAttempts (retriedAfterCrash.take 8) rfl
  have hclaimed : Event.claimed "o1" ∈ (Machine.ran countsAttempts (retriedAfterCrash.take 8)).history :=
    List.mem_cons_self
  exact ⟨_, _, hreach, hclaimed, rfl, rfl, @claimed_send_is_never_held _ "o1" hreach _ hclaimed rfl rfl⟩

/-- The parked send kept its zero counter, so the retry gives it back its held form. -/
theorem retried_send_is_held_again :
    ∃ machine stored, flushSystem.Reachable TransitionSystem.unguarded machine ∧
      .claimed "o1" ∈ machine.history ∧ machine.rows "o1" = some stored ∧ stored.kind = .Send ∧
      send_is_held stored = true := by
  have hreach := @reachable_ran (fun _ _ => true) retriedAfterCrash rfl
  have hclaimed : Event.claimed "o1" ∈ (Machine.ran (fun _ _ => true) retriedAfterCrash).history :=
    List.mem_cons_of_mem _ List.mem_cons_self
  exact ⟨_, _, hreach.forget, hclaimed, rfl, rfl, rfl⟩

end posthaste.interleaving
