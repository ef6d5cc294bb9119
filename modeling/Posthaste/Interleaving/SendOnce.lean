import Posthaste.Interleaving.Steps

open serde posthaste.model posthaste.store posthaste.service

namespace posthaste.interleaving

def Event.handsSend (id : OperationId) : Event → Bool
  | .handed operation => operation.id = id && operation.kind = .Send
  | _ => false

def Event.isTransientFailure (id : OperationId) : Event → Bool
  | .transientFailure other => other = id
  | _ => false

def Event.isRetry (id : OperationId) : Event → Bool
  | .retried other => other = id
  | _ => false

/-- One push the stored row still entitles the pass to. -/
def armedSend : Option Operation → Nat
  | some stored => if stored.kind = .Send ∧ stored.state = .Pending then 1 else 0
  | none => 0

/-- One push the pass has claimed and not yet made. -/
def claimedSend (id : OperationId) : Flusher → Nat
  | .claimed operation _ => if operation.id = id ∧ operation.kind = .Send then 1 else 0
  | _ => 0

/-- The first push is paid by the queueing, each later one by a failure or a retry. -/
def Machine.grants (machine : Machine) (id : OperationId) : Nat :=
  (if machine.isNew id then 0 else 1) + machine.history.countP (Event.isTransientFailure id) +
    machine.history.countP (Event.isRetry id)

/-- The pushes made, claimed and armed stay within the grants. -/
def Ledger (machine : Machine) (id : OperationId) : Prop :=
  machine.history.countP (Event.handsSend id) + claimedSend id machine.flusher + armedSend (machine.rows id) ≤
    machine.grants id

/-- What the pass did not read as inflight nobody else has claimed since. -/
def FetchedUnclaimed (machine : Machine) : Prop :=
  ∀ operation queue stored, machine.flusher = .fetched operation queue → operation.state ≠ .Inflight →
    machine.rows operation.id = some stored → stored.state ≠ .Inflight

section

variable {machine after : Machine} {action : Action}

theorem armedSend_le_one (stored : Option Operation) : armedSend stored ≤ 1 := by
  cases stored with
  | none => exact Nat.zero_le 1
  | some stored =>
    simp only [armedSend]
    split_ifs <;> omega

theorem claimedSend_of_held_none {flusher : Flusher} {id : OperationId} (hheld : flusher.held = none) :
    claimedSend id flusher = 0 := by
  cases flusher with
  | idle | draining => rfl
  | fetched | claimed | pushed => cases hheld

private theorem fetchedUnclaimed_move (htraced : Traced machine) (hfetched : FetchedUnclaimed machine)
    (hmove : Move machine action after) : FetchedUnclaimed after := by
  intro operation queue stored hflush hunclaimed hstored
  cases hmove with
  | quiet hrows hflusher hhistory =>
    rcases hflusher with hnone | hsame
    · rw [hflush] at hnone
      cases hnone
    · rw [hrows] at hstored
      exact hfetched operation queue stored (hsame ▸ hflush) hunclaimed hstored
  | @enqueued queued _ hnew hstate hattempts hrows hflusher hhistory =>
    rw [hflusher] at hflush
    have hheld : machine.flusher.held = some operation := by rw [hflush]; rfl
    have hne : operation.id ≠ queued.id := by
      intro hid
      exact isNew_eq_true_iff.mp hnew (hid ▸ htraced.held_enqueued hheld)
    rw [hrows, Function.update_of_ne hne] at hstored
    exact hfetched operation queue stored hflush hunclaimed hstored
  | discarded hremoved hstate hrows hflusher hhistory =>
    rw [hflusher] at hflush
    exact hfetched operation queue stored hflush hunclaimed (stored_of_remove hrows hstored)
  | @swapped target payload now before _ hbefore hkind hstate hrows hflusher hhistory =>
    rw [hflusher] at hflush
    rw [hrows] at hstored
    by_cases hid : operation.id = target
    · rw [hid, Function.update_self] at hstored
      cases hstored
      simp [hstate]
    · rw [Function.update_of_ne hid] at hstored
      exact hfetched operation queue stored hflush hunclaimed hstored
  | @retried index now call _ hcall hrows hflusher hhistory =>
    rw [hflusher] at hflush
    rw [hrows] at hstored
    by_cases hid : operation.id = call.id
    · rw [hid, Function.update_self] at hstored
      obtain ⟨before, _, rfl⟩ := Option.map_eq_some_iff.mp hstored
      simp
    · rw [Function.update_of_ne hid] at hstored
      exact hfetched operation queue stored hflush hunclaimed hstored
  | fetched hread hflushable hrows hflusher hhistory =>
    rw [hflusher] at hflush
    cases hflush
    rw [hrows, hread] at hstored
    cases hstored
    exact hunclaimed
  | claimed _ _ _ _ _ hflusher | handed _ _ hflusher | parked _ _ _ hflusher | settled _ _ _ hflusher
    | dropped _ _ _ hflusher =>
    rw [hflush] at hflusher
    cases hflusher
  | failed _ _ _ hflusher =>
    rw [hflush] at hflusher
    cases hflusher

private theorem grants_cons {id : OperationId} {event : Event} (hhistory : after.history = event :: machine.history) :
    after.grants id =
      (if after.isNew id then 0 else 1) + (machine.history.countP (Event.isTransientFailure id) +
        if event.isTransientFailure id then 1 else 0) +
        (machine.history.countP (Event.isRetry id) + if event.isRetry id then 1 else 0) := by
  unfold Machine.grants
  rw [hhistory, List.countP_cons, List.countP_cons]

private theorem isNew_mono {id : OperationId} (hmove : Move machine action after)
    (hnew : after.isNew id = true) : machine.isNew id = true :=
  isNew_eq_true_iff.mpr fun hmem => isNew_eq_true_iff.mp hnew (hmove.mem_history hmem)

private theorem queued_mono (hmove : Move machine action after) (id : OperationId) :
    (if machine.isNew id then 0 else 1 : Nat) ≤ if after.isNew id then 0 else 1 := by
  cases hafter : after.isNew id with
  | true =>
    rw [isNew_mono hmove hafter]
  | false =>
    rw [if_neg Bool.false_ne_true]
    split_ifs <;> omega

/-- A move never takes a grant back. -/
theorem grants_mono (hmove : Move machine action after) (id : OperationId) : machine.grants id ≤ after.grants id := by
  have hqueued := queued_mono hmove id
  obtain ⟨added, hadded⟩ := hmove.history_suffix
  unfold Machine.grants
  rw [← hadded, List.countP_append, List.countP_append]
  omega

private theorem grants_event {id : OperationId} {event : Event}
    (hqueued : (if machine.isNew id then 0 else 1 : Nat) ≤ if after.isNew id then 0 else 1)
    (hhistory : after.history = event :: machine.history)
    (hgrant : event.isTransientFailure id = true ∨ event.isRetry id = true) :
    machine.grants id + 1 ≤ after.grants id := by
  rw [grants_cons hhistory]
  unfold Machine.grants
  rcases hgrant with hgrant | hgrant <;> rw [if_pos hgrant] <;> omega

private theorem armed_update_le {rows : OperationId → Option Operation} {target : OperationId}
    {written : Option Operation} (hle : armedSend written ≤ armedSend (rows target)) (id : OperationId) :
    armedSend (Function.update rows target written id) ≤ armedSend (rows id) := by
  by_cases hid : id = target
  · rw [hid, Function.update_self]
    exact hle
  · rw [Function.update_of_ne hid]

/-- A write that leaves another state than pending disarms the row. -/
private theorem armed_map_le {stored : Option Operation} {rewrite : Operation → Operation}
    (hstate : ∀ operation, (rewrite operation).state ≠ .Pending) :
    armedSend (stored.map rewrite) ≤ armedSend stored := by
  cases stored with
  | none => exact le_rfl
  | some operation => simp [armedSend, hstate]

private theorem handed_cons {id : OperationId} {event : Event} (hhistory : after.history = event :: machine.history)
    (hnot : event.handsSend id = false) :
    after.history.countP (Event.handsSend id) = machine.history.countP (Event.handsSend id) := by
  rw [hhistory, List.countP_cons, hnot]
  rfl

private theorem ledger_move (htraced : Traced machine) (hfetched : FetchedUnclaimed machine) {id : OperationId}
    (hledger : Ledger machine id) (hmove : Move machine action after) : Ledger after id := by
  have hgrants := grants_mono hmove id
  have hqueued := queued_mono hmove id
  unfold Ledger at hledger ⊢
  cases hmove with
  | quiet hrows hflusher hhistory =>
    have hclaimed : claimedSend id after.flusher ≤ claimedSend id machine.flusher := by
      rcases hflusher with hnone | hsame
      · rw [claimedSend_of_held_none hnone]
        exact Nat.zero_le _
      · rw [hsame]
    rw [hhistory, hrows]
    omega
  | @enqueued operation _ hnew hstate hattempts hrows hflusher hhistory =>
    rw [handed_cons hhistory rfl, hflusher, hrows]
    by_cases hid : id = operation.id
    · subst hid
      have hnone : machine.rows operation.id = none := by
        cases hstored : machine.rows operation.id with
        | none => rfl
        | some stored => exact absurd (htraced.stored_enqueued hstored) (isNew_eq_true_iff.mp hnew)
      have hold : after.isNew operation.id = false := by
        cases hafter : after.isNew operation.id with
        | false => rfl
        | true =>
          have hmem : Event.enqueued operation.id ∈ after.history := by
            rw [hhistory]
            exact List.mem_cons_self
          exact absurd hmem (isNew_eq_true_iff.mp hafter)
      have hbefore : machine.grants operation.id + 1 ≤ after.grants operation.id := by
        rw [grants_cons hhistory]
        unfold Machine.grants
        rw [hnew, hold]
        simp
        omega
      have harmed := armedSend_le_one (Function.update machine.rows operation.id
        (some ((machine.rows operation.id).getD operation)) operation.id)
      rw [hnone] at hledger
      have hzero : armedSend none = 0 := rfl
      omega
    · rw [Function.update_of_ne hid]
      omega
  | discarded hstored hstate hrows hflusher hhistory =>
    have harmed : armedSend (after.rows id) ≤ armedSend (machine.rows id) := by
      rw [hrows]
      exact armed_update_le (Nat.zero_le _) id
    rw [handed_cons hhistory rfl, hflusher]
    omega
  | swapped hstored hkind hstate hrows hflusher hhistory =>
    have harmed : armedSend (after.rows id) ≤ armedSend (machine.rows id) := by
      rw [hrows]
      refine armed_update_le ?_ id
      rw [hstored]
      exact le_rfl
    rw [handed_cons hhistory rfl, hflusher]
    omega
  | @retried index now call _ hcall hrows hflusher hhistory =>
    rw [handed_cons hhistory rfl, hflusher]
    by_cases hid : id = call.id
    · have hpaid := grants_event hqueued hhistory
        (.inr (by simp [Event.isRetry, hid] : Event.isRetry id (.retried call.id) = true))
      have harmed := armedSend_le_one (after.rows id)
      omega
    · rw [hrows, Function.update_of_ne hid]
      omega
  | fetched hstored hflushable hrows hflusher hhistory =>
    have hclaimed : claimedSend id after.flusher = 0 := by rw [hflusher]; rfl
    rw [hhistory, hrows]
    omega
  | parked hread hinterrupted hrows hflusher hhistory =>
    have hclaimed : claimedSend id after.flusher = 0 := by rw [hflusher]; rfl
    have harmed : armedSend (after.rows id) ≤ armedSend (machine.rows id) := by
      rw [hrows]
      exact armed_update_le (armed_map_le (by simp)) id
    rw [hhistory]
    omega
  | @claimed now operation stored queue _ hread hfresh hstored hflushable hrows hflusher hhistory =>
    have hspent : claimedSend id after.flusher + armedSend (after.rows id) ≤ armedSend (machine.rows id) := by
      rw [hflusher, hrows]
      by_cases hid : id = operation.id
      · subst hid
        rw [Function.update_self, hstored]
        by_cases hsend : operation.kind = .Send
        · -- The claim of a send read as pending takes the row's one armed push.
          have hkind : stored.kind = .Send := by
            have hheld : machine.flusher.held = some operation := by rw [hread]; rfl
            exact (htraced.held_request hheld hstored).kind.symm.trans hsend
          have hread' : operation.state ≠ .Inflight := by
            intro hinflight
            simp [interruptedSend, hsend, hinflight] at hfresh
          have hstate : stored.state = .Pending := by
            have hne := hfetched operation queue stored hread hread' hstored
            cases hcases : stored.state with
            | Pending => rfl
            | Inflight => exact absurd hcases hne
            | Applied | Failed | DispatchUncertain =>
              rw [hcases] at hflushable
              cases hflushable
          simp [claimedSend, armedSend, hsend, hkind, hstate]
        · have hzero : claimedSend operation.id (.claimed operation queue) = 0 := by simp [claimedSend, hsend]
          have hinflight : armedSend (some { stored with state := .Inflight, updated_at := now }) = 0 := by
            simp [armedSend]
          omega
      · have hzero : claimedSend id (.claimed operation queue) = 0 := by
          simp [claimedSend, Ne.symm (fun heq => hid heq : id ≠ operation.id)]
        rw [Function.update_of_ne hid]
        omega
    have hbefore : claimedSend id machine.flusher = 0 := by rw [hread]; rfl
    rw [handed_cons hhistory rfl]
    omega
  | @handed operation queue _ hclaimed hrows hflusher hhistory =>
    have hpushed : claimedSend id after.flusher = 0 := by rw [hflusher]; rfl
    have hcount : after.history.countP (Event.handsSend id) ≤
        machine.history.countP (Event.handsSend id) + claimedSend id machine.flusher := by
      rw [hhistory, hclaimed]
      split_ifs with hhands
      · rw [List.countP_cons]
        simp [Event.handsSend, claimedSend]
      · exact Nat.le_add_right _ _
    rw [hrows]
    omega
  | settled hpushed hsettlement hrows hflusher hhistory =>
    have hclaimed : claimedSend id after.flusher = 0 := by rw [hflusher]; rfl
    have harmed : armedSend (after.rows id) ≤ armedSend (machine.rows id) := by
      rw [hrows]
      exact armed_update_le (armed_map_le (by simp)) id
    rw [handed_cons hhistory rfl]
    omega
  | dropped hpushed hsettlement hrows hflusher hhistory =>
    have hclaimed : claimedSend id after.flusher = 0 := by rw [hflusher]; rfl
    have harmed : armedSend (after.rows id) ≤ armedSend (machine.rows id) := by
      rw [hrows]
      exact armed_update_le (Nat.zero_le _) id
    rw [hhistory]
    omega
  | @failed reply settled_at_mono now operation queue error _ hpushed hsettlement hrows hflusher hhistory =>
    have hclaimed := @claimedSend_of_held_none _ id hflusher
    have hhanded : after.history.countP (Event.handsSend id) = machine.history.countP (Event.handsSend id) := by
      rw [hhistory]
      split_ifs
      · exact List.countP_cons_of_neg Bool.false_ne_true
      · rfl
    by_cases hid : id = operation.id
    · subst hid
      cases hstored : machine.rows operation.id with
      | none =>
        have hzero : armedSend (after.rows operation.id) = 0 := by
          rw [hrows, Function.update_self, hstored]
          rfl
        omega
      | some stored =>
        by_cases hrearmed : stored.kind = .Send ∧ failureState error.disposition = .Pending
        · -- Only a transient failure re-arms a send, and it brings its own grant.
          have hheld : machine.flusher.held = some operation := by rw [hpushed]; rfl
          have hkind : operation.kind = .Send := (htraced.held_request hheld hstored).kind.trans hrearmed.1
          have htransient := transient_of_send_requeued hkind hsettlement hrearmed.2
          have hcons : after.history = .transientFailure operation.id :: machine.history := by
            rw [hhistory, if_pos htransient]
          have hpaid := grants_event hqueued hcons
            (.inl (by simp [Event.isTransientFailure] :
              Event.isTransientFailure operation.id (.transientFailure operation.id) = true))
          have harmed := armedSend_le_one (after.rows operation.id)
          omega
        · have hzero : armedSend (after.rows operation.id) = 0 := by
            rw [hrows, Function.update_self, hstored]
            simp only [Option.map_some, armedSend]
            exact if_neg hrearmed
          omega
    · rw [hrows, Function.update_of_ne hid]
      omega

theorem ledger_of_reachable {guard : Machine → Action → Prop} (hreach : flushSystem.Reachable guard machine)
    (id : OperationId) : Ledger machine id := by
  have hfetched : ∀ machine, flushSystem.Reachable guard machine → FetchedUnclaimed machine := by
    intro machine hreach
    refine invariant_of_move ?_ ?_ hreach
    · intro operation queue stored hflush
      cases hflush
    · intro before action after htraced hholds _ hmove
      exact fetchedUnclaimed_move htraced hholds hmove
  refine @TransitionSystem.Reachable.invariant_of _ _ _ _ _ (fun machine => Ledger machine id)
    (fun _ hbefore => And.intro (traced_of_reachable hbefore) (hfetched _ hbefore)) ?_ ?_ _ hreach
  · rintro _ rfl
    exact Nat.zero_le _
  · intro before action after hknown hledger _ hstep
    exact ledger_move hknown.1 hknown.2 hledger (move_of_step hstep)

/-- No retry writes between the pass's claim and the push of the same operation. -/
def retriesOutsideClaim (machine : Machine) : Action → Bool
  | .retryWrite index _ => machine.retries[index]?.all fun call =>
    match machine.flusher with
    | .claimed operation _ => operation.id ≠ call.id
    | _ => true
  | _ => true

/-- Nothing is handed over once its removal succeeded. -/
def NeverHandedAfterRemoval (history : List Event) : Prop :=
  history.Pairwise fun later earlier => ∀ operation, later = .handed operation → earlier ≠ .removed operation.id

/-- What was removed is gone, and what the pass has claimed is inflight and not removed. -/
structure Cancelled (machine : Machine) : Prop where
  ordered : NeverHandedAfterRemoval machine.history
  gone {id : OperationId} : .removed id ∈ machine.history → machine.rows id = none
  unclaimed {operation : Operation} {queue : List OperationId} :
    machine.flusher = .claimed operation queue → .removed operation.id ∉ machine.history
  inflight {operation stored : Operation} {queue : List OperationId} :
    machine.flusher = .claimed operation queue → machine.rows operation.id = some stored →
      stored.state = .Inflight

/-- An id that is removed stays absent: ids are queued once, and no statement revives a row. -/
private theorem Cancelled.gone_move (htraced : Traced machine) (hcancelled : Cancelled machine)
    (hmove : Move machine action after) {id : OperationId} (hremoved : .removed id ∈ after.history) :
    after.rows id = none := by
  rcases hmove.removed_kept hremoved with hbefore | ⟨_, _, _, hnone, _⟩
  · cases hstored : after.rows id with
    | none => rfl
    | some stored =>
      rcases hmove.stored_kept hstored with ⟨kept, hkept, _⟩ | ⟨_, hnew, _⟩
      · rw [hcancelled.gone hbefore] at hkept
        cases hkept
      · exact absurd (htraced.removed_enqueued hbefore) (isNew_eq_true_iff.mp hnew)
  · exact hnone

private theorem Cancelled.unclaimed_move (hcancelled : Cancelled machine) (hmove : Move machine action after)
    {operation : Operation} {queue : List OperationId} (hclaimed : after.flusher = .claimed operation queue) :
    .removed operation.id ∉ after.history := by
  intro hremoved
  have hnone : ∀ {stored}, machine.rows operation.id = some stored → .removed operation.id ∉ machine.history := by
    intro stored hstored hbefore
    rw [hcancelled.gone hbefore] at hstored
    cases hstored
  rcases hmove.removed_kept hremoved with hbefore | ⟨stored, hstored, hstate, _, hsame⟩
  · rcases hmove.claimed_kept hclaimed with hbeforeClaimed | ⟨stored, hstored⟩
    · exact hcancelled.unclaimed hbeforeClaimed hbefore
    · exact hnone hstored hbefore
  · -- The removal spares inflight rows, and the claimed one is inflight.
    rw [hsame] at hclaimed
    rw [hcancelled.inflight hclaimed hstored] at hstate
    cases hstate

private theorem Cancelled.ordered_move (hcancelled : Cancelled machine) (hmove : Move machine action after) :
    NeverHandedAfterRemoval after.history := by
  have hcons : ∀ event : Event, (∀ operation, event = .handed operation → .removed operation.id ∉ machine.history) →
      NeverHandedAfterRemoval (event :: machine.history) := by
    intro event hevent
    refine List.pairwise_cons.mpr ⟨?_, hcancelled.ordered⟩
    rintro earlier hearlier operation hhanded rfl
    exact hevent operation hhanded hearlier
  cases hmove with
  | quiet hrows hflusher hhistory => rw [hhistory]; exact hcancelled.ordered
  | fetched hstored hflushable hrows hflusher hhistory => rw [hhistory]; exact hcancelled.ordered
  | parked hfetched hinterrupted hrows hflusher hhistory => rw [hhistory]; exact hcancelled.ordered
  | dropped hpushed hsettlement hrows hflusher hhistory => rw [hhistory]; exact hcancelled.ordered
  | enqueued _ _ _ _ _ hhistory | discarded _ _ _ _ hhistory | swapped _ _ _ _ _ hhistory
    | retried _ _ _ hhistory | claimed _ _ _ _ _ _ hhistory | settled _ _ _ _ hhistory =>
    rw [hhistory]
    exact hcons _ fun operation hhanded => by cases hhanded
  | @handed operation queue _ hclaimed hrows hflusher hhistory =>
    rw [hhistory]
    split_ifs
    · refine hcons _ fun pushed hhanded => ?_
      cases hhanded
      exact hcancelled.unclaimed hclaimed
    · exact hcancelled.ordered
  | failed hpushed hsettlement hrows hflusher hhistory =>
    rw [hhistory]
    split_ifs
    · exact hcons _ fun operation hhanded => by cases hhanded
    · exact hcancelled.ordered

private theorem Cancelled.inflight_move (htraced : Traced machine) (hcancelled : Cancelled machine)
    (hguard : retriesOutsideClaim machine action = true) (hmove : Move machine action after)
    {operation stored : Operation} {queue : List OperationId} (hclaimed : after.flusher = .claimed operation queue)
    (hstored : after.rows operation.id = some stored) : stored.state = .Inflight := by
  cases hmove with
  | quiet hrows hflusher hhistory =>
    rw [hrows] at hstored
    rcases hflusher with hnone | hsame
    · rw [hclaimed] at hnone
      cases hnone
    · exact hcancelled.inflight (hsame ▸ hclaimed) hstored
  | @enqueued queued _ hnew hstate hattempts hrows hflusher hhistory =>
    rw [hflusher] at hclaimed
    have hheld : machine.flusher.held = some operation := by rw [hclaimed]; rfl
    have hne : operation.id ≠ queued.id := by
      intro hid
      exact isNew_eq_true_iff.mp hnew (hid ▸ htraced.held_enqueued hheld)
    rw [hrows, Function.update_of_ne hne] at hstored
    exact hcancelled.inflight hclaimed hstored
  | discarded hremoved hstate hrows hflusher hhistory =>
    rw [hflusher] at hclaimed
    exact hcancelled.inflight hclaimed (stored_of_remove hrows hstored)
  | @swapped target payload now before _ hbefore hkind hstate hrows hflusher hhistory =>
    rw [hflusher] at hclaimed
    rw [hrows] at hstored
    by_cases hid : operation.id = target
    · have hinflight := hcancelled.inflight hclaimed (by rw [hid]; exact hbefore)
      rw [hstate] at hinflight
      cases hinflight
    · rw [Function.update_of_ne hid] at hstored
      exact hcancelled.inflight hclaimed hstored
  | @retried index now call _ hcall hrows hflusher hhistory =>
    rw [hflusher] at hclaimed
    have hne : operation.id ≠ call.id := by simpa [retriesOutsideClaim, hcall, hclaimed] using hguard
    rw [hrows, Function.update_of_ne hne] at hstored
    exact hcancelled.inflight hclaimed hstored
  | claimed hfetched hfresh hbefore hflushable hrows hflusher hhistory =>
    rw [hflusher] at hclaimed
    cases hclaimed
    rw [hrows, Function.update_self] at hstored
    cases hstored
    rfl
  | fetched _ _ _ hflusher | handed _ _ hflusher | parked _ _ _ hflusher | settled _ _ _ hflusher
    | dropped _ _ _ hflusher =>
    rw [hclaimed] at hflusher
    cases hflusher
  | failed _ _ _ hflusher =>
    rw [hclaimed] at hflusher
    cases hflusher

theorem cancelled_of_reachable {guard : Machine → Action → Prop}
    (hguard : ∀ machine action, guard machine action → retriesOutsideClaim machine action = true)
    (hreach : flushSystem.Reachable guard machine) : Cancelled machine := by
  refine invariant_of_move ?_ ?_ hreach
  · exact
      { ordered := List.Pairwise.nil
        gone := fun hremoved => by cases hremoved
        unclaimed := fun hclaimed => by cases hclaimed
        inflight := fun hclaimed => by cases hclaimed }
  · intro before action after htraced hcancelled hmeets hmove
    exact
      { ordered := hcancelled.ordered_move hmove
        gone := hcancelled.gone_move htraced hmove
        unclaimed := hcancelled.unclaimed_move hmove
        inflight := hcancelled.inflight_move htraced (hguard _ _ hmeets) hmove }

/-- In every run a send is handed over at most once, plus once for each transient
    failure and each retry; and where no retry writes between a claim and its push,
    nothing is handed over after its removal. -/
theorem send_handed_once_and_never_after_removal {guard : Machine → Action → Prop}
    (hreach : flushSystem.Reachable guard machine) :
    (∀ id, machine.history.countP (Event.handsSend id) ≤
      1 + machine.history.countP (Event.isTransientFailure id) + machine.history.countP (Event.isRetry id)) ∧
    ((∀ machine action, guard machine action → retriesOutsideClaim machine action = true) →
      NeverHandedAfterRemoval machine.history) := by
  constructor
  · intro id
    have hledger := ledger_of_reachable hreach id
    unfold Ledger Machine.grants at hledger
    have hqueued : (if machine.isNew id then 0 else 1 : Nat) ≤ 1 := by split_ifs <;> omega
    omega
  · intro hguard
    exact (cancelled_of_reachable hguard hreach).ordered

end

/-- A queued send of an empty message. -/
def queuedSend : Operation :=
  newOperation "o1" ⟨.Message, "m1"⟩ .Send (to_value (default : SendMessageRequest)) none none "2026-01-01T00:00:00Z"

/-- Two retries read a parked send; the second writes while the pass has the send
    claimed, and a discard takes the row before the push. -/
def discardBehindClaim : List Action :=
  [.enqueue queuedSend, .passBegin "2026-01-01T00:00:00Z" 0, .passRead, .passClaim "2026-01-01T00:00:00Z", .passPush,
    .passSettle (.failed (.DispatchUncertain "timeout")) 0 "2026-01-01T00:00:00Z",
    .retryRead "o1", .retryRead "o1", .retryWrite 0 "2026-01-01T00:00:00Z",
    .passBegin "2026-01-01T00:00:00Z" 0, .passRead, .passClaim "2026-01-01T00:00:00Z",
    .retryWrite 0 "2026-01-01T00:00:00Z", .discard "o1", .passPush]

theorem send_handed_once_and_never_after_removal_flushedOnce :
    ∃ machine, flushSystem.Reachable (fun machine action => retriesOutsideClaim machine action = true) machine ∧
      Event.handed queuedSend ∈ machine.history ∧
      machine.history.countP (Event.handsSend "o1") ≤
        1 + machine.history.countP (Event.isTransientFailure "o1") + machine.history.countP (Event.isRetry "o1") ∧
      NeverHandedAfterRemoval machine.history := by
  have hreach := @reachable_ran retriesOutsideClaim (discardBehindClaim.take 5) rfl
  have hholds := send_handed_once_and_never_after_removal hreach
  exact ⟨_, hreach, List.mem_cons_self, hholds.1 "o1", hholds.2 fun _ _ hguard => hguard⟩

/-- The discard succeeded, and the pass hands the send over all the same. -/
theorem discarded_send_is_handed_over :
    ∃ machine, flushSystem.Reachable TransitionSystem.unguarded machine ∧
      ¬ NeverHandedAfterRemoval machine.history := by
  have hreach := @reachable_ran (fun _ _ => true) discardBehindClaim rfl
  refine ⟨_, hreach.forget, ?_⟩
  intro hordered
  have hlast : ∃ operation older, (Machine.ran (fun _ _ => true) discardBehindClaim).history =
      .handed operation :: .removed "o1" :: older ∧ operation.id = "o1" := ⟨_, _, rfl, rfl⟩
  obtain ⟨operation, older, hhistory, hid⟩ := hlast
  rw [hhistory, ← hid] at hordered
  exact (List.pairwise_cons.mp hordered).1 _ List.mem_cons_self operation rfl rfl

end posthaste.interleaving
