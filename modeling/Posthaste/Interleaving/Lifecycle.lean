import Posthaste.Interleaving.Steps

open serde posthaste.model posthaste.store posthaste.service

namespace posthaste.interleaving

/-- The operation whose state the pass will write whatever is stored by then. -/
def Flusher.commits : Flusher → Option Operation
  | .fetched operation _ => if interruptedSend operation then some operation else none
  | .claimed operation _ | .pushed operation _ => some operation
  | .idle | .draining _ => none

/-- Whether a retry's write would land on a settled row, or on one whose state the pass
    is about to write. -/
def Machine.retryLandsLate (machine : Machine) (id : OperationId) : Bool :=
  (machine.rows id).any fun stored =>
    stored.state == .Applied || machine.flusher.commits.any fun operation => operation.id == id

/-- No retry call writes after the row it read has moved on. -/
def retriesInTime (machine : Machine) : Action → Bool
  | .retryWrite index _ => machine.retries[index]?.all fun call => !machine.retryLandsLate call.id
  | _ => true

theorem Flusher.commits_fetched_iff {read operation : Operation} {queue : List OperationId} :
    (Flusher.fetched read queue).commits = some operation ↔
      interruptedSend read = true ∧ read = operation := by
  simp [Flusher.commits]

theorem Flusher.held_of_commits {flusher : Flusher} {operation : Operation}
    (hcommits : flusher.commits = some operation) : flusher.held = some operation := by
  cases flusher with
  | idle | draining => cases hcommits
  | claimed | pushed => exact hcommits
  | fetched read queue =>
    obtain ⟨_, hread⟩ := Flusher.commits_fetched_iff.mp hcommits
    exact congrArg some hread

theorem Flusher.commits_of_held_none {flusher : Flusher} (hheld : flusher.held = none) : flusher.commits = none := by
  cases hcommits : flusher.commits with
  | none => rfl
  | some operation =>
    rw [Flusher.held_of_commits hcommits] at hheld
    cases hheld

/-- The row the pass is about to write is inflight. -/
def HoldsInflight (machine : Machine) : Prop :=
  ∀ operation stored, machine.flusher.commits = some operation → machine.rows operation.id = some stored →
    stored.state = .Inflight

section

variable {machine after : Machine} {action : Action}

/-- What an inflight row may become, whatever came back from the push. -/
theorem can_transition_of_inflight {state : OperationState} (hstate : state = .Inflight)
    (disposition : FlushDisposition) : state.can_transition_to (failureState disposition) = true := by
  subst hstate
  cases disposition <;> rfl

theorem can_transition_of_flushable {state : OperationState} (hflushable : state.is_flushable = true) :
    state.can_transition_to .Inflight = true := by
  cases state with
  | Pending | Inflight => rfl
  | Applied | Failed | DispatchUncertain => cases hflushable

theorem can_transition_to_self (state : OperationState) : state.can_transition_to state = true := by
  cases state <;> rfl

theorem can_transition_to_pending {state : OperationState} (hstate : state ≠ .Applied) :
    state.can_transition_to .Pending = true := by
  cases state with
  | Applied => exact absurd rfl hstate
  | _ => rfl

private theorem state_of_update {rows written : OperationId → Option Operation} {target id : OperationId}
    {rewrite : Operation → Operation} {state : OperationState}
    (hwritten : written = Function.update rows target ((rows target).map rewrite))
    (hstate : ∀ operation, (rewrite operation).state = state) {before operation : Operation}
    (hallowed : ∀ stored, rows target = some stored → stored.state.can_transition_to state = true)
    (hbefore : rows id = some before) (hstored : written id = some operation) :
    before.state.can_transition_to operation.state = true := by
  rw [hwritten] at hstored
  by_cases hid : id = target
  · subst hid
    rw [Function.update_self, hbefore] at hstored
    cases hstored
    rw [hstate]
    exact hallowed before hbefore
  · rw [Function.update_of_ne hid, hbefore] at hstored
    cases hstored
    exact can_transition_to_self _

private theorem declared_of_move (hinflight : HoldsInflight machine) (hguard : retriesInTime machine action = true)
    (hmove : Move machine action after) {id : OperationId} {before stored : Operation}
    (hbefore : machine.rows id = some before) (hstored : after.rows id = some stored) :
    before.state.can_transition_to stored.state = true := by
  have hsame : before = stored → before.state.can_transition_to stored.state = true := by
    rintro rfl
    exact can_transition_to_self _
  cases hmove with
  | quiet hrows hflusher hhistory =>
    rw [hrows, hbefore] at hstored
    exact hsame (Option.some.inj hstored)
  | fetched hread hflushable hrows hflusher hhistory =>
    rw [hrows, hbefore] at hstored
    exact hsame (Option.some.inj hstored)
  | handed hclaimed hrows hflusher hhistory =>
    rw [hrows, hbefore] at hstored
    exact hsame (Option.some.inj hstored)
  | discarded hremoved hstate hrows hflusher hhistory =>
    have hkept := stored_of_remove hrows hstored
    rw [hbefore] at hkept
    exact hsame (Option.some.inj hkept)
  | dropped hpushed hsettlement hrows hflusher hhistory =>
    have hkept := stored_of_remove hrows hstored
    rw [hbefore] at hkept
    exact hsame (Option.some.inj hkept)
  | @enqueued operation _ hnew hstate hattempts hrows hflusher hhistory =>
    rw [hrows] at hstored
    by_cases hid : id = operation.id
    · rw [hid, Function.update_self, ← hid, hbefore] at hstored
      exact hsame (Option.some.inj hstored)
    · rw [Function.update_of_ne hid, hbefore] at hstored
      exact hsame (Option.some.inj hstored)
  | @swapped target payload now found _ hfound hkind hstate hrows hflusher hhistory =>
    rw [hrows] at hstored
    by_cases hid : id = target
    · rw [hid, Function.update_self] at hstored
      cases hstored
      rw [hid, hfound] at hbefore
      cases hbefore
      exact can_transition_to_self _
    · rw [Function.update_of_ne hid, hbefore] at hstored
      exact hsame (Option.some.inj hstored)
  | @claimed now operation found queue _ hfetched hfresh hfound hflushable hrows hflusher hhistory =>
    rw [hrows] at hstored
    by_cases hid : id = operation.id
    · rw [hid, Function.update_self] at hstored
      cases hstored
      rw [hid, hfound] at hbefore
      cases hbefore
      exact can_transition_of_flushable hflushable
    · rw [Function.update_of_ne hid, hbefore] at hstored
      exact hsame (Option.some.inj hstored)
  | @retried index now call _ hcall hrows hflusher hhistory =>
    refine state_of_update hrows (fun _ => rfl) (fun found hfound => can_transition_to_pending ?_) hbefore hstored
    intro happlied
    have hlate : machine.retryLandsLate call.id = true := by simp [Machine.retryLandsLate, hfound, happlied]
    simp [retriesInTime, hcall, hlate] at hguard
  | @parked now operation queue _ hfetched hinterrupted hrows hflusher hhistory =>
    have hcommits : machine.flusher.commits = some operation := by simp [hfetched, Flusher.commits, hinterrupted]
    refine state_of_update hrows (fun _ => rfl) (fun found hfound => ?_) hbefore hstored
    rw [hinflight operation found hcommits hfound]
    rfl
  | @settled reply settled_at_mono now operation queue watermark _ hpushed hsettlement hrows hflusher hhistory =>
    have hcommits : machine.flusher.commits = some operation := by simp [hpushed, Flusher.commits]
    refine state_of_update hrows (fun _ => rfl) (fun found hfound => ?_) hbefore hstored
    rw [hinflight operation found hcommits hfound]
    rfl
  | @failed reply settled_at_mono now operation queue error _ hpushed hsettlement hrows hflusher hhistory =>
    have hcommits : machine.flusher.commits = some operation := by simp [hpushed, Flusher.commits]
    refine state_of_update hrows (fun _ => rfl) (fun found hfound => ?_) hbefore hstored
    exact can_transition_of_inflight (hinflight operation found hcommits hfound) _

private theorem holdsInflight_move (htraced : Traced machine) (hinflight : HoldsInflight machine)
    (hguard : retriesInTime machine action = true) (hmove : Move machine action after)
    {operation stored : Operation} (hcommits : after.flusher.commits = some operation)
    (hstored : after.rows operation.id = some stored) : stored.state = .Inflight := by
  cases hmove with
  | quiet hrows hflusher hhistory =>
    rcases hflusher with hnone | hsame
    · rw [Flusher.commits_of_held_none hnone] at hcommits
      cases hcommits
    · rw [hsame] at hcommits
      rw [hrows] at hstored
      exact hinflight operation stored hcommits hstored
  | @enqueued queued _ hnew hstate hattempts hrows hflusher hhistory =>
    rw [hflusher] at hcommits
    have henqueued := htraced.held_enqueued (Flusher.held_of_commits hcommits)
    have hne : operation.id ≠ queued.id := by
      intro hid
      rw [hid] at henqueued
      exact isNew_eq_true_iff.mp hnew henqueued
    rw [hrows, Function.update_of_ne hne] at hstored
    exact hinflight operation stored hcommits hstored
  | @discarded target removed _ hremoved hstate hrows hflusher hhistory =>
    rw [hflusher] at hcommits
    rw [hrows] at hstored
    by_cases hid : operation.id = target
    · rw [hid, Function.update_self] at hstored
      cases hstored
    · rw [Function.update_of_ne hid] at hstored
      exact hinflight operation stored hcommits hstored
  | @swapped target payload now before _ hbefore hkind hstate hrows hflusher hhistory =>
    rw [hflusher] at hcommits
    rw [hrows] at hstored
    by_cases hid : operation.id = target
    · have hpending := hinflight operation before hcommits (by rw [hid]; exact hbefore)
      rw [hstate] at hpending
      cases hpending
    · rw [Function.update_of_ne hid] at hstored
      exact hinflight operation stored hcommits hstored
  | @retried index now call _ hcall hrows hflusher hhistory =>
    rw [hflusher] at hcommits
    rw [hrows] at hstored
    by_cases hid : operation.id = call.id
    · rw [hid, Function.update_self] at hstored
      obtain ⟨before, hbefore, _⟩ := Option.map_eq_some_iff.mp hstored
      have hlate : machine.retryLandsLate call.id = true := by
        simp [Machine.retryLandsLate, hbefore, hcommits, hid]
      simp [retriesInTime, hcall, hlate] at hguard
    · rw [Function.update_of_ne hid] at hstored
      exact hinflight operation stored hcommits hstored
  | @fetched read queue _ hread hflushable hrows hflusher hhistory =>
    rw [hflusher] at hcommits
    obtain ⟨hinterrupted, rfl⟩ := Flusher.commits_fetched_iff.mp hcommits
    rw [hrows, hread] at hstored
    cases hstored
    simp only [interruptedSend, Bool.and_eq_true, decide_eq_true_eq] at hinterrupted
    exact hinterrupted.2
  | claimed hfetched hfresh hbefore hflushable hrows hflusher hhistory =>
    rw [hflusher] at hcommits
    cases hcommits
    rw [hrows, Function.update_self] at hstored
    cases hstored
    rfl
  | handed hclaimed hrows hflusher hhistory =>
    rw [hflusher] at hcommits
    cases hcommits
    rw [hrows] at hstored
    refine hinflight operation stored ?_ hstored
    rw [hclaimed]
    rfl
  | parked hfetched hinterrupted hrows hflusher hhistory =>
    rw [hflusher] at hcommits
    cases hcommits
  | settled hpushed hsettlement hrows hflusher hhistory =>
    rw [hflusher] at hcommits
    cases hcommits
  | dropped hpushed hsettlement hrows hflusher hhistory =>
    rw [hflusher] at hcommits
    cases hcommits
  | failed hpushed hsettlement hrows hflusher hhistory =>
    rw [Flusher.commits_of_held_none hflusher] at hcommits
    cases hcommits

/-- Under the guard, the row the pass is about to write is inflight in every state reached. -/
theorem holdsInflight_of_reachable
    (hreach : flushSystem.Reachable (fun machine action => retriesInTime machine action = true) machine) :
    HoldsInflight machine := by
  refine invariant_of_move ?_ ?_ hreach
  · intro operation stored hcommits
    cases hcommits
  · intro before action after htraced hinflight hguard hmove operation stored hcommits hstored
    exact holdsInflight_move htraced hinflight hguard hmove hcommits hstored

end

/-- A queued message removal. -/
def queuedDestroy : Operation :=
  newOperation "o1" ⟨.Message, "m1"⟩ .Destroy .null none none "2026-01-01T00:00:00Z"

/-- One flush pass over the single operation of the log. -/
def flushOnce (reply : Reply) : List Action :=
  [.passBegin "2026-01-01T00:00:00Z" 0, .passRead, .passClaim "2026-01-01T00:00:00Z", .passPush,
    .passSettle reply 0 "2026-01-01T00:00:00Z"]

/-- The operation fails, two retries read it, the first re-arms it and it settles. -/
def settledBehindRetry : List Action :=
  [.enqueue queuedDestroy] ++ flushOnce (.failed (.Rejected "gone")) ++
    [.retryRead "o1", .retryRead "o1", .retryWrite 0 "2026-01-01T00:00:00Z", .passRead] ++
    flushOnce (.accepted none)

end posthaste.interleaving
