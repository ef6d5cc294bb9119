import Mathlib.Data.List.Perm.Basic
import Posthaste.ReplicaCore.Retirement

namespace posthaste.replica

namespace Replica

variable {κ σ ε : Type} [DecidableEq κ] [Convergence σ ε] {replica : Replica κ σ ε}
  {outcome : MutationId → SettlementOutcome}

/-- Settle a list of mutations, one after the other. -/
def settleAll (replica : Replica κ σ ε) (settlements : List (MutationId × SettlementOutcome)) : Replica κ σ ε :=
  settlements.foldl (fun replica settlement => (replica.settle settlement.1 settlement.2).2) replica

/-- The ids settled with the outcome each is assigned. -/
def outcomes (outcome : MutationId → SettlementOutcome) (ids : List MutationId) : List (MutationId × SettlementOutcome) :=
  ids.map fun id => (id, outcome id)

def ids (replica : Replica κ σ ε) : List MutationId := replica.pending.map PendingMutation.id

/-- Settling every pending mutation once ends the same way in every order. -/
def OrderIndependent (replica : Replica κ σ ε) (outcome : MutationId → SettlementOutcome) : Prop :=
  ∀ first second, first.Perm (outcomes outcome replica.ids) → second.Perm (outcomes outcome replica.ids) →
    (replica.settleAll first).pending = (replica.settleAll second).pending ∧
      ∀ key, (replica.settleAll first).project key = (replica.settleAll second).project key

/-- The mutation is absorbed at its position when, of its entity's others, only these stand. -/
def AbsorbedAmong (replica : Replica κ σ ε) (key : κ) (standing : MutationId → Bool) (id : MutationId) : Prop :=
  id ∈ absorbed (replica.base key) ((replica.pendingOn key).filter fun held => standing held.id)

/-- Which of the failing mutations still stand never decides whether a confirmed one is absorbed. -/
def FailuresDecideNothing (replica : Replica κ σ ε) (outcome : MutationId → SettlementOutcome) : Prop :=
  ∀ key (standing : MutationId → Bool) id, outcome id = .Confirmed → replica.accepted_at id = none →
    (replica.AbsorbedAmong key (fun other => outcome other = .Confirmed || standing other) id ↔
      replica.AbsorbedAmong key (fun other => outcome other = .Confirmed) id)

section Runs

theorem settleAll_append (first second : List (MutationId × SettlementOutcome)) :
    replica.settleAll (first ++ second) = (replica.settleAll first).settleAll second :=
  List.foldl_append

omit [DecidableEq κ] [Convergence σ ε] in
theorem mem_ids_iff {id : MutationId} : id ∈ replica.ids ↔ ∃ held ∈ replica.pending, held.id = id :=
  List.mem_map

/-- The confirmed mutations that no settlement retires. -/
def Survives (replica : Replica κ σ ε) (outcome : MutationId → SettlementOutcome) (held : PendingMutation κ ε) : Prop :=
  outcome held.id = .Confirmed ∧
    ¬ (replica.accepted_at held.id = none ∧
      replica.AbsorbedAmong held.key (fun other => outcome other = .Confirmed) held.id)

/-- A run of settlements under way: what stands, and which of the settled may still. -/
structure During (replica : Replica κ σ ε) (outcome : MutationId → SettlementOutcome) (settled : List MutationId)
    (standing : MutationId → Bool) (after : Replica κ σ ε) : Prop where
  base : after.base = replica.base
  pending : after.pending = replica.pending.filter fun held => standing held.id
  gates : ∀ id, standing id = true → after.accepted_at id = replica.accepted_at id
  survivors : ∀ held ∈ replica.pending, replica.Survives outcome held → standing held.id = true
  settled : ∀ held ∈ replica.pending, held.id ∈ settled → standing held.id = true → replica.Survives outcome held

variable {settled : List MutationId} {standing : MutationId → Bool} {after : Replica κ σ ε}

/-- What stands is absorbed as it is among the confirmed alone. -/
private theorem During.absorbed_iff (hduring : During replica outcome settled standing after)
    (hdecide : replica.FailuresDecideNothing outcome) (key : κ) {id : MutationId} (hstanding : standing id = true) :
    id ∈ absorbed (after.base key) (after.pendingOn key) ↔
      replica.AbsorbedAmong key (fun other => outcome other = .Confirmed || standing other) id := by
  set among := (replica.pendingOn key).filter fun held => decide (outcome held.id = .Confirmed) || standing held.id
    with hamong
  have hon : after.pendingOn key = among.filter fun held => !!standing held.id := by
    unfold pendingOn at hamong ⊢
    rw [hduring.pending, hamong, List.filter_filter, List.filter_filter, List.filter_filter]
    refine List.filter_congr fun held _ => ?_
    cases standing held.id <;> simp
  have hnodup : (among.map PendingMutation.id).Nodup :=
    ids_pendingOn_nodup.sublist (List.filter_sublist.map _)
  -- what no longer stands of these was confirmed and absorbed
  have hgone : ∀ held ∈ among, (!standing held.id) = true → held.id ∈ absorbed (after.base key) among := by
    intro held hmem hgone
    obtain ⟨hheld, hone⟩ := List.mem_filter.mp hmem
    have hfell : standing held.id = false := by simpa using hgone
    have hconfirmed : outcome held.id = .Confirmed := by simpa [hfell] using hone
    obtain ⟨hstored, hkey⟩ := List.mem_filter.mp hheld
    have hkey : held.key = key := of_decide_eq_true hkey
    have hnot : ¬ replica.Survives outcome held := by
      intro hsurvives
      rw [hduring.survivors held hstored hsurvives] at hfell
      cases hfell
    obtain ⟨hgate, habsorbed⟩ := not_not.mp (not_and.mp hnot hconfirmed)
    rw [hkey] at habsorbed
    rw [hduring.base]
    exact (hdecide key standing held.id hconfirmed hgate).mpr habsorbed
  have hdropped := @absorbed_of_dropped κ σ ε _ (after.base key) among (fun id => !standing id) hnodup hgone
  rw [hon, hdropped, List.mem_filter, hduring.base]
  unfold AbsorbedAmong
  simp [hstanding, ← hamong]

private theorem During.start : During replica outcome [] (fun _ => true) replica where
  base := rfl
  pending := by simp
  gates _ _ := rfl
  survivors _ _ _ := rfl
  settled _ _ hmem := by cases hmem

private theorem During.fail (hduring : During replica outcome settled standing after) {id : MutationId}
    (houtcome : outcome id = .Failed) :
    During replica outcome (id :: settled) (fun other => standing other && other ≠ id) (after.leave [id]) where
  base := hduring.base
  pending := by
    rw [pending_leave, hduring.pending, List.filter_filter]
    refine List.filter_congr fun held _ => ?_
    simp [Bool.and_comm]
  gates other hother := by
    obtain ⟨hstands, hne⟩ := Bool.and_eq_true_iff.mp hother
    have hne : other ≠ id := of_decide_eq_true hne
    rw [accepted_at_leave, if_neg (by simpa using hne)]
    exact hduring.gates other hstands
  survivors held hheld hsurvives := by
    have hne : held.id ≠ id := by
      intro hsame
      rw [Survives, hsame, houtcome] at hsurvives
      cases hsurvives.1
    simp [hduring.survivors held hheld hsurvives, hne]
  settled held hheld hmem hstands := by
    obtain ⟨hstands, hne⟩ := Bool.and_eq_true_iff.mp hstands
    have hne : held.id ≠ id := of_decide_eq_true hne
    exact hduring.settled held hheld ((List.mem_cons.mp hmem).resolve_left hne) hstands

omit [DecidableEq κ] [Convergence σ ε] in
private theorem gatePasses_none {id : MutationId} : replica.gatePasses none id = true ↔ replica.accepted_at id = none := by
  unfold gatePasses
  cases replica.accepted_at id <;> simp

private theorem During.confirm (hduring : During replica outcome settled standing after)
    (hdecide : replica.FailuresDecideNothing outcome) {held : PendingMutation κ ε} (hheld : held ∈ after.pending)
    (houtcome : outcome held.id = .Confirmed) :
    During replica outcome (held.id :: settled)
      (fun other => standing other && other ∉ (after.mark_confirmed held.id).retired held.key none)
      ((after.mark_confirmed held.id).leave ((after.mark_confirmed held.id).retired held.key none)) where
  base := hduring.base
  pending := by
    rw [pending_leave]
    show after.pending.filter _ = _
    rw [hduring.pending, List.filter_filter]
    exact List.filter_congr fun held _ => Bool.and_comm _ _
  gates other hother := by
    obtain ⟨hstands, hkept⟩ := Bool.and_eq_true_iff.mp hother
    rw [accepted_at_leave, if_neg (of_decide_eq_true hkept)]
    exact hduring.gates other hstands
  survivors other hother hsurvives := by
    have hstands := hduring.survivors other hother hsurvives
    rw [hstands, Bool.true_and, decide_eq_true_iff]
    intro hretired
    obtain ⟨habsorbed, _, hgate⟩ := mem_retired_iff.mp hretired
    have hgate : after.accepted_at other.id = none := gatePasses_none.mp hgate
    rw [hduring.gates other.id hstands] at hgate
    have hstored : other.key = held.key := by
      obtain ⟨found, hfound, hid⟩ := List.mem_map.mp (absorbed_sublist.mem habsorbed)
      obtain ⟨hfoundStored, hkey⟩ := List.mem_filter.mp hfound
      have hfoundIn : found ∈ replica.pending := by
        have hin : found ∈ after.pending := hfoundStored
        rw [hduring.pending] at hin
        exact List.mem_of_mem_filter hin
      rw [← List.inj_on_of_nodup_map replica.ids_nodup hfoundIn hother hid]
      exact of_decide_eq_true hkey
    have hamong := (hduring.absorbed_iff hdecide held.key hstands).mp habsorbed
    refine hsurvives.2 ⟨hgate, ?_⟩
    rw [hstored]
    exact (hdecide held.key standing other.id hsurvives.1 hgate).mp hamong
  settled other hother hmem hkept := by
    obtain ⟨hstands, hkept⟩ := Bool.and_eq_true_iff.mp hkept
    obtain hsame | hearlier := List.mem_cons.mp hmem
    · refine ⟨hsame ▸ houtcome, ?_⟩
      rintro ⟨hgate, habsorbed⟩
      refine of_decide_eq_true hkept ?_
      have hin : held ∈ replica.pending := by
        rw [hduring.pending] at hheld
        exact List.mem_of_mem_filter hheld
      obtain rfl : other = held := List.inj_on_of_nodup_map replica.ids_nodup hother hin hsame
      rw [mem_retired_iff]
      refine ⟨?_, Finset.mem_insert_self _ _, ?_⟩
      · exact (hduring.absorbed_iff hdecide other.key hstands).mpr
          ((hdecide other.key standing other.id houtcome hgate).mpr habsorbed)
      · refine gatePasses_none.mpr ?_
        show after.accepted_at other.id = none
        rw [hduring.gates other.id hstands, hgate]
    · exact hduring.settled other hother hearlier hstands

private theorem During.settle (hduring : During replica outcome settled standing after)
    (hdecide : replica.FailuresDecideNothing outcome) (id : MutationId) :
    ∃ still, During replica outcome (id :: settled) still (after.settle id (outcome id)).2 := by
  cases houtcome : outcome id with
  | Failed =>
    rw [settle_failed]
    exact ⟨_, hduring.fail houtcome⟩
  | Confirmed =>
    by_cases hpending : id ∈ after.ids
    · obtain ⟨held, hheld, rfl⟩ := mem_ids_iff.mp hpending
      rw [settle_confirmed_of_pending hheld]
      exact ⟨_, hduring.confirm hdecide hheld houtcome⟩
    · rw [settle_confirmed_of_unknown hpending]
      refine ⟨standing, hduring.base, hduring.pending, hduring.gates, hduring.survivors, ?_⟩
      intro held hheld hmem hstands
      obtain rfl | hearlier := List.mem_cons.mp hmem
      · refine absurd (mem_ids_iff.mpr ⟨held, ?_, rfl⟩) hpending
        rw [hduring.pending]
        exact List.mem_filter.mpr ⟨hheld, hstands⟩
      · exact hduring.settled held hheld hearlier hstands

private theorem During.settleAll (hduring : During replica outcome settled standing after)
    (hdecide : replica.FailuresDecideNothing outcome) (ids : List MutationId) :
    ∃ still, During replica outcome (ids.reverse ++ settled) still (after.settleAll (outcomes outcome ids)) := by
  induction ids generalizing settled standing after with
  | nil => exact ⟨standing, hduring⟩
  | cons id rest ih =>
    obtain ⟨still, hnext⟩ := hduring.settle hdecide id
    obtain ⟨last, hlast⟩ := ih hnext
    rw [List.reverse_cons, List.append_assoc, List.singleton_append]
    exact ⟨last, hlast⟩

/-- Where failures decide nothing, a list of settlements retires exactly the
    confirmed that the confirmed alone absorb, and drops exactly the failed. -/
theorem mem_settleAll_iff (hdecide : replica.FailuresDecideNothing outcome) (ids : List MutationId)
    {held : PendingMutation κ ε} (hheld : held ∈ replica.pending) (hsettled : held.id ∈ ids) :
    held ∈ (replica.settleAll (outcomes outcome ids)).pending ↔ replica.Survives outcome held := by
  obtain ⟨still, hlast⟩ := During.start.settleAll hdecide ids
  have hmem : held.id ∈ ids.reverse ++ [] := by simpa using hsettled
  rw [hlast.pending, List.mem_filter]
  constructor
  · rintro ⟨_, hstands⟩
    exact hlast.settled held hheld hmem hstands
  · intro hsurvives
    exact ⟨hheld, hlast.survivors held hheld hsurvives⟩

theorem base_settleAll (hdecide : replica.FailuresDecideNothing outcome) (ids : List MutationId) :
    (replica.settleAll (outcomes outcome ids)).base = replica.base := by
  obtain ⟨_, hlast⟩ := During.start.settleAll hdecide ids
  exact hlast.base

open scoped Classical in
theorem pending_settleAll (hdecide : replica.FailuresDecideNothing outcome) {ids : List MutationId}
    (hall : ∀ held ∈ replica.pending, held.id ∈ ids) :
    (replica.settleAll (outcomes outcome ids)).pending = replica.pending.filter fun held => replica.Survives outcome held := by
  obtain ⟨still, hlast⟩ := During.start.settleAll hdecide ids
  rw [hlast.pending]
  refine List.filter_congr fun held hheld => ?_
  have hmem : held.id ∈ ids.reverse ++ [] := by simpa using hall held hheld
  rw [Bool.eq_iff_iff, decide_eq_true_iff]
  exact ⟨hlast.settled held hheld hmem, hlast.survivors held hheld⟩

theorem outcomes_append (first second : List MutationId) :
    outcomes outcome (first ++ second) = outcomes outcome first ++ outcomes outcome second :=
  List.map_append

theorem eq_outcomes_of_perm {settlements : List (MutationId × SettlementOutcome)} {ids : List MutationId}
    (hperm : settlements.Perm (outcomes outcome ids)) :
    settlements = outcomes outcome (settlements.map Prod.fst) ∧ (settlements.map Prod.fst).Perm ids := by
  constructor
  · unfold outcomes
    rw [List.map_map]
    refine (List.map_id _).symm.trans (List.map_congr_left fun settlement hmem => ?_)
    obtain ⟨id, _, rfl⟩ := List.mem_map.mp (hperm.mem_iff.mp hmem)
    rfl
  · have hids := hperm.map Prod.fst
    unfold outcomes at hids
    rw [List.map_map] at hids
    exact hids.trans (List.Perm.of_eq (List.map_id _))

/-- Failing a list of mutations drops them and leaves everything else as it is. -/
theorem settleAll_failed (ids : List MutationId) (hfailed : ∀ id ∈ ids, outcome id = .Failed) :
    (replica.settleAll (outcomes outcome ids)).base = replica.base ∧
      (replica.settleAll (outcomes outcome ids)).pending = replica.pending.filter (·.id ∉ ids) ∧
        ∀ id, id ∉ ids → (replica.settleAll (outcomes outcome ids)).accepted_at id = replica.accepted_at id := by
  induction ids generalizing replica with
  | nil => exact ⟨rfl, by simp [settleAll, outcomes], fun _ _ => rfl⟩
  | cons id rest ih =>
    have hhead : replica.settleAll (outcomes outcome (id :: rest)) =
        (replica.leave [id]).settleAll (outcomes outcome rest) := by
      unfold settleAll outcomes
      rw [List.map_cons, List.foldl_cons, hfailed id List.mem_cons_self, settle_failed]
    obtain ⟨hbase, hpending, hgates⟩ := @ih (replica.leave [id]) fun other hmem => hfailed other (List.mem_cons_of_mem _ hmem)
    rw [hhead]
    refine ⟨hbase, ?_, fun other hother => ?_⟩
    · rw [hpending, pending_leave, List.filter_filter]
      refine List.filter_congr fun held _ => ?_
      by_cases hsame : held.id = id <;> simp [hsame]
    · rw [List.mem_cons, not_or] at hother
      rw [hgates other hother.2, accepted_at_leave, if_neg (by simpa using hother.1)]

end Runs

section Independence

private theorem failuresDecideNothing_confirmed : replica.FailuresDecideNothing fun _ => .Confirmed := by
  intro key standing id _ _
  simp

/-- What confirming the rest leaves once some failures are in: all but what stands absorbed. -/
private theorem mem_confirmed_after_iff {failed confirmed : List MutationId}
    (hfailed : ∀ id ∈ failed, outcome id = .Failed) (hconfirmed : ∀ id ∈ confirmed, outcome id = .Confirmed)
    {held : PendingMutation κ ε} (hheld : held ∈ replica.pending) (hid : held.id ∈ confirmed)
    (hgate : replica.accepted_at held.id = none) :
    held ∈ ((replica.settleAll (outcomes outcome failed)).settleAll (outcomes outcome confirmed)).pending ↔
      ¬ replica.AbsorbedAmong held.key (fun other => other ∉ failed) held.id := by
  obtain ⟨hbase, hpending, hgates⟩ := @settleAll_failed κ σ ε _ _ replica outcome failed hfailed
  have hnot : held.id ∉ failed := by
    intro hmem
    have hboth := hconfirmed held.id hid
    rw [hfailed held.id hmem] at hboth
    cases hboth
  set before := replica.settleAll (outcomes outcome failed) with hbefore
  have hsame : outcomes outcome confirmed = outcomes (fun _ => .Confirmed) confirmed := by
    unfold outcomes
    exact List.map_congr_left fun id hmem => by rw [hconfirmed id hmem]
  have hstored : held ∈ before.pending := by
    rw [hpending]
    exact List.mem_filter.mpr ⟨hheld, by simpa using hnot⟩
  have hon : before.pendingOn held.key = (replica.pendingOn held.key).filter fun other => decide (other.id ∉ failed) := by
    unfold pendingOn
    rw [hpending, List.filter_filter, List.filter_filter]
    exact List.filter_congr fun _ _ => Bool.and_comm _ _
  rw [hsame, mem_settleAll_iff failuresDecideNothing_confirmed confirmed hstored hid]
  unfold Survives AbsorbedAmong
  rw [hgates held.id hnot, hon, hbase]
  simp [hgate]

private theorem absorbedAmong_congr {key : κ} {first second : MutationId → Bool} {id : MutationId}
    (hsame : ∀ held ∈ replica.pending, first held.id = second held.id) :
    replica.AbsorbedAmong key first id ↔ replica.AbsorbedAmong key second id := by
  have hfilter : (replica.pendingOn key).filter (fun held => first held.id) =
      (replica.pendingOn key).filter fun held => second held.id :=
    List.filter_congr fun held hmem => hsame held (List.mem_of_mem_filter hmem)
  unfold AbsorbedAmong
  rw [hfilter]

omit [DecidableEq κ] [Convergence σ ε] in
/-- The failing mutations that do not stand go first, those that stand can come before the confirmed or after. -/
private theorem perm_schedule (ids : List MutationId) (first second : MutationId → Bool) :
    (((ids.filter fun id => !first id).filter fun id => !second id) ++ ids.filter first ++
      (ids.filter fun id => !first id).filter second).Perm ids := by
  have hsplit := List.filter_append_perm first ids
  have hinner := List.filter_append_perm second (ids.filter fun id => !first id)
  refine List.Perm.trans ?_ hsplit
  refine List.Perm.trans List.perm_append_comm ?_
  rw [← List.append_assoc]
  refine List.Perm.trans (List.Perm.append_right _ hinner) ?_
  exact List.perm_append_comm

private theorem decides_of_independent (hindependent : replica.OrderIndependent outcome) (standing : MutationId → Bool)
    {held : PendingMutation κ ε} (hheld : held ∈ replica.pending) (hconfirmed : outcome held.id = .Confirmed)
    (hgate : replica.accepted_at held.id = none) :
    replica.AbsorbedAmong held.key (fun other => outcome other = .Confirmed || standing other) held.id ↔
      replica.AbsorbedAmong held.key (fun other => outcome other = .Confirmed) held.id := by
  set confirmed := replica.ids.filter fun other => decide (outcome other = .Confirmed) with hconfirmedIds
  set failing := replica.ids.filter fun other => !decide (outcome other = .Confirmed) with hfailing
  set gone := failing.filter fun other => !standing other with hgone
  set kept := failing.filter standing with hkept
  have hfailed : ∀ other ∈ failing, outcome other = .Failed := by
    intro other hmem
    have hnot := (List.mem_filter.mp hmem).2
    cases houtcome : outcome other with
    | Failed => rfl
    | Confirmed => simp [houtcome] at hnot
  have hgoneFailed : ∀ other ∈ gone, outcome other = .Failed :=
    fun other hmem => hfailed other (List.mem_of_mem_filter hmem)
  have hkeptFailed : ∀ other ∈ kept, outcome other = .Failed :=
    fun other hmem => hfailed other (List.mem_of_mem_filter hmem)
  have hbothFailed : ∀ other ∈ gone ++ kept, outcome other = .Failed := by
    intro other hmem
    obtain hmem | hmem := List.mem_append.mp hmem
    · exact hgoneFailed other hmem
    · exact hkeptFailed other hmem
  have hsure : ∀ other ∈ confirmed, outcome other = .Confirmed :=
    fun other hmem => of_decide_eq_true (List.mem_filter.mp hmem).2
  have hid : held.id ∈ confirmed := List.mem_filter.mpr ⟨List.mem_map_of_mem hheld, decide_eq_true hconfirmed⟩
  have hkeptId : held.id ∉ kept := by
    intro hmem
    have hfails := hkeptFailed held.id hmem
    rw [hconfirmed] at hfails
    cases hfails
  -- the failures that stand arrive after the confirmations, or before them
  have hlate : (outcomes outcome (gone ++ confirmed ++ kept)).Perm (outcomes outcome replica.ids) :=
    (perm_schedule replica.ids _ standing).map _
  have hearly : (outcomes outcome (gone ++ kept ++ confirmed)).Perm (outcomes outcome replica.ids) := by
    refine List.Perm.trans (List.Perm.map _ ?_) hlate
    rw [List.append_assoc, List.append_assoc]
    exact List.Perm.append_left _ List.perm_append_comm
  have hsame := (hindependent _ _ hlate hearly).1
  rw [outcomes_append, outcomes_append, settleAll_append, settleAll_append, (settleAll_failed kept hkeptFailed).2.1,
    outcomes_append, settleAll_append] at hsame
  have hlateMem := mem_confirmed_after_iff hgoneFailed hsure hheld hid hgate
  have hearlyMem := mem_confirmed_after_iff hbothFailed hsure hheld hid hgate
  rw [← hsame, List.mem_filter, hlateMem] at hearlyMem
  have hiff : replica.AbsorbedAmong held.key (fun other => other ∉ gone) held.id ↔
      replica.AbsorbedAmong held.key (fun other => other ∉ gone ++ kept) held.id := by
    simp only [hkeptId, not_false_eq_true, decide_true, and_true] at hearlyMem
    exact not_iff_not.mp hearlyMem
  have hmemFailing : ∀ other ∈ replica.pending, other.id ∈ failing ↔ outcome other.id ≠ .Confirmed := by
    intro other hother
    rw [hfailing, List.mem_filter]
    simp [ids, List.mem_map_of_mem hother]
  have hmemGone : ∀ other, other ∈ gone ↔ other ∈ failing ∧ standing other = false := by
    intro other
    rw [hgone, List.mem_filter, Bool.not_eq_true']
  have hmemKept : ∀ other, other ∈ kept ↔ other ∈ failing ∧ standing other = true := by
    intro other
    rw [hkept, List.mem_filter]
  have hwithStanding : replica.AbsorbedAmong held.key (fun other => outcome other = .Confirmed || standing other) held.id ↔
      replica.AbsorbedAmong held.key (fun other => other ∉ gone) held.id := by
    refine absorbedAmong_congr fun other hother => ?_
    rw [Bool.eq_iff_iff, decide_eq_true_iff, hmemGone, hmemFailing other hother]
    cases hstands : standing other.id <;> simp
  have hwithout : replica.AbsorbedAmong held.key (fun other => outcome other = .Confirmed) held.id ↔
      replica.AbsorbedAmong held.key (fun other => other ∉ gone ++ kept) held.id := by
    refine absorbedAmong_congr fun other hother => ?_
    rw [Bool.eq_iff_iff, decide_eq_true_iff, decide_eq_true_iff, List.mem_append, hmemGone, hmemKept,
      hmemFailing other hother]
    cases hstands : standing other.id <;> simp
  rw [hwithStanding, hwithout]
  exact hiff

/-- Settlements arrive in any order with one result exactly when which of the
    failing mutations still stand never decides whether a confirmed one is absorbed. -/
theorem settlement_order_independent_iff (replica : Replica κ σ ε) (outcome : MutationId → SettlementOutcome) :
    replica.OrderIndependent outcome ↔ replica.FailuresDecideNothing outcome := by
  constructor
  · intro hindependent key standing id hconfirmed hgate
    by_cases hheld : ∃ held ∈ replica.pending, held.id = id ∧ held.key = key
    · obtain ⟨held, hheld, rfl, rfl⟩ := hheld
      exact decides_of_independent hindependent standing hheld hconfirmed hgate
    · have hnone : ∀ standing : MutationId → Bool, ¬ replica.AbsorbedAmong key standing id := by
        intro standing habsorbed
        obtain ⟨held, hmem, hid⟩ := List.mem_map.mp (absorbed_sublist.mem habsorbed)
        obtain ⟨hstored, hkey⟩ := List.mem_filter.mp (List.mem_of_mem_filter hmem)
        exact hheld ⟨held, hstored, hid, of_decide_eq_true hkey⟩
      exact iff_of_false (hnone _) (hnone _)
  · intro hdecide first second hfirst hsecond
    obtain ⟨hfirstEq, hfirstPerm⟩ := eq_outcomes_of_perm hfirst
    obtain ⟨hsecondEq, hsecondPerm⟩ := eq_outcomes_of_perm hsecond
    have hfirstAll : ∀ held ∈ replica.pending, held.id ∈ first.map Prod.fst :=
      fun held hheld => hfirstPerm.mem_iff.mpr (List.mem_map_of_mem hheld)
    have hsecondAll : ∀ held ∈ replica.pending, held.id ∈ second.map Prod.fst :=
      fun held hheld => hsecondPerm.mem_iff.mpr (List.mem_map_of_mem hheld)
    have hpending : (replica.settleAll first).pending = (replica.settleAll second).pending := by
      rw [hfirstEq, hsecondEq, pending_settleAll hdecide hfirstAll, pending_settleAll hdecide hsecondAll]
    have hbase : (replica.settleAll first).base = (replica.settleAll second).base := by
      rw [hfirstEq, hsecondEq, base_settleAll hdecide, base_settleAll hdecide]
    refine ⟨hpending, fun key => ?_⟩
    unfold project pendingOn
    rw [hpending, hbase]

end Independence

section Runs

def flag (id : MutationId) : PendingMessageMutation :=
  { id, key := "m1", effect := .SetKeywords ["$flagged"] [] }

/-- One message, flagged twice. -/
def flaggedTwice : MessageReplica :=
  ((Replica.new.set_base "m1" { keywords := [], mailbox_ids := ["inbox"] }).accept (flag "op1")).accept (flag "op2")

def firstFails (id : MutationId) : SettlementOutcome := if id = "op1" then .Failed else .Confirmed

/-- A confirmed flag is absorbed by a predecessor that fails later, and is gone when it does. -/
theorem confirmed_lost_to_failed_predecessor : ¬ flaggedTwice.OrderIndependent firstFails := by
  intro hindependent
  have hfirst : [("op2", SettlementOutcome.Confirmed), ("op1", .Failed)].Perm
      (outcomes firstFails flaggedTwice.ids) := List.Perm.swap _ _ _
  have hsecond : [("op1", SettlementOutcome.Failed), ("op2", .Confirmed)].Perm
      (outcomes firstFails flaggedTwice.ids) := List.Perm.refl _
  have hpending := congrArg List.length (hindependent _ _ hfirst hsecond).1
  cases hpending

end Runs

end Replica

end posthaste.replica
