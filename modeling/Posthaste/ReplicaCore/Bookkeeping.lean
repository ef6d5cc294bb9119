import Posthaste.Library.Transition
import Posthaste.ReplicaCore.Settlement

namespace posthaste.replica

/-- A call on a replica. -/
inductive Action (κ σ ε : Type) where
  | accept (mutation : PendingMutation κ ε)
  | accept_at (mutation : PendingMutation κ ε) (version : Option UInt64)
  | mark_confirmed (id : MutationId)
  | settle (id : MutationId) (outcome : SettlementOutcome)
  | set_base (key : κ) (state : σ)
  | remove_base (key : κ)
  | retire_absorbed (key : κ)
  | retire_absorbed_at (key : κ) (current_version : Option UInt64)
  | drop_pending (id : MutationId)
  | remove_pending (key : κ)

/-- A replica with the version each mutation was first accepted at. -/
structure Ledger (κ σ ε : Type) where
  node : Replica κ σ ε
  versions : MutationId → Option UInt64

namespace Ledger

variable {κ σ ε : Type} [DecidableEq κ] [Convergence σ ε] {ledger : Ledger κ σ ε} {action : Action κ σ ε}

def next (replica : Replica κ σ ε) : Action κ σ ε → Replica κ σ ε
  | .accept mutation => replica.accept mutation
  | .accept_at mutation version => replica.accept_at mutation version
  | .mark_confirmed id => replica.mark_confirmed id
  | .settle id outcome => (replica.settle id outcome).2
  | .set_base key state => replica.set_base key state
  | .remove_base key => replica.remove_base key
  | .retire_absorbed key => (replica.retire_absorbed key).2
  | .retire_absorbed_at key current_version => (replica.retire_absorbed_at key current_version).2
  | .drop_pending id => (replica.drop_pending id).2
  | .remove_pending key => (replica.remove_pending key).2

/-- The mutation a call offers, with the version it comes with. -/
def offered : Action κ σ ε → Option (PendingMutation κ ε × Option UInt64)
  | .accept mutation => some (mutation, none)
  | .accept_at mutation version => some (mutation, version)
  | _ => none

/-- Whether what leaves the outbox in this call is retired, not dropped. -/
def retires : Action κ σ ε → Bool
  | .settle _ .Confirmed | .retire_absorbed _ | .retire_absorbed_at _ _ => true
  | _ => false

def step (ledger : Ledger κ σ ε) (action : Action κ σ ε) : Ledger κ σ ε where
  node := next ledger.node action
  versions :=
    match offered action with
    | some (mutation, version) =>
      if mutation.id ∈ ledger.node.ids then ledger.versions
      else Function.update ledger.versions mutation.id version
    | none => ledger.versions

/-- Runs of calls on a fresh replica. -/
def system (κ σ ε : Type) [DecidableEq κ] [Convergence σ ε] : TransitionSystem (Ledger κ σ ε) (Action κ σ ε) where
  start ledger := ledger = { node := Replica.new, versions := fun _ => none }
  step ledger action after := after = ledger.step action

/-- Every mark and every captured version belongs to a pending mutation, and is the one it was accepted with. -/
structure Kept (ledger : Ledger κ σ ε) : Prop where
  confirmed : ∀ id ∈ ledger.node.confirmed, id ∈ ledger.node.ids
  accepted_at : ∀ id, ledger.node.accepted_at id ≠ none → id ∈ ledger.node.ids
  versions : ∀ id ∈ ledger.node.ids, ledger.node.accepted_at id = ledger.versions id

/-- What a call owes its caller. -/
structure Faithful (ledger : Ledger κ σ ε) (action : Action κ σ ε) : Prop where
  duplicate : ∀ mutation version, offered action = some (mutation, version) → mutation.id ∈ ledger.node.ids →
    next ledger.node action = ledger.node
  versioned : ∀ id ∈ ledger.node.ids, ∀ version, ledger.versions id = some version → retires action = true →
    id ∉ (next ledger.node action).ids →
      ∃ key current, action = .retire_absorbed_at key (some current) ∧ version < current
  settled : ∀ id outcome, action = .settle id outcome →
    ((ledger.node.settle id outcome).1.retired = true ↔
      id ∈ ledger.node.ids ∧ id ∉ (next ledger.node action).ids)

/-- A confirmation that retires a sibling retires its own mutation too: no other
    confirmed, unversioned mutation of the entity is absorbed, or this one is as well. -/
def RetiresItself (replica : Replica κ σ ε) (held : PendingMutation κ ε) : Prop :=
  held.id ∈ Replica.absorbed (replica.base held.key) (replica.pendingOn held.key) ∧ replica.accepted_at held.id = none ∨
    ∀ other ∈ replica.pendingOn held.key, other.id ≠ held.id → other.id ∈ replica.confirmed →
      replica.accepted_at other.id = none →
        other.id ∉ Replica.absorbed (replica.base held.key) (replica.pendingOn held.key)

/-- The calls that keep the books: a mark goes to a pending mutation, a held id
    is offered again only with the version it has, and a confirmation retires no sibling alone. -/
def Careful (ledger : Ledger κ σ ε) : Action κ σ ε → Prop
  | .mark_confirmed id => id ∈ ledger.node.ids
  | .accept_at mutation (some version) =>
    mutation.id ∈ ledger.node.ids → ledger.node.accepted_at mutation.id = some version
  | .settle id .Confirmed => ∀ held ∈ ledger.node.pending, held.id = id → RetiresItself ledger.node held
  | _ => True

section Calls

variable {replica : Replica κ σ ε} {ids : List MutationId} {mutation : PendingMutation κ ε}

omit [DecidableEq κ] [Convergence σ ε] in
theorem ids_leave : (replica.leave ids).ids = replica.ids.filter (· ∉ ids) := by
  unfold Replica.ids
  rw [Replica.pending_leave, List.filter_map]
  rfl

omit [DecidableEq κ] [Convergence σ ε] in
theorem accept_of_held (hheld : mutation.id ∈ replica.ids) : replica.accept mutation = replica := by
  unfold Replica.accept
  exact dif_pos hheld

omit [DecidableEq κ] [Convergence σ ε] in
theorem ids_accept_of_new (hnew : mutation.id ∉ replica.ids) : (replica.accept mutation).ids = replica.ids ++ [mutation.id] := by
  have hfresh : mutation.id ∉ replica.pending.map PendingMutation.id := hnew
  unfold Replica.accept Replica.ids
  rw [dif_neg hfresh]
  exact List.map_append

omit [DecidableEq κ] [Convergence σ ε] in
@[simp] theorem confirmed_accept : (replica.accept mutation).confirmed = replica.confirmed := by
  unfold Replica.accept
  split_ifs <;> rfl

omit [DecidableEq κ] [Convergence σ ε] in
@[simp] theorem accepted_at_accept : (replica.accept mutation).accepted_at = replica.accepted_at := by
  unfold Replica.accept
  split_ifs <;> rfl

omit [DecidableEq κ] [Convergence σ ε] in
theorem accepted_at_capture {id : MutationId} {version : Option UInt64} :
    (replica.capture id version).accepted_at = Function.update replica.accepted_at id version := rfl

omit [Convergence σ ε] in
theorem remove_pending_eq (key : κ) :
    (replica.remove_pending key).2 = replica.leave ((replica.pendingOn key).map PendingMutation.id) := by
  unfold Replica.remove_pending
  by_cases hempty : ((replica.pendingOn key).map PendingMutation.id).isEmpty = true
  · simp only [hempty, if_true]
    rw [List.isEmpty_iff.mp hempty]
    apply Replica.ext
    · rfl
    · simp
    · simp
    · funext id
      simp
  · simp only [hempty]
    rfl

omit [DecidableEq κ] [Convergence σ ε] in
theorem drop_pending_eq (id : MutationId) : (replica.drop_pending id).2 = replica.leave [id] := by
  unfold Replica.drop_pending Replica.leave
  simp only [List.mem_singleton]

omit [DecidableEq κ] [Convergence σ ε] in
/-- A call that lets mutations leave keeps the books of the rest. -/
theorem Kept.leave (hkept : Kept ledger) (ids : List MutationId) :
    Kept ({ node := ledger.node.leave ids, versions := ledger.versions } : Ledger κ σ ε) where
  confirmed id hmem := by
    obtain ⟨hconfirmed, hstays⟩ := Finset.mem_filter.mp hmem
    rw [ids_leave]
    exact List.mem_filter.mpr ⟨hkept.confirmed id hconfirmed, decide_eq_true hstays⟩
  accepted_at id hsome := by
    rw [Replica.accepted_at_leave] at hsome
    split_ifs at hsome with hleaves
    · exact absurd rfl hsome
    · rw [ids_leave]
      exact List.mem_filter.mpr ⟨hkept.accepted_at id hsome, decide_eq_true hleaves⟩
  versions id hmem := by
    rw [ids_leave] at hmem
    obtain ⟨hpending, hstays⟩ := List.mem_filter.mp hmem
    rw [Replica.accepted_at_leave, if_neg (of_decide_eq_true hstays)]
    exact hkept.versions id hpending

omit [DecidableEq κ] [Convergence σ ε] in
theorem Kept.mark (hkept : Kept ledger) {id : MutationId} (hpending : id ∈ ledger.node.ids) :
    Kept ({ node := ledger.node.mark_confirmed id, versions := ledger.versions } : Ledger κ σ ε) where
  confirmed other hmem := by
    obtain rfl | hmem := Finset.mem_insert.mp hmem
    · exact hpending
    · exact hkept.confirmed other hmem
  accepted_at := hkept.accepted_at
  versions := hkept.versions

omit [DecidableEq κ] [Convergence σ ε] in
/-- A newly accepted mutation brings its version. -/
theorem Kept.accept (hkept : Kept ledger) (hnew : mutation.id ∉ ledger.node.ids) (version : Option UInt64) :
    Kept ({
      node := (ledger.node.capture mutation.id version).accept mutation
      versions := Function.update ledger.versions mutation.id version } : Ledger κ σ ε) where
  confirmed id hmem := by
    rw [confirmed_accept] at hmem
    rw [ids_accept_of_new (show mutation.id ∉ (ledger.node.capture mutation.id version).ids from hnew)]
    exact List.mem_append_left _ (hkept.confirmed id hmem)
  accepted_at id hsome := by
    rw [accepted_at_accept] at hsome
    rw [ids_accept_of_new (show mutation.id ∉ (ledger.node.capture mutation.id version).ids from hnew)]
    by_cases hsame : id = mutation.id
    · rw [hsame]
      exact List.mem_append_right _ (List.mem_singleton_self _)
    · rw [accepted_at_capture, Function.update_of_ne hsame] at hsome
      exact List.mem_append_left _ (hkept.accepted_at id hsome)
  versions id hmem := by
    show _ = Function.update ledger.versions mutation.id version id
    rw [accepted_at_accept]
    rw [ids_accept_of_new (show mutation.id ∉ (ledger.node.capture mutation.id version).ids from hnew)] at hmem
    by_cases hsame : id = mutation.id
    · rw [hsame, accepted_at_capture, Function.update_self, Function.update_self]
    · rw [accepted_at_capture, Function.update_of_ne hsame, Function.update_of_ne hsame]
      obtain hmem | hmem := List.mem_append.mp hmem
      · exact hkept.versions id hmem
      · exact absurd (List.mem_singleton.mp hmem) hsame

end Calls

section Steps

/-- Offering a held id with the version it has changes nothing. -/
theorem next_of_held {mutation : PendingMutation κ ε} {version : Option UInt64}
    (hoffered : offered action = some (mutation, version)) (hheld : mutation.id ∈ ledger.node.ids)
    (hcareful : Careful ledger action) : next ledger.node action = ledger.node := by
  cases action with
  | accept other =>
    cases hoffered
    exact accept_of_held hheld
  | accept_at other at_ =>
    cases hoffered
    cases version with
    | none => exact accept_of_held hheld
    | some version =>
      have hsame : ledger.node.capture mutation.id (some version) = ledger.node := by
        unfold Replica.capture
        rw [← hcareful hheld, Function.update_eq_self]
      show (ledger.node.capture mutation.id (some version)).accept mutation = ledger.node
      rw [hsame, accept_of_held hheld]
  | mark_confirmed | settle | set_base | remove_base | retire_absorbed | retire_absorbed_at | drop_pending
    | remove_pending => cases hoffered

/-- What a retirement takes has no version, or one below the current. -/
theorem version_of_retired {replica : Replica κ σ ε} {key : κ} {current_version : Option UInt64} {id : MutationId}
    {version : UInt64} (hretired : id ∈ replica.retired key current_version)
    (hversion : replica.accepted_at id = some version) : ∃ current, current_version = some current ∧ version < current := by
  have hgate := (Replica.mem_retired_iff.mp hretired).2.2
  unfold Replica.gatePasses at hgate
  rw [hversion] at hgate
  simpa [Option.any_eq_true] using hgate

omit [DecidableEq κ] [Convergence σ ε] in
theorem mem_of_left {replica : Replica κ σ ε} {ids : List MutationId} {id : MutationId} (hmem : id ∈ replica.ids)
    (hgone : id ∉ (replica.leave ids).ids) : id ∈ ids := by
  by_contra hstays
  rw [ids_leave] at hgone
  exact hgone (List.mem_filter.mpr ⟨hmem, decide_eq_true hstays⟩)

private theorem retired_of_pending {held : PendingMutation κ ε} (hheld : held ∈ ledger.node.pending) :
    (next ledger.node (.settle held.id .Confirmed)).ids =
      ledger.node.ids.filter (· ∉ (ledger.node.mark_confirmed held.id).retired held.key none) := by
  show ((ledger.node.settle held.id .Confirmed).2).ids = _
  rw [Replica.settle_confirmed_of_pending hheld, ids_leave]
  rfl

private theorem mem_marked_retired_iff {held : PendingMutation κ ε} {id : MutationId} :
    id ∈ (ledger.node.mark_confirmed held.id).retired held.key none ↔
      id ∈ Replica.absorbed (ledger.node.base held.key) (ledger.node.pendingOn held.key) ∧
        (id = held.id ∨ id ∈ ledger.node.confirmed) ∧ ledger.node.accepted_at id = none := by
  rw [Replica.mem_retired_iff]
  refine and_congr Iff.rfl (and_congr Finset.mem_insert ?_)
  show ledger.node.gatePasses none id = true ↔ _
  unfold Replica.gatePasses
  cases ledger.node.accepted_at id <;> simp

/-- A confirmation reports its own retirement exactly when it retires no sibling alone. -/
theorem settled_confirmed_iff {held : PendingMutation κ ε} (hheld : held ∈ ledger.node.pending) :
    ((ledger.node.settle held.id .Confirmed).1.retired = true ↔
      held.id ∈ ledger.node.ids ∧ held.id ∉ (next ledger.node (.settle held.id .Confirmed)).ids) ↔
      RetiresItself ledger.node held := by
  have hmem : held.id ∈ ledger.node.ids := List.mem_map_of_mem hheld
  have hself : held.id ∈ (ledger.node.mark_confirmed held.id).retired held.key none ↔
      held.id ∈ Replica.absorbed (ledger.node.base held.key) (ledger.node.pendingOn held.key) ∧
        ledger.node.accepted_at held.id = none := by
    rw [mem_marked_retired_iff]
    simp
  have hleft : held.id ∉ (next ledger.node (.settle held.id .Confirmed)).ids ↔
      held.id ∈ (ledger.node.mark_confirmed held.id).retired held.key none := by
    rw [retired_of_pending hheld, List.mem_filter]
    simp [hmem]
  rw [hleft, hself, Replica.settle_confirmed_of_pending hheld]
  simp only [hmem, true_and, Bool.not_eq_true', List.isEmpty_eq_false_iff_exists_mem]
  unfold RetiresItself
  constructor
  · intro hreported
    by_cases hown : held.id ∈ Replica.absorbed (ledger.node.base held.key) (ledger.node.pendingOn held.key) ∧
        ledger.node.accepted_at held.id = none
    · exact Or.inl hown
    · refine Or.inr fun other hother hne hconfirmed hgate habsorbed => hown (hreported.mp ⟨other.id, ?_⟩)
      exact mem_marked_retired_iff.mpr ⟨habsorbed, Or.inr hconfirmed, hgate⟩
  · rintro (hown | hothers)
    · exact ⟨fun _ => hown, fun _ => ⟨held.id, hself.mpr hown⟩⟩
    · refine ⟨fun hany => ?_, fun hown => ⟨held.id, hself.mpr hown⟩⟩
      obtain ⟨id, hretired⟩ := hany
      obtain ⟨habsorbed, hmarked, hgate⟩ := mem_marked_retired_iff.mp hretired
      obtain rfl | hconfirmed := hmarked
      · exact ⟨habsorbed, hgate⟩
      · obtain ⟨other, hother, rfl⟩ := List.mem_map.mp (Replica.absorbed_sublist.mem habsorbed)
        by_cases hne : other.id = held.id
        · rw [hne] at habsorbed hgate
          exact ⟨habsorbed, hgate⟩
        · exact absurd habsorbed (hothers other hother hne hconfirmed hgate)

omit [DecidableEq κ] [Convergence σ ε] in
theorem exists_pending_of_mem {replica : Replica κ σ ε} {id : MutationId} (hmem : id ∈ replica.ids) :
    ∃ held ∈ replica.pending, held.id = id := List.mem_map.mp hmem

theorem step_eq_of_offered_none (hnone : offered action = none) :
    ledger.step action = { node := next ledger.node action, versions := ledger.versions } := by
  unfold step
  simp only [hnone]

theorem step_eq_of_held {mutation : PendingMutation κ ε} {version : Option UInt64}
    (hoffered : offered action = some (mutation, version)) (hheld : mutation.id ∈ ledger.node.ids) :
    ledger.step action = { node := next ledger.node action, versions := ledger.versions } := by
  unfold step
  simp only [hoffered, if_pos hheld]

theorem step_eq_of_new {mutation : PendingMutation κ ε} {version : Option UInt64}
    (hoffered : offered action = some (mutation, version)) (hnew : mutation.id ∉ ledger.node.ids) :
    ledger.step action =
      { node := next ledger.node action, versions := Function.update ledger.versions mutation.id version } := by
  unfold step
  simp only [hoffered, if_neg hnew]

/-- Offering a new id leaves no version behind but its own. -/
theorem next_of_new {mutation : PendingMutation κ ε} {version : Option UInt64} (hkept : Kept ledger)
    (hoffered : offered action = some (mutation, version)) (hnew : mutation.id ∉ ledger.node.ids) :
    next ledger.node action = (ledger.node.capture mutation.id version).accept mutation := by
  have hnone : ledger.node.accepted_at mutation.id = none := by
    by_contra hsome
    exact hnew (hkept.accepted_at mutation.id hsome)
  have hsame : ledger.node.capture mutation.id none = ledger.node := by
    unfold Replica.capture
    rw [← hnone, Function.update_eq_self]
  cases action with
  | accept other =>
    cases hoffered
    rw [hsame]
    rfl
  | accept_at other at_ =>
    cases hoffered
    cases version with
    | none =>
      rw [hsame]
      rfl
    | some version => rfl
  | mark_confirmed | settle | set_base | remove_base | retire_absorbed | retire_absorbed_at | drop_pending
    | remove_pending => cases hoffered

/-- What leaves in a call that offers nothing: the marks it may add, and the mutations it takes. -/
theorem next_leaves (hnone : offered action = none) :
    (∃ id, action = .mark_confirmed id) ∨
      (∃ held ∈ ledger.node.pending, action = .settle held.id .Confirmed) ∨
      (∃ ids, (next ledger.node action).ids = (ledger.node.leave ids).ids ∧
        (next ledger.node action).confirmed = (ledger.node.leave ids).confirmed ∧
        (next ledger.node action).accepted_at = (ledger.node.leave ids).accepted_at) := by
  have hnothing : ledger.node.leave [] = ledger.node := by
    apply Replica.ext
    · rfl
    · simp
    · simp
    · funext id
      simp
  cases action with
  | accept | accept_at => cases hnone
  | mark_confirmed id => exact Or.inl ⟨id, rfl⟩
  | settle id outcome =>
    cases outcome with
    | Confirmed =>
      by_cases hpending : id ∈ ledger.node.ids
      · obtain ⟨held, hheld, rfl⟩ := exists_pending_of_mem hpending
        exact Or.inr (Or.inl ⟨held, hheld, rfl⟩)
      · have hsame : next ledger.node (.settle id .Confirmed) = ledger.node :=
          congrArg Prod.snd (Replica.settle_confirmed_of_unknown hpending)
        refine Or.inr (Or.inr ⟨[], ?_⟩)
        rw [hsame, hnothing]
        exact ⟨rfl, rfl, rfl⟩
    | Failed =>
      have hsame : next ledger.node (.settle id .Failed) = ledger.node.leave [id] := Replica.settle_failed
      refine Or.inr (Or.inr ⟨[id], ?_⟩)
      rw [hsame]
      exact ⟨rfl, rfl, rfl⟩
  | set_base | remove_base =>
    refine Or.inr (Or.inr ⟨[], ?_⟩)
    rw [hnothing]
    exact ⟨rfl, rfl, rfl⟩
  | retire_absorbed key =>
    have hsame : next ledger.node (.retire_absorbed key) = ledger.node.leave (ledger.node.retired key none) :=
      congrArg Prod.snd (Replica.retire_absorbed_at_eq none)
    refine Or.inr (Or.inr ⟨ledger.node.retired key none, ?_⟩)
    rw [hsame]
    exact ⟨rfl, rfl, rfl⟩
  | retire_absorbed_at key current =>
    have hsame : next ledger.node (.retire_absorbed_at key current) = ledger.node.leave (ledger.node.retired key current) :=
      congrArg Prod.snd (Replica.retire_absorbed_at_eq current)
    refine Or.inr (Or.inr ⟨ledger.node.retired key current, ?_⟩)
    rw [hsame]
    exact ⟨rfl, rfl, rfl⟩
  | drop_pending id =>
    have hsame : next ledger.node (.drop_pending id) = ledger.node.leave [id] := drop_pending_eq id
    refine Or.inr (Or.inr ⟨[id], ?_⟩)
    rw [hsame]
    exact ⟨rfl, rfl, rfl⟩
  | remove_pending key =>
    have hsame : next ledger.node (.remove_pending key) =
        ledger.node.leave ((ledger.node.pendingOn key).map PendingMutation.id) := remove_pending_eq key
    refine Or.inr (Or.inr ⟨(ledger.node.pendingOn key).map PendingMutation.id, ?_⟩)
    rw [hsame]
    exact ⟨rfl, rfl, rfl⟩

omit [DecidableEq κ] [Convergence σ ε] in
theorem Kept.congr {first second : Ledger κ σ ε} (hkept : Kept first) (hids : second.node.ids = first.node.ids)
    (hconfirmed : second.node.confirmed = first.node.confirmed)
    (haccepted : second.node.accepted_at = first.node.accepted_at) (hversions : second.versions = first.versions) :
    Kept second where
  confirmed := by
    rw [hids, hconfirmed]
    exact hkept.confirmed
  accepted_at := by
    rw [hids, haccepted]
    exact hkept.accepted_at
  versions := by
    rw [hids, haccepted, hversions]
    exact hkept.versions

/-- A careful call keeps the books. -/
theorem kept_step (hkept : Kept ledger) (hcareful : Careful ledger action) : Kept (ledger.step action) := by
  cases hoffered : offered action with
  | some offer =>
    obtain ⟨mutation, version⟩ := offer
    by_cases hheld : mutation.id ∈ ledger.node.ids
    · rw [step_eq_of_held hoffered hheld, next_of_held hoffered hheld hcareful]
      exact hkept
    · rw [step_eq_of_new hoffered hheld, next_of_new hkept hoffered hheld]
      exact hkept.accept hheld version
  | none =>
    rw [step_eq_of_offered_none hoffered]
    obtain ⟨id, rfl⟩ | ⟨held, hheld, rfl⟩ | ⟨ids, hids, hconfirmed, haccepted⟩ :=
      @next_leaves κ σ ε _ _ ledger action hoffered
    · exact hkept.mark hcareful
    · have hpending : held.id ∈ ledger.node.ids := List.mem_map_of_mem hheld
      have hmarked := hkept.mark hpending
      have hsame : next ledger.node (.settle held.id .Confirmed) = (ledger.node.mark_confirmed held.id).leave
          ((ledger.node.mark_confirmed held.id).retired held.key none) :=
        congrArg Prod.snd (Replica.settle_confirmed_of_pending hheld)
      rw [hsame]
      exact hmarked.leave _
    · exact (hkept.leave ids).congr hids hconfirmed haccepted rfl

/-- A failure reports whether its mutation was there. -/
theorem settled_failed_iff {id : MutationId} :
    (ledger.node.settle id .Failed).1.retired = true ↔ id ∈ ledger.node.ids := by
  show ((ledger.node.pending.filter (·.id ≠ id)).length != ledger.node.pending.length) = true ↔ _
  rw [bne_iff_ne, ne_eq, List.length_filter_eq_length_iff]
  constructor
  · intro hdropped
    by_contra habsent
    refine hdropped fun held hheld => decide_eq_true fun hsame => habsent ?_
    exact hsame ▸ List.mem_map_of_mem hheld
  · intro hmem hall
    obtain ⟨held, hheld, hid⟩ := exists_pending_of_mem hmem
    exact of_decide_eq_true (hall held hheld) hid

/-- A careful call pays its caller what it owes. -/
theorem faithful_of_careful (hkept : Kept ledger) (hcareful : Careful ledger action) : Faithful ledger action where
  duplicate _ _ hoffered hheld := next_of_held hoffered hheld hcareful
  versioned id hmem version hversion hretires hgone := by
    have haccepted : ledger.node.accepted_at id = some version := (hkept.versions id hmem).trans hversion
    cases action with
    | retire_absorbed key =>
      have hsame : next ledger.node (.retire_absorbed key) = ledger.node.leave (ledger.node.retired key none) :=
        congrArg Prod.snd (Replica.retire_absorbed_at_eq none)
      rw [hsame] at hgone
      obtain ⟨current, hcurrent, _⟩ := version_of_retired (mem_of_left hmem hgone) haccepted
      cases hcurrent
    | retire_absorbed_at key current_version =>
      have hsame : next ledger.node (.retire_absorbed_at key current_version) =
          ledger.node.leave (ledger.node.retired key current_version) :=
        congrArg Prod.snd (Replica.retire_absorbed_at_eq current_version)
      rw [hsame] at hgone
      obtain ⟨current, hcurrent, hbelow⟩ := version_of_retired (mem_of_left hmem hgone) haccepted
      exact ⟨key, current, by rw [hcurrent], hbelow⟩
    | settle other outcome =>
      cases outcome with
      | Failed => cases hretires
      | Confirmed =>
        by_cases hpending : other ∈ ledger.node.ids
        · obtain ⟨held, hheld, rfl⟩ := exists_pending_of_mem hpending
          rw [retired_of_pending hheld, List.mem_filter, not_and] at hgone
          have hretired : id ∈ (ledger.node.mark_confirmed held.id).retired held.key none := by
            by_contra hstays
            exact hgone hmem (decide_eq_true hstays)
          have hnone := (mem_marked_retired_iff.mp hretired).2.2
          rw [haccepted] at hnone
          cases hnone
        · have hsame : next ledger.node (.settle other .Confirmed) = ledger.node :=
            congrArg Prod.snd (Replica.settle_confirmed_of_unknown hpending)
          rw [hsame] at hgone
          exact absurd hmem hgone
    | accept | accept_at | mark_confirmed | set_base | remove_base | drop_pending | remove_pending => cases hretires
  settled id outcome hsettle := by
    subst hsettle
    cases outcome with
    | Failed =>
      have hsame : next ledger.node (.settle id .Failed) = ledger.node.leave [id] := Replica.settle_failed
      rw [hsame, ids_leave, List.mem_filter]
      simp only [List.mem_singleton, not_true, decide_false, Bool.false_eq_true, and_false, not_false_eq_true, and_true]
      exact settled_failed_iff
    | Confirmed =>
      by_cases hpending : id ∈ ledger.node.ids
      · obtain ⟨held, hheld, rfl⟩ := exists_pending_of_mem hpending
        exact (settled_confirmed_iff hheld).mpr (hcareful held hheld rfl)
      · rw [Replica.settle_confirmed_of_unknown hpending]
        exact iff_of_false Bool.false_ne_true fun hleft => hpending hleft.1

/-- Only a careful call keeps the books and pays what it owes. -/
theorem careful_of_faithful (hafter : Kept (ledger.step action))
    (hfaithful : Faithful ledger action) : Careful ledger action := by
  cases action with
  | mark_confirmed id => exact hafter.confirmed id (Finset.mem_insert_self _ _)
  | accept_at mutation version =>
    cases version with
    | none => trivial
    | some version =>
      intro hheld
      have hsame : next ledger.node (.accept_at mutation (some version)) = ledger.node :=
        hfaithful.duplicate mutation (some version) rfl hheld
      have hcaptured : (next ledger.node (.accept_at mutation (some version))).accepted_at mutation.id = some version := by
        show ((ledger.node.capture mutation.id (some version)).accept mutation).accepted_at mutation.id = some version
        rw [accepted_at_accept, accepted_at_capture, Function.update_self]
      rw [hsame] at hcaptured
      exact hcaptured
  | settle id outcome =>
    cases outcome with
    | Failed => trivial
    | Confirmed =>
      intro held hheld hid
      subst hid
      exact (settled_confirmed_iff hheld).mp (hfaithful.settled held.id .Confirmed rfl)
  | accept | set_base | remove_base | retire_absorbed | retire_absorbed_at | drop_pending | remove_pending => trivial

end Steps

section Runs

omit [DecidableEq κ] [Convergence σ ε] in
theorem kept_start : Kept ({ node := Replica.new, versions := fun _ => none } : Ledger κ σ ε) where
  confirmed id hmem := absurd hmem (Finset.notMem_empty id)
  accepted_at _ hsome := absurd rfl hsome
  versions _ hmem := absurd hmem List.not_mem_nil

theorem kept_reachable (hreach : (system κ σ ε).Reachable Careful ledger) : Kept ledger := by
  refine hreach.invariant ?_ ?_
  · intro state hstart
    rw [show state = _ from hstart]
    exact kept_start
  · intro state action after hkept hcareful hstep
    rw [show after = _ from hstep]
    exact kept_step hkept hcareful

/-- After any careful calls the books are kept, and the next call keeps them
    and pays what it owes exactly when it is careful too. -/
theorem bookkeeping_iff_careful (hreach : (system κ σ ε).Reachable Careful ledger) :
    Kept ledger ∧ ∀ action, (Kept (ledger.step action) ∧ Faithful ledger action) ↔ Careful ledger action := by
  have hkept := kept_reachable hreach
  refine ⟨hkept, fun action => ⟨fun ⟨hafter, hfaithful⟩ => ?_, fun hcareful => ?_⟩⟩
  · exact careful_of_faithful hafter hfaithful
  · exact ⟨kept_step hkept hcareful, faithful_of_careful hkept hcareful⟩

abbrev MessageLedger := Ledger String MessageFoldState MessageAssertion

/-- The books after the calls, on a fresh message replica. -/
def afterCalls (actions : List (Action String MessageFoldState MessageAssertion)) : MessageLedger :=
  actions.foldl step { node := Replica.new, versions := fun _ => none }

/-- An offer at a version, and the books after it. -/
theorem bookkeeping_of_offered :
    Kept (afterCalls [.accept_at (Replica.flag "op1") (some 5)]) ∧
      ∀ action, (Kept ((afterCalls [.accept_at (Replica.flag "op1") (some 5)]).step action) ∧
        Faithful (afterCalls [.accept_at (Replica.flag "op1") (some 5)]) action) ↔
          Careful (afterCalls [.accept_at (Replica.flag "op1") (some 5)]) action := by
  have hcareful : Careful (afterCalls []) (.accept_at (Replica.flag "op1") (some 5)) :=
    fun hheld => absurd hheld List.not_mem_nil
  exact bookkeeping_iff_careful (.next (.start rfl) hcareful rfl)

def seen (id : MutationId) : PendingMessageMutation :=
  { id, key := "m1", effect := .SetKeywords ["$seen"] [] }

/-- One message, flagged and marked, then seen; the base has caught up with the flag. -/
def flaggedThenSeen : List (Action String MessageFoldState MessageAssertion) :=
  [.set_base "m1" { keywords := [], mailbox_ids := ["inbox"] }, .accept (Replica.flag "op1"), .mark_confirmed "op1",
    .accept (seen "op2"), .set_base "m1" { keywords := ["$flagged"], mailbox_ids := ["inbox"] }]

/-- A stray mark stays, a held id is gated anew, and a confirmation reports its sibling's retirement. -/
theorem books_not_kept :
    ("ghost" ∈ (afterCalls [.mark_confirmed "ghost"]).node.confirmed ∧
        "ghost" ∉ (afterCalls [.mark_confirmed "ghost"]).node.ids) ∧
      (¬ Faithful (afterCalls [.accept_at (Replica.flag "op1") (some 5)]) (.accept_at (Replica.flag "op1") (some 6))) ∧
      ¬ Faithful (afterCalls flaggedThenSeen) (.settle "op2" .Confirmed) := by
  refine ⟨by decide, fun hfaithful => ?_, fun hfaithful => ?_⟩
  · have hsame := hfaithful.duplicate _ _ rfl (by decide)
    have hgate := congrFun (congrArg Replica.accepted_at hsame) "op1"
    revert hgate
    decide
  · have hreport := hfaithful.settled _ _ rfl
    revert hreport
    decide

end Runs

end Ledger

end posthaste.replica
