import Posthaste.ReplicaCore.Convergence

namespace posthaste.replica

namespace Replica

variable {κ σ ε : Type} [Convergence σ ε]

section Walk

/-- The mutations of an entity that change nothing at their position. Without a base all of them are moot. -/
def absorbed (base : Option σ) (operations : List (PendingMutation κ ε)) : List MutationId :=
  match base with
  | none => operations.map PendingMutation.id
  | some base => walk (fun _ => true) base operations

variable {eligible : MutationId → Bool} {running : σ} {base : Option σ} {operations : List (PendingMutation κ ε)}

theorem walk_sublist : (walk eligible running operations).Sublist (operations.map PendingMutation.id) := by
  induction operations generalizing running with
  | nil => exact List.Sublist.slnil
  | cons held rest ih =>
    rw [walk, List.map_cons]
    split
    · split_ifs
      · exact ih.cons_cons _
      · exact ih.cons _
      · exact ih.cons _
    · exact ih.cons _

/-- The gate selects among what is absorbed; it does not change the walk. -/
theorem walk_eq_filter :
    walk eligible running operations = (walk (fun _ => true) running operations).filter eligible := by
  induction operations generalizing running with
  | nil => rfl
  | cons held rest ih =>
    rw [walk, walk]
    cases Convergence.fold running [held.effect] with
    | Removed => exact ih
    | Present next =>
      simp only [if_true]
      split_ifs with hsame heligible
      · rw [List.filter_cons_of_pos heligible, ih]
      · rw [List.filter_cons_of_neg heligible, ih]
      · exact ih

theorem absorbed_sublist : (absorbed base operations).Sublist (operations.map PendingMutation.id) := by
  cases base with
  | none => exact List.Sublist.refl _
  | some base => exact walk_sublist

/-- Taking absorbed mutations away leaves the others as absorbed as they were. -/
theorem walk_of_dropped {dropped : MutationId → Bool} (hnodup : (operations.map PendingMutation.id).Nodup)
    (hdropped : ∀ held ∈ operations, dropped held.id = true → held.id ∈ walk (fun _ => true) running operations) :
    walk (fun _ => true) running (operations.filter fun held => !dropped held.id) =
      (walk (fun _ => true) running operations).filter fun id => !dropped id := by
  induction operations generalizing running with
  | nil => rfl
  | cons held rest ih =>
    rw [List.map_cons, List.nodup_cons] at hnodup
    have hhead : held.id ∉ walk (fun _ => true) running rest := fun hmem => hnodup.1 (walk_sublist.mem hmem)
    have hne : ∀ other ∈ rest, other.id ≠ held.id := by
      intro other hother hsame
      exact hnodup.1 (hsame ▸ List.mem_map_of_mem hother)
    cases hgone : dropped held.id with
    | true =>
      -- a dropped mutation is absorbed, so the walk goes on from the same state
      have hmem := hdropped held List.mem_cons_self hgone
      rw [List.filter_cons_of_neg (by simp [hgone])]
      rw [walk] at hmem ⊢
      split at hmem
      · rename_i next hnext
        split_ifs at hmem with hsame htrue
        · simp only [hsame, if_true]
          rw [List.filter_cons_of_neg (by simp [hgone])]
          refine ih hnodup.2 fun other hother hdrop => ?_
          have hwalked := hdropped other (List.mem_cons_of_mem _ hother) hdrop
          rw [walk] at hwalked
          simp only [hnext, hsame, if_true] at hwalked
          exact (List.mem_cons.mp hwalked).resolve_left (hne other hother)
        · exact absurd rfl htrue
        · exact absurd (walk_sublist.mem hmem) hnodup.1
      · exact absurd (walk_sublist.mem hmem) hnodup.1
    | false =>
      rw [List.filter_cons_of_pos (by simp [hgone])]
      have hrest : ∀ (from_ : σ), (∀ other ∈ rest, dropped other.id = true → other.id ∈ walk (fun _ => true) from_ rest) →
          walk (fun _ => true) from_ (rest.filter fun held => !dropped held.id) =
            (walk (fun _ => true) from_ rest).filter fun id => !dropped id := fun _ hwalk => ih hnodup.2 hwalk
      rw [walk, walk]
      cases hfold : Convergence.fold running [held.effect] with
      | Removed =>
        simp only
        refine hrest running fun other hother hdrop => ?_
        have hwalked := hdropped other (List.mem_cons_of_mem _ hother) hdrop
        rw [walk] at hwalked
        simpa only [hfold] using hwalked
      | Present next =>
        simp only
        have hwalked : ∀ other ∈ rest, dropped other.id = true →
            other.id ∈ walk (fun _ => true) (if Convergence.eq ε next running then running else next) rest := by
          intro other hother hdrop
          have hmem := hdropped other (List.mem_cons_of_mem _ hother) hdrop
          rw [walk] at hmem
          simp only [hfold] at hmem
          split_ifs at hmem ⊢ with hsame
          · exact (List.mem_cons.mp hmem).resolve_left (hne other hother)
          · exact hmem
        split_ifs with hsame
        · rw [List.filter_cons_of_pos (by simp [hgone])]
          rw [if_pos hsame] at hwalked
          rw [hrest running hwalked]
        · rw [if_neg hsame] at hwalked
          exact hrest next hwalked

theorem absorbed_of_dropped {dropped : MutationId → Bool} (hnodup : (operations.map PendingMutation.id).Nodup)
    (hdropped : ∀ held ∈ operations, dropped held.id = true → held.id ∈ absorbed base operations) :
    absorbed base (operations.filter fun held => !dropped held.id) =
      (absorbed base operations).filter fun id => !dropped id := by
  cases base with
  | none =>
    unfold absorbed
    rw [List.filter_map]
    rfl
  | some base => exact walk_of_dropped hnodup hdropped

end Walk

section Leave

variable [DecidableEq κ] {replica : Replica κ σ ε} {ids : List MutationId} {key : κ} {id : MutationId}

/-- The mutations leave the outbox with everything kept about them. -/
def leave (replica : Replica κ σ ε) (ids : List MutationId) : Replica κ σ ε :=
  ((replica.retain (·.id ∉ ids)).unconfirm ids).unversion ids

omit [DecidableEq κ] [Convergence σ ε] in
@[simp] theorem base_leave : (replica.leave ids).base = replica.base := rfl

omit [DecidableEq κ] [Convergence σ ε] in
@[simp] theorem pending_leave : (replica.leave ids).pending = replica.pending.filter (·.id ∉ ids) := rfl

omit [DecidableEq κ] [Convergence σ ε] in
@[simp] theorem confirmed_leave : (replica.leave ids).confirmed = replica.confirmed.filter (· ∉ ids) := rfl

omit [DecidableEq κ] [Convergence σ ε] in
@[simp] theorem accepted_at_leave :
    (replica.leave ids).accepted_at id = if id ∈ ids then none else replica.accepted_at id := rfl

omit [Convergence σ ε] in
theorem pendingOn_leave : (replica.leave ids).pendingOn key = (replica.pendingOn key).filter (·.id ∉ ids) := by
  unfold pendingOn
  rw [pending_leave, List.filter_filter, List.filter_filter]
  exact List.filter_congr fun _ _ => Bool.and_comm _ _

omit [Convergence σ ε] in
theorem ids_pendingOn_nodup : ((replica.pendingOn key).map PendingMutation.id).Nodup :=
  replica.ids_nodup.sublist (List.filter_sublist.map _)

/-- The ids a retirement takes: absorbed, confirmed and past the gate. -/
def retired (replica : Replica κ σ ε) (key : κ) (current_version : Option UInt64) : List MutationId :=
  (absorbed (replica.base key) (replica.pendingOn key)).filter fun id =>
    decide (id ∈ replica.confirmed) && replica.gatePasses current_version id

theorem retire_absorbed_if_eq (can_retire : MutationId → Bool) :
    replica.retire_absorbed_if key can_retire =
      let retire := (absorbed (replica.base key) (replica.pendingOn key)).filter fun id =>
        decide (id ∈ replica.confirmed) && can_retire id
      (retire, (replica.retain (·.id ∉ retire)).unconfirm retire) := by
  have hnone : ∀ retire : List MutationId, retire.isEmpty = true →
      ((replica.retain (·.id ∉ retire)).unconfirm retire) = replica := by
    intro retire hempty
    rw [List.isEmpty_iff.mp hempty]
    apply ext
    · rfl
    · simp [retain, unconfirm]
    · simp [retain, unconfirm]
    · rfl
  have hfinish : ∀ retire : List MutationId,
      (if retire.isEmpty then (([] : List MutationId), replica)
        else (retire, (replica.retain (·.id ∉ retire)).unconfirm retire)) =
        (retire, (replica.retain (·.id ∉ retire)).unconfirm retire) := by
    intro retire
    split_ifs with hempty
    · rw [hnone retire hempty, List.isEmpty_iff.mp hempty]
    · rfl
  unfold retire_absorbed_if absorbed
  cases hbase : replica.base key with
  | none =>
    simp only [hfinish]
    rw [List.filter_map]
    rfl
  | some base =>
    simp only [hfinish]
    rw [walk_eq_filter]

/-- A retirement takes exactly the ids that are absorbed, confirmed and past the gate. -/
theorem retire_absorbed_at_eq (current_version : Option UInt64) :
    replica.retire_absorbed_at key current_version =
      (replica.retired key current_version, replica.leave (replica.retired key current_version)) := by
  have hgate : ((absorbed (replica.base key) (replica.pendingOn key)).filter fun id =>
      decide (id ∈ replica.confirmed) && decide (id ∈ replica.canRetire key current_version)) =
        replica.retired key current_version := by
    unfold retired canRetire
    refine List.filter_congr fun id hmem => ?_
    congr 1
    rw [Bool.eq_iff_iff, decide_eq_true_iff]
    constructor
    · intro hlisted
      obtain ⟨held, hheld, rfl⟩ := List.mem_map.mp hlisted
      exact (List.mem_filter.mp hheld).2
    · intro hpasses
      obtain ⟨held, hheld, rfl⟩ := List.mem_map.mp (absorbed_sublist.mem hmem)
      exact List.mem_map_of_mem (List.mem_filter.mpr ⟨hheld, hpasses⟩)
  unfold retire_absorbed_at
  rw [retire_absorbed_if_eq]
  simp only [hgate]
  rfl

theorem mem_retired_iff {current_version : Option UInt64} :
    id ∈ replica.retired key current_version ↔
      id ∈ absorbed (replica.base key) (replica.pendingOn key) ∧ id ∈ replica.confirmed ∧
        replica.gatePasses current_version id = true := by
  unfold retired
  rw [List.mem_filter, Bool.and_eq_true, decide_eq_true_iff]

/-- What a confirmation retires, when it finds its mutation. -/
theorem settle_confirmed_of_pending {held : PendingMutation κ ε} (hheld : held ∈ replica.pending) :
    replica.settle held.id .Confirmed =
      (⟨!((replica.mark_confirmed held.id).retired held.key none).isEmpty, false⟩,
        (replica.mark_confirmed held.id).leave ((replica.mark_confirmed held.id).retired held.key none)) := by
  have hfind : replica.pending.find? (·.id = held.id) = some held := by
    cases hfound : replica.pending.find? (·.id = held.id) with
    | none =>
      have hnone := List.find?_eq_none.mp hfound held hheld
      exact absurd (decide_eq_true rfl) hnone
    | some other =>
      have hid : other.id = held.id := by simpa using List.find?_some hfound
      rw [List.inj_on_of_nodup_map replica.ids_nodup (List.mem_of_find?_eq_some hfound) hheld hid]
  unfold settle
  simp only [hfind]
  rw [retire_absorbed, retire_absorbed_at_eq]

theorem settle_confirmed_of_unknown (hunknown : id ∉ replica.pending.map PendingMutation.id) :
    replica.settle id .Confirmed = (⟨false, false⟩, replica) := by
  have hfind : replica.pending.find? (·.id = id) = none := by
    rw [List.find?_eq_none]
    intro held hheld hsame
    exact hunknown (of_decide_eq_true hsame ▸ List.mem_map_of_mem hheld)
  unfold settle
  simp only [hfind]

theorem settle_failed :
    (replica.settle id .Failed).2 = replica.leave [id] := by
  unfold settle leave
  simp only [List.mem_singleton]

end Leave

end Replica

end posthaste.replica
