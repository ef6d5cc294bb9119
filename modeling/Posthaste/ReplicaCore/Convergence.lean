import Mathlib.Data.Finset.Basic
import Mathlib.Logic.Function.Basic
import Posthaste.ReplicaCore.Message

namespace posthaste.replica

abbrev MutationId := String

/-- The fold a foldable entity kind provides, and the equality its states are compared under. -/
class Convergence (σ ε : Type) where
  fold : σ → List ε → Outcome σ
  eq : σ → σ → Bool

/-- One accepted but unconfirmed mutation: a desired-state effect over one entity. -/
structure PendingMutation (κ ε : Type) where
  id : MutationId
  key : κ
  effect : ε

inductive SettlementOutcome where
  | Confirmed
  | Failed
  deriving DecidableEq

structure SettlementResult where
  retired : Bool
  reverted : Bool
  deriving DecidableEq

/-- The convergence engine of a link node: confirmed base, ordered outbox, the
    confirmed ids and the base versions captured at accept. No id is held twice. -/
structure Replica (κ σ ε : Type) where
  base : κ → Option σ
  pending : List (PendingMutation κ ε)
  confirmed : Finset MutationId
  accepted_at : MutationId → Option UInt64
  ids_nodup : (pending.map PendingMutation.id).Nodup

namespace Replica

variable {κ σ ε : Type}

@[ext] theorem ext {first second : Replica κ σ ε} (hbase : first.base = second.base)
    (hpending : first.pending = second.pending) (hconfirmed : first.confirmed = second.confirmed)
    (haccepted : first.accepted_at = second.accepted_at) : first = second := by
  obtain ⟨base, pending, confirmed, accepted_at, _⟩ := first
  obtain ⟨_, _, _, _, _⟩ := second
  cases hbase
  cases hpending
  cases hconfirmed
  cases haccepted
  rfl

def new : Replica κ σ ε where
  base _ := none
  pending := []
  confirmed := ∅
  accepted_at _ := none
  ids_nodup := List.nodup_nil

/-- Keep the pending mutations that pass the test. -/
def retain (replica : Replica κ σ ε) (kept : PendingMutation κ ε → Bool) : Replica κ σ ε :=
  { replica with
    pending := replica.pending.filter kept
    ids_nodup := replica.ids_nodup.sublist (List.filter_sublist.map _) }

/-- Forget the confirmation marks of the ids. -/
def unconfirm (replica : Replica κ σ ε) (ids : List MutationId) : Replica κ σ ε :=
  { replica with confirmed := replica.confirmed.filter (· ∉ ids) }

/-- Forget the versions captured for the ids. -/
def unversion (replica : Replica κ σ ε) (ids : List MutationId) : Replica κ σ ε :=
  { replica with accepted_at := fun id => if id ∈ ids then none else replica.accepted_at id }

variable [DecidableEq κ]

def set_base (replica : Replica κ σ ε) (key : κ) (state : σ) : Replica κ σ ε :=
  { replica with base := Function.update replica.base key (some state) }

def remove_base (replica : Replica κ σ ε) (key : κ) : Replica κ σ ε :=
  { replica with base := Function.update replica.base key none }

/-- The outbox of one entity, in order. -/
def pendingOn (replica : Replica κ σ ε) (key : κ) : List (PendingMutation κ ε) :=
  replica.pending.filter (·.key = key)

/-- Drop every pending mutation on the key. Whether there was one. -/
def remove_pending (replica : Replica κ σ ε) (key : κ) : Bool × Replica κ σ ε :=
  let remove := (replica.pendingOn key).map PendingMutation.id
  if remove.isEmpty then (false, replica)
  else (true, ((replica.retain (·.id ∉ remove)).unconfirm remove).unversion remove)

/-- Drop one mutation unconditionally. Whether it was there. -/
def drop_pending (replica : Replica κ σ ε) (id : MutationId) : Bool × Replica κ σ ε :=
  let dropped := ((replica.retain (·.id ≠ id)).unconfirm [id]).unversion [id]
  (dropped.pending.length != replica.pending.length, dropped)

/-- Append a mutation, unless its id is held already. -/
def accept (replica : Replica κ σ ε) (mutation : PendingMutation κ ε) : Replica κ σ ε :=
  if hheld : mutation.id ∈ replica.pending.map PendingMutation.id then replica
  else { replica with
    pending := replica.pending ++ [mutation]
    ids_nodup := by
      rw [List.map_append, List.map_singleton]
      exact List.Nodup.append replica.ids_nodup (List.nodup_singleton _) (List.disjoint_singleton.mpr hheld) }

def capture (replica : Replica κ σ ε) (id : MutationId) (version : Option UInt64) : Replica κ σ ε :=
  { replica with accepted_at := Function.update replica.accepted_at id version }

/-- Accept, recording the base version observed, when there is one. -/
def accept_at (replica : Replica κ σ ε) (mutation : PendingMutation κ ε) (version : Option UInt64) : Replica κ σ ε :=
  match version with
  | some version => (replica.capture mutation.id (some version)).accept mutation
  | none => replica.accept mutation

def mark_confirmed (replica : Replica κ σ ε) (id : MutationId) : Replica κ σ ε :=
  { replica with confirmed := insert id replica.confirmed }

variable [Convergence σ ε]

/-- Walk the key's mutations in order and collect the eligible ones that change
    nothing at their position. A still effective one advances the running state. -/
def walk (eligible : MutationId → Bool) (running : σ) : List (PendingMutation κ ε) → List MutationId
  | [] => []
  | held :: rest =>
    match Convergence.fold running [held.effect] with
    | .Present next =>
      if Convergence.eq ε next running then
        if eligible held.id then held.id :: walk eligible running rest else walk eligible running rest
      else walk eligible next rest
    | .Removed => walk eligible running rest

/-- Retire the key's mutations that are confirmed, absorbed and pass the gate. -/
def retire_absorbed_if (replica : Replica κ σ ε) (key : κ) (can_retire : MutationId → Bool) :
    List MutationId × Replica κ σ ε :=
  match replica.base key with
  | none =>
    let retire := ((replica.pendingOn key).filter fun held =>
      decide (held.id ∈ replica.confirmed) && can_retire held.id).map PendingMutation.id
    if retire.isEmpty then ([], replica) else (retire, (replica.retain (·.id ∉ retire)).unconfirm retire)
  | some base =>
    let retire := walk (fun id => decide (id ∈ replica.confirmed) && can_retire id) base (replica.pendingOn key)
    if retire.isEmpty then ([], replica) else (retire, (replica.retain (·.id ∉ retire)).unconfirm retire)

/-- The accept-time gate: no version was captured, or the current one is strictly higher. -/
def gatePasses (replica : Replica κ σ ε) (current_version : Option UInt64) (id : MutationId) : Bool :=
  match replica.accepted_at id with
  | none => true
  | some at_ => current_version.any (at_ < ·)

/-- The key's mutations whose gate passes. -/
def canRetire (replica : Replica κ σ ε) (key : κ) (current_version : Option UInt64) : List MutationId :=
  ((replica.pendingOn key).filter fun held => replica.gatePasses current_version held.id).map PendingMutation.id

/-- The version-gated retire. Retired ids leave the version map. -/
def retire_absorbed_at (replica : Replica κ σ ε) (key : κ) (current_version : Option UInt64) :
    List MutationId × Replica κ σ ε :=
  match replica.retire_absorbed_if key (· ∈ replica.canRetire key current_version) with
  | (retired, after) => (retired, after.unversion retired)

/-- Retire with no current version known: versioned mutations hold. -/
def retire_absorbed (replica : Replica κ σ ε) (key : κ) : List MutationId × Replica κ σ ε :=
  replica.retire_absorbed_at key none

/-- Settle a mutation by its terminal outcome. -/
def settle (replica : Replica κ σ ε) (id : MutationId) : SettlementOutcome → SettlementResult × Replica κ σ ε
  | .Confirmed =>
    match replica.pending.find? (·.id = id) with
    | none => (⟨false, false⟩, replica)
    | some held =>
      let (retired_ids, after) := (replica.mark_confirmed id).retire_absorbed held.key
      (⟨!retired_ids.isEmpty, false⟩, after)
  | .Failed =>
    let dropped := ((replica.retain (·.id ≠ id)).unconfirm [id]).unversion [id]
    let retired := dropped.pending.length != replica.pending.length
    (⟨retired, retired⟩, dropped)

/-- The optimistic state of one entity; `none` when base does not hold it. -/
def project (replica : Replica κ σ ε) (key : κ) : Option (Outcome σ) :=
  (replica.base key).map fun base => Convergence.fold base ((replica.pendingOn key).map PendingMutation.effect)

end Replica

/-- Fold states compare as sets, whatever order the provider served them in. -/
def MessageFoldState.eq (self other : MessageFoldState) : Bool :=
  (BTreeSet.from_iter self.keywords).toList = (BTreeSet.from_iter other.keywords).toList &&
    (BTreeSet.from_iter self.mailbox_ids).toList = (BTreeSet.from_iter other.mailbox_ids).toList

instance : Convergence MessageFoldState MessageAssertion where
  fold := replay_message
  eq := MessageFoldState.eq

/-- The message convergence engine. -/
abbrev MessageReplica := Replica String MessageFoldState MessageAssertion

abbrev PendingMessageMutation := PendingMutation String MessageAssertion

end posthaste.replica
