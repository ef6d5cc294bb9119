import Mathlib.Order.Basic

/-- A partial decision about every key: `none` leaves the key as it was. -/
def Override (α β : Type) : Type := α → Option β

namespace Override

variable {α β : Type}

def keep : Override α β := fun _ => none

/-- The newer decision wins; where it leaves a key open the older one stands. -/
def onto (newer older : Override α β) : Override α β := fun key => (newer key).or (older key)

/-- What a log of decisions, oldest first, decides in the end. -/
def latest : List (Override α β) → Override α β
  | [] => keep
  | first :: rest => (latest rest).onto first

/-- The values once the decision is made. -/
def settle (decision : Override α β) (base : α → β) : α → β := fun key => (decision key).getD (base key)

@[simp] theorem keep_onto (decision : Override α β) : keep.onto decision = decision := rfl

@[simp] theorem onto_keep (decision : Override α β) : decision.onto keep = decision := by
  funext key
  simp [onto, keep]

theorem onto_assoc (newest newer older : Override α β) :
    (newest.onto newer).onto older = newest.onto (newer.onto older) := by
  funext key
  simp [onto, Option.or_assoc]

theorem settle_onto (newer older : Override α β) (base : α → β) :
    (newer.onto older).settle base = newer.settle (older.settle base) := by
  funext key
  simp only [settle, onto]
  cases newer key <;> rfl

theorem latest_append (first second : List (Override α β)) :
    latest (first ++ second) = (latest second).onto (latest first) := by
  induction first with
  | nil => simp [latest]
  | cons decision rest ih => rw [List.cons_append, latest, ih, onto_assoc]; rfl

theorem latest_concat (log : List (Override α β)) (last : Override α β) :
    latest (log ++ [last]) = last.onto (latest log) := by
  rw [latest_append]
  rfl

/-- Decisions that leave every key open can be dropped. -/
theorem latest_map_filter {γ : Type} (log : List γ) (decide : γ → Override α β) (kept : γ → Bool)
    (hdropped : ∀ entry ∈ log, kept entry = false → decide entry = keep) :
    latest ((log.filter kept).map decide) = latest (log.map decide) := by
  induction log with
  | nil => rfl
  | cons entry rest ih =>
    have hrest := ih fun other hmem => hdropped other (List.mem_cons_of_mem _ hmem)
    cases hkept : kept entry with
    | true => simp [hkept, latest, hrest]
    | false =>
      have hkeep := hdropped entry List.mem_cons_self hkept
      simp [hkept, latest, hrest, hkeep]

end Override

/-- Values served under keys, beside the state they can be derived from. A key
    whose inputs do not make sense derives to nothing. -/
structure DerivedPlane (σ κ ν : Type) where
  served : σ → κ → ν
  derived : σ → κ → Option ν

namespace DerivedPlane

variable {σ κ ν : Type} {plane : DerivedPlane σ κ ν} {before middle after : σ} {key : κ}

/-- The key serves what a derivation from scratch gives. -/
def SyncedAt (plane : DerivedPlane σ κ ν) (state : σ) (key : κ) : Prop :=
  plane.derived state key = some (plane.served state key)

def Synced (plane : DerivedPlane σ κ ν) (state : σ) : Prop := ∀ key, plane.SyncedAt state key

/-- A step moved neither what the key serves nor what it derives to. -/
structure Untouched (plane : DerivedPlane σ κ ν) (before after : σ) (key : κ) : Prop where
  served : plane.served after key = plane.served before key
  derived : plane.derived after key = plane.derived before key

theorem Untouched.refl (state : σ) : plane.Untouched state state key := ⟨rfl, rfl⟩

theorem Untouched.trans (hfirst : plane.Untouched before middle key) (hsecond : plane.Untouched middle after key) :
    plane.Untouched before after key :=
  ⟨hsecond.served.trans hfirst.served, hsecond.derived.trans hfirst.derived⟩

/-- An untouched key is as much in sync after the step as before it. -/
theorem Untouched.syncedAt_iff (huntouched : plane.Untouched before after key) :
    plane.SyncedAt after key ↔ plane.SyncedAt before key := by
  unfold SyncedAt
  rw [huntouched.served, huntouched.derived]

/-- Incremental maintenance: a step keeps the plane in sync when every key it
    does not leave alone ends in sync. -/
theorem Synced.step (hsynced : plane.Synced before)
    (hstep : ∀ key, plane.Untouched before after key ∨ plane.SyncedAt after key) : plane.Synced after := by
  intro key
  obtain huntouched | hat := hstep key
  · exact huntouched.syncedAt_iff.mpr (hsynced key)
  · exact hat

end DerivedPlane
