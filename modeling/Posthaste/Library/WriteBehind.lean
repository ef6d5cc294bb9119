import Mathlib.Logic.Function.Basic

/-! Writes that have reached the store and are still to reach the cache in front of it. -/

namespace write_behind

variable {κ : Type} [DecidableEq κ] {ν : κ → Type}

/-- A cache that takes one write. -/
def settle (view : ∀ key, ν key) (write : Sigma ν) : ∀ key, ν key :=
  Function.update view write.1 write.2

/-- The cache once the writes are settled in the order they were made. -/
def drain (writes : List (Sigma ν)) (view : ∀ key, ν key) : ∀ key, ν key :=
  writes.foldl settle view

variable {writes : List (Sigma ν)} {view : ∀ key, ν key} {write other : Sigma ν}

@[simp] theorem settle_self : settle view write write.1 = write.2 := Function.update_self _ _ _

@[simp] theorem settle_of_ne {key : κ} (hkey : key ≠ write.1) : settle view write key = view key :=
  Function.update_of_ne hkey _ _

theorem drain_append : drain (writes ++ [write]) view = settle (drain writes view) write := List.foldl_append

theorem settle_comm (hkey : other.1 ≠ write.1) : settle (settle view write) other = settle (settle view other) write :=
  Function.update_comm hkey.symm _ _ _

/-- Settling the oldest write of its key leaves what the cache comes to. -/
theorem drain_eraseIdx {index : Nat} (hindex : writes[index]? = some write)
    (holdest : ∀ earlier < index, ∀ other, writes[earlier]? = some other → other.1 ≠ write.1) :
    drain (writes.eraseIdx index) (settle view write) = drain writes view := by
  induction index generalizing writes view with
  | zero =>
    cases writes with
    | nil => cases hindex
    | cons head rest =>
      cases hindex
      rfl
  | succ index ih =>
    cases writes with
    | nil => cases hindex
    | cons head rest =>
      have hhead : head.1 ≠ write.1 := holdest 0 (Nat.succ_pos index) head rfl
      have hrest : ∀ earlier < index, ∀ other, rest[earlier]? = some other → other.1 ≠ write.1 :=
        fun earlier hearlier other hother => holdest (earlier + 1) (Nat.succ_lt_succ hearlier) other hother
      show drain (rest.eraseIdx index) (settle (settle view write) head) = drain rest (settle view head)
      rw [settle_comm hhead]
      exact ih hindex hrest

end write_behind
