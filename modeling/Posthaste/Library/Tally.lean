import Mathlib.Algebra.BigOperators.Group.Finset.Basic
import Mathlib.Algebra.GroupWithZero.Nat
import Posthaste.Library.Table

namespace Table

variable {ρ κ : Type} {key : ρ → κ} [DecidableEq κ]

/-- What a key counts for: nothing when no row has it. -/
def tally (table : Table ρ key) (weight : ρ → Nat) (query : κ) : Nat := (table.find query).elim 0 weight

@[simp] theorem tally_empty (weight : ρ → Nat) (query : κ) : (empty : Table ρ key).tally weight query = 0 := rfl

theorem tally_put (table : Table ρ key) (row : ρ) (weight : ρ → Nat) (query : κ) :
    (table.put row).tally weight query = if query = key row then weight row else table.tally weight query := by
  unfold tally
  split_ifs with hquery
  · rw [hquery, find_put_self]
    rfl
  · rw [find_put_ne hquery]

theorem tally_of_mem {table : Table ρ key} {row : ρ} (weight : ρ → Nat) (hmem : row ∈ table.rows) :
    table.tally weight (key row) = weight row := by
  rw [tally, find_of_mem hmem]
  rfl

/-- A sum over the rows is a sum over the keys. -/
theorem sum_rows (table : Table ρ key) (weight : ρ → Nat) :
    (table.rows.map weight).sum = ∑ query ∈ (table.rows.map key).toFinset, table.tally weight query := by
  rw [List.sum_toFinset _ table.keys_nodup, List.map_map]
  refine congrArg List.sum (List.map_congr_left fun row hrow => ?_)
  exact (tally_of_mem weight hrow).symm

theorem mem_keys_iff {table : Table ρ key} {query : κ} :
    query ∈ table.rows.map key ↔ (table.find query).isSome = true := by
  rw [Option.isSome_iff_exists, List.mem_map]
  refine exists_congr fun row => ?_
  rw [find_eq_some_iff]

/-- Merging rows into a table by their keys: each key ends up merged with the one row it has, if any. -/
theorem tally_foldl_merge {σ : Type} {index : σ → κ} {merge : Table ρ key → σ → Table ρ key} {weight : ρ → Nat}
    {amount : σ → Nat} {combine : Nat → Nat → Nat} (hzero : ∀ count, combine count 0 = count)
    (hmerge : ∀ table row query, (merge table row).tally weight query =
      if query = index row then combine (table.tally weight query) (amount row) else table.tally weight query)
    (table : Table ρ key) (merged : Table σ index) (query : κ) :
    (merged.rows.foldl merge table).tally weight query =
      combine (table.tally weight query) (merged.tally amount query) := by
  obtain ⟨rows, hnodup⟩ := merged
  induction rows generalizing table with
  | nil => exact (hzero _).symm
  | cons row rest ih =>
    obtain ⟨hfresh, hrest⟩ := List.nodup_cons.mp hnodup
    have htail := ih (merge table row) hrest
    simp only [List.foldl_cons] at htail ⊢
    rw [htail, hmerge]
    by_cases hquery : query = index row
    · have hnone : (⟨rest, hrest⟩ : Table σ index).tally amount query = 0 := by
        have hmissing : (⟨rest, hrest⟩ : Table σ index).find query = none := by
          refine find_eq_none_iff.mpr fun other hother hkey => hfresh ?_
          rw [← hquery, ← hkey]
          exact List.mem_map_of_mem hother
        rw [tally, hmissing]
        rfl
      have hsome : (⟨row :: rest, hnodup⟩ : Table σ index).tally amount query = amount row := by
        rw [hquery]
        exact tally_of_mem amount List.mem_cons_self
      rw [if_pos hquery, hnone, hsome, hzero]
    · have hskip : (⟨row :: rest, hnodup⟩ : Table σ index).tally amount query =
          (⟨rest, hrest⟩ : Table σ index).tally amount query := by
        unfold tally find
        rw [List.find?_cons_of_neg]
        simpa using fun hkey => hquery hkey.symm
      rw [if_neg hquery, hskip]

end Table
