import Mathlib.Data.List.Nodup

/-- Rows in insertion order under a unique key. -/
structure Table (ρ : Type) {κ : Type} (key : ρ → κ) where
  rows : List ρ
  keys_nodup : (rows.map key).Nodup

namespace Table

variable {ρ κ : Type} {key : ρ → κ}

@[ext] theorem ext {first second : Table ρ key} (hrows : first.rows = second.rows) : first = second := by
  cases first
  cases second
  simp only at hrows
  subst hrows
  rfl

theorem key_inj {table : Table ρ key} {first second : ρ} (hfirst : first ∈ table.rows)
    (hsecond : second ∈ table.rows) (hkey : key first = key second) : first = second :=
  List.inj_on_of_nodup_map table.keys_nodup hfirst hsecond hkey

variable [DecidableEq κ]

def empty : Table ρ key := ⟨[], List.nodup_nil⟩

def find (table : Table ρ key) (query : κ) : Option ρ :=
  table.rows.find? fun row => key row = query

/-- Appends the row unless its key is taken. -/
def insertOrIgnore (table : Table ρ key) (row : ρ) : Table ρ key :=
  if hfresh : key row ∈ table.rows.map key then table
  else ⟨table.rows ++ [row], by
    rw [List.map_append, List.map_singleton]
    exact List.Nodup.append table.keys_nodup (List.nodup_singleton _)
      (List.disjoint_singleton.mpr hfresh)⟩

/-- Rewrites the keyed row when it satisfies the guard. -/
def updateIf (table : Table ρ key) (query : κ) (guard : ρ → Bool) (change : ρ → ρ)
    (hkey : ∀ row, key (change row) = key row) : Table ρ key where
  rows := table.rows.map fun row => if key row = query ∧ guard row then change row else row
  keys_nodup := by
    have hsame : ∀ row, key (if key row = query ∧ guard row then change row else row) = key row := by
      intro row
      split_ifs
      · exact hkey row
      · rfl
    simpa [List.map_map, Function.comp_def, hsame] using table.keys_nodup

/-- Deletes the keyed row when it satisfies the guard. -/
def deleteIf (table : Table ρ key) (query : κ) (guard : ρ → Bool) : Table ρ key where
  rows := table.rows.filter fun row => !(key row = query ∧ guard row)
  keys_nodup := table.keys_nodup.sublist (List.filter_sublist.map key)

theorem find_eq_some_iff {table : Table ρ key} {query : κ} {row : ρ} :
    table.find query = some row ↔ row ∈ table.rows ∧ key row = query := by
  constructor
  · intro hfind
    exact ⟨List.mem_of_find?_eq_some hfind, by simpa using List.find?_some hfind⟩
  · rintro ⟨hmem, hkey⟩
    cases hfind : table.find query with
    | none =>
      have hnone := List.find?_eq_none.mp hfind row hmem
      simp [hkey] at hnone
    | some found =>
      have hfound := List.mem_of_find?_eq_some hfind
      have hquery : key found = query := by simpa using List.find?_some hfind
      rw [key_inj hfound hmem (hquery.trans hkey.symm)]

theorem find_eq_none_iff {table : Table ρ key} {query : κ} :
    table.find query = none ↔ ∀ row ∈ table.rows, key row ≠ query := by
  simp [find]

theorem find_key {table : Table ρ key} {query : κ} {row : ρ} (hfind : table.find query = some row) :
    key row = query :=
  (find_eq_some_iff.mp hfind).2

theorem mem_of_find {table : Table ρ key} {query : κ} {row : ρ} (hfind : table.find query = some row) :
    row ∈ table.rows :=
  (find_eq_some_iff.mp hfind).1

theorem find_of_mem {table : Table ρ key} {row : ρ} (hmem : row ∈ table.rows) :
    table.find (key row) = some row :=
  find_eq_some_iff.mpr ⟨hmem, rfl⟩

theorem rows_insertOrIgnore_of_fresh {table : Table ρ key} {row : ρ} (hfresh : table.find (key row) = none) :
    (table.insertOrIgnore row).rows = table.rows ++ [row] := by
  have hnot : key row ∉ table.rows.map key := by
    intro hmem
    obtain ⟨other, hother, hkey⟩ := List.mem_map.mp hmem
    exact find_eq_none_iff.mp hfresh other hother hkey
  simp [insertOrIgnore, hnot]

theorem insertOrIgnore_of_present {table : Table ρ key} {row found : ρ}
    (hpresent : table.find (key row) = some found) : table.insertOrIgnore row = table := by
  have hmem : key row ∈ table.rows.map key := by
    rw [← find_key hpresent]
    exact List.mem_map_of_mem (mem_of_find hpresent)
  simp [insertOrIgnore, hmem]

theorem find_insertOrIgnore (table : Table ρ key) (row : ρ) (query : κ) :
    (table.insertOrIgnore row).find query =
      (table.find query).orElse fun _ => if key row = query then some row else none := by
  cases hkey : table.find (key row) with
  | some found =>
    rw [insertOrIgnore_of_present hkey]
    by_cases hquery : key row = query
    · simp [← hquery, hkey]
    · simp [hquery]
  | none =>
    unfold find
    rw [rows_insertOrIgnore_of_fresh hkey, List.find?_append]
    simp only [List.find?_singleton, Option.orElse_eq_or, decide_eq_true_eq]

theorem find_updateIf (table : Table ρ key) (query : κ) (guard : ρ → Bool) (change : ρ → ρ)
    (hkey : ∀ row, key (change row) = key row) (other : κ) :
    (table.updateIf query guard change hkey).find other =
      (table.find other).map fun row => if key row = query ∧ guard row then change row else row := by
  have hsame : ∀ row, key (if key row = query ∧ guard row then change row else row) = key row := by
    intro row
    split_ifs
    · exact hkey row
    · rfl
  simp only [find, updateIf, List.find?_map, Function.comp_def, hsame]

theorem find_updateIf_ne {table : Table ρ key} {query other : κ} {guard : ρ → Bool} {change : ρ → ρ}
    {hkey : ∀ row, key (change row) = key row} (hne : other ≠ query) :
    (table.updateIf query guard change hkey).find other = table.find other := by
  rw [find_updateIf]
  cases hfind : table.find other with
  | none => rfl
  | some row => simp [find_key hfind, hne]

theorem find_deleteIf (table : Table ρ key) (query : κ) (guard : ρ → Bool) (other : κ) :
    (table.deleteIf query guard).find other =
      (table.find other).filter fun row => !(key row = query ∧ guard row) := by
  refine Option.ext fun row => ?_
  rw [find_eq_some_iff, Option.filter_eq_some_iff, find_eq_some_iff]
  simp only [deleteIf, List.mem_filter]
  tauto

theorem find_deleteIf_ne {table : Table ρ key} {query other : κ} {guard : ρ → Bool} (hne : other ≠ query) :
    (table.deleteIf query guard).find other = table.find other := by
  rw [find_deleteIf]
  cases hfind : table.find other with
  | none => rfl
  | some row => simp [find_key hfind, hne]

/-- Keeps the rows that pass the test. -/
def retain (table : Table ρ key) (kept : ρ → Bool) : Table ρ key where
  rows := table.rows.filter kept
  keys_nodup := table.keys_nodup.sublist (List.filter_sublist.map key)

omit [DecidableEq κ] in
@[simp] theorem mem_retain {table : Table ρ key} {kept : ρ → Bool} {row : ρ} :
    row ∈ (table.retain kept).rows ↔ row ∈ table.rows ∧ kept row = true := List.mem_filter

/-- Replaces the row of the same key, or appends the row. -/
def put (table : Table ρ key) (row : ρ) : Table ρ key where
  rows :=
    if key row ∈ table.rows.map key then table.rows.map fun stored => if key stored = key row then row else stored
    else table.rows ++ [row]
  keys_nodup := by
    have hsame : ∀ stored, key (if key stored = key row then row else stored) = key stored := by
      intro stored
      split_ifs with hkey
      · exact hkey.symm
      · rfl
    split_ifs with hpresent
    · simpa [List.map_map, Function.comp_def, hsame] using table.keys_nodup
    · rw [List.map_append, List.map_singleton]
      exact List.Nodup.append table.keys_nodup (List.nodup_singleton _) (List.disjoint_singleton.mpr hpresent)

@[simp] theorem mem_put {table : Table ρ key} {row stored : ρ} :
    stored ∈ (table.put row).rows ↔ stored = row ∨ stored ∈ table.rows ∧ key stored ≠ key row := by
  unfold put
  split_ifs with hpresent
  · obtain ⟨held, hheld, hkey⟩ := List.mem_map.mp hpresent
    constructor
    · intro hmem
      obtain ⟨other, hother, rfl⟩ := List.mem_map.mp hmem
      split_ifs with hsame
      · exact Or.inl rfl
      · exact Or.inr ⟨hother, hsame⟩
    · rintro (rfl | ⟨hmem, hne⟩)
      · exact List.mem_map.mpr ⟨held, hheld, if_pos hkey⟩
      · exact List.mem_map.mpr ⟨stored, hmem, if_neg hne⟩
  · rw [List.mem_append, List.mem_singleton]
    constructor
    · rintro (hmem | rfl)
      · exact Or.inr ⟨hmem, fun hsame => hpresent (hsame ▸ List.mem_map_of_mem hmem)⟩
      · exact Or.inl rfl
    · rintro (rfl | ⟨hmem, _⟩)
      · exact Or.inr rfl
      · exact Or.inl hmem

@[simp] theorem find_put_self (table : Table ρ key) (row : ρ) : (table.put row).find (key row) = some row :=
  find_of_mem (mem_put.mpr (Or.inl rfl))

theorem find_put_ne {table : Table ρ key} {row : ρ} {query : κ} (hne : query ≠ key row) :
    (table.put row).find query = table.find query := by
  refine Option.ext fun stored => ?_
  rw [find_eq_some_iff, find_eq_some_iff, mem_put]
  constructor
  · rintro ⟨rfl | ⟨hmem, _⟩, hkey⟩
    · exact absurd hkey.symm hne
    · exact ⟨hmem, hkey⟩
  · rintro ⟨hmem, hkey⟩
    exact ⟨Or.inr ⟨hmem, hkey ▸ hne⟩, hkey⟩

/-- A deletion goes unseen by a selection that holds no row of the key. -/
theorem filter_deleteIf {table : Table ρ key} {query : κ} {guard test : ρ → Bool}
    (hunseen : ∀ row ∈ table.rows, key row = query → test row = false) :
    (table.deleteIf query guard).rows.filter test = table.rows.filter test := by
  unfold deleteIf
  rw [List.filter_filter]
  refine List.filter_congr fun row hrow => ?_
  by_cases hkey : key row = query
  · rw [hunseen row hrow hkey, Bool.false_and]
  · simp [hkey]

/-- A write goes unseen by a selection that holds neither the row nor the one it replaces. -/
theorem filter_put {table : Table ρ key} {row : ρ} {test : ρ → Bool} (hnew : test row = false)
    (hunseen : ∀ stored ∈ table.rows, key stored = key row → test stored = false) :
    (table.put row).rows.filter test = table.rows.filter test := by
  have hreplaced : ∀ rows : List ρ, (∀ stored ∈ rows, key stored = key row → test stored = false) →
      (rows.map fun stored => if key stored = key row then row else stored).filter test = rows.filter test := by
    intro rows hrows
    induction rows with
    | nil => rfl
    | cons head rest ih =>
      have hrest := ih fun stored hstored => hrows stored (List.mem_cons_of_mem _ hstored)
      have hhead := hrows head List.mem_cons_self
      by_cases hkey : key head = key row
      · simp [hkey, hnew, hhead hkey, hrest]
      · simp [hkey, hrest, List.filter_cons]
  unfold put
  dsimp only
  split_ifs with hpresent
  · exact hreplaced table.rows hunseen
  · rw [List.filter_append, List.filter_singleton, hnew]
    exact List.append_nil _

end Table
