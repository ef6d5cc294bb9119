import Mathlib.Logic.Function.Basic
import Mathlib.Data.List.Basic
import Mathlib.Data.List.Induction

namespace contentIndex

/-- A command to a full-text index that stores no column values of its own. -/
inductive Command (κ ν : Type) where
  | insert (rowid : κ) (values : ν)
  | delete (rowid : κ) (values : ν)

variable {κ ν : Type} [DecidableEq κ] [DecidableEq ν]

/-- What the commands so far, newest first, have left indexed for a row. A deletion
    takes away the values it is told, whatever was indexed. -/
def indexed : List (Command κ ν) → κ → List ν
  | [], _ => []
  | .insert rowid values :: earlier, query =>
    if rowid = query then values :: indexed earlier query else indexed earlier query
  | .delete rowid values :: earlier, query =>
    if rowid = query then (indexed earlier query).erase values else indexed earlier query

/-- Every deletion carried what was indexed for its row, and no insertion went on top of an entry. -/
def Exact : List (Command κ ν) → Prop
  | [] => True
  | .insert rowid _ :: earlier => indexed earlier rowid = [] ∧ Exact earlier
  | .delete rowid values :: earlier => indexed earlier rowid = [values] ∧ Exact earlier

/-- The index holds the content, one entry for each row there is, and came to it by exact commands. -/
structure Holds (commands : List (Command κ ν)) (content : κ → Option ν) : Prop where
  exact : Exact commands
  indexed : ∀ rowid, indexed commands rowid = (content rowid).toList

/-- What a rebuild sends to the emptied index: every row once, in order. -/
def rebuilt (rows : List (κ × ν)) : List (Command κ ν) := (rows.map fun row => .insert row.1 row.2).reverse

/-- The rows the index keeps a size of: those inserted and not deleted since. -/
def docsize : List (Command κ ν) → List κ
  | [] => []
  | .insert rowid _ :: earlier => rowid :: (docsize earlier).filter (· ≠ rowid)
  | .delete rowid _ :: earlier => (docsize earlier).filter (· ≠ rowid)

variable {commands : List (Command κ ν)} {content : κ → Option ν} {rowid : κ} {values : ν}

theorem Exact.of_append {later : List (Command κ ν)} (hexact : Exact (later ++ commands)) : Exact commands := by
  induction later with
  | nil => exact hexact
  | cons command rest ih =>
    cases command with
    | insert => exact ih hexact.2
    | delete => exact ih hexact.2

/-- A deletion anywhere in the log carried the values indexed at its time. -/
theorem Exact.indexed_of_delete {later : List (Command κ ν)}
    (hexact : Exact (later ++ .delete rowid values :: commands)) :
    contentIndex.indexed commands rowid = [values] :=
  hexact.of_append.1

theorem holds_nil : Holds ([] : List (Command κ ν)) fun _ => none := ⟨trivial, fun _ => rfl⟩

theorem Holds.insert (hholds : Holds commands content) (hnew : content rowid = none) :
    Holds (.insert rowid values :: commands) (Function.update content rowid (some values)) := by
  refine ⟨⟨?_, hholds.exact⟩, fun query => ?_⟩
  · rw [hholds.indexed, hnew]
    rfl
  · unfold contentIndex.indexed
    by_cases hquery : rowid = query
    · rw [if_pos hquery, ← hquery, Function.update_self, hholds.indexed, hnew]
      rfl
    · rw [if_neg hquery, Function.update_of_ne (Ne.symm hquery), hholds.indexed]

theorem Holds.delete (hholds : Holds commands content) (hstored : content rowid = some values) :
    Holds (.delete rowid values :: commands) (Function.update content rowid none) := by
  refine ⟨⟨?_, hholds.exact⟩, fun query => ?_⟩
  · rw [hholds.indexed, hstored]
    rfl
  · unfold contentIndex.indexed
    by_cases hquery : rowid = query
    · rw [if_pos hquery, ← hquery, Function.update_self, hholds.indexed, hstored]
      exact List.erase_cons_head _ _
    · rw [if_neg hquery, Function.update_of_ne (Ne.symm hquery), hholds.indexed]

/-- To index a row anew, its entry is deleted and the new values are inserted. -/
theorem Holds.replace (hholds : Holds commands content) (hstored : content rowid = some values) (changed : ν) :
    Holds (.insert rowid changed :: .delete rowid values :: commands)
      (Function.update content rowid (some changed)) := by
  have hdeleted := hholds.delete hstored
  have hinserted : Holds (.insert rowid changed :: .delete rowid values :: commands)
      (Function.update (Function.update content rowid none) rowid (some changed)) :=
    hdeleted.insert (Function.update_self rowid none content)
  rwa [Function.update_idem] at hinserted

/-- Rows of distinct ids, indexed from nothing, are held as they are. -/
theorem holds_rebuilt {rows : List (κ × ν)} (hnodup : (rows.map Prod.fst).Nodup) :
    Holds (rebuilt rows) fun rowid => (rows.find? (·.1 = rowid)).map Prod.snd := by
  induction rows using List.reverseRecOn with
  | nil => exact holds_nil
  | append_singleton rows row ih =>
    rw [List.map_append, List.nodup_append] at hnodup
    obtain ⟨hrows, _, hfresh⟩ := hnodup
    have hnone : rows.find? (·.1 = row.1) = none := by
      refine List.find?_eq_none.mpr fun other hother hsame => ?_
      exact hfresh other.1 (List.mem_map_of_mem hother) row.1 (List.mem_singleton_self _) (of_decide_eq_true hsame)
    have hinserted := @Holds.insert κ ν _ _ _ _ row.1 row.2 (ih hrows) (by simp only [hnone, Option.map_none])
    have hcontent : (fun rowid => ((rows ++ [row]).find? (·.1 = rowid)).map Prod.snd) =
        Function.update (fun rowid => (rows.find? (·.1 = rowid)).map Prod.snd) row.1 (some row.2) := by
      funext rowid
      rw [List.find?_append]
      by_cases hrowid : rowid = row.1
      · rw [hrowid, Function.update_self, hnone]
        simp
      · rw [Function.update_of_ne hrowid]
        simp [Ne.symm hrowid]
    rw [hcontent]
    unfold rebuilt at hinserted ⊢
    rw [List.map_append, List.reverse_append]
    exact hinserted

end contentIndex
