import Mathlib.Data.List.Sort
import Mathlib.Order.Defs.LinearOrder

/-- An ordered set, as the strictly increasing list of its members. -/
structure BTreeSet (α : Type) [LinearOrder α] where
  toList : List α
  sorted : toList.SortedLT

namespace BTreeSet

variable {α : Type} [LinearOrder α]

def insertList (value : α) : List α → List α
  | [] => [value]
  | head :: rest =>
    if value < head then value :: head :: rest
    else if head < value then head :: insertList value rest
    else head :: rest

@[simp] theorem mem_insertList {value : α} {members : List α} {query : α} :
    query ∈ insertList value members ↔ query = value ∨ query ∈ members := by
  induction members with
  | nil => simp [insertList]
  | cons head rest ih =>
    unfold insertList
    split_ifs with hbefore hafter
    · simp
    · simp only [List.mem_cons, ih]
      tauto
    · have heq : value = head := le_antisymm (not_lt.mp hafter) (not_lt.mp hbefore)
      simp [heq]

theorem sortedLT_insertList {value : α} {members : List α} (hsorted : members.SortedLT) :
    (insertList value members).SortedLT := by
  rw [List.sortedLT_iff_pairwise] at hsorted ⊢
  induction members with
  | nil => simp [insertList]
  | cons head rest ih =>
    obtain ⟨hhead, hrest⟩ := List.pairwise_cons.mp hsorted
    unfold insertList
    split_ifs with hbefore hafter
    · refine List.pairwise_cons.mpr ⟨?_, hsorted⟩
      intro member hmember
      rcases List.mem_cons.mp hmember with rfl | hmember
      · exact hbefore
      · exact hbefore.trans (hhead member hmember)
    · refine List.pairwise_cons.mpr ⟨?_, ih hrest⟩
      intro member hmember
      rcases mem_insertList.mp hmember with rfl | hmember
      · exact hafter
      · exact hhead member hmember
    · exact hsorted

instance : Membership α (BTreeSet α) where
  mem members value := value ∈ members.toList

theorem mem_iff {members : BTreeSet α} {value : α} : value ∈ members ↔ value ∈ members.toList :=
  Iff.rfl

instance (value : α) (members : BTreeSet α) : Decidable (value ∈ members) :=
  inferInstanceAs (Decidable (value ∈ members.toList))

/-- Two ordered sets with the same members list them the same way. -/
@[ext] theorem ext {first second : BTreeSet α} (hmem : ∀ value, value ∈ first ↔ value ∈ second) :
    first = second := by
  obtain ⟨firstList, hfirst⟩ := first
  obtain ⟨secondList, hsecond⟩ := second
  have heq : firstList = secondList := hfirst.eq_of_mem_iff hsecond hmem
  subst heq
  rfl

def empty : BTreeSet α := ⟨[], by simp [List.sortedLT_iff_pairwise]⟩

def insert (members : BTreeSet α) (value : α) : BTreeSet α :=
  ⟨insertList value members.toList, sortedLT_insertList members.sorted⟩

def remove (members : BTreeSet α) (value : α) : BTreeSet α :=
  ⟨members.toList.filter (· ≠ value), (members.sorted.pairwise.filter _).sortedLT⟩

def extend (members : BTreeSet α) (values : List α) : BTreeSet α :=
  values.foldl insert members

def from_iter (values : List α) : BTreeSet α :=
  empty.extend values

@[simp] theorem not_mem_empty (query : α) : query ∉ (empty : BTreeSet α) := by
  simp [mem_iff, empty]

@[simp] theorem mem_insert {members : BTreeSet α} {value query : α} :
    query ∈ members.insert value ↔ query = value ∨ query ∈ members :=
  mem_insertList

@[simp] theorem mem_remove {members : BTreeSet α} {value query : α} :
    query ∈ members.remove value ↔ query ≠ value ∧ query ∈ members := by
  simp [mem_iff, remove, and_comm]

@[simp] theorem mem_extend {members : BTreeSet α} {values : List α} {query : α} :
    query ∈ members.extend values ↔ query ∈ values ∨ query ∈ members := by
  unfold extend
  induction values generalizing members with
  | nil => simp
  | cons value rest ih =>
    rw [List.foldl_cons, ih, mem_insert, List.mem_cons]
    tauto

@[simp] theorem mem_from_iter {values : List α} {query : α} :
    query ∈ from_iter values ↔ query ∈ values := by
  simp [from_iter]

/-- Removing every listed member, one at a time. -/
def removeAll (members : BTreeSet α) (values : List α) : BTreeSet α :=
  values.foldl remove members

@[simp] theorem mem_removeAll {members : BTreeSet α} {values : List α} {query : α} :
    query ∈ members.removeAll values ↔ query ∉ values ∧ query ∈ members := by
  unfold removeAll
  induction values generalizing members with
  | nil => simp
  | cons value rest ih =>
    rw [List.foldl_cons, ih, mem_remove, List.mem_cons]
    tauto

/-- The members of the first set that the second does not hold, in order. -/
def difference (members other : BTreeSet α) : BTreeSet α :=
  ⟨members.toList.filter (· ∉ other), (members.sorted.pairwise.filter _).sortedLT⟩

@[simp] theorem mem_difference {members other : BTreeSet α} {query : α} :
    query ∈ members.difference other ↔ query ∈ members ∧ query ∉ other := by
  simp [mem_iff, difference]

theorem from_iter_toList (members : BTreeSet α) : from_iter members.toList = members := by
  ext query
  rw [mem_from_iter, mem_iff]

end BTreeSet
