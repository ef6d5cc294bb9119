import Mathlib.Algebra.Group.Int.Defs
import Mathlib.Data.List.Induction
import Mathlib.Data.List.Nodup
import Posthaste.Library.Serde

open serde

namespace toml

mutual

/-- TOML has no null, and its integers are 64 bits wide. -/
def representable : Value → Bool
  | .null => false
  | .number value => -(2 ^ 63) ≤ value && value < 2 ^ 63
  | .array items => representableItems items
  | .object entries => representableEntries entries
  | .bool _ | .float _ | .string _ => true

def representableItems : List Value → Bool
  | [] => true
  | value :: rest => representable value && representableItems rest

def representableEntries : List (String × Value) → Bool
  | [] => true
  | (_, value) :: rest => representable value && representableEntries rest

end

/-- A value as it stands in a file, with the layout and comments that belong to it. -/
structure Item where
  value : Value
  decor : String

/-- A top-level key: the comments before it, its name and its item. -/
structure Entry where
  lead : String
  key : String
  item : Item

/-- A parsed file. -/
structure Document where
  entries : List Entry
  trailing : String
  nodup : (entries.map Entry.key).Nodup

namespace Document

def empty : Document := ⟨[], "", List.nodup_nil⟩

/-- What a reader of the values sees. -/
def values (document : Document) : List (String × Value) :=
  document.entries.map fun entry => (entry.key, entry.item.value)

def get (document : Document) (key : String) : Option Item :=
  (document.entries.find? fun entry => entry.key == key).map Entry.item

end Document

/-- The item of a present key is replaced where it stands. A new key goes last. -/
def setEntries (key : String) (item : Item) : List Entry → List Entry
  | [] => [⟨"", key, item⟩]
  | entry :: rest => if entry.key = key then { entry with item := item } :: rest else entry :: setEntries key item rest

theorem key_mem_setEntries {key name : String} {item : Item} {entries : List Entry} :
    name ∈ (setEntries key item entries).map Entry.key ↔ name = key ∨ name ∈ entries.map Entry.key := by
  induction entries with
  | nil => simp [setEntries]
  | cons entry rest ih =>
    rw [setEntries]
    split_ifs with hkey
    · simp only [List.map_cons, List.mem_cons, hkey]
      tauto
    · simp only [List.map_cons, List.mem_cons, ih]
      tauto

theorem nodup_setEntries {key : String} {item : Item} {entries : List Entry}
    (hnodup : (entries.map Entry.key).Nodup) : ((setEntries key item entries).map Entry.key).Nodup := by
  induction entries with
  | nil => simp [setEntries]
  | cons entry rest ih =>
    rw [List.map_cons, List.nodup_cons] at hnodup
    rw [setEntries]
    split_ifs with hkey
    · exact List.nodup_cons.2 hnodup
    · rw [List.map_cons, List.nodup_cons, key_mem_setEntries]
      exact ⟨fun hmem => hmem.elim hkey hnodup.1, ih hnodup.2⟩

namespace Document

def set (document : Document) (key : String) (item : Item) : Document :=
  ⟨setEntries key item document.entries, document.trailing, nodup_setEntries document.nodup⟩

def remove (document : Document) (key : String) : Document :=
  ⟨document.entries.filter fun entry => entry.key ≠ key, document.trailing,
    document.nodup.sublist (List.filter_sublist.map _)⟩

/-- One managed key: written from the new values, or removed. -/
def manage (managed : Document) (document : Document) (key : String) : Document :=
  match managed.get key with
  | some item => document.set key item
  | none => document.remove key

/-- The managed keys of a document overwritten, one after another. -/
def overwrite (document managed : Document) (keys : List String) : Document :=
  keys.foldl (manage managed) document

section Laws

variable {document managed : Document} {key name : String} {item : Item} {keys : List String}

theorem get_value : (document.get key).map Item.value = document.values.lookup key := by
  unfold get values
  induction document.entries with
  | nil => rfl
  | cons entry rest ih =>
    rw [List.find?_cons, List.map_cons, List.lookup_cons]
    by_cases hkey : key = entry.key
    · simp [hkey]
    · have hother : (entry.key == key) = false := beq_false_of_ne (Ne.symm hkey)
      simp only [hother, beq_false_of_ne hkey]
      exact ih

theorem lookup_set : (document.set key item).values.lookup name =
    if name = key then some item.value else document.values.lookup name := by
  obtain ⟨entries, trailing, hnodup⟩ := document
  simp only [set, values]
  clear hnodup
  induction entries with
  | nil =>
    simp only [setEntries, List.map_cons, List.map_nil, List.lookup_cons, List.lookup_nil]
    split_ifs with hname
    · simp [hname]
    · simp [beq_false_of_ne hname]
  | cons entry rest ih =>
    simp only [setEntries]
    by_cases hkey : entry.key = key
    · rw [if_pos hkey, List.map_cons, List.map_cons, List.lookup_cons, List.lookup_cons, hkey]
      by_cases hname : name = key
      · simp [hname]
      · simp [hname, beq_false_of_ne hname]
    · rw [if_neg hkey, List.map_cons, List.map_cons, List.lookup_cons, List.lookup_cons]
      by_cases hname : name = entry.key
      · simp [hname, hkey]
      · simp only [beq_false_of_ne hname]
        exact ih

theorem lookup_remove : (document.remove key).values.lookup name =
    if name = key then none else document.values.lookup name := by
  obtain ⟨entries, trailing, hnodup⟩ := document
  simp only [remove, values]
  clear hnodup
  induction entries with
  | nil => simp
  | cons entry rest ih =>
    by_cases hkey : entry.key = key
    · rw [List.filter_cons_of_neg (by simp [hkey]), ih, List.map_cons, List.lookup_cons, hkey]
      by_cases hname : name = key
      · simp [hname]
      · simp [hname, beq_false_of_ne hname]
    · rw [List.filter_cons_of_pos (by simp [hkey]), List.map_cons, List.map_cons, List.lookup_cons, List.lookup_cons]
      by_cases hname : name = entry.key
      · simp [hname, hkey]
      · simp only [beq_false_of_ne hname]
        exact ih

theorem lookup_manage : (manage managed document key).values.lookup name =
    if name = key then managed.values.lookup key else document.values.lookup name := by
  rw [← @get_value managed]
  unfold manage
  cases managed.get key with
  | none => exact lookup_remove
  | some item => exact lookup_set

/-- A managed key holds the new value. -/
theorem lookup_overwrite (hname : name ∈ keys) :
    (document.overwrite managed keys).values.lookup name = managed.values.lookup name := by
  unfold overwrite
  induction keys using List.reverseRecOn with
  | nil => cases hname
  | append_singleton before key ih =>
    rw [List.foldl_append, List.foldl_cons, List.foldl_nil, lookup_manage]
    split_ifs with hkey
    · rw [hkey]
    · obtain hbefore | hlast := List.mem_append.1 hname
      · exact ih hbefore
      · exact absurd (List.mem_singleton.1 hlast) hkey

/-- Every other key reads as before. -/
theorem lookup_overwrite_of_not_mem (hname : name ∉ keys) :
    (document.overwrite managed keys).values.lookup name = document.values.lookup name := by
  unfold overwrite
  induction keys using List.reverseRecOn with
  | nil => rfl
  | append_singleton before key ih =>
    rw [List.mem_append, List.mem_singleton, not_or] at hname
    rw [List.foldl_append, List.foldl_cons, List.foldl_nil, lookup_manage, if_neg hname.2]
    exact ih hname.1

/-- The entries of the keys that are not managed, comments and order included. -/
def unmanaged (document : Document) (keys : List String) : List Entry :=
  document.entries.filter fun entry => entry.key ∉ keys

theorem filter_setEntries {kept : Entry → Bool} {entries : List Entry} (hkept : ∀ entry, kept entry = true →
    entry.key ≠ key) : (setEntries key item entries).filter kept = entries.filter kept := by
  have hdropped : ∀ entry : Entry, entry.key = key → kept entry = false := by
    intro entry hentry
    cases hkeep : kept entry with
    | false => rfl
    | true => exact absurd hentry (hkept entry hkeep)
  induction entries with
  | nil => simp [setEntries, hdropped ⟨"", key, item⟩ rfl]
  | cons entry rest ih =>
    rw [setEntries]
    split_ifs with hkey
    · simp [hdropped entry hkey, hdropped { entry with item := item } hkey]
    · rw [List.filter_cons, List.filter_cons, ih]

theorem unmanaged_manage (hkey : key ∈ keys) :
    (manage managed document key).unmanaged keys = document.unmanaged keys := by
  have hkept : ∀ entry : Entry, decide (entry.key ∉ keys) = true → entry.key ≠ key := by
    rintro entry hentry rfl
    exact of_decide_eq_true hentry hkey
  unfold manage
  cases managed.get key with
  | some item => exact filter_setEntries hkept
  | none =>
    unfold remove unmanaged
    rw [List.filter_filter]
    apply List.filter_congr
    intro entry _
    cases hkeep : decide (entry.key ∉ keys) with
    | false => rfl
    | true => simp [hkept entry hkeep]

theorem trailing_manage : (manage managed document key).trailing = document.trailing := by
  unfold manage
  cases managed.get key with
  | some _ => rfl
  | none => rfl

/-- Overwriting leaves the rest of the file as it was. -/
theorem unmanaged_overwrite : (document.overwrite managed keys).unmanaged keys = document.unmanaged keys ∧
    (document.overwrite managed keys).trailing = document.trailing := by
  have hsteps : ∀ subset : List String, (∀ name ∈ subset, name ∈ keys) →
      (document.overwrite managed subset).unmanaged keys = document.unmanaged keys ∧
        (document.overwrite managed subset).trailing = document.trailing := by
    intro subset hsubset
    unfold overwrite
    induction subset using List.reverseRecOn with
    | nil => exact ⟨rfl, rfl⟩
    | append_singleton before key ih =>
      obtain ⟨hentries, htrailing⟩ := ih fun name hname => hsubset name (List.mem_append_left _ hname)
      rw [List.foldl_append, List.foldl_cons, List.foldl_nil]
      have hkey : key ∈ keys := hsubset key (List.mem_append_right _ (List.mem_singleton_self _))
      exact ⟨(unmanaged_manage hkey).trans hentries, trailing_manage.trans htrailing⟩
  exact hsteps keys fun _ hname => hname

end Laws

/-- A value printed and parsed back, without comments. -/
def print (value : Value) : Except String Document :=
  match value with
  | .object entries =>
    if hnodup : (entries.map Prod.fst).Nodup then
      if representableEntries entries then
        .ok ⟨entries.map fun entry => ⟨"", entry.1, ⟨entry.2, ""⟩⟩, "", by simpa [Function.comp_def] using hnodup⟩
      else .error "out-of-range value for u64 type"
    else .error "duplicate key"
  | _ => .error "unsupported type"

theorem values_of_print {value : Value} {document : Document} (hprint : print value = .ok document) :
    value = .object document.values := by
  unfold print at hprint
  split at hprint
  next entries =>
    split_ifs at hprint
    cases hprint
    simp [values, Function.comp_def]
  next => cases hprint

end Document

end toml
