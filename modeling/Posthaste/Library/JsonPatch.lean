import Mathlib.Data.List.Forall2
import Mathlib.Data.List.Nodup
import Posthaste.Library.Serde

open serde

namespace json_patch

/-- Read the reference token of a JSON pointer: `~1` is a slash, `~0` a tilde,
    and a tilde before anything else is an error. -/
def unescape : List Char → Option (List Char)
  | [] => some []
  | '~' :: '0' :: rest => (unescape rest).map ('~' :: ·)
  | '~' :: '1' :: rest => (unescape rest).map ('/' :: ·)
  | '~' :: _ => none
  | c :: rest => (unescape rest).map (c :: ·)

def escapeChar (c : Char) : List Char :=
  if c = '~' then ['~', '0'] else if c = '/' then ['~', '1'] else [c]

/-- The one reference token that spells a name. -/
def escape (name : List Char) : List Char := name.flatMap escapeChar

/-- The names a path goes through. A patch leaves the leading slash out. -/
def pointer (path : String) : Option (List String) :=
  (path.toList.splitOn '/').mapM fun token => (unescape token).map String.ofList

/-- Insert into a map: replace the value at the key, or add the key. -/
def insert {β : Type} (key : String) (value : β) : List (String × β) → List (String × β)
  | [] => [(key, value)]
  | (other, held) :: rest => if other = key then (key, value) :: rest else (other, held) :: insert key value rest

/-- `null` removes the entry, anything else is its new value. -/
def setEntry (key : String) (value : Value) (entries : List (String × Value)) : List (String × Value) :=
  match value with
  | .null => entries.filter fun entry => entry.1 ≠ key
  | value => insert key value entries

/-- Apply one patch. Every part before the last must be an object that exists. -/
def assign : Value → List String → Value → Option Value
  | .object entries, [key], value => some (.object (setEntry key value entries))
  | .object entries, key :: next :: rest, value => do
    let child ← entries.lookup key
    let patched ← assign child (next :: rest) value
    return .object (insert key patched entries)
  | _, _, _ => none

/-- One pointer leads into what the other names. -/
def Overlap (first second : List String) : Prop := first <+: second ∨ second <+: first

instance (first second : List String) : Decidable (Overlap first second) :=
  inferInstanceAs (Decidable (_ ∨ _))

def readPatch (patch : List (String × Value)) : Option (List (List String × Value)) :=
  patch.mapM fun entry => (pointer entry.1).map fun names => (names, entry.2)

/-- Apply a patch object. `none` is the rejection of the whole update. -/
def apply (target : Value) (patch : List (String × Value)) : Option Value := do
  let patches ← readPatch patch
  if (patches.map Prod.fst).Pairwise fun first second => ¬ Overlap first second then
    patches.foldlM (fun target entry => assign target entry.1 entry.2) target
  else none

section Tokens

variable {token name : List Char}

theorem escape_cons (c : Char) : escape (c :: name) = escapeChar c ++ escape name := List.flatMap_cons

theorem unescape_cons_of_ne {c : Char} (hplain : c ≠ '~') (rest : List Char) :
    unescape (c :: rest) = (unescape rest).map (c :: ·) := by
  rw [unescape.eq_def]
  split <;> simp_all

theorem unescape_escape (name : List Char) : unescape (escape name) = some name := by
  induction name with
  | nil => rfl
  | cons c rest ih =>
    rw [escape_cons, escapeChar]
    split_ifs with htilde hslash
    · rw [List.cons_append, List.singleton_append, unescape, ih, htilde]
      rfl
    · rw [List.cons_append, List.singleton_append, unescape, ih, hslash]
      rfl
    · rw [List.singleton_append, unescape_cons_of_ne htilde, ih]
      rfl

/-- A token without a slash is the escaped spelling of what it reads as. -/
theorem escape_of_unescape (hslash : '/' ∉ token) (hread : unescape token = some name) : token = escape name := by
  induction token using unescape.induct generalizing name with
  | case1 =>
    cases hread
    rfl
  | case2 rest ih =>
    obtain ⟨tail, htail, rfl⟩ := Option.map_eq_some_iff.mp hread
    rw [escape_cons, ← ih (fun hmem => hslash (by simp [hmem])) htail]
    rfl
  | case3 rest ih =>
    obtain ⟨tail, htail, rfl⟩ := Option.map_eq_some_iff.mp hread
    rw [escape_cons, ← ih (fun hmem => hslash (by simp [hmem])) htail]
    rfl
  | case4 rest hzero hone =>
    rw [unescape] at hread
    · cases hread
    · exact hzero
    · exact hone
  | case5 c rest hzero hone htilde ih =>
    have hc : c ≠ '~' := fun heq => htilde heq
    rw [unescape_cons_of_ne hc] at hread
    obtain ⟨tail, htail, rfl⟩ := Option.map_eq_some_iff.mp hread
    rw [List.mem_cons, not_or] at hslash
    rw [escape_cons, ← ih hslash.2 htail, escapeChar, if_neg hc, if_neg (Ne.symm hslash.1)]
    rfl

theorem slash_not_mem_escape (name : List Char) : '/' ∉ escape name := by
  intro hmem
  obtain ⟨c, _, hchar⟩ := List.mem_flatMap.mp hmem
  unfold escapeChar at hchar
  split_ifs at hchar with htilde hslash
  · simp at hchar
  · simp at hchar
  · exact hslash (List.mem_singleton.mp hchar).symm

/-- Neither a slash nor a tilde. -/
def Plain (name : List Char) : Prop := '/' ∉ name ∧ '~' ∉ name

instance (name : List Char) : Decidable (Plain name) := inferInstanceAs (Decidable (_ ∧ _))

theorem escape_of_plain (hplain : Plain name) : escape name = name := by
  induction name with
  | nil => rfl
  | cons c rest ih =>
    obtain ⟨hslash, htilde⟩ := hplain
    rw [List.mem_cons, not_or] at hslash htilde
    rw [escape_cons, ih ⟨hslash.2, htilde.2⟩, escapeChar, if_neg (Ne.symm htilde.1), if_neg (Ne.symm hslash.1)]
    rfl

theorem length_le_escape (name : List Char) : name.length ≤ (escape name).length := by
  induction name with
  | nil => exact Nat.zero_le _
  | cons c rest ih =>
    rw [escape_cons, List.length_append, List.length_cons]
    have hchar : 1 ≤ (escapeChar c).length := by
      unfold escapeChar
      split_ifs <;> simp
    omega

/-- A tilde makes the escaped spelling longer, and stays in it. -/
theorem lt_escape_of_tilde (htilde : '~' ∈ name) : name.length < (escape name).length ∧ '~' ∈ escape name := by
  induction name with
  | nil => cases htilde
  | cons c rest ih =>
    rw [escape_cons, List.length_append, List.length_cons, List.mem_append]
    by_cases hc : c = '~'
    · have hle := length_le_escape rest
      rw [hc]
      refine ⟨?_, .inl (by decide)⟩
      show rest.length + 1 < 2 + _
      omega
    · obtain ⟨hlt, hmem⟩ := ih ((List.mem_cons.mp htilde).resolve_left (Ne.symm hc))
      have hchar : 1 ≤ (escapeChar c).length := by
        unfold escapeChar
        split_ifs <;> simp
      exact ⟨by omega, .inr hmem⟩

theorem tilde_mem_escape (hplain : ¬ Plain name) : '~' ∈ escape name := by
  rw [Plain, not_and_or, not_not, not_not] at hplain
  rcases hplain with hslash | htilde
  · exact List.mem_flatMap.mpr ⟨'/', hslash, by decide⟩
  · exact List.mem_flatMap.mpr ⟨'~', htilde, by decide⟩

/-- The spelling of a name as one part of a pointer. -/
def escapeName (name : String) : String := String.ofList (escape name.toList)

theorem escapeName_injective : Function.Injective escapeName := by
  intro first second hsame
  have hchars : escape first.toList = escape second.toList := String.ofList_injective hsame
  have hread := congrArg unescape hchars
  rw [unescape_escape, unescape_escape] at hread
  exact String.toList_inj.mp (Option.some.inj hread)

theorem escapeName_of_plain {name : String} (hplain : Plain name.toList) : escapeName name = name := by
  rw [escapeName, escape_of_plain hplain, String.ofList_toList]

end Tokens

section Maps

variable {α β : Type} {key query : String} {value : α} {entries : List (String × α)} {keys : List String}

theorem lookup_insert : (insert key value entries).lookup query = if query = key then some value else entries.lookup query := by
  induction entries with
  | nil =>
    rw [insert, List.lookup_cons, List.lookup_nil]
    split_ifs with heq
    · rw [heq, beq_self_eq_true]
    · rw [beq_false_of_ne heq]
  | cons entry rest ih =>
    obtain ⟨other, held⟩ := entry
    rw [insert]
    split_ifs with hother heq heq
    · rw [heq, List.lookup_cons, beq_self_eq_true]
    · have hne : (query == key) = false := beq_false_of_ne heq
      rw [List.lookup_cons, List.lookup_cons, hne, hother, hne]
    · have hne : (query == other) = false := beq_false_of_ne fun hsame => hother (hsame.symm.trans heq)
      rw [List.lookup_cons, hne, ih, if_pos heq]
    · rw [List.lookup_cons, List.lookup_cons, ih, if_neg heq]

/-- The keys of a map stay as they are, or gain the new one at the end. -/
theorem keys_insert : (insert key value entries).map Prod.fst =
    if key ∈ entries.map Prod.fst then entries.map Prod.fst else entries.map Prod.fst ++ [key] := by
  induction entries with
  | nil => rfl
  | cons entry rest ih =>
    obtain ⟨other, held⟩ := entry
    rw [insert]
    by_cases hother : other = key
    · simp [hother]
    · simp only [if_neg hother, List.map_cons, ih, List.mem_cons, Ne.symm hother, false_or]
      split_ifs <;> rfl

theorem nodup_insert (hnodup : (entries.map Prod.fst).Nodup) : ((insert key value entries).map Prod.fst).Nodup := by
  rw [keys_insert]
  split_ifs with hheld
  · exact hnodup
  · exact List.Nodup.append hnodup (List.nodup_singleton key) (List.disjoint_singleton.mpr hheld)

/-- Inserting commutes with renaming the keys one to one. -/
theorem insert_map {rename : String → String} (hrename : Function.Injective rename) (convert : α → β) :
    insert (rename key) (convert value) (entries.map fun entry => (rename entry.1, convert entry.2)) =
      (insert key value entries).map fun entry => (rename entry.1, convert entry.2) := by
  induction entries with
  | nil => rfl
  | cons entry rest ih =>
    obtain ⟨other, held⟩ := entry
    rw [List.map_cons, insert, insert, ih]
    by_cases hother : other = key
    · rw [if_pos hother, if_pos (congrArg rename hother)]
      rfl
    · rw [if_neg hother, if_neg fun hsame => hother (hrename hsame)]
      rfl

theorem lookup_map {rename : String → String} (hrename : Function.Injective rename) (convert : α → β) :
    (entries.map fun entry => (rename entry.1, convert entry.2)).lookup (rename key) =
      (entries.lookup key).map convert := by
  induction entries with
  | nil => rfl
  | cons entry rest ih =>
    rw [List.map_cons, List.lookup_cons, List.lookup_cons, ih]
    by_cases heq : key = entry.1
    · rw [heq, beq_self_eq_true, beq_self_eq_true]
      rfl
    · rw [beq_false_of_ne heq, beq_false_of_ne fun hsame => heq (hrename hsame)]

/-- Inserting one value at a list of keys, one after the other. -/
def insertAll (keys : List String) (value : α) (entries : List (String × α)) : List (String × α) :=
  keys.foldl (fun entries key => insert key value entries) entries

theorem lookup_insertAll :
    (insertAll keys value entries).lookup query = if query ∈ keys then some value else entries.lookup query := by
  unfold insertAll
  induction keys generalizing entries with
  | nil => simp
  | cons key rest ih =>
    rw [List.foldl_cons, ih, lookup_insert]
    by_cases hrest : query ∈ rest
    · simp [hrest]
    · by_cases hkey : query = key
      · simp [hkey]
      · simp [hrest, hkey]

theorem nodup_insertAll (hnodup : (entries.map Prod.fst).Nodup) :
    ((insertAll keys value entries).map Prod.fst).Nodup := by
  unfold insertAll
  induction keys generalizing entries with
  | nil => exact hnodup
  | cons key rest ih => exact ih (nodup_insert hnodup)

theorem insertAll_map {rename : String → String} (hrename : Function.Injective rename) (convert : α → β) :
    insertAll (keys.map rename) (convert value) (entries.map fun entry => (rename entry.1, convert entry.2)) =
      (insertAll keys value entries).map fun entry => (rename entry.1, convert entry.2) := by
  unfold insertAll
  induction keys generalizing entries with
  | nil => rfl
  | cons key rest ih => rw [List.map_cons, List.foldl_cons, List.foldl_cons, insert_map hrename, ih]

end Maps

section Assigning

variable {key next : String} {rest : List String} {value child : Value} {entries : List (String × Value)}

/-- Assigning below an entry assigns in what the entry holds. -/
theorem assign_below (hchild : entries.lookup key = some child) :
    assign (.object entries) (key :: next :: rest) value =
      (assign child (next :: rest) value).map fun patched => .object (insert key patched entries) := by
  rw [assign, hchild]
  show (assign child (next :: rest) value).bind _ = _
  cases assign child (next :: rest) value with
  | none => rfl
  | some patched => rfl

theorem assign_below_missing (hmissing : entries.lookup key = none) :
    assign (.object entries) (key :: next :: rest) value = none := by
  rw [assign, hmissing]
  rfl

end Assigning

section Reading

variable {patch : List (String × Value)} {patches : List (List String × Value)} {target after : Value}

theorem mapM_eq_some_iff {α β : Type} {read : α → Option β} {items : List α} {results : List β} :
    items.mapM read = some results ↔ List.Forall₂ (fun item result => read item = some result) items results := by
  induction items generalizing results with
  | nil =>
    rw [List.mapM_nil, List.forall₂_nil_left_iff]
    exact ⟨fun hsome => (Option.some.inj hsome).symm, fun hnil => hnil ▸ rfl⟩
  | cons item rest ih =>
    rw [List.mapM_cons, List.forall₂_cons_left_iff]
    constructor
    · intro hread
      obtain ⟨head, hhead, htail⟩ := Option.bind_eq_some_iff.mp hread
      obtain ⟨tail, hrest, hcons⟩ := Option.bind_eq_some_iff.mp htail
      exact ⟨head, tail, hhead, ih.mp hrest, (Option.some.inj hcons).symm⟩
    · rintro ⟨head, tail, hhead, hrest, rfl⟩
      rw [hhead, ih.mpr hrest]
      rfl

theorem exists_of_mapM {α β : Type} {read : α → Option β} {items : List α} {results : List β}
    (hread : items.mapM read = some results) :
    (∀ item ∈ items, ∃ result ∈ results, read item = some result) ∧
      ∀ result ∈ results, ∃ item ∈ items, read item = some result := by
  induction mapM_eq_some_iff.mp hread with
  | nil => simp
  | cons hhead htail ih =>
    obtain ⟨hforward, hback⟩ := ih (mapM_eq_some_iff.mpr htail)
    simp only [List.forall_mem_cons, List.exists_mem_cons_iff]
    exact ⟨⟨.inl hhead, fun item hitem => .inr (hforward item hitem)⟩,
      .inl hhead, fun result hresult => .inr (hback result hresult)⟩

theorem pointer_ne_nil (path : String) : pointer path ≠ some [] := by
  intro hread
  have hall := mapM_eq_some_iff.mp hread
  rw [List.forall₂_nil_right_iff] at hall
  exact List.splitOn_ne_nil '/' path.toList hall

/-- Only its escaped spelling reads as the one name. -/
theorem pointer_eq_single_iff {path name : String} : pointer path = some [name] ↔ path = escapeName name := by
  unfold pointer
  by_cases hslash : '/' ∈ path.toList
  · have hne : path ≠ escapeName name := by
      rintro rfl
      rw [escapeName, String.toList_ofList] at hslash
      exact slash_not_mem_escape _ hslash
    refine ⟨fun hread => ?_, fun heq => absurd heq hne⟩
    obtain ⟨before, after, hpath⟩ := List.append_of_mem hslash
    have hlength := (mapM_eq_some_iff.mp hread).length_eq
    rw [hpath, List.splitOn_append_cons_self, List.length_append, List.length_singleton] at hlength
    have hbefore := List.length_pos_of_ne_nil (List.splitOn_ne_nil '/' before)
    have hafter := List.length_pos_of_ne_nil (List.splitOn_ne_nil '/' after)
    omega
  · rw [List.splitOn_eq_singleton hslash, mapM_eq_some_iff]
    constructor
    · intro hread
      obtain ⟨head, _, hhead, _, hcons⟩ := List.forall₂_cons_left_iff.mp hread
      obtain ⟨rfl, _⟩ := List.cons.inj hcons
      obtain ⟨chars, hchars, rfl⟩ := Option.map_eq_some_iff.mp hhead
      rw [escapeName, String.toList_ofList, ← escape_of_unescape hslash hchars, String.ofList_toList]
    · rintro rfl
      refine .cons ?_ .nil
      rw [escapeName, String.toList_ofList, unescape_escape, Option.map_some, String.ofList_toList]

/-- A patch that is applied was read, overlaps nowhere, and every part of it was assigned. -/
theorem apply_eq_some_iff : apply target patch = some after ↔
    ∃ patches, readPatch patch = some patches ∧
      (patches.map Prod.fst).Pairwise (fun first second => ¬ Overlap first second) ∧
      patches.foldlM (fun target entry => assign target entry.1 entry.2) target = some after := by
  unfold apply
  constructor
  · intro happly
    obtain ⟨patches, hread, hrest⟩ := Option.bind_eq_some_iff.mp happly
    split_ifs at hrest with hapart
    exact ⟨patches, hread, hapart, hrest⟩
  · rintro ⟨patches, hread, hapart, hassign⟩
    rw [hread]
    show (if _ then _ else _) = _
    rw [if_pos hapart, hassign]

end Reading

section Twice

variable {key query : String} {path other : List String} {value first second : Value} {target child after : Value}
  {entries : List (String × Value)} {patch : List (String × Value)} {patches : List (List String × Value)}

theorem insert_eq_self_iff {β : Type} {item : β} {held : List (String × β)} :
    insert key item held = held ↔ held.lookup key = some item := by
  induction held with
  | nil => simp [insert]
  | cons entry rest ih =>
    obtain ⟨name, stored⟩ := entry
    rw [insert, List.lookup_cons]
    split_ifs with hname
    · rw [hname, beq_self_eq_true]
      simp [eq_comm]
    · rw [beq_false_of_ne (Ne.symm hname), List.cons.injEq]
      exact (and_iff_right rfl).trans ih

/-- What an entry set to a value reads as. -/
def entryOf : Value → Option Value
  | .null => none
  | value => some value

theorem setEntry_null : setEntry key .null entries = entries.filter fun entry => entry.1 ≠ key := rfl

theorem setEntry_of_ne_null (hvalue : value ≠ .null) : setEntry key value entries = insert key value entries := by
  cases value with
  | null => exact absurd rfl hvalue
  | bool | number | float | string | array | object => rfl

theorem entryOf_of_ne_null (hvalue : value ≠ .null) : entryOf value = some value := by
  cases value with
  | null => exact absurd rfl hvalue
  | bool | number | float | string | array | object => rfl

theorem lookup_filter_ne :
    (entries.filter fun entry => entry.1 ≠ key).lookup query = if query = key then none else entries.lookup query := by
  induction entries with
  | nil => simp
  | cons entry rest ih =>
    obtain ⟨name, stored⟩ := entry
    rw [List.filter_cons]
    by_cases hname : name = key
    · rw [if_neg (by simpa using hname), ih, List.lookup_cons]
      split_ifs with hquery
      · rfl
      · rw [beq_false_of_ne fun hsame => hquery (hsame.trans hname)]
    · rw [if_pos (by simpa using hname), List.lookup_cons, List.lookup_cons, ih]
      by_cases hquery : query = key
      · rw [if_pos hquery, if_pos hquery, beq_false_of_ne fun hsame => hname (hsame.symm.trans hquery)]
      · rw [if_neg hquery, if_neg hquery]

theorem lookup_setEntry :
    (setEntry key value entries).lookup query = if query = key then entryOf value else entries.lookup query := by
  by_cases hvalue : value = .null
  · rw [hvalue, setEntry_null, lookup_filter_ne]
    rfl
  · rw [setEntry_of_ne_null hvalue, entryOf_of_ne_null hvalue, lookup_insert]

theorem setEntry_eq_self_iff : setEntry key value entries = entries ↔ entries.lookup key = entryOf value := by
  by_cases hvalue : value = .null
  · rw [hvalue, setEntry_null, List.filter_eq_self]
    constructor
    · intro hall
      refine List.lookup_eq_none_iff.mpr fun entry hentry => ?_
      exact bne_iff_ne.mpr (Ne.symm (of_decide_eq_true (hall entry hentry)))
    · intro hnone entry hentry
      exact decide_eq_true (Ne.symm (bne_iff_ne.mp (List.lookup_eq_none_iff.mp hnone entry hentry)))
  · rw [setEntry_of_ne_null hvalue, entryOf_of_ne_null hvalue, insert_eq_self_iff]

/-- The patch changes nothing any more. -/
def Assigned (target : Value) (path : List String) (value : Value) : Prop := assign target path value = some target

theorem assigned_single_iff : Assigned (.object entries) [key] value ↔ entries.lookup key = entryOf value := by
  unfold Assigned
  rw [assign, Option.some.injEq, Value.object.injEq, setEntry_eq_self_iff]

theorem assigned_below_iff {next : String} {rest : List String} :
    Assigned (.object entries) (key :: next :: rest) value ↔
      ∃ child, entries.lookup key = some child ∧ Assigned child (next :: rest) value := by
  unfold Assigned
  cases hchild : entries.lookup key with
  | none =>
    rw [assign_below_missing hchild]
    simp
  | some child =>
    rw [assign_below hchild]
    constructor
    · intro hassign
      obtain ⟨patched, hpatched, hobject⟩ := Option.map_eq_some_iff.mp hassign
      obtain rfl : child = patched :=
        Option.some.inj (hchild.symm.trans (insert_eq_self_iff.mp (Value.object.inj hobject)))
      exact ⟨child, rfl, hpatched⟩
    · rintro ⟨found, hfound, hpatched⟩
      cases hfound
      rw [hpatched, Option.map_some, insert_eq_self_iff.mpr hchild]

/-- Assigning twice is assigning once. -/
theorem assigned_of_assign (hassign : assign target path value = some after) : Assigned after path value := by
  induction path generalizing target after with
  | nil => cases target <;> cases hassign
  | cons key rest ih =>
    cases target with
    | null | bool | number | float | string | array => cases rest <;> cases hassign
    | object entries =>
      cases rest with
      | nil =>
        cases hassign
        rw [assigned_single_iff, lookup_setEntry, if_pos rfl]
      | cons next rest =>
        cases hchild : entries.lookup key with
        | none =>
          rw [assign_below_missing hchild] at hassign
          cases hassign
        | some child =>
          rw [assign_below hchild] at hassign
          obtain ⟨patched, hpatched, rfl⟩ := Option.map_eq_some_iff.mp hassign
          rw [assigned_below_iff, lookup_insert, if_pos rfl]
          exact ⟨patched, rfl, ih hpatched⟩

/-- A patch reaches one entry of an object. -/
theorem lookup_of_assign {names : List String} (hassign : assign (.object entries) (key :: names) value = some after) :
    ∃ patched, after = .object patched ∧ ∀ query, query ≠ key → patched.lookup query = entries.lookup query := by
  cases names with
  | nil =>
    cases hassign
    refine ⟨_, rfl, fun query hne => ?_⟩
    rw [lookup_setEntry, if_neg hne]
  | cons next rest =>
    cases hchild : entries.lookup key with
    | none =>
      rw [assign_below_missing hchild] at hassign
      cases hassign
    | some child =>
      rw [assign_below hchild] at hassign
      obtain ⟨patched, _, rfl⟩ := Option.map_eq_some_iff.mp hassign
      refine ⟨_, rfl, fun query hne => ?_⟩
      rw [lookup_insert, if_neg hne]

theorem Assigned.of_lookup {rest : List String} {changed : List (String × Value)}
    (hassigned : Assigned (.object entries) (key :: rest) value) (hsame : changed.lookup key = entries.lookup key) :
    Assigned (.object changed) (key :: rest) value := by
  cases rest with
  | nil =>
    rw [assigned_single_iff] at hassigned ⊢
    exact hsame.trans hassigned
  | cons next rest =>
    obtain ⟨child, hchild, hbelow⟩ := assigned_below_iff.mp hassigned
    exact assigned_below_iff.mpr ⟨child, hsame.trans hchild, hbelow⟩

/-- What another patch does beside a path leaves what is there. -/
theorem Assigned.beside (hassigned : Assigned target path first) (hapart : ¬ Overlap path other)
    (hassign : assign target other second = some after) : Assigned after path first := by
  induction path generalizing target other after with
  | nil => exact absurd (Or.inl List.nil_prefix) hapart
  | cons key rest ih =>
    cases other with
    | nil => exact absurd (Or.inr List.nil_prefix) hapart
    | cons name names =>
      cases target with
      | null | bool | number | float | string | array => cases names <;> cases hassign
      | object entries =>
        by_cases hname : key = name
        · subst hname
          have hbelow : ¬ Overlap rest names := fun hoverlap =>
            hapart (hoverlap.imp (List.cons_prefix_cons.mpr ⟨rfl, ·⟩) (List.cons_prefix_cons.mpr ⟨rfl, ·⟩))
          cases rest with
          | nil => exact absurd (Or.inl List.nil_prefix) hbelow
          | cons next rest =>
            cases names with
            | nil => exact absurd (Or.inr List.nil_prefix) hbelow
            | cons next' names =>
              obtain ⟨child, hchild, hinside⟩ := assigned_below_iff.mp hassigned
              rw [assign_below hchild] at hassign
              obtain ⟨patched, hpatched, rfl⟩ := Option.map_eq_some_iff.mp hassign
              refine assigned_below_iff.mpr ⟨patched, ?_, ih hinside hbelow hpatched⟩
              rw [lookup_insert, if_pos rfl]
        · obtain ⟨patched, rfl, hsame⟩ := lookup_of_assign hassign
          exact hassigned.of_lookup (hsame key hname)

theorem Assigned.beside_all (hassigned : Assigned target path first) (hapart : ∀ entry ∈ patches, ¬ Overlap path entry.1)
    (hassign : patches.foldlM (fun target entry => assign target entry.1 entry.2) target = some after) :
    Assigned after path first := by
  induction patches generalizing target with
  | nil =>
    cases hassign
    exact hassigned
  | cons head rest ih =>
    rw [List.foldlM_cons] at hassign
    obtain ⟨middle, hmiddle, hrest⟩ := Option.bind_eq_some_iff.mp hassign
    obtain ⟨hhead, htail⟩ := List.forall_mem_cons.mp hapart
    exact ih (hassigned.beside hhead hmiddle) htail hrest

theorem assigned_of_foldlM (hapart : (patches.map Prod.fst).Pairwise fun first second => ¬ Overlap first second)
    (hassign : patches.foldlM (fun target entry => assign target entry.1 entry.2) target = some after) :
    ∀ entry ∈ patches, Assigned after entry.1 entry.2 := by
  induction patches generalizing target with
  | nil => simp
  | cons head rest ih =>
    rw [List.foldlM_cons] at hassign
    obtain ⟨middle, hmiddle, hrest⟩ := Option.bind_eq_some_iff.mp hassign
    obtain ⟨hhead, htail⟩ := List.pairwise_cons.mp hapart
    refine List.forall_mem_cons.mpr ⟨?_, ih htail hrest⟩
    exact (assigned_of_assign hmiddle).beside_all (fun entry hentry => hhead _ (List.mem_map_of_mem hentry)) hrest

theorem foldlM_of_assigned (hassigned : ∀ entry ∈ patches, Assigned target entry.1 entry.2) :
    patches.foldlM (fun target entry => assign target entry.1 entry.2) target = some target := by
  induction patches with
  | nil => rfl
  | cons head rest ih =>
    obtain ⟨hhead, htail⟩ := List.forall_mem_cons.mp hassigned
    rw [List.foldlM_cons, show assign target head.1 head.2 = some target from hhead]
    exact ih htail

/-- A patch that was applied changes nothing the second time. -/
theorem apply_twice (happly : apply target patch = some after) : apply after patch = some after := by
  obtain ⟨patches, hread, hapart, hassign⟩ := apply_eq_some_iff.mp happly
  exact apply_eq_some_iff.mpr ⟨patches, hread, hapart, foldlM_of_assigned (assigned_of_foldlM hapart hassign)⟩

end Twice

end json_patch
