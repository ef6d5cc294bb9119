import Posthaste.Library.Table

namespace object_set

/-- How a server makes new ids: never one it gave out before. -/
structure Minting (κ : Type) where
  mint : List κ → κ
  fresh : ∀ given, mint given ∉ given

/-- The objects of one type under their ids, the ids given out so far, and how often anything changed. -/
structure Collection (κ ρ : Type) where
  objects : Table (κ × ρ) Prod.fst
  given : List κ
  version : Nat
  held_given : ∀ object ∈ objects.rows, object.1 ∈ given

/-- What one call asks for. It is worked off in this order. -/
structure Change (κ ρ ε : Type) where
  create : Option ρ
  update : Option (κ × (ρ → Except ε ρ))
  destroy : Option κ

/-- What the server refuses for reasons of its own. -/
structure Verdict (ε : Type) where
  create : Option ε
  update : Option ε
  destroy : Option ε

def Verdict.granted {ε : Type} : Verdict ε := ⟨none, none, none⟩

/-- The answers to what was asked, and the version the call left. -/
structure Answer (κ ε : Type) where
  created : Option (Except ε κ)
  updated : Option (Except ε Unit)
  destroyed : Option (Except ε Unit)
  version : Nat

namespace Collection

variable {κ ρ ε α β : Type} [DecidableEq κ]

def find (collection : Collection κ ρ) (id : κ) : Option ρ := (collection.objects.find id).map Prod.snd

/-- With an object under a new id. -/
def add (collection : Collection κ ρ) (id : κ) (object : ρ) : Collection κ ρ where
  objects := collection.objects.insertOrIgnore (id, object)
  given := id :: collection.given
  version := collection.version + 1
  held_given := by
    intro held hheld
    unfold Table.insertOrIgnore at hheld
    split_ifs at hheld
    · exact List.mem_cons_of_mem _ (collection.held_given held hheld)
    · rcases List.mem_append.mp hheld with hold | hnew
      · exact List.mem_cons_of_mem _ (collection.held_given held hold)
      · rw [List.mem_singleton.mp hnew]
        exact List.mem_cons_self

/-- With the object of an id changed. -/
def change (collection : Collection κ ρ) (id : κ) (object : ρ) : Collection κ ρ where
  objects := collection.objects.updateIf id (fun _ => true) (fun held => (held.1, object)) fun _ => rfl
  given := collection.given
  version := collection.version + 1
  held_given := by
    intro held hheld
    obtain ⟨stored, hstored, rfl⟩ := List.mem_map.mp hheld
    have hid := collection.held_given stored hstored
    split_ifs
    · exact hid
    · exact hid

/-- Without the object of an id. -/
def drop (collection : Collection κ ρ) (id : κ) : Collection κ ρ where
  objects := collection.objects.retain fun object => object.1 ≠ id
  given := collection.given
  version := collection.version + 1
  held_given object hobject := collection.held_given object (Table.mem_retain.mp hobject).1

def create (minting : Minting κ) (refused : Option ε) (object : ρ) (collection : Collection κ ρ) :
    Except ε κ × Collection κ ρ :=
  match refused with
  | some error => (.error error, collection)
  | none => (.ok (minting.mint collection.given), collection.add (minting.mint collection.given) object)

def update (absent : ε) (refused : Option ε) (asked : κ × (ρ → Except ε ρ)) (collection : Collection κ ρ) :
    Except ε Unit × Collection κ ρ :=
  match collection.find asked.1 with
  | none => (.error absent, collection)
  | some held =>
    match refused, asked.2 held with
    | some error, _ => (.error error, collection)
    | none, .error error => (.error error, collection)
    | none, .ok object => (.ok (), collection.change asked.1 object)

def destroy (absent : ε) (refused : Option ε) (id : κ) (collection : Collection κ ρ) :
    Except ε Unit × Collection κ ρ :=
  match collection.find id, refused with
  | none, _ => (.error absent, collection)
  | some _, some error => (.error error, collection)
  | some _, none => (.ok (), collection.drop id)

/-- A step that is only taken when it is asked for. -/
def onDemand (step : α → Collection κ ρ → β × Collection κ ρ) (asked : Option α) (collection : Collection κ ρ) :
    Option β × Collection κ ρ :=
  match asked with
  | none => (none, collection)
  | some value => (some (step value collection).1, (step value collection).2)

/-- Work off a call. What is refused keeps nothing else from being done. -/
def set (minting : Minting κ) (absent : ε) (change : Change κ ρ ε) (verdict : Verdict ε) (collection : Collection κ ρ) :
    Answer κ ε × Collection κ ρ :=
  let first := collection.onDemand (create minting verdict.create) change.create
  let second := first.2.onDemand (update absent verdict.update) change.update
  let third := second.2.onDemand (destroy absent verdict.destroy) change.destroy
  (⟨first.1, second.1, third.1, third.2.version⟩, third.2)

section Rows

variable {collection : Collection κ ρ} {minting : Minting κ} {absent : ε} {refused : Option ε} {object : ρ} {id other : κ}
  {patch : ρ → Except ε ρ}

theorem given_of_find (hfind : collection.find id = some object) : id ∈ collection.given := by
  obtain ⟨held, hheld, rfl⟩ := Option.map_eq_some_iff.mp hfind
  rw [← Table.find_key hheld]
  exact collection.held_given held (Table.mem_of_find hheld)

theorem find_eq_none_of_not_given (hnot : id ∉ collection.given) : collection.find id = none := by
  cases hfind : collection.find id with
  | none => rfl
  | some object => exact absurd (given_of_find hfind) hnot

theorem find_eq_some_iff : collection.find id = some object ↔ (id, object) ∈ collection.objects.rows := by
  unfold find
  rw [Option.map_eq_some_iff]
  constructor
  · rintro ⟨held, hheld, rfl⟩
    rw [← Table.find_key hheld]
    exact Table.mem_of_find hheld
  · intro hmem
    exact ⟨(id, object), Table.find_of_mem hmem, rfl⟩

/-- A new object comes last. -/
theorem rows_create : (collection.create minting refused object).2.objects.rows =
    collection.objects.rows ++ if refused.isSome then [] else [(minting.mint collection.given, object)] := by
  cases refused with
  | some error => exact (List.append_nil _).symm
  | none =>
    refine Table.rows_insertOrIgnore_of_fresh ?_
    exact Option.map_eq_none_iff.mp (find_eq_none_of_not_given (minting.fresh _))

theorem rows_destroy : (collection.destroy absent refused id).2.objects.rows =
    if refused.isSome then collection.objects.rows else collection.objects.rows.filter fun object => object.1 ≠ id := by
  have hrows : collection.find id = none →
      collection.objects.rows.filter (fun object => object.1 ≠ id) = collection.objects.rows := by
    intro hnone
    refine List.filter_eq_self.mpr fun held hheld => ?_
    have hne := Table.find_eq_none_iff.mp (Option.map_eq_none_iff.mp hnone) held hheld
    exact decide_eq_true hne
  unfold destroy
  cases hfind : collection.find id with
  | none =>
    rw [hrows hfind, ite_self]
  | some held =>
    cases refused with
    | some error => rfl
    | none => rfl

/-- A patch in place: an object it does not apply to stays. -/
def patched (patch : ρ → Except ε ρ) (object : ρ) : ρ :=
  match patch object with
  | .ok after => after
  | .error _ => object

theorem rows_update : (collection.update absent refused (id, patch)).2.objects.rows =
    if refused.isSome then collection.objects.rows
    else collection.objects.rows.map fun held => if held.1 = id then (held.1, patched patch held.2) else held := by
  have hsame : (∀ held ∈ collection.objects.rows, held.1 = id → patched patch held.2 = held.2) →
      (collection.objects.rows.map fun held => if held.1 = id then (held.1, patched patch held.2) else held) =
        collection.objects.rows := by
    intro hpatched
    refine (List.map_congr_left fun held hheld => ?_).trans (List.map_id _)
    split_ifs with hid
    · rw [hpatched held hheld hid]
      rfl
    · rfl
  unfold update
  cases hfind : collection.find id with
  | none =>
    have hnone := Table.find_eq_none_iff.mp (Option.map_eq_none_iff.mp hfind)
    rw [hsame fun held hheld hid => absurd hid (hnone held hheld), ite_self]
  | some object =>
    have hobject : ∀ held ∈ collection.objects.rows, held.1 = id → held.2 = object := by
      intro held hheld hid
      have hstored := find_eq_some_iff.mpr (show (id, held.2) ∈ collection.objects.rows from hid ▸ hheld)
      exact Option.some.inj (hstored.symm.trans hfind)
    cases refused with
    | some error => rfl
    | none =>
      cases hpatch : patch object with
      | error error =>
        simp only [hpatch]
        refine (hsame fun held hheld hid => ?_).symm
        rw [hobject held hheld hid, patched, hpatch]
      | ok after =>
        simp only [hpatch]
        refine List.map_congr_left fun held hheld => ?_
        by_cases hid : held.1 = id
        · rw [if_pos ⟨hid, rfl⟩, if_pos hid, hobject held hheld hid, patched, hpatch]
        · rw [if_neg hid, if_neg fun hboth => hid hboth.1]

theorem given_create : collection.given ⊆ (collection.create minting refused object).2.given := by
  cases refused with
  | some error => exact List.Subset.refl _
  | none => exact List.subset_cons_self _ _

theorem given_destroy : (collection.destroy absent refused id).2.given = collection.given := by
  unfold destroy
  split <;> rfl

theorem patched_of_ok {after : ρ} (hpatch : patch object = .ok after) : patched patch object = after := by
  rw [patched, hpatch]

theorem patched_of_error {error : ε} (hpatch : patch object = .error error) : patched patch object = object := by
  rw [patched, hpatch]

theorem update_of_none (hfind : collection.find id = none) :
    collection.update absent refused (id, patch) = (.error absent, collection) := by
  unfold update
  rw [hfind]

theorem update_refused {error : ε} {asked : κ × (ρ → Except ε ρ)} :
    (collection.update absent (some error) asked).2 = collection := by
  unfold update
  split <;> rfl

/-- Only an update that is not refused succeeds. -/
theorem granted_of_update {asked : κ × (ρ → Except ε ρ)} {after : Collection κ ρ}
    (hupdate : collection.update absent refused asked = (.ok (), after)) : refused = none := by
  cases refused with
  | none => rfl
  | some error =>
    unfold update at hupdate
    split at hupdate <;> cases hupdate

theorem update_granted {after : ρ} (hfind : collection.find id = some object) (hpatch : patch object = .ok after) :
    collection.update absent none (id, patch) = (.ok (), collection.change id after) := by
  unfold update
  simp only [hfind, hpatch]

theorem update_unfit {error : ε} (hfind : collection.find id = some object) (hpatch : patch object = .error error) :
    collection.update absent none (id, patch) = (.error error, collection) := by
  unfold update
  simp only [hfind, hpatch]

theorem destroy_of_none (hfind : collection.find id = none) :
    collection.destroy absent refused id = (.error absent, collection) := by
  unfold destroy
  rw [hfind]

theorem destroy_granted (hfind : collection.find id = some object) :
    collection.destroy absent (none : Option ε) id = (.ok (), collection.drop id) := by
  unfold destroy
  rw [hfind]

theorem find_change {after : ρ} (hfind : collection.find id = some object) :
    (collection.change id after).find id = some after := by
  obtain ⟨held, hheld, _⟩ := Option.map_eq_some_iff.mp hfind
  unfold find change
  rw [Table.find_updateIf, hheld, Option.map_some, if_pos ⟨Table.find_key hheld, rfl⟩]
  rfl

/-- What is held under an id is what the rows say. -/
theorem find_congr {first second : Collection κ ρ} (hrows : first.objects.rows = second.objects.rows) :
    first.find id = second.find id := by
  rw [find, find, Table.ext hrows]

/-- The object of an id whose row was changed in place. -/
theorem find_of_mapped {before after : Collection κ ρ} {convert : ρ → ρ}
    (hrows : after.objects.rows =
      before.objects.rows.map fun held => if held.1 = id then (held.1, convert held.2) else held) :
    after.find id = (before.find id).map convert := by
  refine Option.ext fun object => ?_
  rw [find_eq_some_iff, hrows, List.mem_map, Option.map_eq_some_iff]
  constructor
  · rintro ⟨held, hheld, hchanged⟩
    split_ifs at hchanged with hid
    · cases hchanged
      exact ⟨held.2, find_eq_some_iff.mpr hheld, rfl⟩
    · exact absurd (congrArg Prod.fst hchanged) hid
  · rintro ⟨stored, hstored, rfl⟩
    exact ⟨(id, stored), find_eq_some_iff.mp hstored, if_pos rfl⟩

theorem find_of_filtered {before after : Collection κ ρ}
    (hrows : after.objects.rows = before.objects.rows.filter fun held => held.1 ≠ id) : after.find id = none := by
  cases hfind : after.find id with
  | none => rfl
  | some object =>
    have hmem := find_eq_some_iff.mp hfind
    rw [hrows] at hmem
    exact absurd rfl (of_decide_eq_true (List.mem_filter.mp hmem).2)

end Rows

section Versions

variable {minting : Minting κ} {absent : ε} {verdict : Verdict ε} {asked : Change κ ρ ε} {before middle after : Collection κ ρ}

/-- What came of a collection: as long as the version is the same, nothing. -/
def Later (before after : Collection κ ρ) : Prop := after = before ∨ before.version < after.version

omit [DecidableEq κ] in
theorem later_refl (collection : Collection κ ρ) : collection.Later collection := Or.inl rfl

omit [DecidableEq κ] in
theorem Later.le (hlater : before.Later after) : before.version ≤ after.version := by
  rcases hlater with rfl | hlt
  · exact Nat.le_refl _
  · exact Nat.le_of_lt hlt

omit [DecidableEq κ] in
theorem Later.trans (hfirst : before.Later middle) (hsecond : middle.Later after) : before.Later after := by
  rcases hfirst with rfl | hlt
  · exact hsecond
  · exact Or.inr (Nat.lt_of_lt_of_le hlt hsecond.le)

omit [DecidableEq κ] in
theorem Later.eq_of_version (hlater : before.Later after) (hversion : after.version = before.version) : after = before :=
  hlater.resolve_right fun hlt => absurd hversion (Nat.ne_of_gt hlt)

omit [DecidableEq κ] in
theorem onDemand_later {step : α → Collection κ ρ → β × Collection κ ρ} (hstep : ∀ value, before.Later (step value before).2)
    (demanded : Option α) : before.Later (before.onDemand step demanded).2 := by
  cases demanded with
  | none => exact later_refl before
  | some value => exact hstep value

theorem create_later (refused : Option ε) (object : ρ) : before.Later (before.create minting refused object).2 := by
  cases refused with
  | some error => exact later_refl before
  | none => exact Or.inr (Nat.lt_succ_self before.version)

theorem update_later (refused : Option ε) (wanted : κ × (ρ → Except ε ρ)) :
    before.Later (before.update absent refused wanted).2 := by
  unfold update
  split
  · exact later_refl before
  · split
    · exact later_refl before
    · exact later_refl before
    · exact Or.inr (Nat.lt_succ_self before.version)

theorem destroy_later (refused : Option ε) (id : κ) : before.Later (before.destroy absent refused id).2 := by
  unfold destroy
  split
  · exact later_refl before
  · exact later_refl before
  · exact Or.inr (Nat.lt_succ_self before.version)

theorem set_later : before.Later (before.set minting absent asked verdict).2 :=
  ((onDemand_later (fun _ => create_later _ _) _).trans (onDemand_later (fun _ => update_later _ _) _)).trans
    (onDemand_later (fun _ => destroy_later _ _) _)

end Versions

end Collection

end object_set
