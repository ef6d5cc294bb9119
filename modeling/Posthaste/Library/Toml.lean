import Mathlib.Algebra.Group.Int.Defs
import Mathlib.Data.List.Nodup
import Posthaste.Library.Serde

open serde

namespace toml

/-- The entries of a table: an absent option has none. -/
def present (fields : List (String × Option Value)) : List (String × Value) :=
  fields.filterMap fun field => field.2.map fun value => (field.1, value)

def table (fields : List (String × Option Value)) : Value := .object (present fields)

theorem lookup_eq_none_of_not_mem {α : Type} {name : String} {entries : List (String × α)}
    (hname : name ∉ entries.map Prod.fst) : entries.lookup name = none := by
  rw [List.lookup_eq_none_iff]
  intro entry hentry
  rw [bne_iff_ne]
  rintro rfl
  exact hname (List.mem_map_of_mem hentry)

theorem mem_of_lookup {α : Type} {name : String} {entries : List (String × α)} {found : α}
    (hfound : entries.lookup name = some found) : name ∈ entries.map Prod.fst := by
  by_contra hname
  rw [lookup_eq_none_of_not_mem hname] at hfound
  cases hfound

theorem present_names {fields : List (String × Option Value)} {name : String}
    (hname : name ∈ (present fields).map Prod.fst) : name ∈ fields.map Prod.fst := by
  obtain ⟨entry, hentry, rfl⟩ := List.mem_map.1 hname
  obtain ⟨field, hfield, hvalue⟩ := List.mem_filterMap.1 hentry
  obtain ⟨value, -, rfl⟩ := Option.map_eq_some_iff.1 hvalue
  exact List.mem_map_of_mem hfield

/-- A table reads a field back as it was written. -/
theorem lookup_present {fields : List (String × Option Value)} (hnames : (fields.map Prod.fst).Nodup) {name : String}
    {found : Option Value} (hfield : fields.lookup name = some found) : (present fields).lookup name = found := by
  induction fields with
  | nil => cases hfield
  | cons field rest ih =>
    obtain ⟨head, value⟩ := field
    rw [List.map_cons, List.nodup_cons] at hnames
    rw [List.lookup_cons] at hfield
    cases hsame : name == head with
    | false =>
      rw [hsame] at hfield
      rw [← ih hnames.2 hfield]
      cases value with
      | none => rfl
      | some value =>
        show ((head, value) :: present rest).lookup name = _
        rw [List.lookup_cons, hsame]
    | true =>
      rw [hsame] at hfield
      rw [← Option.some_inj.1 hfield]
      cases value with
      | none =>
        apply lookup_eq_none_of_not_mem
        rw [eq_of_beq hsame]
        exact fun hmem => hnames.1 (present_names hmem)
      | some value =>
        show ((head, value) :: present rest).lookup name = _
        rw [List.lookup_cons, hsame]

section Reading

variable {α : Type} [Serialize α] [Deserialize α] [RoundTrip α] {entries : List (String × Value)}

/-- An option that is written only when it is there. -/
theorem reads_optional {name : String} {value : Option α} [NonNull α]
    (hlookup : entries.lookup name = value.map to_value) : Reads (serde.optional name) entries value := by
  cases value with
  | none => simp [Reads, serde.optional, serde.next_field, hlookup]
  | some value =>
    refine Reads.optional (hlookup.trans ?_)
    rfl

omit [RoundTrip α] in
theorem reads_defaulted_of {name : String} {value : Option α} [NonNull α]
    (hround : ∀ held, value = some held → from_value (to_value held) = .ok held)
    (hlookup : entries.lookup name = value.map to_value) : Reads (serde.defaulted name none) entries value := by
  cases value with
  | none => exact .defaulted_absent hlookup
  | some held =>
    have hnull : to_value held ≠ .null := NonNull.to_value_ne_null held
    have hheld := hround held rfl
    simp only [Reads, serde.defaulted, next_field, hlookup, Option.map_some]
    revert hnull hheld
    generalize to_value held = encoded
    intro hnull hheld
    cases encoded <;> first | exact absurd rfl hnull | (simp only [from_value] at hheld ⊢; simp [hheld, Except.map])

theorem reads_defaulted {name : String} {value : Option α} [NonNull α]
    (hlookup : entries.lookup name = value.map to_value) : Reads (serde.defaulted name none) entries value :=
  reads_defaulted_of (fun held _ => from_value_to_value held) hlookup

end Reading

section Fields

variable {α β : Type} {entries other : List (String × Value)}

/-- A reader that leaves the entries for the fields after it. -/
def Stays (visit : StructReader α) : Prop :=
  ∀ entries value access, visit (.map entries) = .ok (value, access) → access = .map entries

theorem stays_next_field [Deserialize α] {name : String} {absentEntry absentItem : Option α} :
    Stays (next_field name absentEntry absentItem) := by
  intro entries value access hread
  simp only [next_field] at hread
  split at hread
  next found _ =>
    cases hfound : (from_value found : Except Error α) with
    | error error =>
      rw [hfound] at hread
      cases hread
    | ok decoded =>
      rw [hfound] at hread
      cases hread
      rfl
  next => cases hread; rfl
  next => cases hread

/-- What a successful reader read first. -/
theorem reads_of_bind {visit : StructReader α} {next : α → StructReader β} (hstays : Stays visit) {result : β}
    {access : StructAccess} (hread : (visit >>= next) (.map entries) = .ok (result, access)) :
    ∃ value, Reads visit entries value ∧ next value (.map entries) = .ok (result, access) := by
  simp only [bind, StateT.bind, Except.bind] at hread
  cases hvisit : visit (.map entries) with
  | error error =>
    rw [hvisit] at hread
    cases hread
  | ok read =>
    obtain ⟨value, after⟩ := read
    rw [hvisit] at hread
    have hafter := hstays entries value after hvisit
    subst hafter
    exact ⟨value, hvisit, hread⟩

/-- A field reader looks at its own name only. -/
theorem reads_congr [Deserialize α] {name : String} {absentEntry absentItem : Option α} {value : α}
    (hsame : entries.lookup name = other.lookup name) (hread : Reads (next_field name absentEntry absentItem) entries value) :
    Reads (next_field name absentEntry absentItem) other value := by
  simp only [Reads, next_field, hsame] at hread ⊢
  split at hread
  next found _ =>
    cases hfound : (from_value found : Except Error α) with
    | error error =>
      rw [hfound] at hread
      cases hread
    | ok decoded =>
      rw [hfound] at hread
      cases hread
      rfl
  next =>
    cases hread
    rfl
  next => cases hread

end Fields

section Instances

instance : Serialize Bool where
  to_value flag := .bool flag

instance : Deserialize Bool where
  from_value
    | .bool flag => .ok flag
    | _ => .error (.invalid_type "a boolean")

instance : RoundTrip Bool where
  from_to _ := rfl

instance : NonNull Bool where
  to_value_ne_null _ := by simp [to_value]

/-- Any TOML value. -/
instance : Serialize Value where
  to_value value := value

instance : Deserialize Value where
  from_value value := .ok value

instance : RoundTrip Value where
  from_to _ := rfl

instance : Serialize UInt16 where
  to_value value := .number value.toNat

instance : Deserialize UInt16 where
  from_value
    | .number value =>
      if 0 ≤ value ∧ value.toNat < UInt16.size then .ok (UInt16.ofNat value.toNat) else .error (.invalid_value "u16")
    | _ => .error (.invalid_type "u16")

instance : RoundTrip UInt16 where
  from_to value := by
    have hbound : (value.toNat : Int).toNat < UInt16.size := value.toNat_lt
    simp only [to_value, from_value]
    rw [if_pos ⟨by omega, hbound⟩, Int.toNat_natCast, UInt16.ofNat_toNat]

instance : Serialize UInt64 where
  to_value value := .number value.toNat

instance : Deserialize UInt64 where
  from_value
    | .number value =>
      if 0 ≤ value ∧ value.toNat < UInt64.size then .ok (UInt64.ofNat value.toNat) else .error (.invalid_value "u64")
    | _ => .error (.invalid_type "u64")

instance : RoundTrip UInt64 where
  from_to value := by
    have hbound : (value.toNat : Int).toNat < UInt64.size := value.toNat_lt
    simp only [to_value, from_value]
    rw [if_pos ⟨by omega, hbound⟩, Int.toNat_natCast, UInt64.ofNat_toNat]

instance : NonNull UInt64 where
  to_value_ne_null _ := by simp [to_value]

instance : Serialize Int64 where
  to_value value := .number value.toInt

instance : Deserialize Int64 where
  from_value
    | .number value =>
      if -(2 ^ 63) ≤ value ∧ value < 2 ^ 63 then .ok (Int64.ofInt value) else .error (.invalid_value "i64")
    | _ => .error (.invalid_type "i64")

instance : RoundTrip Int64 where
  from_to value := by
    simp only [to_value, from_value]
    rw [if_pos ⟨value.le_toInt, value.toInt_lt⟩, Int64.ofInt_toInt]

end Instances

/-- A unit enum: the name each variant is written under, and the names it is read from. -/
class Variants (α : Type) where
  name : α → String
  parse : String → Option α
  parse_name : ∀ variant : α, parse (name variant) = some variant

section Enums

variable {α : Type} [Variants α]

def readVariant (text : String) : Except Error α :=
  match Variants.parse text with
  | some variant => .ok variant
  | none => .error (.invalid_value "a variant")

theorem readVariant_name (variant : α) : readVariant (Variants.name variant) = .ok variant := by
  rw [readVariant, Variants.parse_name]

instance (priority := low) : Serialize α where
  to_value variant := .string (Variants.name variant)

instance (priority := low) : Deserialize α where
  from_value
    | .string text => readVariant text
    | _ => .error (.invalid_type "a variant")

instance (priority := low) : RoundTrip α where
  from_to variant := readVariant_name variant

instance (priority := low) : NonNull α where
  to_value_ne_null _ := by simp [to_value]

end Enums

end toml
