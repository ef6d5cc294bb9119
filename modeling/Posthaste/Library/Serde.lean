import Mathlib.Order.Basic

namespace serde

/-- A JSON document. Integers are exact; any other number keeps its text, which
    no integer, string or collection type decodes. -/
inductive Value where
  | null
  | bool (flag : Bool)
  | number (value : Int)
  | float (text : String)
  | string (text : String)
  | array (items : List Value)
  | object (entries : List (String × Value))
  deriving Inhabited

inductive Error where
  | missing_field (field : String)
  | invalid_type (expected : String)
  | invalid_value (expected : String)
  | invalid_length (expected : String)
  deriving DecidableEq

instance : ToString Error where
  toString
    | .missing_field field => s!"missing field {field}"
    | .invalid_type expected => s!"invalid type, expected {expected}"
    | .invalid_value expected => s!"invalid value, expected {expected}"
    | .invalid_length expected => s!"invalid length, expected {expected}"

def Value.get : Value → String → Option Value
  | .object entries, key => entries.lookup key
  | _, _ => none

def Value.as_bool : Value → Option Bool
  | .bool flag => some flag
  | _ => none

class Serialize (α : Type) where
  to_value : α → Value

class Deserialize (α : Type) where
  from_value : Value → Except Error α

export Serialize (to_value)
export Deserialize (from_value)

/-- Decoding what was encoded gives it back. -/
class RoundTrip (α : Type) [Serialize α] [Deserialize α] : Prop where
  from_to : ∀ value : α, from_value (to_value value) = .ok value

/-- Values whose encoding is never the `null` that stands for an absent option. -/
class NonNull (α : Type) [Serialize α] : Prop where
  to_value_ne_null : ∀ value : α, to_value value ≠ .null

@[simp] theorem from_value_to_value {α : Type} [Serialize α] [Deserialize α] [RoundTrip α] (value : α) :
    from_value (to_value value) = .ok value :=
  RoundTrip.from_to value

section Primitives

instance : Serialize String where
  to_value text := .string text

instance : Deserialize String where
  from_value
    | .string text => .ok text
    | _ => .error (.invalid_type "a string")

instance : RoundTrip String where
  from_to _ := rfl

instance : NonNull String where
  to_value_ne_null _ := by simp [to_value]

instance : Serialize UInt32 where
  to_value value := .number value.toNat

instance : Deserialize UInt32 where
  from_value
    | .number value =>
      if 0 ≤ value ∧ value.toNat < UInt32.size then .ok (UInt32.ofNat value.toNat) else .error (.invalid_value "u32")
    | _ => .error (.invalid_type "u32")

instance : RoundTrip UInt32 where
  from_to value := by
    have hbound : (value.toNat : Int).toNat < UInt32.size := by
      have hlt := value.toNat_lt
      rw [Int.toNat_natCast]
      exact hlt
    simp only [to_value, from_value]
    rw [if_pos ⟨by omega, hbound⟩, Int.toNat_natCast, UInt32.ofNat_toNat]

instance : NonNull UInt32 where
  to_value_ne_null _ := by simp [to_value]

end Primitives

section Containers

variable {α : Type} [Serialize α] [Deserialize α]

instance : Serialize (Option α) where
  to_value
    | none => .null
    | some value => to_value value

instance : Deserialize (Option α) where
  from_value
    | .null => .ok none
    | value => (from_value value).map some

instance [RoundTrip α] [NonNull α] : RoundTrip (Option α) where
  from_to found := by
    cases found with
    | none => rfl
    | some value =>
      have hnull : to_value value ≠ .null := NonNull.to_value_ne_null value
      have hround : from_value (to_value value) = .ok value := from_value_to_value value
      show Deserialize.from_value (α := Option α) (to_value value) = _
      revert hnull hround
      generalize to_value value = encoded
      intro hnull hround
      cases encoded <;> first | exact absurd rfl hnull | (simp only [from_value] at hround ⊢; simp [hround, Except.map])

instance : Serialize (List α) where
  to_value items := .array (items.map to_value)

instance : Deserialize (List α) where
  from_value
    | .array items => items.mapM from_value
    | _ => .error (.invalid_type "a sequence")

instance [RoundTrip α] : RoundTrip (List α) where
  from_to items := by
    simp only [to_value, from_value, List.mapM_map]
    induction items with
    | nil => rfl
    | cons item rest ih =>
      rw [List.mapM_cons, ih]
      simp only [Function.comp_apply, from_value_to_value]
      rfl

end Containers

/-- What a derived struct visitor reads: named entries, or positions. -/
inductive StructAccess where
  | map (entries : List (String × Value))
  | seq (items : List Value)

abbrev StructReader := StateT StructAccess (Except Error)

/-- Reads one field. `absentEntry` stands in for a missing map entry and
    `absentItem` for a sequence that is too short. -/
def next_field {α : Type} [Deserialize α] (name : String) (absentEntry absentItem : Option α) : StructReader α
  | .map entries =>
    match entries.lookup name, absentEntry with
    | some value, _ => (from_value value).map (·, .map entries)
    | none, some default => .ok (default, .map entries)
    | none, none => .error (.missing_field name)
  | .seq (item :: rest) => (from_value item).map (·, .seq rest)
  | .seq [] =>
    match absentItem with
    | some default => .ok (default, .seq [])
    | none => .error (.invalid_length name)

/-- A field without a default. -/
def required {α : Type} [Deserialize α] (name : String) : StructReader α :=
  next_field name none none

/-- An optional field without a default: a missing entry reads as `none`, a
    missing position is an error. -/
def optional {α : Type} [Deserialize α] (name : String) : StructReader (Option α) :=
  next_field name (some none) none

/-- A field with the type's default. -/
def defaulted {α : Type} [Deserialize α] (name : String) (default : α) : StructReader α :=
  next_field name (some default) (some default)

def deserialize_struct {α : Type} (expected : String) (visit : StructReader α) (value : Value) : Except Error α :=
  match value with
  | .object entries => (visit (.map entries)).map Prod.fst
  | .array items =>
    match visit (.seq items) with
    | .ok (decoded, .seq []) => .ok decoded
    | .ok (_, _) => .error (.invalid_length expected)
    | .error error => .error error
  | _ => .error (.invalid_type expected)

/-- The reader decodes these entries to this value. -/
def Reads {α : Type} (visit : StructReader α) (entries : List (String × Value)) (value : α) : Prop :=
  visit (.map entries) = .ok (value, .map entries)

theorem deserialize_struct_object {α : Type} {expected : String} {visit : StructReader α}
    {entries : List (String × Value)} {value : α} (hreads : Reads visit entries value) :
    deserialize_struct expected visit (.object entries) = .ok value := by
  simp only [deserialize_struct]
  rw [hreads]
  rfl

namespace Reads

variable {entries : List (String × Value)}

theorem pure {α : Type} {value : α} : Reads (Pure.pure value) entries value := rfl

theorem bind {α β : Type} {visit : StructReader α} {next : α → StructReader β} {value : α} {result : β}
    (hvisit : Reads visit entries value) (hnext : Reads (next value) entries result) :
    Reads (visit >>= next) entries result := by
  unfold Reads at hvisit hnext ⊢
  simp only [Bind.bind, StateT.bind, hvisit, Except.bind]
  exact hnext

variable {α : Type} [Serialize α] [Deserialize α] [RoundTrip α]

theorem next_field {name : String} {absentEntry absentItem : Option α} {value : α}
    (hlookup : entries.lookup name = some (to_value value)) :
    Reads (serde.next_field name absentEntry absentItem) entries value := by
  simp [Reads, serde.next_field, hlookup, Except.map]

theorem required {name : String} {value : α} (hlookup : entries.lookup name = some (to_value value)) :
    Reads (serde.required name) entries value :=
  next_field hlookup

theorem optional [NonNull α] {name : String} {value : Option α}
    (hlookup : entries.lookup name = some (to_value value)) :
    Reads (serde.optional name) entries value :=
  next_field hlookup

theorem defaulted {name : String} {default value : α} (hlookup : entries.lookup name = some (to_value value)) :
    Reads (serde.defaulted name default) entries value :=
  next_field hlookup

omit [Serialize α] [RoundTrip α] in
theorem defaulted_absent {name : String} {default : α} (hlookup : entries.lookup name = none) :
    Reads (serde.defaulted name default) entries default := by
  simp [Reads, serde.defaulted, serde.next_field, hlookup]

end Reads

end serde
