import Mathlib.Data.List.Basic

namespace sql

/-- Three-valued truth: `none` is null. -/
abbrev Truth := Option Bool

namespace Truth

def not : Truth → Truth := Option.map (!·)

def and : Truth → Truth → Truth
  | some false, _ => some false
  | _, some false => some false
  | some true, second => second
  | none, _ => none

def or : Truth → Truth → Truth
  | some true, _ => some true
  | _, some true => some true
  | some false, second => second
  | none, _ => none

@[simp] theorem not_some (value : Bool) : not (some value) = some !value := rfl

@[simp] theorem and_some (first second : Bool) : and (some first) (some second) = some (first && second) := by
  cases first <;> cases second <;> rfl

@[simp] theorem or_some (first second : Bool) : or (some first) (some second) = some (first || second) := by
  cases first <;> cases second <;> rfl

end Truth

variable {ρ ν : Type}

/-- An expression over a row, with `?` for each bound parameter. -/
inductive Scalar (ρ ν : Type) where
  | column (read : ρ → Option ν)
  | call (function : Option ν → Option ν) (argument : Scalar ρ ν)
  | bound

/-- A predicate over a row. A test that gives `none` fails the statement. -/
inductive Predicate (ρ ν : Type) where
  | constant (value : Bool)
  | compare (test : ν → ν → Option Bool) (left right : Scalar ρ ν)
  | among (operand : Scalar ρ ν) (count : Nat)
  | present (operand : Scalar ρ ν)
  | lookup (finds : ν → ρ → Bool)
  | not (body : Predicate ρ ν)
  | and (left right : Predicate ρ ν)
  | or (left right : Predicate ρ ν)
  | exists (rows : ρ → List ρ) (body : Predicate ρ ν)

def Scalar.placeholders : Scalar ρ ν → Nat
  | .column _ => 0
  | .call _ argument => argument.placeholders
  | .bound => 1

def Predicate.placeholders : Predicate ρ ν → Nat
  | .constant _ => 0
  | .compare _ left right => left.placeholders + right.placeholders
  | .among operand count => operand.placeholders + count
  | .present operand => operand.placeholders
  | .lookup _ => 1
  | .not body => body.placeholders
  | .and left right => left.placeholders + right.placeholders
  | .or left right => left.placeholders + right.placeholders
  | .exists _ body => body.placeholders

/-- The value of an expression, its placeholders taken from the front. -/
def Scalar.eval (row : ρ) : Scalar ρ ν → List ν → Option (Option ν)
  | .column read, _ => some (read row)
  | .call function argument, bindings => (argument.eval row bindings).map function
  | .bound, bindings => bindings.head?.map some

variable [DecidableEq ν]

/-- Comparing with null is null. -/
def compared (test : ν → ν → Option Bool) : Option ν → Option ν → Option Truth
  | some left, some right => (test left right).map some
  | _, _ => some none

/-- Nothing is among no values, not even null. -/
def foundAmong (operand : Option ν) (values : List ν) : Truth :=
  if values = [] then some false else operand.map (· ∈ values)

def Predicate.eval : Predicate ρ ν → ρ → List ν → Option Truth
  | .constant value, _, _ => some (some value)
  | .compare test left right, row, bindings => do
    compared test (← left.eval row bindings) (← right.eval row (bindings.drop left.placeholders))
  | .among operand count, row, bindings => do
    let value ← operand.eval row bindings
    let values := (bindings.drop operand.placeholders).take count
    if values.length < count then none else some (foundAmong value values)
  | .present operand, row, bindings => (operand.eval row bindings).map fun value => some value.isSome
  | .lookup finds, row, bindings => bindings.head?.map fun value => some (finds value row)
  | .not body, row, bindings => (body.eval row bindings).map Truth.not
  | .and left right, row, bindings => do
    return Truth.and (← left.eval row bindings) (← right.eval row (bindings.drop left.placeholders))
  | .or left right, row, bindings => do
    return Truth.or (← left.eval row bindings) (← right.eval row (bindings.drop left.placeholders))
  | .exists rows body, row, bindings => do
    let truths ← (rows row).mapM fun inner => body.eval inner bindings
    return some (truths.any (· = some true))

/-- Running a statement: as many values must be bound as there are placeholders. -/
def Predicate.run (predicate : Predicate ρ ν) (row : ρ) (bindings : List ν) : Option Truth :=
  if bindings.length = predicate.placeholders then predicate.eval row bindings else none

/-- An expression takes exactly `own` from the front of the bindings. -/
def Scalar.Yields (scalar : Scalar ρ ν) (row : ρ) (own : List ν) (value : Option ν) : Prop :=
  scalar.placeholders = own.length ∧ ∀ rest, scalar.eval row (own ++ rest) = some value

/-- A predicate takes exactly `own` from the front of the bindings and answers `truth`. -/
def Predicate.Yields (predicate : Predicate ρ ν) (row : ρ) (own : List ν) (truth : Option Truth) : Prop :=
  predicate.placeholders = own.length ∧ ∀ rest, predicate.eval row (own ++ rest) = truth

/-- Whether one of the items is true, when all of them can be asked. -/
def anyTrue {α : Type} (truth : α → Option Truth) (items : List α) : Option Bool :=
  (items.mapM truth).map fun truths => truths.any (· = some true)

theorem anyTrue_cons {α : Type} {truth : α → Option Truth} {item : α} {items : List α} :
    anyTrue truth (item :: items) =
      (truth item).bind fun first => (anyTrue truth items).map fun others => decide (first = some true) || others := by
  rw [anyTrue, anyTrue, List.mapM_cons]
  cases truth item <;> cases items.mapM truth <;> rfl

theorem anyTrue_append {α : Type} {truth : α → Option Truth} {first second : List α} :
    anyTrue truth (first ++ second) =
      (anyTrue truth first).bind fun left => (anyTrue truth second).map fun right => left || right := by
  induction first with
  | nil =>
    have hempty : anyTrue truth [] = some false := rfl
    rw [List.nil_append, hempty]
    cases anyTrue truth second <;> rfl
  | cons item first ih =>
    rw [List.cons_append, anyTrue_cons, anyTrue_cons, ih]
    cases truth item <;> cases anyTrue truth first <;> cases anyTrue truth second <;> simp [Bool.or_assoc]

/-- Asking each item for its parts is asking all parts. -/
theorem anyTrue_flatMap {α β : Type} {truth : α → Option Truth} {parts : α → List β} {part : β → Option Truth}
    {items : List α} (hparts : ∀ item ∈ items, (truth item).map (decide <| · = some true) = anyTrue part (parts item)) :
    anyTrue truth items = anyTrue part (items.flatMap parts) := by
  induction items with
  | nil => rfl
  | cons item items ih =>
    have hrest := ih fun other hother => hparts other (List.mem_cons_of_mem _ hother)
    rw [anyTrue_cons, hrest, List.flatMap_cons, anyTrue_append, ← hparts item List.mem_cons_self]
    cases truth item <;> rfl

theorem anyTrue_of_forall {α : Type} {items : List α} {truth : α → Option Truth} {value : α → Truth}
    (htruth : ∀ item ∈ items, truth item = some (value item)) :
    anyTrue truth items = some (items.any fun item => value item = some true) := by
  induction items with
  | nil => rfl
  | cons item items ih =>
    have hrest := ih fun other hother => htruth other (List.mem_cons_of_mem _ hother)
    rw [anyTrue_cons, hrest, htruth item List.mem_cons_self]
    rfl

theorem anyTrue_of_decided {α : Type} {items : List α} {truth : α → Option Truth} {value : α → Bool}
    (htruth : ∀ item ∈ items, truth item = some (some (value item))) : anyTrue truth items = some (items.any value) := by
  have hsame : (fun item => decide (some (value item) = some true)) = value := by
    funext item
    cases value item <;> rfl
  rw [anyTrue_of_forall htruth, hsame]

/-- One item that fails fails the question. -/
theorem anyTrue_of_failing {α : Type} {items : List α} {truth : α → Option Truth} {item : α} (hitem : item ∈ items)
    (htruth : truth item = none) : anyTrue truth items = none := by
  induction items with
  | nil => cases hitem
  | cons first items ih =>
    rw [anyTrue_cons]
    rcases List.mem_cons.mp hitem with rfl | hrest
    · rw [htruth]
      rfl
    · rw [ih hrest]
      cases truth first <;> rfl

section Yields

attribute [local simp] Scalar.eval Predicate.eval Predicate.placeholders

variable {row : ρ} {own more : List ν} {left right operand : Scalar ρ ν} {body other : Predicate ρ ν}
  {first second : Option ν}

omit [DecidableEq ν] in
theorem Scalar.yields_column {read : ρ → Option ν} : (Scalar.column read).Yields row [] (read row) :=
  ⟨rfl, fun _ => rfl⟩

omit [DecidableEq ν] in
theorem Scalar.yields_bound {value : ν} : (Scalar.bound : Scalar ρ ν).Yields row [value] (some value) :=
  ⟨rfl, fun _ => rfl⟩

omit [DecidableEq ν] in
theorem Scalar.Yields.call {function : Option ν → Option ν} (hoperand : operand.Yields row own first) :
    (Scalar.call function operand).Yields row own (function first) := by
  obtain ⟨hcount, heval⟩ := hoperand
  refine ⟨hcount, fun rest => ?_⟩
  simp [heval rest]

theorem Predicate.yields_constant {value : Bool} :
    (Predicate.constant value : Predicate ρ ν).Yields row [] (some (some value)) :=
  ⟨rfl, fun _ => rfl⟩

theorem Predicate.yields_compare {test : ν → ν → Option Bool} (hleft : left.Yields row own first)
    (hright : right.Yields row more second) :
    (Predicate.compare test left right).Yields row (own ++ more) (compared test first second) := by
  obtain ⟨hcount, hfirst⟩ := hleft
  obtain ⟨hmore, hsecond⟩ := hright
  refine ⟨by rw [Predicate.placeholders, hcount, hmore, List.length_append], fun rest => ?_⟩
  rw [Predicate.eval, hcount, List.append_assoc, hfirst, List.drop_left, hsecond]
  rfl

theorem Predicate.yields_among {values : List ν} (hoperand : operand.Yields row own first) :
    (Predicate.among operand values.length).Yields row (own ++ values) (some (foundAmong first values)) := by
  obtain ⟨hcount, heval⟩ := hoperand
  refine ⟨by rw [Predicate.placeholders, hcount, List.length_append], fun rest => ?_⟩
  rw [Predicate.eval, hcount, List.append_assoc, heval, List.drop_left, List.take_left]
  exact if_neg (Nat.lt_irrefl values.length)

theorem Predicate.yields_present (hoperand : operand.Yields row own first) :
    (Predicate.present operand).Yields row own (some (some first.isSome)) := by
  obtain ⟨hcount, heval⟩ := hoperand
  refine ⟨hcount, fun rest => ?_⟩
  simp [heval]

theorem Predicate.yields_lookup {finds : ν → ρ → Bool} {value : ν} :
    (Predicate.lookup finds).Yields row [value] (some (some (finds value row))) :=
  ⟨rfl, fun _ => rfl⟩

theorem Predicate.Yields.not {truth : Option Truth} (hbody : body.Yields row own truth) :
    (Predicate.not body).Yields row own (truth.map Truth.not) := by
  obtain ⟨hcount, heval⟩ := hbody
  refine ⟨hcount, fun rest => ?_⟩
  simp [heval]

theorem Predicate.Yields.and {truth last : Option Truth} (hbody : body.Yields row own truth)
    (hother : other.Yields row more last) :
    (Predicate.and body other).Yields row (own ++ more) (truth.bind fun value => last.map value.and) := by
  obtain ⟨hcount, heval⟩ := hbody
  obtain ⟨hmore, hlast⟩ := hother
  refine ⟨by rw [Predicate.placeholders, hcount, hmore, List.length_append], fun rest => ?_⟩
  rw [Predicate.eval, hcount, List.append_assoc, heval, List.drop_left, hlast]
  cases truth <;> cases last <;> rfl

theorem Predicate.Yields.or {truth last : Option Truth} (hbody : body.Yields row own truth)
    (hother : other.Yields row more last) :
    (Predicate.or body other).Yields row (own ++ more) (truth.bind fun value => last.map value.or) := by
  obtain ⟨hcount, heval⟩ := hbody
  obtain ⟨hmore, hlast⟩ := hother
  refine ⟨by rw [Predicate.placeholders, hcount, hmore, List.length_append], fun rest => ?_⟩
  rw [Predicate.eval, hcount, List.append_assoc, heval, List.drop_left, hlast]
  cases truth <;> cases last <;> rfl

/-- A subquery asks its body of each of its rows with the same bindings, and never answers null. -/
theorem Predicate.yields_exists {rows : ρ → List ρ} {truth : ρ → Option Truth} (hcount : body.placeholders = own.length)
    (hbody : ∀ inner ∈ rows row, body.Yields inner own (truth inner)) :
    (Predicate.exists rows body).Yields row own ((anyTrue truth (rows row)).map some) := by
  refine ⟨hcount, fun rest => ?_⟩
  have hrows : (rows row).mapM (fun inner => body.eval inner (own ++ rest)) = (rows row).mapM truth := by
    generalize rows row = inners at hbody
    induction inners with
    | nil => rfl
    | cons inner inners ih =>
      have hrest := ih fun other hother => hbody other (List.mem_cons_of_mem _ hother)
      rw [List.mapM_cons, List.mapM_cons, (hbody inner List.mem_cons_self).2, hrest]
  rw [Predicate.eval, hrows, anyTrue]
  cases (rows row).mapM truth <;> rfl

theorem Predicate.Yields.run {truth : Option Truth} (hbody : body.Yields row own truth) : body.run row own = truth := by
  obtain ⟨hcount, heval⟩ := hbody
  have hall := heval []
  rw [List.append_nil] at hall
  rw [Predicate.run, if_pos hcount.symm, hall]

/-- A conjunction that holds makes its last part true. -/
theorem Predicate.Yields.true_of_and {last : Option Truth} (hother : other.Yields row more last)
    (hrun : (Predicate.and body other).run row (own ++ more) = some (some true)) : last = some (some true) := by
  obtain ⟨hmore, hlast⟩ := hother
  rw [Predicate.run, Predicate.placeholders, hmore, List.length_append] at hrun
  by_cases hcount : own.length + more.length = body.placeholders + more.length
  · have hown : body.placeholders = own.length := by omega
    have hall := hlast []
    rw [List.append_nil] at hall
    rw [if_pos hcount, Predicate.eval, hown, List.drop_left, hall] at hrun
    cases hbody : body.eval row (own ++ more) with
    | none =>
      rw [hbody] at hrun
      cases hrun
    | some truth =>
      cases last with
      | none =>
        rw [hbody] at hrun
        cases hrun
      | some value =>
        rw [hbody] at hrun
        have htrue : truth.and value = some true := Option.some.inj hrun
        rcases truth with _ | _ | _ <;> rcases value with _ | _ | _ <;> simp_all [Truth.and]
  · rw [if_neg hcount] at hrun
    cases hrun

end Yields

end sql
