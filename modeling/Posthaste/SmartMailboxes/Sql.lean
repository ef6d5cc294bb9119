import Mathlib.Algebra.Group.Int.Defs
import Mathlib.Data.List.Pairwise
import Mathlib.Data.List.Sort
import Mathlib.Data.Prod.Lex
import Mathlib.Data.String.Basic
import Mathlib.Data.Sum.Order
import Posthaste.DomainModel.Records
import Posthaste.Library.Seek

open posthaste.model

namespace posthaste.store.smart_mailboxes

/-- The values the list queries sort by and bind. -/
inductive SqlValue where
  | Integer (n : Int)
  | Text (s : String)

/-- Integers sort before text, text by code point. -/
def SqlValue.rank : SqlValue → Int ⊕ₗ String
  | .Integer n => toLex (.inl n)
  | .Text s => toLex (.inr s)

theorem SqlValue.rank_injective : Function.Injective SqlValue.rank := by
  intro first second hrank
  cases first <;> cases second <;> simp_all [SqlValue.rank]

instance : LinearOrder SqlValue := LinearOrder.lift' SqlValue.rank SqlValue.rank_injective

/-- SQLite's `LOWER`, which folds ASCII letters only. -/
def lower (text : String) : String := String.ofList (text.toList.map Char.toLower)

/-- `value as i64` of a `usize`: the upper half wraps to the negative numbers. -/
def asI64 (value : Nat) : Int := if value < 2 ^ 63 then value else (value : Int) - 2 ^ 64

/-- SQLite's `LIMIT`: a negative count is no limit. -/
def limited {ρ : Type} (count : Int) (rows : List ρ) : List ρ :=
  if count < 0 then rows else rows.take count.toNat

theorem asI64_of_nonneg {value : Nat} (hvalue : value < 2 ^ 64) (hnonneg : 0 ≤ asI64 value) :
    asI64 value = value := by
  rw [asI64] at hnonneg ⊢
  split_ifs at hnonneg ⊢
  · rfl
  · omega

/-- The `LIMIT` that a page binds leaves one row more than the page, or all rows. -/
theorem limited_asI64 {ρ : Type} {limit : Nat} (hfits : limit + 1 < 2 ^ 64) (rows : List ρ) :
    limited (asI64 ((limit + 1) % 2 ^ 64)) rows = rows.take (limit + 1) ∨
      limited (asI64 ((limit + 1) % 2 ^ 64)) rows = rows := by
  rw [Nat.mod_eq_of_lt hfits]
  by_cases hnegative : asI64 (limit + 1) < 0
  · exact Or.inr (if_pos hnegative)
  · have hcount := asI64_of_nonneg hfits (not_lt.mp hnegative)
    exact Or.inl (by rw [limited, if_neg hnegative, hcount, Int.toNat_natCast])

theorem mem_of_mem_limited {ρ : Type} {count : Int} {rows : List ρ} {row : ρ} (hrow : row ∈ limited count rows) :
    row ∈ rows := by
  rw [limited] at hrow
  split_ifs at hrow
  · exact hrow
  · exact List.mem_of_mem_take hrow

/-- So either way the page is cut as from all rows. -/
theorem cut_limited {ρ σ γ : Type} {item : ρ → σ} {cursorOf : ρ → γ} {limit : Nat} (hfits : limit + 1 < 2 ^ 64)
    (rows : List ρ) :
    seek.cut item cursorOf limit (limited (asI64 ((limit + 1) % 2 ^ 64)) rows) = seek.cut item cursorOf limit rows := by
  rcases limited_asI64 hfits rows with htake | hall
  · rw [htake, seek.cut_take]
  · rw [hall]

/-- The digits of a decimal numeral, `none` when there are none or one is not a digit. -/
def parse_digits (digits : List Char) : Option Nat :=
  if digits ≠ [] ∧ digits.all Char.isDigit then some (Nat.ofDigitChars 10 digits 0) else none

/-- `raw.parse::<i64>()`. -/
def parse_i64 (raw : String) : Option Int :=
  let value := match raw.toList with
    | '-' :: digits => (parse_digits digits).map fun n : Nat => -(n : Int)
    | '+' :: digits => (parse_digits digits).map fun n : Nat => (n : Int)
    | digits => (parse_digits digits).map fun n : Nat => (n : Int)
  value.filter fun n => -2 ^ 63 ≤ n ∧ n < 2 ^ 63

theorem isDigit_of_mem_repr {n : Nat} {c : Char} (hc : c ∈ n.repr.toList) : c.isDigit := by
  rw [Nat.toList_repr] at hc
  exact Nat.isDigit_of_mem_toDigits (by decide) (by decide) hc

theorem parse_digits_repr (n : Nat) : parse_digits n.repr.toList = some n := by
  have hne : n.repr.toList ≠ [] := by
    rw [Nat.toList_repr]
    exact Nat.toDigits_ne_nil
  have hall : n.repr.toList.all Char.isDigit := List.all_eq_true.mpr fun _ hc => isDigit_of_mem_repr hc
  rw [parse_digits, if_pos ⟨hne, hall⟩, Nat.toList_repr, Nat.ofDigitChars_ten_toDigits]

/-- A count printed with `to_string` parses back. -/
theorem parse_i64_repr {n : Nat} (hfits : n < 2 ^ 63) : parse_i64 n.repr = some (n : Int) := by
  have hparsed := parse_digits_repr n
  have hdigits : ∀ c ∈ n.repr.toList, c.isDigit := fun _ hc => isDigit_of_mem_repr hc
  have hrange : -2 ^ 63 ≤ (n : Int) ∧ (n : Int) < 2 ^ 63 := by omega
  rw [parse_i64]
  split
  · next digits hraw =>
    rw [hraw] at hdigits
    have hminus := hdigits '-' List.mem_cons_self
    exact absurd hminus (by decide)
  · next digits hraw =>
    rw [hraw] at hdigits
    have hplus := hdigits '+' List.mem_cons_self
    exact absurd hplus (by decide)
  · rw [hparsed, Option.map_some, Option.filter_some, if_pos (decide_eq_true hrange)]

def sql_value_to_cursor_string : SqlValue → String
  | .Integer n => toString n
  | .Text s => s

/-- Both lists bind a cursor's sort value so, numbers for the fields that sort by numbers. -/
def cursorSqlValue (numeric : Bool) (raw : String) : Except StoreError SqlValue :=
  if numeric then
    match parse_i64 raw with
    | some n => .ok (.Integer n)
    | none => .error (.Failure s!"invalid numeric cursor value: {raw}")
  else .ok (.Text raw)

theorem cursorSqlValue_Integer {n : Nat} (hfits : n < 2 ^ 63) :
    cursorSqlValue true (sql_value_to_cursor_string (.Integer n)) = .ok (.Integer n) := by
  have hparsed : parse_i64 (sql_value_to_cursor_string (.Integer n)) = some (n : Int) := parse_i64_repr hfits
  rw [cursorSqlValue, if_pos rfl, hparsed]

theorem cursorSqlValue_Text (s : String) : cursorSqlValue false (sql_value_to_cursor_string (.Text s)) = .ok (.Text s) :=
  rfl

inductive SortDirection where
  | Asc
  | Desc
  deriving DecidableEq

namespace SortDirection

variable {ρ κ : Type} [LinearOrder κ]

/-- The `seek_op` of a direction, read from the earlier key to the later. -/
def before : SortDirection → κ → κ → Prop
  | .Asc, first, second => first < second
  | .Desc, first, second => second < first

instance : (direction : SortDirection) → DecidableRel (direction.before (κ := κ))
  | .Asc => fun first second => inferInstanceAs (Decidable (first < second))
  | .Desc => fun first second => inferInstanceAs (Decidable (second < first))

/-- `ORDER BY key {dir}`, rows of equal keys left as they were scanned. -/
def orderBy (direction : SortDirection) (key : ρ → κ) (rows : List ρ) : List ρ :=
  rows.insertionSort fun first second => ¬ direction.before (key second) (key first)

variable {direction : SortDirection} {first second third : κ}

theorem not_before_self : ¬ direction.before first first := by
  cases direction <;> exact lt_irrefl first

theorem before_asymm (hbefore : direction.before first second) : ¬ direction.before second first := by
  cases direction <;> exact lt_asymm hbefore

theorem before_trans (hfirst : direction.before first second) (hsecond : direction.before second third) :
    direction.before first third := by
  cases direction with
  | Asc => exact lt_trans hfirst hsecond
  | Desc => exact lt_trans hsecond hfirst

theorem before_or_eq (hafter : ¬ direction.before second first) : direction.before first second ∨ first = second := by
  cases direction with
  | Asc => exact (not_lt.mp hafter).lt_or_eq
  | Desc => exact (not_lt.mp hafter).lt_or_eq.imp_right Eq.symm

/-- On pairs, the seek predicate compares the second parts only where the first are equal. -/
theorem before_toLex {ι : Type} [LinearOrder ι] {a b : ι} :
    direction.before (toLex (first, a)) (toLex (second, b)) ↔
      direction.before first second ∨ first = second ∧ direction.before a b := by
  cases direction with
  | Asc => exact Prod.Lex.toLex_lt_toLex
  | Desc => exact Prod.Lex.toLex_lt_toLex.trans (or_congr_right (and_congr_left' eq_comm))

variable {key : ρ → κ} {rows sorted : List ρ}

theorem perm_orderBy : (direction.orderBy key rows).Perm rows := List.perm_insertionSort _ rows

theorem mem_orderBy {row : ρ} : row ∈ direction.orderBy key rows ↔ row ∈ rows := perm_orderBy.mem_iff

theorem orderBy_map {τ : Type} {pair : τ → ρ} {rows : List τ} :
    direction.orderBy key (rows.map pair) = (direction.orderBy (key ∘ pair) rows).map pair :=
  (List.map_insertionSort _ _ pair rows fun _ _ _ _ => Iff.rfl).symm

/-- Keys that tell the rows apart order them strictly. -/
theorem pairwise_orderBy (hkeys : (rows.map key).Nodup) :
    (direction.orderBy key rows).Pairwise fun first second => direction.before (key first) (key second) := by
  have htotal : Std.Total fun first second : ρ => ¬ direction.before (key second) (key first) := by
    refine ⟨fun first second => ?_⟩
    by_contra hboth
    rw [not_or, not_not, not_not] at hboth
    exact before_asymm hboth.1 hboth.2
  have htrans : IsTrans ρ fun first second : ρ => ¬ direction.before (key second) (key first) := by
    refine ⟨fun first second third hfirst hsecond hthird => ?_⟩
    rcases before_or_eq hfirst with hlt | heq
    · exact hsecond (before_trans hthird hlt)
    · exact hsecond (heq ▸ hthird)
  have hsorted := List.pairwise_insertionSort (fun first second => ¬ direction.before (key second) (key first)) rows
  have hnodup : ((direction.orderBy key rows).map key).Nodup := (perm_orderBy.map key).nodup_iff.mpr hkeys
  refine (hsorted.and (List.pairwise_map.mp hnodup)).imp ?_
  rintro first second ⟨hafter, hne⟩
  exact (before_or_eq hafter).resolve_right hne

/-- A strictly ordered list of the rows is the order itself. -/
theorem orderBy_eq_of_perm (hperm : sorted.Perm rows)
    (hsorted : sorted.Pairwise fun first second => direction.before (key first) (key second)) :
    direction.orderBy key rows = sorted := by
  have hne : (sorted.map key).Nodup := by
    refine List.pairwise_map.mpr (hsorted.imp ?_)
    intro first second hbefore heq
    exact not_before_self (heq ▸ hbefore)
  have hkeys : (rows.map key).Nodup := (hperm.map key).nodup_iff.mp hne
  refine List.Perm.eq_of_pairwise ?_ (pairwise_orderBy hkeys) hsorted (perm_orderBy.trans hperm.symm)
  intro first second _ _ hfirst hsecond
  exact absurd hsecond (before_asymm hfirst)

/-- Two keys that order one list strictly compare its rows alike. -/
theorem lt_of_lt_of_pairwise {ι : Type} [LinearOrder ι] {other : ρ → ι}
    (hsorted : sorted.Pairwise fun first second => direction.before (key first) (key second))
    (hother : sorted.Pairwise fun first second => direction.before (other first) (other second))
    {first second : ρ} (hfirst : first ∈ sorted) (hsecond : second ∈ sorted) (hlt : key first < key second) :
    other first < other second := by
  have hsymm : Std.Symm fun first second : ρ =>
      (key first < key second → other first < other second) ∧ (key second < key first → other second < other first) :=
    ⟨fun _ _ hboth => hboth.symm⟩
  have halike : sorted.Pairwise fun first second =>
      (key first < key second → other first < other second) ∧
        (key second < key first → other second < other first) := by
    refine (hsorted.and hother).imp ?_
    rintro first second ⟨hkey, hnext⟩
    cases direction with
    | Asc => exact ⟨fun _ => hnext, fun hback => absurd hback (lt_asymm hkey)⟩
    | Desc => exact ⟨fun hback => absurd hback (lt_asymm hkey), fun _ => hnext⟩
  have hne : first ≠ second := by
    rintro rfl
    exact lt_irrefl _ hlt
  exact (halike.forall hfirst hsecond hne).1 hlt

/-- What a page query finds past a cursor: the seek predicate, then the order. -/
def rowsAfter (direction : SortDirection) (key : ρ → κ) (rows : List ρ) (cursor : Option ρ) : List ρ :=
  direction.orderBy key (rows.filter fun row => cursor.all fun last => direction.before (key last) (key row))

variable {σ γ ε : Type} {item : ρ → σ} {cursorOf : ρ → γ} {limit : Nat} {page : Option γ → Except ε (Page σ γ)}

/-- Following pages over keys that order the rows strictly lists the rows in that order. -/
theorem follow_rowsAfter (hpositive : 0 < limit) (hperm : sorted.Perm rows)
    (hsorted : sorted.Pairwise fun first second => direction.before (key first) (key second))
    (hpage : ∀ cursor, (∀ last ∈ cursor, last ∈ rows) → page (cursor.map cursorOf) =
      .ok (seek.cut item cursorOf limit (rowsAfter direction key rows cursor))) :
    ∃ fuel, seek.follow page fuel none = some (.ok (sorted.map item)) := by
  have hasymm : Std.Asymm fun first second : ρ => direction.before (key first) (key second) :=
    ⟨fun _ _ => before_asymm⟩
  refine seek.follow_sorted hsorted hpositive (fun cursor hcursor => hpage cursor ?_) ?_ ?_
  · exact fun last hlast => hperm.mem_iff.mp (hcursor last hlast)
  · have hall : rowsAfter direction key rows none = direction.orderBy key rows := by
      simp only [rowsAfter, Option.all_none, List.filter_true]
    rw [hall, orderBy_eq_of_perm hperm hsorted]
  · intro last
    exact orderBy_eq_of_perm (hperm.filter _) (hsorted.filter _)

section Window

variable {τ : Type} {fetch : τ → Nat → Option γ → Except ε (Page σ γ)} {cap size : Nat} {snapshots : List τ}

theorem rowsAfter_eq_filter (hkeys : (rows.map key).Nodup) (cursor : Option ρ) :
    rowsAfter direction key rows cursor = (direction.orderBy key rows).filter fun row =>
      cursor.all fun last => direction.before (key last) (key row) :=
  orderBy_eq_of_perm (perm_orderBy.filter _) ((pairwise_orderBy hkeys).filter _)

/-- A window over rows that stay the same is one page of its size, however the pages are capped. -/
theorem window_quiescent (hkeys : (rows.map key).Nodup) (hcap : 0 < cap)
    (hfetch : ∀ snapshot ∈ snapshots, ∀ limit, 0 < limit → limit ≤ size → ∀ cursor, (∀ last ∈ cursor, last ∈ rows) →
      fetch snapshot limit (cursor.map cursorOf) =
        .ok (seek.cut item cursorOf (min limit cap) (rowsAfter direction key rows cursor)))
    (hsize : 0 < size) (hfuel : size ≤ snapshots.length) :
    seek.window fetch size snapshots [] none =
      some (.ok (seek.cut item cursorOf size (direction.orderBy key rows))) := by
  have hsorted := @pairwise_orderBy _ _ _ direction _ _ hkeys
  have hasymm : Std.Asymm fun first second : ρ => direction.before (key first) (key second) :=
    ⟨fun _ _ => before_asymm⟩
  -- what is shown so far is followed by what the next page finds
  have hleft : ∀ shown later, direction.orderBy key rows = shown ++ later →
      rowsAfter direction key rows shown.getLast? = later := by
    intro shown later hsplit
    rw [rowsAfter_eq_filter hkeys, hsplit]
    rcases List.eq_nil_or_concat' shown with rfl | ⟨front, last, rfl⟩
    · simp only [List.getLast?_nil, Option.all_none, List.filter_true, List.nil_append]
    · rw [List.getLast?_concat]
      exact seek.filter_after (hsplit ▸ hsorted)
  have hrun := @seek.window_rule _ _ _ _ item cursorOf _ fetch cap size
    (fun _ => rowsAfter direction key rows) snapshots
    (fun shown => ∃ later, direction.orderBy key rows = shown ++ later ∧ (shown ≠ [] → later ≠ []))
    (fun shown => direction.orderBy key rows = shown) hcap ?_ ?_ ?_ ⟨_, rfl, fun hne => absurd rfl hne⟩ hsize hfuel
  · obtain ⟨shown, next, hwindow, hend⟩ := hrun
    rw [hwindow]
    rcases hend with ⟨rfl, hshort, hall⟩ | ⟨rfl, hfull, later, hsplit, hlater⟩
    · rw [hall, seek.cut_of_le hshort]
    · have hne : shown ≠ [] := by
        rintro rfl
        rw [List.length_nil] at hfull
        omega
      have hpositive := List.length_pos_iff.mpr (hlater hne)
      have hmany : shown.length < (shown ++ later).length := by
        rw [List.length_append]
        omega
      rw [hsplit, seek.cut, ← hfull, if_pos hmany, List.take_left]
  · rintro snapshot hsnapshot shown ⟨later, hsplit, -⟩ limit hpositive hlimit
    refine hfetch snapshot hsnapshot limit hpositive hlimit _ ?_
    intro last hlast
    have hmem := List.mem_append_left later (List.mem_of_getLast? hlast)
    rw [← hsplit] at hmem
    exact mem_orderBy.mp hmem
  · rintro snapshot - shown now later ⟨rest, hsplit, -⟩ hfound - hlater
    rw [hleft shown rest hsplit] at hfound
    exact ⟨later, by rw [hsplit, hfound, List.append_assoc], fun _ => hlater⟩
  · rintro snapshot - shown now ⟨rest, hsplit, -⟩ hfound
    rw [hleft shown rest hsplit] at hfound
    rw [hsplit, hfound]

/-- Rows of the snapshots in the strict order of their keys. -/
structure WindowOver (direction : SortDirection) (key : ρ → κ) (rows : τ → List ρ) (snapshots : List τ)
    (shown : List ρ) : Prop where
  ordered : shown.Pairwise fun first second => direction.before (key first) (key second)
  found : ∀ row ∈ shown, ∃ snapshot ∈ snapshots, row ∈ rows snapshot

theorem WindowOver.append {rows : τ → List ρ} {snapshot : τ} {shown now later : List ρ}
    (hover : WindowOver direction key rows snapshots shown) (hkeys : ((rows snapshot).map key).Nodup)
    (hsnapshot : snapshot ∈ snapshots)
    (hafter : ((direction.orderBy key (rows snapshot)).filter fun row =>
      shown.getLast?.all fun last => direction.before (key last) (key row)) = now ++ later) :
    WindowOver direction key rows snapshots (shown ++ now) := by
  have htrans : IsTrans ρ fun first second => direction.before (key first) (key second) :=
    ⟨fun _ _ _ => before_trans⟩
  refine ⟨seek.pairwise_append_after hover.ordered (pairwise_orderBy hkeys) hafter, ?_⟩
  intro row hrow
  rcases List.mem_append.mp hrow with hshown | hnow
  · exact hover.found row hshown
  · have hmem := List.mem_append_left later hnow
    rw [← hafter] at hmem
    exact ⟨snapshot, hsnapshot, mem_orderBy.mp (List.mem_of_mem_filter hmem)⟩

/-- A row shown does not come after the last one. -/
theorem WindowOver.ordered_upto {rows : τ → List ρ} {shown : List ρ} {position : κ}
    (hover : WindowOver direction key rows snapshots shown) (hshown : position ∈ shown.map key) :
    ∃ last ∈ shown.getLast?, ¬ direction.before (key last) position := by
  obtain ⟨row, hrow, rfl⟩ := List.mem_map.mp hshown
  rcases List.eq_nil_or_concat' shown with rfl | ⟨front, last, rfl⟩
  · cases hrow
  · refine ⟨last, List.getLast?_concat, ?_⟩
    rcases List.mem_append.mp hrow with hfront | hself
    · exact before_asymm ((List.pairwise_append.mp hover.ordered).2.2 row hfront last (List.mem_singleton_self last))
    · rw [List.mem_singleton] at hself
      exact hself ▸ not_before_self

/-- A row of the snapshot that does not come up to the last one shown is found by the next page. -/
theorem shown_or_found {found shown : List ρ} {position : κ}
    (hafter : ((direction.orderBy key rows).filter fun row =>
      shown.getLast?.all fun last => direction.before (key last) (key row)) = found)
    (hposition : position ∈ rows.map key) :
    (∃ last ∈ shown.getLast?, ¬ direction.before (key last) position) ∨ position ∈ found.map key := by
  obtain ⟨row, hrow, rfl⟩ := List.mem_map.mp hposition
  by_cases hnext : shown.getLast?.all fun last => decide (direction.before (key last) (key row))
  · refine Or.inr (List.mem_map_of_mem ?_)
    rw [← hafter]
    exact List.mem_filter.mpr ⟨mem_orderBy.mpr hrow, hnext⟩
  · cases hlast : shown.getLast? with
    | none =>
      rw [hlast] at hnext
      exact absurd rfl hnext
    | some last =>
      rw [hlast, Option.all_some, decide_eq_true_iff] at hnext
      exact Or.inl ⟨last, rfl, hnext⟩

/-- A window over rows that change between the pages shows rows in order, and those whose key is there all
    along exactly up to the last row shown. -/
theorem window_changing {rows : τ → List ρ} (hkeys : ∀ snapshot ∈ snapshots, ((rows snapshot).map key).Nodup)
    (hcap : 0 < cap)
    (hfetch : ∀ snapshot ∈ snapshots, ∀ limit, 0 < limit → limit ≤ size → ∀ cursor,
      (∀ last ∈ cursor, ∃ earlier ∈ snapshots, last ∈ rows earlier) →
      fetch snapshot limit (cursor.map cursorOf) =
        .ok (seek.cut item cursorOf (min limit cap) (rowsAfter direction key (rows snapshot) cursor)))
    (hsize : 0 < size) (hfuel : size ≤ snapshots.length) :
    ∃ (shown : List ρ) (next : Option γ),
      seek.window fetch size snapshots [] none = some (.ok ⟨shown.map item, next⟩) ∧
      (shown.Pairwise fun first second => direction.before (key first) (key second)) ∧
      (∀ row ∈ shown, ∃ snapshot ∈ snapshots, row ∈ rows snapshot) ∧
      (next = none ∧ shown.length ≤ size ∨ next = shown.getLast?.map cursorOf ∧ shown.length = size) ∧
      ∀ position, (∀ snapshot ∈ snapshots, position ∈ (rows snapshot).map key) →
        (position ∈ shown.map key ↔
          next = none ∨ ∃ last ∈ shown.getLast?, ¬ direction.before (key last) position) := by
  have hnext : ∀ snapshot ∈ snapshots, ∀ shown now later : List ρ,
      rowsAfter direction key (rows snapshot) shown.getLast? = now ++ later →
      ((direction.orderBy key (rows snapshot)).filter fun row =>
        shown.getLast?.all fun last => direction.before (key last) (key row)) = now ++ later := by
    intro snapshot hsnapshot shown now later hfound
    rw [← rowsAfter_eq_filter (hkeys snapshot hsnapshot), hfound]
  have hrun := @seek.window_rule _ _ _ _ item cursorOf _ fetch cap size
    (fun snapshot => rowsAfter direction key (rows snapshot)) snapshots
    (fun shown => WindowOver direction key rows snapshots shown ∧
      ∀ position, (∀ snapshot ∈ snapshots, position ∈ (rows snapshot).map key) →
        (position ∈ shown.map key ↔ ∃ last ∈ shown.getLast?, ¬ direction.before (key last) position))
    (fun shown => WindowOver direction key rows snapshots shown ∧
      ∀ position, (∀ snapshot ∈ snapshots, position ∈ (rows snapshot).map key) → position ∈ shown.map key)
    hcap ?_ ?_ ?_ ?_ hsize hfuel
  · obtain ⟨shown, next, hwindow, hend⟩ := hrun
    rcases hend with ⟨hnone, hshort, hover, hall⟩ | ⟨hlast, hfull, hover, hupto⟩
    · refine ⟨shown, next, hwindow, hover.ordered, hover.found, Or.inl ⟨hnone, hshort⟩, ?_⟩
      intro position hstable
      simp only [hall position hstable, hnone, true_or]
    · refine ⟨shown, next, hwindow, hover.ordered, hover.found, Or.inr ⟨hlast, hfull⟩, ?_⟩
      intro position hstable
      have hsome : next ≠ none := by
        rw [hlast, Ne, Option.map_eq_none_iff, List.getLast?_eq_none_iff]
        rintro rfl
        rw [List.length_nil] at hfull
        omega
      simp only [hupto position hstable, hsome, false_or]
  · rintro snapshot hsnapshot shown ⟨hover, -⟩ limit hpositive hlimit
    refine hfetch snapshot hsnapshot limit hpositive hlimit _ ?_
    intro last hlast
    exact hover.found last (List.mem_of_getLast? hlast)
  · rintro snapshot hsnapshot shown now later ⟨hover, hupto⟩ hfound hnow hlater
    have hafter := hnext snapshot hsnapshot shown now later hfound
    have hkept := hover.append (hkeys snapshot hsnapshot) hsnapshot hafter
    refine ⟨hkept, ?_⟩
    intro position hstable
    constructor
    · exact hkept.ordered_upto
    · rintro ⟨last, hlast, hupper⟩
      rw [List.getLast?_append_of_ne_nil _ hnow] at hlast
      rw [List.map_append, List.mem_append]
      rcases shown_or_found hafter (hstable snapshot hsnapshot) with hshown | hpage
      · exact Or.inl ((hupto position hstable).mpr hshown)
      · rw [List.map_append, List.mem_append] at hpage
        refine Or.inr (hpage.resolve_right ?_)
        rw [List.mem_map]
        rintro ⟨row, hrow, rfl⟩
        have hpairs := (@pairwise_orderBy _ _ _ direction _ _ (hkeys snapshot hsnapshot)).filter fun row =>
          shown.getLast?.all fun last => decide (direction.before (key last) (key row))
        rw [hafter] at hpairs
        exact hupper ((List.pairwise_append.mp hpairs).2.2 last (List.mem_of_getLast? hlast) row hrow)
  · rintro snapshot hsnapshot shown now ⟨hover, hupto⟩ hfound
    have hafter := hnext snapshot hsnapshot shown now [] (by rw [hfound, List.append_nil])
    refine ⟨hover.append (hkeys snapshot hsnapshot) hsnapshot hafter, ?_⟩
    intro position hstable
    rw [List.map_append, List.mem_append]
    rcases shown_or_found hafter (hstable snapshot hsnapshot) with hshown | hpage
    · exact Or.inl ((hupto position hstable).mpr hshown)
    · rw [List.append_nil] at hpage
      exact Or.inr hpage
  · refine ⟨⟨List.Pairwise.nil, by simp⟩, ?_⟩
    intro position hstable
    simp

end Window

/-- Following pages of one row lists rows in the strict order of the keys. -/
theorem listed_of_rowsAfter
    (hpage : ∀ cursor, (∀ last ∈ cursor, last ∈ rows) → page (cursor.map cursorOf) =
      .ok (seek.cut item cursorOf 1 (rowsAfter direction key rows cursor)))
    {fuel : Nat} {result : List σ} (hfollow : seek.follow page fuel none = some (.ok result)) :
    ∃ listed : List ρ, result = listed.map item ∧ (∀ row ∈ listed, row ∈ rows) ∧
      listed.Pairwise fun first second => direction.before (key first) (key second) := by
  have htrans : IsTrans ρ fun first second => direction.before (key first) (key second) :=
    ⟨fun _ _ _ => before_trans⟩
  have hfound : ∀ cursor, ∀ row ∈ rowsAfter direction key rows cursor,
      row ∈ rows ∧ ∀ last ∈ cursor, direction.before (key last) (key row) := by
    intro cursor row hrow
    obtain ⟨hmem, hafter⟩ := List.mem_filter.mp (mem_orderBy.mp hrow)
    refine ⟨hmem, ?_⟩
    rintro last rfl
    simpa using hafter
  obtain ⟨listed, hresult, hmem, hsorted⟩ := seek.listed_of_follow hpage hfound fuel none result (by simp) hfollow
  exact ⟨listed, hresult, fun row hrow => (hmem row hrow).1, hsorted⟩

end SortDirection

end posthaste.store.smart_mailboxes
