import Mathlib.Tactic.SplitIfs
import Posthaste.Library.Ascii

/-! Texts indexed by the bytes of their UTF-8 encoding. -/

namespace slice

/-- The length in bytes. -/
def size : List Char → Nat
  | [] => 0
  | c :: rest => c.utf8Size + size rest

/-- The text before and from a byte index, if the index is no byte inside a character and not past the end. -/
def cut : Nat → List Char → Option (List Char × List Char)
  | 0, text => some ([], text)
  | _ + 1, [] => none
  | index + 1, c :: rest =>
    if c.utf8Size ≤ index + 1 then (cut (index + 1 - c.utf8Size) rest).map fun parts => (c :: parts.1, parts.2)
    else none

/-- The byte index of the first character that passes. -/
def find (test : Char → Bool) : List Char → Option Nat
  | [] => none
  | c :: rest => if test c then some 0 else (find test rest).map (c.utf8Size + ·)

/-- The text around the first separator. -/
def split_once (separator : Char) : List Char → Option (List Char × List Char)
  | [] => none
  | c :: rest =>
    if c = separator then some ([], rest) else (split_once separator rest).map fun parts => (c :: parts.1, parts.2)

/-- A range that does not fall on character boundaries. -/
inductive Panic where
  | char_boundary

/-- `text[..last]` -/
def slice_to (last : Nat) (text : List Char) : Except Panic (List Char) :=
  match cut last text with
  | some parts => .ok parts.1
  | none => .error .char_boundary

/-- `text[first..]` -/
def slice_from (first : Nat) (text : List Char) : Except Panic (List Char) :=
  match cut first text with
  | some parts => .ok parts.2
  | none => .error .char_boundary

def eq_ignore_ascii_case (text other : List Char) : Bool := text.map Char.toLower = other.map Char.toLower

section Laws

variable {text before after : List Char} {index : Nat} {test : Char → Bool} {c : Char}

@[simp] theorem size_nil : size [] = 0 := rfl

@[simp] theorem size_cons (rest : List Char) : size (c :: rest) = c.utf8Size + size rest := rfl

theorem size_append : size (before ++ after) = size before + size after := by
  induction before with
  | nil => simp
  | cons c rest ih => simp only [List.cons_append, size_cons, ih, Nat.add_assoc]

theorem size_toLower (text : List Char) : size (text.map Char.toLower) = size text := by
  induction text with
  | nil => rfl
  | cons c rest ih => rw [List.map_cons, size_cons, size_cons, str.utf8Size_toLower, ih]

theorem cut_eq_some_iff : cut index text = some (before, after) ↔ text = before ++ after ∧ size before = index := by
  induction text generalizing index before with
  | nil =>
    cases index with
    | zero =>
      simp only [cut, Option.some_inj, Prod.mk.injEq]
      constructor
      · rintro ⟨rfl, rfl⟩
        exact ⟨rfl, rfl⟩
      · rintro ⟨hempty, -⟩
        obtain ⟨rfl, rfl⟩ := List.append_eq_nil_iff.1 hempty.symm
        exact ⟨rfl, rfl⟩
    | succ index =>
      simp only [cut, reduceCtorEq, false_iff]
      rintro ⟨hempty, hsize⟩
      obtain ⟨rfl, rfl⟩ := List.append_eq_nil_iff.1 hempty.symm
      cases hsize
  | cons c rest ih =>
    have hpos : 0 < c.utf8Size := c.utf8Size_pos
    cases index with
    | zero =>
      simp only [cut, Option.some_inj, Prod.mk.injEq]
      constructor
      · rintro ⟨rfl, rfl⟩
        exact ⟨rfl, rfl⟩
      · rintro ⟨hsplit, hsize⟩
        cases before with
        | nil => exact ⟨rfl, hsplit⟩
        | cons d before =>
          have hposd : 0 < d.utf8Size := d.utf8Size_pos
          rw [size_cons] at hsize
          omega
    | succ index =>
      rw [cut]
      split_ifs with hfits
      · rw [Option.map_eq_some_iff]
        constructor
        · rintro ⟨⟨front, back⟩, hcut, hparts⟩
          cases hparts
          obtain ⟨rfl, hsize⟩ := ih.1 hcut
          refine ⟨rfl, ?_⟩
          rw [size_cons, hsize]
          omega
        · rintro ⟨hsplit, hsize⟩
          cases before with
          | nil => cases hsize
          | cons d before =>
            cases hsplit
            rw [size_cons] at hsize
            exact ⟨(before, after), ih.2 ⟨rfl, by omega⟩, rfl⟩
      · simp only [false_iff]
        rintro ⟨hsplit, hsize⟩
        cases before with
        | nil => cases hsize
        | cons d before =>
          cases hsplit
          rw [size_cons] at hsize
          omega

theorem cut_append : cut (size before) (before ++ after) = some (before, after) := cut_eq_some_iff.2 ⟨rfl, rfl⟩

/-- No cut falls inside a character. -/
theorem cut_inside (hbefore : size before < index) (hinside : index < size before + c.utf8Size) :
    cut index (before ++ c :: after) = none := by
  cases hcut : cut index (before ++ c :: after) with
  | none => rfl
  | some parts =>
    obtain ⟨hsplit, hsize⟩ := cut_eq_some_iff.1 hcut
    rcases List.append_eq_append_iff.1 hsplit with ⟨more, hhead, hrest⟩ | ⟨more, hhead, _⟩
    · rw [hhead, size_append] at hsize
      cases more with
      | nil =>
        rw [size_nil] at hsize
        omega
      | cons d more =>
        obtain ⟨rfl, _⟩ := List.cons.inj hrest
        rw [size_cons] at hsize
        omega
    · rw [hhead, size_append] at hbefore
      omega

theorem find_eq_some (hfind : find test text = some index) :
    ∃ before c after, text = before ++ c :: after ∧ size before = index ∧ test c = true ∧
      ∀ d ∈ before, test d = false := by
  induction text generalizing index with
  | nil => cases hfind
  | cons c rest ih =>
    rw [find] at hfind
    split_ifs at hfind with htest
    · cases hfind
      exact ⟨[], c, rest, rfl, rfl, htest, fun _ hmem => absurd hmem List.not_mem_nil⟩
    · obtain ⟨later, hlater, rfl⟩ := Option.map_eq_some_iff.1 hfind
      obtain ⟨before, d, after, rfl, rfl, hd, hbefore⟩ := ih hlater
      refine ⟨c :: before, d, after, rfl, rfl, hd, fun other hother => ?_⟩
      obtain rfl | hmem := List.mem_cons.1 hother
      · exact Bool.eq_false_iff.2 htest
      · exact hbefore other hmem

theorem find_eq_none (hfind : find test text = none) : ∀ d ∈ text, test d = false := by
  induction text with
  | nil => exact fun _ hmem => absurd hmem List.not_mem_nil
  | cons c rest ih =>
    rw [find] at hfind
    split_ifs at hfind with htest
    intro other hother
    obtain rfl | hmem := List.mem_cons.1 hother
    · exact Bool.eq_false_iff.2 htest
    · exact ih (Option.map_eq_none_iff.1 hfind) other hmem

/-- Cutting after a one-byte character. -/
theorem slice_from_after (hone : c.utf8Size = 1) :
    slice_from (size before + 1) (before ++ c :: after) = .ok after := by
  have hcut := @cut_append (before ++ [c]) after
  rw [size_append, size_cons, size_nil, hone, List.append_assoc] at hcut
  rw [slice_from, show before ++ c :: after = before ++ ([c] ++ after) from rfl]
  simp only [Nat.add_zero] at hcut
  rw [hcut]

theorem slice_to_before : slice_to (size before) (before ++ after) = .ok before := by
  rw [slice_to, cut_append]

/-- No byte of a text of one-byte characters lies inside a character. -/
theorem size_of_ascii (hascii : ∀ d ∈ text, d.utf8Size = 1) : size text = text.length := by
  induction text with
  | nil => rfl
  | cons d rest ih =>
    rw [size_cons, hascii d List.mem_cons_self, ih fun other hother => hascii other (List.mem_cons_of_mem _ hother),
      List.length_cons, Nat.add_comm]

theorem cut_of_ascii (hascii : ∀ d ∈ text, d.utf8Size = 1) (hindex : index ≤ text.length) :
    cut index text = some (text.take index, text.drop index) := by
  refine cut_eq_some_iff.2 ⟨(List.take_append_drop index text).symm, ?_⟩
  rw [size_of_ascii fun d hd => hascii d (List.mem_of_mem_take hd), List.length_take, Nat.min_eq_left hindex]

end Laws

end slice
