import Mathlib.Data.List.DropRight
import Posthaste.Library.Str

namespace str

def to_ascii_lowercase (text : String) : String := String.ofList (text.toList.map Char.toLower)

/-- The parts of a text between its separators. -/
def split (text : String) (separator : Char) : List String := (text.toList.splitOn separator).map String.ofList

theorem trimEnd_eq_rdropWhile (chars : List Char) : trimEnd chars = chars.rdropWhile is_whitespace := rfl

theorem trimStart_trimEnd {chars : List Char} (hstart : trimStart chars = chars) :
    trimStart (trimEnd chars) = trimEnd chars := by
  rw [trimEnd_eq_rdropWhile]
  have hahead : chars.rdropWhile is_whitespace <+: chars := List.rdropWhile_prefix _ _
  cases hkept : chars.rdropWhile is_whitespace with
  | nil => rfl
  | cons c rest =>
    rw [hkept] at hahead
    obtain ⟨tail, htail⟩ := hahead
    have hvisible : is_whitespace c = false := by
      rw [trimStart, ← htail, List.cons_append, List.dropWhile_cons] at hstart
      by_contra hspace
      rw [if_pos (by simpa using hspace)] at hstart
      have hshort := (@List.dropWhile_sublist _ (rest ++ tail) is_whitespace).length_le
      rw [hstart, List.length_cons] at hshort
      omega
    rw [trimStart, List.dropWhile_cons, hvisible, if_neg Bool.false_ne_true]

/-- Trimming a trimmed text changes nothing. -/
theorem trim_trim (text : String) : trim (trim text) = trim text := by
  have hstart : trimStart (trimStart text.toList) = trimStart text.toList := List.dropWhile_idempotent _ _
  unfold trim
  rw [String.toList_ofList, trimStart_trimEnd hstart, trimEnd_eq_rdropWhile, trimEnd_eq_rdropWhile,
    List.rdropWhile_idempotent]

/-- Only a capital letter is changed, into the letter 32 further. -/
theorem toLower_cases (c : Char) :
    c.toLower = c ∨ 65 ≤ c.toNat ∧ c.toNat ≤ 90 ∧ c.toLower.toNat = c.toNat + 32 := by
  unfold Char.toLower
  split_ifs with hcapital
  · right
    have hlow : 65 ≤ c.toNat := hcapital.1
    have hhigh : c.toNat ≤ 90 := hcapital.2
    refine ⟨hlow, hhigh, ?_⟩
    show (c.val + 32).toNat = c.val.toNat + 32
    have hval : c.val.toNat ≤ 90 := hhigh
    rw [UInt32.toNat_add]
    show (c.val.toNat + 32) % 4294967296 = c.val.toNat + 32
    omega
  · exact .inl rfl

/-- A test that fails on every letter does not see the case. -/
theorem test_toLower {test : Char → Bool} (hcapital : ∀ c, 65 ≤ c.toNat → c.toNat ≤ 90 → test c = false)
    (hsmall : ∀ c, 97 ≤ c.toNat → c.toNat ≤ 122 → test c = false) (c : Char) : test c.toLower = test c := by
  rcases toLower_cases c with hsame | ⟨hlow, hhigh, hshift⟩
  · rw [hsame]
  · rw [hcapital c hlow hhigh, hsmall c.toLower (by omega) (by omega)]

theorem is_whitespace_toLower (c : Char) : is_whitespace c.toLower = is_whitespace c := by
  refine test_toLower (fun letter hlow hhigh => ?_) (fun letter hlow hhigh => ?_) c
  all_goals
    simp only [is_whitespace, Bool.or_eq_false_iff, Bool.and_eq_false_iff, decide_eq_false_iff_not, beq_eq_false_iff_ne]
    omega

/-- A character that is no letter is the same in lower case, and of nothing else. -/
theorem beq_toLower {mark : Char} (hcapital : mark.toNat < 65 ∨ 90 < mark.toNat)
    (hsmall : mark.toNat < 97 ∨ 122 < mark.toNat) (c : Char) : (c.toLower == mark) = (c == mark) := by
  refine @test_toLower (· == mark) (fun letter hlow hhigh => ?_) (fun letter hlow hhigh => ?_) c
  all_goals
    refine beq_eq_false_iff_ne.mpr fun hsame => ?_
    subst hsame
    omega

theorem trimStart_toLower (chars : List Char) : trimStart (chars.map Char.toLower) = (trimStart chars).map Char.toLower := by
  unfold trimStart
  rw [List.dropWhile_map]
  refine congrArg _ (congrArg (List.dropWhile · chars) (funext is_whitespace_toLower))

theorem trimEnd_toLower (chars : List Char) : trimEnd (chars.map Char.toLower) = (trimEnd chars).map Char.toLower := by
  have hstart := trimStart_toLower chars.reverse
  unfold trimStart at hstart
  unfold trimEnd
  rw [← List.map_reverse, hstart, List.map_reverse]

theorem trim_to_ascii_lowercase (text : String) : trim (to_ascii_lowercase text) = to_ascii_lowercase (trim text) := by
  unfold trim to_ascii_lowercase
  rw [String.toList_ofList, String.toList_ofList, trimStart_toLower, trimEnd_toLower]

theorem toLower_of_not_capital {c : Char} (hnot : ¬ (65 ≤ c.toNat ∧ c.toNat ≤ 90)) : c.toLower = c := by
  rcases toLower_cases c with hsame | ⟨hlow, hhigh, -⟩
  · exact hsame
  · exact absurd ⟨hlow, hhigh⟩ hnot

theorem toLower_toLower (c : Char) : c.toLower.toLower = c.toLower := by
  rcases toLower_cases c with hsame | ⟨hlow, hhigh, hshift⟩
  · rw [hsame, hsame]
  · exact toLower_of_not_capital (by omega)

theorem map_toLower_toLower (chars : List Char) : (chars.map Char.toLower).map Char.toLower = chars.map Char.toLower := by
  rw [List.map_map]
  exact List.map_congr_left fun c _ => toLower_toLower c

theorem utf8Size_toLower (c : Char) : c.toLower.utf8Size = c.utf8Size := by
  rcases toLower_cases c with hsame | ⟨hlow, hhigh, hshift⟩
  · rw [hsame]
  · have hone : ∀ {d : Char}, d.toNat ≤ 127 → d.utf8Size = 1 := by
      intro d hd
      rw [Char.utf8Size_eq_one_iff, UInt32.le_iff_toNat_le]
      exact hd
    rw [hone (by omega : c.toLower.toNat ≤ 127), hone (by omega : c.toNat ≤ 127)]

theorem splitOnP_map {test : Char → Bool} {change : Char → Char} (hsame : ∀ c, test (change c) = test c)
    (chars : List Char) : (chars.map change).splitOnP test = (chars.splitOnP test).map (List.map change) := by
  induction chars with
  | nil => rfl
  | cons c rest ih =>
    rw [List.map_cons, List.splitOnP_cons_eq_if_modifyHead, List.splitOnP_cons_eq_if_modifyHead, hsame, ih]
    split_ifs
    · rfl
    · cases rest.splitOnP test with
      | nil => rfl
      | cons => rfl

end str
