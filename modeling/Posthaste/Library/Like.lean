import Mathlib.Data.List.Infix
import Mathlib.Data.List.TakeWhile

namespace like

/-- One step of a `LIKE` pattern. A pattern that ends with its escape character matches nothing. -/
inductive Token where
  | anyRun
  | anyOne
  | exact (c : Char)
  | never
  deriving DecidableEq

/-- The tokens of a pattern, read on from an escape character or not. -/
def tokensFrom (escape : Option Char) : Bool → List Char → List Token
  | false, [] => []
  | true, [] => [.never]
  | true, c :: rest => .exact c :: tokensFrom escape false rest
  | false, c :: rest =>
    if some c = escape then tokensFrom escape true rest
    else if c = '%' then .anyRun :: tokensFrom escape false rest
    else if c = '_' then .anyOne :: tokensFrom escape false rest
    else .exact c :: tokensFrom escape false rest

/-- `%` and `_` are wildcards unless the escape character stands before them. -/
def tokens (escape : Option Char) (pattern : List Char) : List Token := tokensFrom escape false pattern

/-- Exact characters compare without ASCII case. -/
def matchesTokens : List Token → List Char → Bool
  | [], text => text.isEmpty
  | .anyRun :: pattern, text => text.tails.any (matchesTokens pattern)
  | .anyOne :: _, [] => false
  | .anyOne :: pattern, _ :: text => matchesTokens pattern text
  | .exact _ :: _, [] => false
  | .exact d :: pattern, c :: text => d.toLower == c.toLower && matchesTokens pattern text
  | .never :: _, _ => false

/-- Text ends at its first NUL, as in a C string. -/
def cString (text : List Char) : List Char := text.takeWhile (· ≠ '\x00')

/-- `text LIKE pattern [ESCAPE escape]`. -/
def likes (escape : Option Char) (pattern text : List Char) : Bool :=
  matchesTokens (tokens escape (cString pattern)) (cString text)

theorem matchesTokens_anyRun {pattern : List Token} {text : List Char} :
    matchesTokens (.anyRun :: pattern) text ↔ ∃ skipped rest, text = skipped ++ rest ∧ matchesTokens pattern rest := by
  rw [matchesTokens, List.any_eq_true]
  constructor
  · rintro ⟨rest, hrest, hmatches⟩
    obtain ⟨skipped, hsplit⟩ := (List.mem_tails _ _).mp hrest
    exact ⟨skipped, rest, hsplit.symm, hmatches⟩
  · rintro ⟨skipped, rest, rfl, hmatches⟩
    exact ⟨rest, (List.mem_tails _ _).mpr (List.suffix_append skipped rest), hmatches⟩

/-- Patterns in a row match a text that splits into what each matches. -/
theorem matchesTokens_append {first second : List Token} {text : List Char} :
    matchesTokens (first ++ second) text ↔
      ∃ before after, text = before ++ after ∧ matchesTokens first before ∧ matchesTokens second after := by
  induction first generalizing text with
  | nil =>
    constructor
    · intro hmatches
      exact ⟨[], text, rfl, rfl, hmatches⟩
    · rintro ⟨before, after, rfl, hbefore, hafter⟩
      rw [matchesTokens, List.isEmpty_iff] at hbefore
      rwa [hbefore]
  | cons token first ih =>
    rw [List.cons_append]
    cases token with
    | anyRun =>
      rw [matchesTokens_anyRun]
      constructor
      · rintro ⟨skipped, rest, rfl, hrest⟩
        obtain ⟨before, after, rfl, hbefore, hafter⟩ := ih.mp hrest
        exact ⟨skipped ++ before, after, (List.append_assoc _ _ _).symm,
          matchesTokens_anyRun.mpr ⟨skipped, before, rfl, hbefore⟩, hafter⟩
      · rintro ⟨before, after, rfl, hbefore, hafter⟩
        obtain ⟨skipped, rest, rfl, hrest⟩ := matchesTokens_anyRun.mp hbefore
        exact ⟨skipped, rest ++ after, List.append_assoc _ _ _, ih.mpr ⟨rest, after, rfl, hrest, hafter⟩⟩
    | anyOne =>
      cases text with
      | nil => simp [matchesTokens]
      | cons c text =>
        simp only [matchesTokens, ih]
        constructor
        · rintro ⟨before, after, rfl, hbefore, hafter⟩
          exact ⟨c :: before, after, rfl, hbefore, hafter⟩
        · rintro ⟨before, after, hsplit, hbefore, hafter⟩
          cases before with
          | nil => cases hbefore
          | cons d before =>
            obtain ⟨rfl, rfl⟩ := List.cons.inj hsplit
            exact ⟨before, after, rfl, hbefore, hafter⟩
    | exact e =>
      cases text with
      | nil => simp [matchesTokens]
      | cons c text =>
        simp only [matchesTokens, Bool.and_eq_true, ih]
        constructor
        · rintro ⟨hsame, before, after, rfl, hbefore, hafter⟩
          exact ⟨c :: before, after, rfl, by simpa only [matchesTokens, Bool.and_eq_true] using ⟨hsame, hbefore⟩, hafter⟩
        · rintro ⟨before, after, hsplit, hbefore, hafter⟩
          cases before with
          | nil => cases hbefore
          | cons d before =>
            obtain ⟨rfl, rfl⟩ := List.cons.inj hsplit
            simp only [matchesTokens, Bool.and_eq_true] at hbefore
            exact ⟨hbefore.1, before, after, rfl, hbefore.2, hafter⟩
    | never => simp [matchesTokens]

/-- A pattern without wildcards matches the texts of the same letters, ASCII case aside. -/
theorem matchesTokens_exact {chars text : List Char} :
    matchesTokens (chars.map .exact) text ↔ chars.map Char.toLower = text.map Char.toLower := by
  induction chars generalizing text with
  | nil =>
    rw [List.map_nil, matchesTokens, List.isEmpty_iff, List.map_nil, @eq_comm _ [] (text.map _), List.map_eq_nil_iff]
  | cons d chars ih =>
    cases text with
    | nil => simp [matchesTokens]
    | cons c text =>
      simp only [List.map_cons, matchesTokens, Bool.and_eq_true, beq_iff_eq, ih, List.cons.injEq]

theorem matchesTokens_around {pattern : List Token} {text : List Char} :
    matchesTokens (.anyRun :: (pattern ++ [.anyRun])) text ↔
      ∃ before part after, text = before ++ part ++ after ∧ matchesTokens pattern part := by
  simp only [matchesTokens_anyRun, matchesTokens_append]
  constructor
  · rintro ⟨before, _, rfl, part, after, rfl, hpart, -⟩
    exact ⟨before, part, after, (List.append_assoc _ _ _).symm, hpart⟩
  · rintro ⟨before, part, after, rfl, hpart⟩
    exact ⟨before, part ++ after, List.append_assoc _ _ _, part, after, rfl, hpart, after, [], by simp, rfl⟩

theorem matchesTokens_before {pattern : List Token} {text : List Char} :
    matchesTokens (pattern ++ [.anyRun]) text ↔ ∃ part after, text = part ++ after ∧ matchesTokens pattern part := by
  simp only [matchesTokens_append, matchesTokens_anyRun]
  constructor
  · rintro ⟨part, after, rfl, hpart, -⟩
    exact ⟨part, after, rfl, hpart⟩
  · rintro ⟨part, after, rfl, hpart⟩
    exact ⟨part, after, rfl, hpart, after, [], by simp, rfl⟩

theorem tokens_append {escape : Option Char} {first second : List Char} (hplain : ∀ c ∈ first, some c ≠ escape) :
    tokens escape (first ++ second) = tokens escape first ++ tokens escape second := by
  induction first with
  | nil => rfl
  | cons c first ih =>
    have hrest := ih fun d hd => hplain d (List.mem_cons_of_mem _ hd)
    simp only [tokens] at hrest
    simp only [List.cons_append, tokens, tokensFrom, if_neg (hplain c List.mem_cons_self), hrest]
    split_ifs <;> rfl

theorem tokens_of_plain {chars : List Char} (hplain : ∀ c ∈ chars, c ≠ '%' ∧ c ≠ '_') :
    tokens none chars = chars.map .exact := by
  induction chars with
  | nil => rfl
  | cons c chars ih =>
    have hrest := ih fun d hd => hplain d (List.mem_cons_of_mem _ hd)
    obtain ⟨hpercent, hunderscore⟩ := hplain c List.mem_cons_self
    rw [tokens, tokensFrom, if_neg (by simp), if_neg hpercent, if_neg hunderscore, ← tokens, hrest, List.map_cons]

/-- The escape character before each wildcard and each escape character. -/
def escaped (escape : Char) (chars : List Char) : List Char :=
  chars.flatMap fun c => if c = escape ∨ c = '%' ∨ c = '_' then [escape, c] else [c]

/-- An escaped value is a pattern of its own characters, whatever follows it. -/
theorem tokens_escaped {escape : Char} {chars rest : List Char} :
    tokens (some escape) (escaped escape chars ++ rest) = chars.map .exact ++ tokens (some escape) rest := by
  induction chars with
  | nil => rfl
  | cons c chars ih =>
    rw [escaped, List.flatMap_cons, ← escaped]
    simp only [tokens] at ih
    split_ifs with hspecial
    · simp only [List.cons_append, List.nil_append, tokens, tokensFrom, ih, List.map_cons, if_true]
    · obtain ⟨hescape, hpercent, hunderscore⟩ : c ≠ escape ∧ c ≠ '%' ∧ c ≠ '_' := by simpa using hspecial
      simp only [List.cons_append, List.nil_append, tokens, tokensFrom, Option.some.injEq, if_neg hescape,
        if_neg hpercent, if_neg hunderscore, ih, List.map_cons]

theorem cString_of_noNul {text : List Char} (htext : '\x00' ∉ text) : cString text = text := by
  refine List.takeWhile_eq_self_iff.mpr ?_
  intro c hc
  rw [decide_eq_true_iff]
  rintro rfl
  exact htext hc

theorem toLower_toLower (c : Char) : c.toLower.toLower = c.toLower := by
  unfold Char.toLower
  split
  case isTrue hupper =>
    split
    case isTrue hagain =>
      have hlow := UInt32.le_iff_toNat_le.mp hupper.1
      have hhigh := UInt32.le_iff_toNat_le.mp hupper.2
      have hbound := UInt32.le_iff_toNat_le.mp hagain.2
      simp at hlow hhigh hbound
      omega
    case isFalse => rfl
  case isFalse => rfl

theorem cString_append {first second : List Char} :
    cString (first ++ second) = if '\x00' ∈ first then cString first else first ++ cString second := by
  induction first with
  | nil => rfl
  | cons c first ih =>
    by_cases hc : c = '\x00'
    · subst hc
      simp [cString]
    · have hkept : ∀ rest, cString (c :: rest) = c :: cString rest := fun rest =>
        List.takeWhile_cons_of_pos (by simpa using hc)
      have hmem : '\x00' ∈ c :: first ↔ '\x00' ∈ first := by
        rw [List.mem_cons, or_iff_right (Ne.symm hc)]
      simp only [List.cons_append, hkept, ih, hmem]
      split_ifs <;> rfl

theorem cString_escaped {escape : Char} {chars : List Char} (hescape : escape ≠ '\x00') :
    cString (escaped escape chars) = escaped escape (cString chars) := by
  induction chars with
  | nil => rfl
  | cons c chars ih =>
    have hsplit : ∀ rest, escaped escape (c :: rest) = escaped escape [c] ++ escaped escape rest := by
      intro rest
      simp only [escaped, List.flatMap_cons, List.flatMap_nil, List.append_nil]
    rw [hsplit, cString_append, ih]
    by_cases hc : c = '\x00'
    · subst hc
      have hsingle : escaped escape ['\x00'] = ['\x00'] := by simp [escaped, Ne.symm hescape]
      have hcut : cString ('\x00' :: chars) = [] := rfl
      rw [hsingle, if_pos List.mem_cons_self, hcut]
      rfl
    · have hnul : '\x00' ∉ escaped escape [c] := by
        simp only [escaped, List.flatMap_cons, List.flatMap_nil, List.append_nil]
        split_ifs <;> simp [Ne.symm hescape, Ne.symm hc]
      have hkept : cString (c :: chars) = c :: cString chars := List.takeWhile_cons_of_pos (by simpa using hc)
      rw [if_neg hnul, hkept, ← hsplit]

theorem nul_mem_escaped {escape : Char} {chars : List Char} (hescape : escape ≠ '\x00') :
    '\x00' ∈ escaped escape chars ↔ '\x00' ∈ chars := by
  simp only [escaped, List.mem_flatMap]
  constructor
  · rintro ⟨c, hc, hnul⟩
    split_ifs at hnul with hspecial
    · rcases List.mem_cons.mp hnul with hnul | hnul
      · exact absurd hnul.symm hescape
      · rwa [List.mem_singleton.mp hnul]
    · rwa [List.mem_singleton.mp hnul]
  · intro hc
    exact ⟨'\x00', hc, by split_ifs <;> simp⟩

/-- `LIKE '%value%'`: the wildcards of the value work, and a NUL in it ends the pattern. -/
theorem likes_around {value text : List Char} :
    likes none ('%' :: (value ++ ['%'])) text ↔ ∃ before part after, cString text = before ++ part ++ after ∧
      matchesTokens (tokens none (cString value)) part ∧ ('\x00' ∈ value → after = []) := by
  have hpattern : cString ('%' :: (value ++ ['%'])) = '%' :: cString (value ++ ['%']) := rfl
  have htokens : ∀ chars, tokens none ('%' :: chars) = .anyRun :: tokens none chars := fun _ => rfl
  rw [likes, hpattern, htokens, cString_append]
  split_ifs with hnul
  · rw [matchesTokens_anyRun]
    constructor
    · rintro ⟨before, part, hsplit, hpart⟩
      exact ⟨before, part, [], by rw [hsplit, List.append_nil], hpart, fun _ => rfl⟩
    · rintro ⟨before, part, after, hsplit, hpart, hafter⟩
      rw [hafter hnul, List.append_nil] at hsplit
      exact ⟨before, part, hsplit, hpart⟩
  · have hany : tokens none (value ++ cString ['%']) = tokens none value ++ [.anyRun] :=
      tokens_append (by simp)
    rw [hany, matchesTokens_around, cString_of_noNul hnul]
    simp only [hnul, false_implies, and_true]

/-- `LIKE 'value%'` with the value escaped. -/
theorem likes_before {escape : Char} {value text : List Char} (hescape : escape ≠ '\x00')
    (hpercent : escape ≠ '%') :
    likes (some escape) (escaped escape value ++ ['%']) text ↔ ∃ part after, cString text = part ++ after ∧
      (cString value).map Char.toLower = part.map Char.toLower ∧ ('\x00' ∈ value → after = []) := by
  simp only [likes, cString_append, nul_mem_escaped hescape, ← matchesTokens_exact]
  split_ifs with hnul
  · have hexact : tokens (some escape) (cString (escaped escape value)) = (cString value).map .exact := by
      rw [cString_escaped hescape, ← List.append_nil (escaped _ _), tokens_escaped, tokens, tokensFrom, List.append_nil]
    rw [hexact]
    constructor
    · intro hmatches
      exact ⟨cString text, [], (List.append_nil _).symm, hmatches, fun _ => rfl⟩
    · rintro ⟨part, after, hsplit, hpart, hafter⟩
      rw [hafter hnul, List.append_nil] at hsplit
      rwa [hsplit]
  · have hany : tokens (some escape) (cString ['%']) = [.anyRun] := by
      simp [tokens, tokensFrom, cString, Ne.symm hpercent]
    rw [tokens_escaped, hany, matchesTokens_before, cString_of_noNul hnul]
    simp only [hnul, false_implies, and_true]

/-- `LIKE '%value'` with the value escaped. -/
theorem likes_after {escape : Char} {value text : List Char} (hescape : escape ≠ '\x00') (hpercent : escape ≠ '%') :
    likes (some escape) ('%' :: escaped escape value) text ↔ ∃ before part, cString text = before ++ part ∧
      (cString value).map Char.toLower = part.map Char.toLower := by
  have hpattern : cString ('%' :: escaped escape value) = '%' :: escaped escape (cString value) := by
    rw [← cString_escaped hescape]
    rfl
  have hexact : tokens (some escape) ('%' :: escaped escape (cString value)) =
      .anyRun :: (cString value).map .exact := by
    have htokens : tokens (some escape) ('%' :: escaped escape (cString value)) =
        .anyRun :: tokens (some escape) (escaped escape (cString value)) := by
      simp [tokens, tokensFrom, Ne.symm hpercent]
    rw [htokens, ← List.append_nil (escaped _ _), tokens_escaped, tokens, tokensFrom, List.append_nil]
  rw [likes, hpattern, hexact, matchesTokens_anyRun]
  simp only [matchesTokens_exact]

end like
