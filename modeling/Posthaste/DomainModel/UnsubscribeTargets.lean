import Mathlib.Data.List.TakeWhile
import Posthaste.DomainModel.Unsubscribe

open effects slice

namespace posthaste.model

/-- The bracketed parts of a text, given what is read of the one that is open. -/
def entriesFrom : Option (List Char) → List Char → List (List Char)
  | _, [] => []
  | none, c :: rest => if c = '<' then entriesFrom (some []) rest else entriesFrom none rest
  | some read, c :: rest =>
    if c = '>' then unfold_entry read :: entriesFrom none rest else entriesFrom (some (read ++ [c])) rest

/-- The bracketed parts of a header, without their whitespace. -/
def headerEntries (header : String) : List (List Char) := entriesFrom none header.toList

section Entries

variable {before after rest : List Char}

theorem entriesFrom_closed (hbefore : ∀ d ∈ before, (d == '<') = false) :
    entriesFrom none (before ++ '<' :: after) = entriesFrom (some []) after := by
  induction before with
  | nil => rfl
  | cons c before ih =>
    have hc : ¬ c = '<' := by simpa using hbefore c List.mem_cons_self
    rw [List.cons_append, entriesFrom, if_neg hc]
    exact ih fun d hd => hbefore d (List.mem_cons_of_mem _ hd)

theorem entriesFrom_open {read : List Char} (hbefore : ∀ d ∈ before, (d == '>') = false) :
    entriesFrom (some read) (before ++ '>' :: after) = unfold_entry (read ++ before) :: entriesFrom none after := by
  induction before generalizing read with
  | nil => rw [List.nil_append, entriesFrom, if_pos rfl, List.append_nil]
  | cons c before ih =>
    have hc : ¬ c = '>' := by simpa using hbefore c List.mem_cons_self
    rw [List.cons_append, entriesFrom, if_neg hc, ih fun d hd => hbefore d (List.mem_cons_of_mem _ hd),
      List.append_assoc, List.singleton_append]

theorem entriesFrom_none (hnone : ∀ d ∈ rest, (d == '<') = false) : entriesFrom none rest = [] := by
  induction rest with
  | nil => rfl
  | cons c rest ih =>
    have hc : ¬ c = '<' := by simpa using hnone c List.mem_cons_self
    rw [entriesFrom, if_neg hc]
    exact ih fun d hd => hnone d (List.mem_cons_of_mem _ hd)

theorem entriesFrom_unclosed {read : List Char} (hnone : ∀ d ∈ rest, (d == '>') = false) :
    entriesFrom (some read) rest = [] := by
  induction rest generalizing read with
  | nil => rfl
  | cons c rest ih =>
    have hc : ¬ c = '>' := by simpa using hnone c List.mem_cons_self
    rw [entriesFrom, if_neg hc]
    exact ih fun d hd => hnone d (List.mem_cons_of_mem _ hd)

/-- The brackets are one byte each: finding them never cuts a character. -/
theorem next_entry_spec (rest : List Char) :
    (next_entry rest = .ok none ∧ entriesFrom none rest = []) ∨
      ∃ entry after, next_entry rest = .ok (some (entry, after)) ∧
        entriesFrom none rest = unfold_entry entry :: entriesFrom none after := by
  unfold next_entry
  cases hfind : find (· == '<') rest with
  | none => exact .inl ⟨rfl, entriesFrom_none (find_eq_none hfind)⟩
  | some start =>
    obtain ⟨before, c, tail, rfl, rfl, hc, hbefore⟩ := find_eq_some hfind
    obtain rfl : c = '<' := by simpa using hc
    simp only [slice_from_after (show ('<' : Char).utf8Size = 1 from rfl), except_bind_ok,
      entriesFrom_closed hbefore]
    cases hstop : find (· == '>') tail with
    | none => exact .inl ⟨rfl, entriesFrom_unclosed (find_eq_none hstop)⟩
    | some stop =>
      obtain ⟨inside, d, following, rfl, rfl, hd, hinside⟩ := find_eq_some hstop
      obtain rfl : d = '>' := by simpa using hd
      simp only [slice_from_after (show ('>' : Char).utf8Size = 1 from rfl), slice_to_before, except_bind_ok]
      exact .inr ⟨inside, following, rfl, entriesFrom_open hinside⟩

end Entries

section Checks

variable {uri : List Char}

/-- The byte index is no byte inside a character. -/
def Splits (index : Nat) (uri : List Char) : Prop := size uri < index ∨ (cut index uri).isSome

instance (index : Nat) (uri : List Char) : Decidable (Splits index uri) := inferInstanceAs (Decidable (_ ∨ _))

def isHttps (uri : List Char) : Bool :=
  match validate_one_click_https uri with
  | .ok checked => isAccepted checked
  | .error _ => false

def isMailto (uri : List Char) : Bool :=
  match is_valid_mailto uri with
  | .ok valid => valid
  | .error _ => false

/-- What the claim of a safe target comes to: the scheme, the characters, no userinfo, and a host that is no literal. -/
structure SafeTarget (uri : List Char) : Prop where
  scheme : eq_ignore_ascii_case (uri.take 8) "https://".toList = true
  printable : ∀ c ∈ uri, isPrintable c = true
  userinfo : '@' ∉ (uri.drop 8).takeWhile fun c => !(c == '/' || c == '?' || c == '#')
  bracketed : '[' ∉ (uri.drop 8).takeWhile (fun c => !(c == '/' || c == '?' || c == '#')) ∧
    ']' ∉ (uri.drop 8).takeWhile fun c => !(c == '/' || c == '?' || c == '#')
  host : ¬ (hostAndPort ((uri.drop 8).takeWhile fun c => !(c == '/' || c == '?' || c == '#'))).1.all
    (fun c => c.isDigit || c == '.') = true

theorem utf8Size_of_printable {c : Char} (hprintable : isPrintable c = true) : c.utf8Size = 1 := by
  rw [isPrintable, Bool.and_eq_true, decide_eq_true_iff, decide_eq_true_iff] at hprintable
  rw [Char.utf8Size_eq_one_iff, UInt32.le_iff_toNat_le]
  exact Nat.le_trans hprintable.2 (by decide)

theorem splits_of_printable {index : Nat} (hprintable : ∀ c ∈ uri, isPrintable c = true) : Splits index uri := by
  have hascii : ∀ c ∈ uri, c.utf8Size = 1 := fun c hc => utf8Size_of_printable (hprintable c hc)
  by_cases hindex : index ≤ uri.length
  · rw [Splits, cut_of_ascii hascii hindex]
    exact .inr rfl
  · rw [Splits, size_of_ascii hascii]
    exact .inl (Nat.lt_of_not_le hindex)

theorem cut_before_spec (test : Char → Bool) (text : List Char) :
    cut_before test text = .ok (text.takeWhile fun c => !test c) := by
  unfold cut_before
  cases hfind : find test text with
  | none =>
    have hnone := find_eq_none hfind
    have hwhole := @slice_to_before text []
    rw [List.append_nil] at hwhole
    rw [Option.getD_none, hwhole, List.takeWhile_eq_self_iff.2 fun c hc => by rw [hnone c hc]; rfl]
  | some index =>
    obtain ⟨before, c, after, rfl, rfl, hc, hbefore⟩ := find_eq_some hfind
    rw [Option.getD_some, slice_to_before, List.takeWhile_append_of_pos fun d hd => by rw [hbefore d hd]; rfl,
      List.takeWhile_cons, hc]
    simp

theorem splits_of_small {index : Nat} (hsize : size uri ≤ index) : Splits index uri := by
  obtain hsmall | hwhole := Nat.lt_or_eq_of_le hsize
  · exact .inl hsmall
  · have hcut := @cut_append uri []
    rw [List.append_nil, hwhole] at hcut
    rw [Splits, hcut]
    exact .inr rfl

/-- The start of both checks panics where the end of the scheme lies inside a character, and nowhere else. -/
theorem afterScheme_spec (scheme uri : List Char) :
    (Splits scheme.length uri ∧ ∃ checked, afterScheme scheme uri = .ok checked ∧ (isAccepted checked = true →
      eq_ignore_ascii_case (uri.take scheme.length) scheme = true ∧ (∀ c ∈ uri, isPrintable c = true) ∧
        scheme.length ≤ uri.length)) ∨
      ¬ Splits scheme.length uri ∧ afterScheme scheme uri = .error .char_boundary := by
  unfold afterScheme
  by_cases hsize : size uri ≤ scheme.length
  · rw [if_pos hsize]
    exact .inl ⟨splits_of_small hsize, _, rfl, fun hno => nomatch hno⟩
  · rw [if_neg hsize]
    cases hcut : cut scheme.length uri with
    | none =>
      refine .inr ⟨?_, ?_⟩
      · rintro (hsmall | hsome)
        · exact hsize (Nat.le_of_lt hsmall)
        · rw [hcut] at hsome
          cases hsome
      · rw [slice_to, hcut]
        rfl
    | some parts =>
      refine .inl ⟨.inr (by rw [hcut]; rfl), ?_⟩
      rw [slice_to, hcut]
      refine ⟨_, rfl, fun haccepted => ?_⟩
      split_ifs at haccepted with hscheme hany
      any_goals cases haccepted
      have hprintable : ∀ c ∈ uri, isPrintable c = true := by
        intro c hc
        by_contra hbad
        rw [Bool.not_eq_true] at hbad
        exact hany (List.any_eq_true.2 ⟨c, hc, by rw [hbad]; rfl⟩)
      have hascii : ∀ c ∈ uri, c.utf8Size = 1 := fun c hc => utf8Size_of_printable (hprintable c hc)
      have hlength : scheme.length ≤ uri.length := by
        rw [size_of_ascii hascii] at hsize
        omega
      rw [cut_of_ascii hascii hlength, Option.some_inj] at hcut
      rw [← hcut] at hscheme
      exact ⟨by simpa using hscheme, hprintable, hlength⟩

theorem slice_from_of_printable {index : Nat} (hprintable : ∀ c ∈ uri, isPrintable c = true) (hindex : index ≤ uri.length) :
    slice_from index uri = .ok (uri.drop index) := by
  rw [slice_from, cut_of_ascii (fun c hc => utf8Size_of_printable (hprintable c hc)) hindex]

theorem safe_of_validate_authority (hscheme : eq_ignore_ascii_case (uri.take 8) "https://".toList = true)
    (hprintable : ∀ c ∈ uri, isPrintable c = true)
    (haccepted : isAccepted (validate_authority
      ((uri.drop 8).takeWhile fun c => !(c == '/' || c == '?' || c == '#'))) = true) : SafeTarget uri := by
  unfold validate_authority at haccepted
  split_ifs at haccepted with huser hbracket hport hhost hliteral
  any_goals cases haccepted
  exact ⟨hscheme, hprintable, huser, not_or.1 hbracket, hliteral⟩

theorem validate_spec (uri : List Char) :
    (Splits 8 uri ∧ ∃ checked, validate_one_click_https uri = .ok checked ∧
      (isAccepted checked = true → SafeTarget uri)) ∨
      ¬ Splits 8 uri ∧ validate_one_click_https uri = .error .char_boundary := by
  unfold validate_one_click_https
  obtain ⟨hsplits, checked, hstart, hscheme⟩ | ⟨hsplits, hstart⟩ := afterScheme_spec "https://".toList uri
  · refine .inl ⟨hsplits, ?_⟩
    rw [hstart, except_bind_ok]
    cases checked with
    | error error => exact ⟨_, rfl, fun hno => nomatch hno⟩
    | ok _ =>
      obtain ⟨hscheme, hprintable, hlength⟩ := hscheme rfl
      have hrest : slice_from 8 uri = .ok (uri.drop 8) := slice_from_of_printable hprintable hlength
      simp only [hrest, cut_before_spec, except_bind_ok]
      exact ⟨_, rfl, safe_of_validate_authority hscheme hprintable⟩
  · refine .inr ⟨hsplits, ?_⟩
    rw [hstart]
    rfl

/-- The scheme has no question mark, so it is left where the query is cut off. -/
theorem scheme_before_query (hscheme : eq_ignore_ascii_case (uri.take 7) "mailto:".toList = true)
    (hlength : 7 ≤ uri.length) : 7 ≤ (uri.takeWhile fun c => !(c == '?')).length := by
  have hno : ∀ c ∈ uri.take 7, (!(c == '?')) = true := by
    intro c hc
    by_contra hquery
    obtain rfl : c = '?' := by simpa using hquery
    have hmem : Char.toLower '?' ∈ (uri.take 7).map Char.toLower := List.mem_map_of_mem hc
    rw [of_decide_eq_true hscheme] at hmem
    exact absurd hmem (by decide)
  have hsplit : (uri.takeWhile fun c => !(c == '?')) = uri.take 7 ++ (uri.drop 7).takeWhile fun c => !(c == '?') := by
    conv_lhs => rw [← List.take_append_drop 7 uri]
    exact List.takeWhile_append_of_pos hno
  rw [hsplit, List.length_append, List.length_take]
  omega

theorem is_valid_mailto_spec (uri : List Char) :
    (Splits 7 uri ∧ ∃ valid, is_valid_mailto uri = .ok valid ∧
      (valid = true → eq_ignore_ascii_case (uri.take 7) "mailto:".toList = true)) ∨
      ¬ Splits 7 uri ∧ is_valid_mailto uri = .error .char_boundary := by
  unfold is_valid_mailto
  obtain ⟨hsplits, checked, hstart, hscheme⟩ | ⟨hsplits, hstart⟩ := afterScheme_spec "mailto:".toList uri
  · refine .inl ⟨hsplits, ?_⟩
    rw [hstart, except_bind_ok]
    cases checked with
    | error error => exact ⟨_, rfl, fun hno => nomatch hno⟩
    | ok _ =>
      obtain ⟨hscheme, hprintable, hlength⟩ := hscheme rfl
      have hbefore : ∀ c ∈ uri.takeWhile fun c => !(c == '?'), isPrintable c = true :=
        fun c hc => hprintable c ((List.takeWhile_sublist _).subset hc)
      have hrest : ∃ addresses, slice_from 7 (uri.takeWhile fun c => !(c == '?')) = .ok addresses :=
        ⟨_, slice_from_of_printable hbefore (scheme_before_query hscheme hlength)⟩
      obtain ⟨addresses, hrest⟩ := hrest
      simp only [cut_before_spec, hrest, except_bind_ok]
      exact ⟨_, rfl, fun _ => hscheme⟩
  · refine .inr ⟨hsplits, ?_⟩
    rw [hstart]
    rfl

end Checks

section Scan

variable {uri : List Char} {targets : Targets} {seen : List (List Char)}

/-- Both checks of a scan that has seen these entries slice where they may. -/
def Sliced (seen : List (List Char)) (uri : List Char) : Prop :=
  (seen.find? isHttps = none → Splits 8 uri) ∧ (seen.find? isMailto = none → Splits 7 uri)

/-- What the entries seen leave as targets. -/
def targetsOf (seen : List (List Char)) : Targets := ⟨seen.find? isHttps, seen.find? isMailto⟩

theorem isHttps_eq {checked : Except UnsubscribeUrlError Unit} (hcheck : validate_one_click_https uri = .ok checked) :
    isHttps uri = isAccepted checked := by
  rw [isHttps, hcheck]

theorem isMailto_eq {valid : Bool} (hcheck : is_valid_mailto uri = .ok valid) : isMailto uri = valid := by
  rw [isMailto, hcheck]

theorem safe_of_isHttps (hhttps : isHttps uri = true) : SafeTarget uri := by
  obtain ⟨-, checked, hcheck, hsafe⟩ | ⟨-, hpanic⟩ := validate_spec uri
  · rw [isHttps_eq hcheck] at hhttps
    exact hsafe hhttps
  · rw [isHttps, hpanic] at hhttps
    cases hhttps

/-- No target is of both kinds. -/
theorem not_mailto_of_https (hhttps : isHttps uri = true) : isMailto uri = false := by
  rw [← Bool.not_eq_true]
  intro hmailto
  obtain ⟨-, valid, hcheck, hscheme⟩ | ⟨-, hpanic⟩ := is_valid_mailto_spec uri
  · rw [isMailto_eq hcheck] at hmailto
    have hmail : (uri.take 7).map Char.toLower = "mailto:".toList.map Char.toLower :=
      of_decide_eq_true (hscheme hmailto)
    have hhttps : (uri.take 8).map Char.toLower = "https://".toList.map Char.toLower :=
      of_decide_eq_true (safe_of_isHttps hhttps).scheme
    have hshort := congrArg (List.take 7) hhttps
    rw [← List.map_take, List.take_take] at hshort
    exact absurd (hmail.symm.trans hshort) (by decide)
  · rw [isMailto, hpanic] at hmailto
    cases hmailto

theorem find_append_singleton {test : List Char → Bool} :
    (seen ++ [uri]).find? test = (seen.find? test).or (if test uri then some uri else none) := by
  rw [List.find?_append, List.find?_singleton]

/-- The mailto half of a turn. -/
theorem mail_spec (seen : List (List Char)) (uri : List Char) :
    ((seen.find? isMailto = none → Splits 7 uri) ∧
      ∃ mail, checkMailto (seen.find? isMailto) uri = .ok mail ∧
        (if mail then some uri else seen.find? isMailto) = (seen ++ [uri]).find? isMailto) ∨
      ¬ (seen.find? isMailto = none → Splits 7 uri) ∧
        checkMailto (seen.find? isMailto) uri = .error .char_boundary := by
  rw [find_append_singleton]
  cases hseen : seen.find? isMailto with
  | some found =>
    refine .inl ⟨?_, false, rfl, rfl⟩
    intro hnone
    cases hnone
  | none =>
    obtain ⟨hsplits, valid, hcheck, -⟩ | ⟨hsplits, hpanic⟩ := is_valid_mailto_spec uri
    · refine .inl ⟨fun _ => hsplits, valid, hcheck, ?_⟩
      rw [isMailto_eq hcheck, Option.none_or]
    · exact .inr ⟨fun hall => hsplits (hall rfl), hpanic⟩

/-- One entry more: the targets are those of the entries seen, or a check panics. -/
theorem take_entry_spec (seen : List (List Char)) (uri : List Char) :
    (Sliced seen uri ∧ take_entry (targetsOf seen) uri = .ok (targetsOf (seen ++ [uri]))) ∨
      ¬ Sliced seen uri ∧ take_entry (targetsOf seen) uri = .error .char_boundary := by
  have hrefused : ∀ https : Option (List Char), (seen.find? isHttps = none → Splits 8 uri) →
      checkHttps (seen.find? isHttps) uri = .ok false →
      https = seen.find? isHttps → (seen ++ [uri]).find? isHttps = https →
      (Sliced seen uri ∧ take_entry (targetsOf seen) uri = .ok (targetsOf (seen ++ [uri]))) ∨
        ¬ Sliced seen uri ∧ take_entry (targetsOf seen) uri = .error .char_boundary := by
    rintro https hsplits haccepted rfl hkept
    unfold take_entry targetsOf
    rw [haccepted, hkept]
    obtain ⟨hmail, mail, hcheck, htaken⟩ | ⟨hmail, hpanic⟩ := mail_spec seen uri
    · refine .inl ⟨⟨hsplits, hmail⟩, ?_⟩
      simp only [except_bind_ok, Bool.false_eq_true, if_false, hcheck, ← htaken]
      cases mail <;> rfl
    · refine .inr ⟨fun hsliced => hmail hsliced.2, ?_⟩
      simp only [except_bind_ok, Bool.false_eq_true, if_false, hpanic]
      rfl
  cases hseen : seen.find? isHttps with
  | some found =>
    refine hrefused (some found) (fun hnone => ?_) (by rw [hseen]; rfl) hseen.symm ?_
    · rw [hseen] at hnone
      cases hnone
    · rw [find_append_singleton, hseen, Option.some_or]
  | none =>
    obtain ⟨hsplits, checked, hcheck, hsafe⟩ | ⟨hsplits, hpanic⟩ := validate_spec uri
    · have haccepted : checkHttps (seen.find? isHttps) uri = .ok (isAccepted checked) := by
        rw [hseen, checkHttps, hcheck]
        rfl
      cases hkind : isAccepted checked with
      | false =>
        rw [hkind] at haccepted
        refine hrefused none (fun _ => hsplits) haccepted hseen.symm ?_
        rw [find_append_singleton, hseen, isHttps_eq hcheck, hkind]
        rfl
      | true =>
        have hhttps : isHttps uri = true := (isHttps_eq hcheck).trans hkind
        refine .inl ⟨⟨fun _ => hsplits, fun _ => splits_of_printable (hsafe hkind).printable⟩, ?_⟩
        unfold take_entry targetsOf
        rw [haccepted, hkind, find_append_singleton, find_append_singleton, not_mailto_of_https hhttps, hhttps, hseen]
        simp only [except_bind_ok, if_true, Option.none_or, Bool.false_eq_true, if_false, Option.or_none]
    · refine .inr ⟨fun hsliced => hsplits (hsliced.1 hseen), ?_⟩
      unfold take_entry targetsOf
      rw [hseen, checkHttps, hpanic]
      rfl

/-- Where the loop may stop early the entries that follow change nothing. -/
theorem targetsOf_append (later : List (List Char)) (hhttps : (targetsOf seen).https.isSome = true)
    (hmailto : (targetsOf seen).mailto.isSome = true) : targetsOf (seen ++ later) = targetsOf seen := by
  obtain ⟨https, hhttps⟩ := Option.isSome_iff_exists.1 hhttps
  obtain ⟨mailto, hmailto⟩ := Option.isSome_iff_exists.1 hmailto
  have hhttps : seen.find? isHttps = some https := hhttps
  have hmailto : seen.find? isMailto = some mailto := hmailto
  simp only [targetsOf, List.find?_append, hhttps, hmailto, Option.some_or]

/-- No check of the scan slices a character, given the entries seen before. -/
def AllSliced (seen : List (List Char)) : List (List Char) → Prop
  | [] => True
  | uri :: later => Sliced seen uri ∧ AllSliced (seen ++ [uri]) later

theorem allSliced_of_found {later : List (List Char)} (hhttps : (targetsOf seen).https.isSome = true)
    (hmailto : (targetsOf seen).mailto.isSome = true) : AllSliced seen later := by
  induction later generalizing seen with
  | nil => trivial
  | cons uri later ih =>
    obtain ⟨https, hfound⟩ := Option.isSome_iff_exists.1 hhttps
    obtain ⟨mailto, hmail⟩ := Option.isSome_iff_exists.1 hmailto
    have hkept := targetsOf_append [uri] hhttps hmailto
    refine ⟨⟨fun hnone => ?_, fun hnone => ?_⟩, ih (by rw [hkept]; exact hhttps) (by rw [hkept]; exact hmailto)⟩
    · cases hnone.symm.trans hfound
    · cases hnone.symm.trans hmail

theorem scan_spec (seen : List (List Char)) (rest : List Char) :
    (AllSliced seen (entriesFrom none rest) ∧
      scan (targetsOf seen) rest = .ok (targetsOf (seen ++ entriesFrom none rest))) ∨
      ¬ AllSliced seen (entriesFrom none rest) ∧ scan (targetsOf seen) rest = .error .char_boundary := by
  induction hlength : rest.length using Nat.strong_induction_on generalizing seen rest with
  | _ length ih =>
    subst hlength
    rw [scan]
    obtain ⟨hnext, hentries⟩ | ⟨entry, after, hnext, hentries⟩ := next_entry_spec rest
    · rw [hentries, List.append_nil]
      refine .inl ⟨trivial, ?_⟩
      split
      · next panic hother => cases hnext.symm.trans hother
      · rfl
      · next other after hother => cases hnext.symm.trans hother
    · rw [hentries]
      have hlater : ∀ seen, _ := fun seen => ih after.length (next_entry_shorter hnext) seen after rfl
      split
      · next panic hother => cases hnext.symm.trans hother
      · next hother => cases hnext.symm.trans hother
      · next other following hother =>
        cases hnext.symm.trans hother
        obtain ⟨hsliced, htaken⟩ | ⟨hsliced, hpanic⟩ := take_entry_spec seen (unfold_entry entry)
        · simp only [htaken]
          by_cases hfound : ((targetsOf (seen ++ [unfold_entry entry])).https.isSome &&
              (targetsOf (seen ++ [unfold_entry entry])).mailto.isSome) = true
          · rw [if_pos hfound]
            obtain ⟨hhttps, hmailto⟩ := Bool.and_eq_true_iff.1 hfound
            refine .inl ⟨⟨hsliced, allSliced_of_found hhttps hmailto⟩, ?_⟩
            rw [← targetsOf_append (entriesFrom none after) hhttps hmailto, List.append_assoc, List.singleton_append]
          · rw [if_neg hfound]
            obtain ⟨hrest, hscan⟩ | ⟨hrest, hscan⟩ := hlater (seen ++ [unfold_entry entry])
            · refine .inl ⟨⟨hsliced, hrest⟩, ?_⟩
              rw [hscan, List.append_assoc, List.singleton_append]
            · exact .inr ⟨fun hall => hrest hall.2, hscan⟩
        · simp only [hpanic]
          exact .inr ⟨fun hall => hsliced hall.1, trivial⟩

end Scan

section Parse

/-- What a parse that returns says: the first valid target of each kind, a safe one, and one click only beside it. -/
structure SoundTargets (header : String) (post_header : Option String) (parsed : Option ListUnsubscribe) : Prop where
  https : parsed.bind ListUnsubscribe.https = ((headerEntries header).find? isHttps).map String.ofList
  mailto : parsed.bind ListUnsubscribe.mailto = ((headerEntries header).find? isMailto).map String.ofList
  absent : parsed = none ↔ (∀ uri ∈ headerEntries header, isHttps uri = false) ∧
    ∀ uri ∈ headerEntries header, isMailto uri = false
  safe : ∀ target, parsed.bind ListUnsubscribe.https = some target → SafeTarget target.toList
  one_click : ∀ found, parsed = some found → found.one_click = true → found.https.isSome = true

/-- No entry has a character across byte 8 where no https target is found before it, or across byte 7 where no mailto
    target is. -/
def NoneCut (header : String) : Prop :=
  ∀ before uri after, headerEntries header = before ++ uri :: after →
    ((∀ earlier ∈ before, isHttps earlier = false) → Splits 8 uri) ∧
      ((∀ earlier ∈ before, isMailto earlier = false) → Splits 7 uri)

theorem find_eq_none_iff {seen : List (List Char)} {test : List Char → Bool} :
    seen.find? test = none ↔ ∀ uri ∈ seen, test uri = false := by
  rw [List.find?_eq_none]
  exact forall_congr' fun uri => forall_congr' fun _ => Bool.not_eq_true _ ▸ Iff.rfl

theorem allSliced_iff (seen entries : List (List Char)) : AllSliced seen entries ↔
    ∀ before uri after, entries = before ++ uri :: after → Sliced (seen ++ before) uri := by
  induction entries generalizing seen with
  | nil =>
    refine ⟨fun _ before uri after hsplit => ?_, fun _ => trivial⟩
    cases before <;> cases hsplit
  | cons head rest ih =>
    rw [AllSliced, ih]
    constructor
    · rintro ⟨hhead, hrest⟩ before uri after hsplit
      cases before with
      | nil =>
        cases hsplit
        rw [List.append_nil]
        exact hhead
      | cons first before =>
        cases hsplit
        have hsliced := hrest before uri after rfl
        rw [List.append_assoc, List.singleton_append] at hsliced
        exact hsliced
    · intro hall
      refine ⟨?_, fun before uri after hsplit => ?_⟩
      · have hsliced := hall [] head rest rfl
        rw [List.append_nil] at hsliced
        exact hsliced
      · rw [List.append_assoc, List.singleton_append]
        exact hall (head :: before) uri after (by rw [hsplit]; rfl)

theorem noneCut_iff (header : String) : NoneCut header ↔ AllSliced [] (headerEntries header) := by
  rw [allSliced_iff]
  simp only [NoneCut, Sliced, List.nil_append, find_eq_none_iff]

theorem sound_of_targets {header : String} {post_header : Option String} {targets : Targets}
    (htargets : targets = targetsOf (headerEntries header)) :
    SoundTargets header post_header (if targets.https.isNone && targets.mailto.isNone then none
      else some {
        https := targets.https.map String.ofList
        mailto := targets.mailto.map String.ofList
        one_click := targets.https.isSome && isOneClick post_header }) := by
  have hhttps : targets.https = (headerEntries header).find? isHttps := by rw [htargets]; rfl
  have hmailto : targets.mailto = (headerEntries header).find? isMailto := by rw [htargets]; rfl
  have hsafe : ∀ uri, targets.https = some uri → SafeTarget uri := by
    intro uri hfound
    rw [hhttps] at hfound
    exact safe_of_isHttps (List.find?_some hfound)
  by_cases hnone : (targets.https.isNone && targets.mailto.isNone) = true
  · rw [if_pos hnone]
    obtain ⟨hno, hnomail⟩ := Bool.and_eq_true_iff.1 hnone
    rw [Option.isNone_iff_eq_none, hhttps] at hno
    rw [Option.isNone_iff_eq_none, hmailto] at hnomail
    refine ⟨by rw [hno]; rfl, by rw [hnomail]; rfl, ?_, ?_, ?_⟩
    · exact ⟨fun _ => ⟨find_eq_none_iff.1 hno, find_eq_none_iff.1 hnomail⟩, fun _ => rfl⟩
    · exact fun _ hfound => nomatch hfound
    · exact fun _ hfound => nomatch hfound
  · rw [if_neg hnone]
    refine ⟨by rw [← hhttps]; rfl, by rw [← hmailto]; rfl, ?_, ?_, ?_⟩
    · refine ⟨?_, fun hno => absurd ?_ hnone⟩
      · exact fun hno => nomatch hno
      rw [hhttps, hmailto, find_eq_none_iff.2 hno.1, find_eq_none_iff.2 hno.2]
      rfl
    · intro target hfound
      obtain ⟨uri, huri, rfl⟩ := Option.map_eq_some_iff.1 hfound
      rw [String.toList_ofList]
      exact hsafe uri huri
    · rintro found hfound hclick
      cases hfound
      obtain ⟨hsome, -⟩ := Bool.and_eq_true_iff.1 hclick
      rw [Option.isSome_map]
      exact hsome

theorem parse_spec (header : String) (post_header : Option String) :
    (NoneCut header ∧ ∃ parsed, parse_list_unsubscribe header post_header = .ok parsed ∧
      SoundTargets header post_header parsed) ∨
      ¬ NoneCut header ∧ parse_list_unsubscribe header post_header = .error .char_boundary := by
  rw [noneCut_iff]
  unfold parse_list_unsubscribe
  obtain ⟨hsliced, hscan⟩ | ⟨hsliced, hscan⟩ := scan_spec [] header.toList
  · have hscan : scan ⟨none, none⟩ header.toList = .ok (targetsOf (headerEntries header)) := hscan
    refine .inl ⟨hsliced, _, ?_, sound_of_targets rfl⟩
    rw [hscan, except_bind_ok]
  · have hscan : scan ⟨none, none⟩ header.toList = .error .char_boundary := hscan
    refine .inr ⟨hsliced, ?_⟩
    rw [hscan]
    rfl

/-- The scheme of a target in lower case, as it stands. -/
def LowerScheme (target : String) : Prop := target.toList.take 8 = "https://".toList

/-- The parser returns, with sound targets, exactly when no check cuts a character; its https target starts with the
    lower-case scheme exactly when the first valid one of the header does. -/
theorem unsubscribe_parses_iff (header : String) (post_header : Option String) :
    ((∃ parsed, parse_list_unsubscribe header post_header = .ok parsed ∧ SoundTargets header post_header parsed) ↔
      NoneCut header) ∧
    ((∃ parsed, parse_list_unsubscribe header post_header = .ok parsed ∧ SoundTargets header post_header parsed ∧
        ∀ target, parsed.bind ListUnsubscribe.https = some target → LowerScheme target) ↔
      NoneCut header ∧ ∀ uri, (headerEntries header).find? isHttps = some uri → uri.take 8 = "https://".toList) := by
  obtain ⟨hnone, parsed, hparse, hsound⟩ | ⟨hcut, hpanic⟩ := parse_spec header post_header
  · refine ⟨⟨fun _ => hnone, fun _ => ⟨parsed, hparse, hsound⟩⟩, ⟨?_, ?_⟩⟩
    · rintro ⟨other, hother, hsound, hlower⟩
      refine ⟨hnone, fun uri huri => ?_⟩
      have htarget := hlower (String.ofList uri) (by rw [hsound.https, huri]; rfl)
      rw [LowerScheme, String.toList_ofList] at htarget
      exact htarget
    · rintro ⟨-, hlower⟩
      refine ⟨parsed, hparse, hsound, fun target htarget => ?_⟩
      rw [hsound.https] at htarget
      obtain ⟨uri, huri, rfl⟩ := Option.map_eq_some_iff.1 htarget
      rw [LowerScheme, String.toList_ofList]
      exact hlower uri huri
  · rw [hpanic]
    refine ⟨⟨?_, fun hnone => absurd hnone hcut⟩, ⟨?_, fun hnone => absurd hnone.1 hcut⟩⟩
    · rintro ⟨parsed, hparse, -⟩
      cases hparse
    · rintro ⟨parsed, hparse, -⟩
      cases hparse

theorem cut_character_panics : parse_list_unsubscribe "<https:/é/u>" none = .error .char_boundary := by
  obtain ⟨hnone, -⟩ | ⟨-, hpanic⟩ := parse_spec "<https:/é/u>" none
  · have hsplits := (hnone [] "https:/é/u".toList [] (by decide)).1 fun _ hmem => absurd hmem List.not_mem_nil
    exact absurd hsplits (by decide)
  · exact hpanic

end Parse

end posthaste.model
