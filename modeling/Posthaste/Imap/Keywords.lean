import Posthaste.Imap.Projected
import Posthaste.Library.Slice

open posthaste.model

namespace posthaste.imap

/-- Well-known mail keywords. -/
inductive SystemKeyword where
  | Seen
  | Draft
  | Flagged
  | Answered
  | Forwarded
  deriving DecidableEq

namespace SystemKeyword

def as_str : SystemKeyword → String
  | Seen => "$seen"
  | Draft => "$draft"
  | Flagged => "$flagged"
  | Answered => "$answered"
  | Forwarded => "$forwarded"

def parse (value : String) : Option SystemKeyword :=
  if value = "$seen" then some Seen
  else if value = "$draft" then some Draft
  else if value = "$flagged" then some Flagged
  else if value = "$answered" then some Answered
  else if value = "$forwarded" then some Forwarded
  else none

end SystemKeyword

def IMAP_FLAG_FORWARDED : String := "\\Forwarded"

/-- What the adapter uses of the protocol crate's flags: the four it names, how they are parsed and printed. -/
structure FlagSyntax (Flag : Type) where
  Seen : Flag
  Flagged : Flag
  Answered : Flag
  Draft : Flag
  try_from : String → Option Flag
  to_string : Flag → String

/-- What is documented of them: a flag is printed with the name it was parsed from, up to case; the system flags are
    parsed from their names in any case, and from nothing else; the extension flag is valid. -/
structure FlagSyntax.Documented {Flag : Type} (types : FlagSyntax Flag) : Prop where
  printed : ∀ text flag, types.try_from text = some flag → eq_ignore_ascii_case (types.to_string flag) text = true
  seen : ∀ text, types.try_from text = some types.Seen ↔ eq_ignore_ascii_case text "\\Seen" = true
  flagged : ∀ text, types.try_from text = some types.Flagged ↔ eq_ignore_ascii_case text "\\Flagged" = true
  answered : ∀ text, types.try_from text = some types.Answered ↔ eq_ignore_ascii_case text "\\Answered" = true
  draft : ∀ text, types.try_from text = some types.Draft ↔ eq_ignore_ascii_case text "\\Draft" = true
  forwarded : (types.try_from IMAP_FLAG_FORWARDED).isSome

section Mapping

variable {Flag : Type} [DecidableEq Flag] (types : FlagSyntax Flag)

/-- A flag of a FETCH response. -/
inductive FlagFetch (Flag : Type) where
  | Flag (flag : Flag)
  | Recent
  deriving DecidableEq

def imap_flag_fetch_name : FlagFetch Flag → String
  | .Flag flag => types.to_string flag
  | .Recent => "\\Recent"

def imap_system_flag_keyword (flag : String) : Option SystemKeyword :=
  if eq_ignore_ascii_case flag IMAP_FLAG_FORWARDED then some .Forwarded
  else match types.try_from flag with
    | none => none
    | some parsed =>
      if parsed = types.Seen then some .Seen
      else if parsed = types.Flagged then some .Flagged
      else if parsed = types.Answered then some .Answered
      else if parsed = types.Draft then some .Draft
      else none

/-- The keyword one flag stands for, if it stands for one. -/
def keywordOfFlag (flag : String) : Option String :=
  match imap_system_flag_keyword types flag with
  | some keyword => some keyword.as_str
  | none => if '\\' ∈ flag.toList.head? then none else some flag

/-- The keywords of a message, sorted and without duplicates. -/
def imap_flag_keywords (flags : List String) : List String :=
  (BTreeSet.from_iter (flags.filterMap (keywordOfFlag types))).toList

/-- `none` where the name of the extension flag is not expected to be invalid. -/
def imap_flag_for_system_keyword : SystemKeyword → Option Flag
  | .Seen => some types.Seen
  | .Flagged => some types.Flagged
  | .Answered => some types.Answered
  | .Draft => some types.Draft
  | .Forwarded => types.try_from IMAP_FLAG_FORWARDED

/-- `none` for a keyword that is no flag. -/
def imap_flag_for_keyword (keyword : String) : Option Flag :=
  match SystemKeyword.parse (str.to_ascii_lowercase keyword) with
  | some system_keyword => imap_flag_for_system_keyword types system_keyword
  | none => types.try_from keyword

def imap_flags_for_keywords (keywords : List String) : Option (List Flag) :=
  keywords.mapM (imap_flag_for_keyword types)

end Mapping

section Server

variable {Flag : Type} [DecidableEq Flag] (types : FlagSyntax Flag)

/-- The flags a server reports on a message: each parses to itself, and no two have one name. -/
structure ReportedFlags where
  flags : List (FlagFetch Flag)
  parsed : ∀ flag, .Flag flag ∈ flags → types.try_from (types.to_string flag) = some flag
  distinct : ∀ first ∈ flags, ∀ second ∈ flags,
    eq_ignore_ascii_case (imap_flag_fetch_name types first) (imap_flag_fetch_name types second) = true → first = second

namespace ReportedFlags

variable {types} (reported : ReportedFlags types)

/-- What the header fetch hands on. -/
def names : List String := reported.flags.map (imap_flag_fetch_name types)

/-- `STORE -FLAGS`: the server drops the flags of these names. -/
def store_remove (removed : List Flag) : ReportedFlags types where
  flags := reported.flags.filter fun flag =>
    removed.all fun gone => !eq_ignore_ascii_case (imap_flag_fetch_name types flag) (types.to_string gone)
  parsed flag hflag := reported.parsed flag (List.mem_filter.mp hflag).1
  distinct first hfirst second hsecond :=
    reported.distinct first (List.mem_filter.mp hfirst).1 second (List.mem_filter.mp hsecond).1

/-- Removing a keyword takes just that keyword from the message. -/
def Inverse : Prop :=
  ∀ keyword ∈ imap_flag_keywords types reported.names, ∃ removed, imap_flags_for_keywords types [keyword] = some removed ∧
    imap_flag_keywords types (reported.store_remove removed).names =
      (imap_flag_keywords types reported.names).filter (· ≠ keyword)

/-- No custom flag is named like a system keyword, in any case. -/
def Plain : Prop :=
  ∀ name ∈ reported.names, name.toList.head? ≠ some '\\' →
    SystemKeyword.parse (str.to_ascii_lowercase name) = none

end ReportedFlags

end Server

section Names

theorem eq_backslash_of_toUpper {c : Char} (hupper : c.toUpper = '\\') : c = '\\' := by
  unfold Char.toUpper at hupper
  split_ifs at hupper with hletter
  · have hlow : 97 ≤ c.val.toNat := hletter.1
    have hhigh : c.val.toNat ≤ 122 := hletter.2
    have hsum := congrArg (fun d => d.val.toNat) hupper
    simp only [UInt32.toNat_add] at hsum
    have hshift : ('A'.val - 'a'.val).toNat = 4294967264 := by decide
    have hcode : '\\'.val.toNat = 92 := by decide
    omega
  · exact hupper

theorem same_iff {first second : String} : eq_ignore_ascii_case first second = true ↔
    first.toList.map Char.toUpper = second.toList.map Char.toUpper := by
  rw [eq_ignore_ascii_case, decide_eq_true_iff, to_ascii_uppercase, to_ascii_uppercase, ← String.toList_inj,
    String.toList_map, String.toList_map]

/-- Only a name with a backslash is the name of a system flag. -/
theorem head_of_same {name other : String} (hsame : eq_ignore_ascii_case name other = true)
    (hother : other.toList.head? = some '\\') : name.toList.head? = some '\\' := by
  have hhead := congrArg List.head? (same_iff.mp hsame)
  rw [List.head?_map, List.head?_map, hother] at hhead
  obtain ⟨c, hc, hcupper⟩ := Option.map_eq_some_iff.mp hhead
  rw [hc, eq_backslash_of_toUpper hcupper]

theorem same_comm {first second : String} :
    eq_ignore_ascii_case first second = true ↔ eq_ignore_ascii_case second first = true := by
  rw [eq_ignore_ascii_case, eq_ignore_ascii_case, decide_eq_true_iff, decide_eq_true_iff]
  exact eq_comm

theorem same_trans {first second third : String} (hfirst : eq_ignore_ascii_case first second = true)
    (hsecond : eq_ignore_ascii_case second third = true) : eq_ignore_ascii_case first third = true :=
  decide_eq_true ((of_decide_eq_true hfirst).trans (of_decide_eq_true hsecond))

/-- The flag a system keyword stands for. -/
def SystemKeyword.flagName : SystemKeyword → String
  | .Seen => "\\Seen"
  | .Draft => "\\Draft"
  | .Flagged => "\\Flagged"
  | .Answered => "\\Answered"
  | .Forwarded => IMAP_FLAG_FORWARDED

theorem eq_of_same_flagName {first second : SystemKeyword}
    (hsame : eq_ignore_ascii_case first.flagName second.flagName = true) : first = second := by
  rw [same_iff] at hsame
  revert hsame
  cases first <;> cases second <;> decide

theorem head_flagName (keyword : SystemKeyword) : keyword.flagName.toList.head? = some '\\' := by
  cases keyword <;> rfl

end Names

section Derivation

variable {Flag : Type} [DecidableEq Flag] {types : FlagSyntax Flag} {name : String} {keyword : SystemKeyword}

theorem same_of_system_flag_keyword (hdocumented : types.Documented)
    (hread : imap_system_flag_keyword types name = some keyword) :
    eq_ignore_ascii_case name keyword.flagName = true := by
  unfold imap_system_flag_keyword at hread
  by_cases hforwarded : eq_ignore_ascii_case name IMAP_FLAG_FORWARDED = true
  · rw [if_pos hforwarded] at hread
    obtain rfl := Option.some.inj hread
    exact hforwarded
  · rw [if_neg hforwarded] at hread
    cases hparsed : types.try_from name with
    | none =>
      rw [hparsed] at hread
      cases hread
    | some parsed =>
      rw [hparsed] at hread
      dsimp only at hread
      split_ifs at hread with hseen hflagged hanswered hdraft
      all_goals obtain rfl := Option.some.inj hread
      · exact (hdocumented.seen name).mp (hseen ▸ hparsed)
      · exact (hdocumented.flagged name).mp (hflagged ▸ hparsed)
      · exact (hdocumented.answered name).mp (hanswered ▸ hparsed)
      · exact (hdocumented.draft name).mp (hdraft ▸ hparsed)

theorem system_flag_keyword_isSome (hdocumented : types.Documented)
    (hsame : eq_ignore_ascii_case name keyword.flagName = true) : (imap_system_flag_keyword types name).isSome := by
  have hnamed : ∀ flag, types.try_from name = some flag →
      flag = types.Seen ∨ flag = types.Flagged ∨ flag = types.Answered ∨ flag = types.Draft →
        (imap_system_flag_keyword types name).isSome := by
    intro flag hparsed hflag
    unfold imap_system_flag_keyword
    rw [hparsed]
    dsimp only
    split_ifs with hforwarded hseen hflagged hanswered hdraft
    · rfl
    · rfl
    · rfl
    · rfl
    · rfl
    · exact absurd hflag (by simp only [hseen, hflagged, hanswered, hdraft, or_self, not_false_eq_true])
  cases keyword with
  | Seen => exact hnamed _ ((hdocumented.seen name).mpr hsame) (.inl rfl)
  | Flagged => exact hnamed _ ((hdocumented.flagged name).mpr hsame) (.inr (.inl rfl))
  | Answered => exact hnamed _ ((hdocumented.answered name).mpr hsame) (.inr (.inr (.inl rfl)))
  | Draft => exact hnamed _ ((hdocumented.draft name).mpr hsame) (.inr (.inr (.inr rfl)))
  | Forwarded =>
    have hforwarded : eq_ignore_ascii_case name IMAP_FLAG_FORWARDED = true := hsame
    unfold imap_system_flag_keyword
    rw [if_pos hforwarded]
    rfl

/-- A flag is read as a system keyword exactly when it has that keyword's name. -/
theorem imap_system_flag_keyword_iff (hdocumented : types.Documented) :
    imap_system_flag_keyword types name = some keyword ↔ eq_ignore_ascii_case name keyword.flagName = true := by
  constructor
  · exact same_of_system_flag_keyword hdocumented
  · intro hsame
    obtain ⟨read, hread⟩ := Option.isSome_iff_exists.mp (system_flag_keyword_isSome hdocumented hsame)
    have hother := same_of_system_flag_keyword hdocumented hread
    rw [hread, eq_of_same_flagName (same_trans (same_comm.mp hsame) hother)]

omit [DecidableEq Flag] in
/-- The flag stored for a system keyword has its name. -/
theorem flag_for_system_keyword (hdocumented : types.Documented) (keyword : SystemKeyword) :
    ∃ flag, imap_flag_for_system_keyword types keyword = some flag ∧
      eq_ignore_ascii_case (types.to_string flag) keyword.flagName = true := by
  have hnamed : ∀ text, eq_ignore_ascii_case text text = true := fun text => decide_eq_true rfl
  cases keyword with
  | Seen => exact ⟨types.Seen, rfl, hdocumented.printed _ _ ((hdocumented.seen _).mpr (hnamed _))⟩
  | Flagged => exact ⟨types.Flagged, rfl, hdocumented.printed _ _ ((hdocumented.flagged _).mpr (hnamed _))⟩
  | Answered => exact ⟨types.Answered, rfl, hdocumented.printed _ _ ((hdocumented.answered _).mpr (hnamed _))⟩
  | Draft => exact ⟨types.Draft, rfl, hdocumented.printed _ _ ((hdocumented.draft _).mpr (hnamed _))⟩
  | Forwarded =>
    obtain ⟨flag, hflag⟩ := Option.isSome_iff_exists.mp hdocumented.forwarded
    exact ⟨flag, hflag, hdocumented.printed _ _ hflag⟩

/-- A custom flag is its own keyword. -/
theorem keywordOfFlag_custom (hdocumented : types.Documented) (hcustom : name.toList.head? ≠ some '\\') :
    keywordOfFlag types name = some name := by
  unfold keywordOfFlag
  cases hread : imap_system_flag_keyword types name with
  | none => exact if_neg fun hmem => hcustom (Option.mem_def.mp hmem)
  | some keyword =>
    have hsame := same_of_system_flag_keyword hdocumented hread
    exact absurd (head_of_same hsame (head_flagName keyword)) hcustom

/-- A flag stands for a keyword as a system flag, or as a custom one of that name. -/
theorem keywordOfFlag_eq_some_iff (hdocumented : types.Documented) {text : String} :
    keywordOfFlag types name = some text ↔
      (∃ keyword : SystemKeyword, text = keyword.as_str ∧ eq_ignore_ascii_case name keyword.flagName = true) ∨
        text = name ∧ name.toList.head? ≠ some '\\' := by
  constructor
  · intro hread
    by_cases hcustom : name.toList.head? ≠ some '\\'
    · rw [keywordOfFlag_custom hdocumented hcustom, Option.some.injEq] at hread
      exact .inr ⟨hread.symm, hcustom⟩
    · unfold keywordOfFlag at hread
      cases hsystem : imap_system_flag_keyword types name with
      | none =>
        rw [hsystem] at hread
        dsimp only at hread
        rw [if_pos (Option.mem_def.mpr (not_not.mp hcustom))] at hread
        cases hread
      | some keyword =>
        rw [hsystem] at hread
        exact .inl ⟨keyword, (Option.some.inj hread).symm, same_of_system_flag_keyword hdocumented hsystem⟩
  · rintro (⟨keyword, rfl, hsame⟩ | ⟨rfl, hcustom⟩)
    · unfold keywordOfFlag
      rw [(imap_system_flag_keyword_iff hdocumented).mpr hsame]
    · exact keywordOfFlag_custom hdocumented hcustom

end Derivation

section Removal

variable {Flag : Type} [DecidableEq Flag] {types : FlagSyntax Flag} {reported : ReportedFlags types} {keyword : String}

theorem mem_imap_flag_keywords {names : List String} :
    keyword ∈ imap_flag_keywords types names ↔ ∃ name ∈ names, keywordOfFlag types name = some keyword := by
  rw [imap_flag_keywords, mem_toList_from_iter, List.mem_filterMap]

omit [DecidableEq Flag] in
/-- The server drops what has the name of a removed flag. -/
theorem mem_names_store_remove {removed : List Flag} {name : String} :
    name ∈ (reported.store_remove removed).names ↔ name ∈ reported.names ∧
      ∀ gone ∈ removed, ¬ eq_ignore_ascii_case name (types.to_string gone) = true := by
  have hkept : ∀ flag : FlagFetch Flag, (removed.all fun gone =>
      !eq_ignore_ascii_case (imap_flag_fetch_name types flag) (types.to_string gone)) = true ↔
        ∀ gone ∈ removed, ¬ eq_ignore_ascii_case (imap_flag_fetch_name types flag) (types.to_string gone) = true := by
    intro flag
    simp only [List.all_eq_true, Bool.not_eq_true', Bool.not_eq_true]
  unfold ReportedFlags.names ReportedFlags.store_remove
  rw [List.mem_map, List.mem_map]
  constructor
  · rintro ⟨flag, hflag, rfl⟩
    obtain ⟨hflag, hall⟩ := List.mem_filter.mp hflag
    exact ⟨⟨flag, hflag, rfl⟩, (hkept flag).mp hall⟩
  · rintro ⟨⟨flag, hflag, rfl⟩, hall⟩
    exact ⟨flag, List.mem_filter.mpr ⟨hflag, (hkept flag).mpr hall⟩, rfl⟩

/-- A removal takes one keyword if it drops just the flags that stand for it. -/
theorem keywords_store_remove {flag : Flag}
    (hjust : ∀ name ∈ reported.names, ∀ text, keywordOfFlag types name = some text →
      (eq_ignore_ascii_case name (types.to_string flag) = true ↔ text = keyword)) :
    imap_flag_keywords types (reported.store_remove [flag]).names =
      (imap_flag_keywords types reported.names).filter (· ≠ keyword) := by
  refine (BTreeSet.sorted _).eq_of_mem_iff ?_ fun text => ?_
  · exact List.sortedLT_iff_pairwise.mpr ((List.sortedLT_iff_pairwise.mp (BTreeSet.sorted _)).filter _)
  · rw [List.mem_filter, decide_eq_true_iff, mem_toList_from_iter, List.mem_filterMap, mem_imap_flag_keywords]
    constructor
    · rintro ⟨name, hname, hread⟩
      obtain ⟨hname, hkept⟩ := mem_names_store_remove.mp hname
      refine ⟨⟨name, hname, hread⟩, fun hsame => ?_⟩
      exact hkept flag List.mem_cons_self ((hjust name hname text hread).mpr hsame)
    · rintro ⟨⟨name, hname, hread⟩, hother⟩
      refine ⟨name, mem_names_store_remove.mpr ⟨hname, fun gone hgone hsame => ?_⟩, hread⟩
      rw [List.mem_singleton.mp hgone] at hsame
      exact hother ((hjust name hname text hread).mp hsame)

theorem parse_as_str (keyword : SystemKeyword) :
    SystemKeyword.parse (str.to_ascii_lowercase keyword.as_str) = some keyword := by
  cases keyword <;> decide

omit [DecidableEq Flag] in
/-- What is removed for a keyword in any case that is a system keyword in lower case. -/
theorem flags_for_system {system : SystemKeyword} (hdocumented : types.Documented)
    (hparse : SystemKeyword.parse (str.to_ascii_lowercase keyword) = some system) :
    ∃ flag, imap_flags_for_keywords types [keyword] = some [flag] ∧
      eq_ignore_ascii_case (types.to_string flag) system.flagName = true := by
  obtain ⟨flag, hflag, hprinted⟩ := flag_for_system_keyword hdocumented system
  refine ⟨flag, ?_, hprinted⟩
  have hone : imap_flag_for_keyword types keyword = some flag := by
    unfold imap_flag_for_keyword
    rw [hparse]
    exact hflag
  rw [imap_flags_for_keywords, List.mapM_cons, hone]
  rfl

omit [DecidableEq Flag] in
/-- A reported custom flag is parsed back from its keyword. -/
theorem flags_for_custom (hname : keyword ∈ reported.names) (hcustom : keyword.toList.head? ≠ some '\\')
    (hparse : SystemKeyword.parse (str.to_ascii_lowercase keyword) = none) :
    ∃ flag, imap_flags_for_keywords types [keyword] = some [flag] ∧ types.to_string flag = keyword := by
  obtain ⟨fetched, hfetched, rfl⟩ := List.mem_map.mp hname
  cases fetched with
  | Recent => exact absurd (by decide : "\\Recent".toList.head? = some '\\') hcustom
  | Flag flag =>
    have hname : imap_flag_fetch_name types (.Flag flag) = types.to_string flag := rfl
    rw [hname] at hparse ⊢
    refine ⟨flag, ?_, rfl⟩
    have hone : imap_flag_for_keyword types (types.to_string flag) = some flag := by
      unfold imap_flag_for_keyword
      rw [hparse]
      exact reported.parsed flag hfetched
    rw [imap_flags_for_keywords, List.mapM_cons, hone]
    rfl

theorem inverse_of_plain (hdocumented : types.Documented) (hplain : reported.Plain) : reported.Inverse := by
  intro keyword hkeyword
  obtain ⟨name, hname, hread⟩ := mem_imap_flag_keywords.mp hkeyword
  rcases (keywordOfFlag_eq_some_iff hdocumented).mp hread with ⟨system, rfl, hsame⟩ | ⟨rfl, hcustom⟩
  · obtain ⟨flag, hflags, hprinted⟩ := flags_for_system hdocumented (parse_as_str system)
    refine ⟨[flag], hflags, keywords_store_remove fun other hother text hotherRead => ?_⟩
    rcases (keywordOfFlag_eq_some_iff hdocumented).mp hotherRead with ⟨second, rfl, hsecond⟩ | ⟨rfl, hotherCustom⟩
    · constructor
      · intro hgone
        rw [eq_of_same_flagName (same_trans (same_comm.mp hsecond) (same_trans hgone hprinted))]
      · intro hkeywords
        have hsystem : second = system := by
          have hparsed := parse_as_str second
          rw [hkeywords, parse_as_str, Option.some.injEq] at hparsed
          exact hparsed.symm
        rw [hsystem] at hsecond
        exact same_trans hsecond (same_comm.mp hprinted)
    · constructor
      · intro hgone
        exact absurd (head_of_same (same_trans hgone hprinted) (head_flagName system)) hotherCustom
      · rintro rfl
        have hnone := hplain _ hother hotherCustom
        rw [parse_as_str] at hnone
        cases hnone
  · have hparse := hplain keyword hname hcustom
    obtain ⟨flag, hflags, hprinted⟩ := flags_for_custom hname hcustom hparse
    refine ⟨[flag], hflags, keywords_store_remove fun other hother text hotherRead => ?_⟩
    rw [hprinted]
    have hgone : eq_ignore_ascii_case other keyword = true → other = keyword := by
      intro hgone
      obtain ⟨first, hfirst, rfl⟩ := List.mem_map.mp hother
      obtain ⟨second, hsecond, rfl⟩ := List.mem_map.mp hname
      rw [reported.distinct first hfirst second hsecond hgone]
    rcases (keywordOfFlag_eq_some_iff hdocumented).mp hotherRead with ⟨second, rfl, hsecond⟩ | ⟨rfl, hotherCustom⟩
    · constructor
      · intro hsame
        rw [hgone hsame] at hsecond
        exact absurd (head_of_same hsecond (head_flagName second)) hcustom
      · intro hkeywords
        rw [← hkeywords, parse_as_str] at hparse
        cases hparse
    · constructor
      · exact hgone
      · rintro rfl
        exact decide_eq_true rfl

/-- Exactly when no custom flag is named like a system keyword does removing a keyword take it, and nothing else. -/
theorem keyword_removal_inverse_iff (hdocumented : types.Documented) (reported : ReportedFlags types) :
    reported.Inverse ↔ reported.Plain := by
  refine ⟨fun hinverse name hname hcustom => ?_, inverse_of_plain hdocumented⟩
  cases hparse : SystemKeyword.parse (str.to_ascii_lowercase name) with
  | none => rfl
  | some system =>
    exfalso
    have hread := keywordOfFlag_custom hdocumented hcustom
    obtain ⟨removed, hremoved, hkeywords⟩ := hinverse name (mem_imap_flag_keywords.mpr ⟨name, hname, hread⟩)
    obtain ⟨flag, hflags, hprinted⟩ := flags_for_system hdocumented hparse
    rw [hflags, Option.some.injEq] at hremoved
    subst hremoved
    have hkept : name ∈ (reported.store_remove [flag]).names := by
      refine mem_names_store_remove.mpr ⟨hname, fun gone hgone hsame => ?_⟩
      rw [List.mem_singleton.mp hgone] at hsame
      exact hcustom (head_of_same (same_trans hsame hprinted) (head_flagName system))
    have hmem : name ∈ imap_flag_keywords types (reported.store_remove [flag]).names :=
      mem_imap_flag_keywords.mpr ⟨name, hkept, hread⟩
    rw [hkeywords, List.mem_filter, decide_eq_true_iff] at hmem
    exact hmem.2 rfl

/-- A syntax that knows the four system flags in any case and takes every other name as it is. -/
def takenAsNamed : FlagSyntax String where
  Seen := "\\Seen"
  Flagged := "\\Flagged"
  Answered := "\\Answered"
  Draft := "\\Draft"
  try_from text :=
    some ((["\\Seen", "\\Flagged", "\\Answered", "\\Draft"].find? (eq_ignore_ascii_case text)).getD text)
  to_string flag := flag

theorem documented_takenAsNamed : takenAsNamed.Documented := by
  have hnamed : ∀ text name : String, name ∈ ["\\Seen", "\\Flagged", "\\Answered", "\\Draft"] →
      (takenAsNamed.try_from text = some name ↔ eq_ignore_ascii_case text name = true) := by
    intro text name hname
    have hdistinct : ∀ first ∈ ["\\Seen", "\\Flagged", "\\Answered", "\\Draft"],
        ∀ second ∈ ["\\Seen", "\\Flagged", "\\Answered", "\\Draft"],
          first.toList.map Char.toUpper = second.toList.map Char.toUpper → first = second := by decide
    rw [takenAsNamed, Option.some.injEq]
    cases hfind : ["\\Seen", "\\Flagged", "\\Answered", "\\Draft"].find? (eq_ignore_ascii_case text) with
    | none =>
      rw [Option.getD_none]
      constructor
      · rintro rfl
        exact decide_eq_true rfl
      · intro hsame
        exact absurd hsame (List.find?_eq_none.mp hfind name hname)
    | some found =>
      rw [Option.getD_some]
      have hfound := List.find?_some hfind
      constructor
      · rintro rfl
        exact hfound
      · intro hsame
        exact hdistinct found (List.mem_of_find?_eq_some hfind) name hname
          (same_iff.mp (same_trans (same_comm.mp hfound) hsame))
  refine ⟨fun text flag hparsed => ?_, fun text => hnamed text _ (by decide), fun text => hnamed text _ (by decide),
    fun text => hnamed text _ (by decide), fun text => hnamed text _ (by decide), rfl⟩
  rw [takenAsNamed, Option.some.injEq] at hparsed
  subst hparsed
  cases hfind : ["\\Seen", "\\Flagged", "\\Answered", "\\Draft"].find? (eq_ignore_ascii_case text) with
  | none => exact decide_eq_true rfl
  | some found => exact same_comm.mp (List.find?_some hfind)

/-- What a server reports of flags by these names. -/
def reportedAs (names : List String)
    (hparsed : ∀ name ∈ names, takenAsNamed.try_from name = some name)
    (hdistinct : ∀ first ∈ names, ∀ second ∈ names, eq_ignore_ascii_case first second = true → first = second) :
    ReportedFlags takenAsNamed where
  flags := names.map .Flag
  parsed flag hflag := by
    obtain ⟨name, hname, hsame⟩ := List.mem_map.mp hflag
    rw [← FlagFetch.Flag.inj hsame]
    exact hparsed name hname
  distinct first hfirst second hsecond hsame := by
    obtain ⟨name, hname, rfl⟩ := List.mem_map.mp hfirst
    obtain ⟨other, hother, rfl⟩ := List.mem_map.mp hsecond
    exact congrArg _ (hdistinct name hname other hother hsame)

theorem keyword_removal_inverse_iff_three :
    (reportedAs ["\\Seen", "\\Forwarded", "project-x"] (by decide +kernel) (by decide +kernel)).Inverse := by
  refine (keyword_removal_inverse_iff documented_takenAsNamed _).mpr ?_
  show ∀ name ∈ ["\\Seen", "\\Forwarded", "project-x"], _ → _
  decide +kernel

/-- A custom flag `$Forwarded` is read as a keyword that the removal stores as another flag. -/
theorem forwarded_keyword_is_kept :
    ¬ ∀ (Flag : Type) (_ : DecidableEq Flag) (types : FlagSyntax Flag), types.Documented →
      ∀ reported : ReportedFlags types, reported.Inverse := by
  intro hclaim
  have hinverse := hclaim String inferInstance takenAsNamed documented_takenAsNamed
    (reportedAs ["$Forwarded"] (by decide +kernel) (by decide +kernel))
  obtain ⟨removed, hremoved, hkeywords⟩ := hinverse "$Forwarded" (by decide +kernel)
  have hflags : imap_flags_for_keywords takenAsNamed ["$Forwarded"] = some ["\\Forwarded"] := by decide +kernel
  rw [hflags, Option.some.injEq] at hremoved
  subst hremoved
  revert hkeywords
  decide +kernel

end Removal

end posthaste.imap
