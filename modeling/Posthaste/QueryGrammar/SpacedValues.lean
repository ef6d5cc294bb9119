import Posthaste.QueryGrammar.Parser

namespace posthaste.query_grammar

section Words

variable {chars word rest : List Char} {c : Char}

theorem scanPrefix_takeWhile (chars : List Char) :
    (scanPrefix chars).map Prod.fst = (scanPrefix (chars.takeWhile notBlank)).map Prod.fst := by
  induction chars with
  | nil => rfl
  | cons c rest ih =>
    by_cases hblank : str.is_whitespace c = true
    · have hstop : (c :: rest).takeWhile notBlank = [] := List.takeWhile_cons_of_neg (by simp [notBlank, hblank])
      have hnone : scanPrefix (c :: rest) = none := by rw [scanPrefix, if_pos hblank]
      rw [hstop, hnone]
      rfl
    · have hgo : (c :: rest).takeWhile notBlank = c :: rest.takeWhile notBlank :=
        List.takeWhile_cons_of_pos (by simp [notBlank, hblank])
      rw [hgo, scanPrefix, scanPrefix, if_neg hblank, if_neg hblank]
      split_ifs
      · rfl
      · have hmap := congrArg (Option.map (c :: ·)) ih
        simpa only [Option.map_map, Function.comp_def] using hmap

theorem skipMinus_takeWhile (chars : List Char) :
    (skipMinus chars).takeWhile notBlank = skipMinus (chars.takeWhile notBlank) := by
  cases chars with
  | nil => rfl
  | cons c rest =>
    by_cases hminus : c = '-'
    · subst hminus
      rfl
    · have hsame : skipMinus (c :: rest) = c :: rest := by
        rw [skipMinus, List.head?_cons, if_neg fun hhead => hminus (Option.some.inj hhead)]
      rw [hsame]
      by_cases hblank : notBlank c = true
      · rw [List.takeWhile_cons_of_pos hblank, skipMinus, List.head?_cons,
          if_neg fun hhead => hminus (Option.some.inj hhead)]
      · rw [List.takeWhile_cons_of_neg hblank]
        rfl

/-- The word has one of the prefixes, with or without a minus. -/
def HasPrefix (names : List String) (word : List Char) : Prop :=
  ∃ name ∈ (scanPrefix (skipMinus word)).map Prod.fst, str.to_ascii_lowercase (String.ofList name) ∈ names

/-- Only the first word counts. -/
theorem hasPrefix_takeWhile {names : List String} (chars : List Char) :
    HasPrefix names (chars.takeWhile notBlank) ↔ HasPrefix names chars := by
  rw [HasPrefix, HasPrefix, scanPrefix_takeWhile (skipMinus chars), skipMinus_takeWhile]

theorem starts_prefix_token_iff : starts_prefix_token chars = true ↔ HasPrefix knownPrefixes chars := by
  rw [starts_prefix_token, HasPrefix]
  cases scanPrefix (skipMinus chars) with
  | none => exact ⟨nofun, nofun⟩
  | some parts =>
    constructor
    · intro hknown
      exact ⟨parts.1, rfl, List.contains_iff_mem.mp hknown⟩
    · rintro ⟨name, hname, hknown⟩
      obtain rfl := Option.some.inj hname
      exact List.contains_iff_mem.mpr hknown

theorem starts_prefix_token_takeWhile (chars : List Char) :
    starts_prefix_token (chars.takeWhile notBlank) = starts_prefix_token chars := by
  rw [Bool.eq_iff_iff, starts_prefix_token_iff, starts_prefix_token_iff, hasPrefix_takeWhile]

def unprefixed (word : List Char) : Bool := !starts_prefix_token word

theorem solid_takeWhile (chars : List Char) : ∀ c ∈ chars.takeWhile notBlank, str.is_whitespace c = false := by
  intro c hc
  have hc := List.mem_takeWhile_imp hc
  rwa [notBlank, Bool.not_eq_true'] at hc

theorem splitWords_only (hword : word ≠ []) (hsolid : ∀ c ∈ word, str.is_whitespace c = false) :
    str.splitWords [] word = [word] := by
  have hgap : ∀ c ∈ [' '], str.is_whitespace c = true := List.forall_mem_singleton.mpr (by decide)
  rw [← str.splitWords_append_gap hgap, str.splitWords_word hword hsolid (by decide)]
  rfl

/-- The next word, and the words after it. -/
theorem splitWords_cases (chars : List Char) :
    (str.trimStart chars = [] ∧ str.splitWords [] chars = []) ∨
      ∃ later, str.splitWords [] chars = (str.trimStart chars).takeWhile notBlank :: later := by
  rw [← str.splitWords_trimStart]
  cases hstart : str.trimStart chars with
  | nil => exact .inl ⟨rfl, rfl⟩
  | cons c rest =>
    right
    have hhead : notBlank c = true := by rw [notBlank, head_of_trimStart hstart]; rfl
    have hword : (c :: rest).takeWhile notBlank ≠ [] := by
      rw [List.takeWhile_cons_of_pos hhead]
      exact List.cons_ne_nil _ _
    have hsolid := solid_takeWhile (c :: rest)
    have hsplit := List.takeWhile_append_dropWhile (p := notBlank) (l := c :: rest)
    cases hafter : (c :: rest).dropWhile notBlank with
    | nil =>
      rw [hafter, List.append_nil] at hsplit
      refine ⟨[], ?_⟩
      conv => lhs; rw [← hsplit]
      exact splitWords_only hword hsolid
    | cons d later =>
      have hblank : str.is_whitespace d = true := by
        have hlast := List.head?_dropWhile_not notBlank (c :: rest)
        rw [hafter] at hlast
        simpa [notBlank] using hlast
      rw [hafter] at hsplit
      refine ⟨str.splitWords [] later, ?_⟩
      conv => lhs; rw [← hsplit]
      exact str.splitWords_word hword hsolid hblank

theorem starts_prefix_token_first {later : List (List Char)} (hwords : str.splitWords [] chars = word :: later) :
    starts_prefix_token (str.trimStart chars) = starts_prefix_token word := by
  rcases splitWords_cases chars with ⟨-, hnone⟩ | ⟨others, hsplit⟩
  · rw [hnone] at hwords
    cases hwords
  · obtain ⟨rfl, -⟩ := List.cons.inj (hsplit.symm.trans hwords)
    rw [starts_prefix_token_takeWhile]

/-- The words that a spaced value keeps: those before the first known prefix. -/
def keptWords (chars : List Char) : List (List Char) := (str.splitWords [] chars).takeWhile unprefixed

theorem keptWords_of_known (hnamed : starts_prefix_token (str.trimStart chars) = true) : keptWords chars = [] := by
  rw [keptWords]
  rcases splitWords_cases chars with ⟨-, hnone⟩ | ⟨later, hwords⟩
  · rw [hnone]
    rfl
  · rw [hwords, List.takeWhile_cons_of_neg]
    rw [unprefixed, starts_prefix_token_takeWhile, hnamed]
    exact Bool.false_ne_true

/-- A word the scanner is inside of, with the words after it up to the first known prefix. -/
def keptFrom : List (List Char) → List (List Char)
  | [] => []
  | word :: later => word :: later.takeWhile unprefixed

theorem keptFrom_of_unknown (hnamed : starts_prefix_token (str.trimStart chars) = false) :
    keptFrom (str.splitWords [] chars) = keptWords chars := by
  rw [keptWords]
  rcases splitWords_cases chars with ⟨-, hnone⟩ | ⟨later, hwords⟩
  · rw [hnone]
    rfl
  · rw [hwords, List.takeWhile_cons_of_pos]
    · rfl
    · rw [unprefixed, starts_prefix_token_takeWhile, hnamed]
      rfl

/-- What the scanner takes, read on from the word it is inside of. -/
theorem splitWords_scanSpaced (read : List Char)
    (hread : read = [] → starts_prefix_token (str.trimStart chars) = false) :
    str.splitWords read (scanSpaced chars).1 = keptFrom (str.splitWords read chars) := by
  induction chars generalizing read with
  | nil =>
    rw [scanSpaced, str.splitWords]
    split_ifs <;> rfl
  | cons c rest ih =>
    by_cases hblank : str.is_whitespace c = true
    · have hskip : str.trimStart (c :: rest) = str.trimStart rest := trimStart_blank hblank rest
      have hnext : starts_next_prefix (c :: rest) = starts_prefix_token (str.trimStart rest) := by
        rw [ starts_next_prefix, hskip, List.head?_cons, Option.any_some, hblank, Bool.true_and]
      rw [str.splitWords_blank hblank, scanSpaced, hnext]
      cases hnamed : starts_prefix_token (str.trimStart rest) with
      | true =>
        rw [if_pos rfl]
        cases read with
        | nil =>
          rw [hskip, hnamed] at hread
          exact absurd (hread rfl) (Bool.false_ne_true ∘ Eq.symm)
        | cons d read =>
          show [(d :: read).reverse] = (d :: read).reverse :: keptWords rest
          rw [keptWords_of_known hnamed]
      | false =>
        have hrest := ih [] fun _ => hnamed
        rw [if_neg Bool.false_ne_true, str.splitWords_blank hblank, hrest]
        cases read with
        | nil => rfl
        | cons d read =>
          rw [keptFrom_of_unknown hnamed]
          rfl
    · have hgo : starts_next_prefix (c :: rest) = false := by
        rw [ starts_next_prefix, List.head?_cons, Option.any_some, Bool.eq_false_iff.mpr hblank, Bool.false_and]
      rw [scanSpaced, hgo, if_neg Bool.false_ne_true, str.splitWords, str.splitWords, if_neg hblank, if_neg hblank]
      exact ih (c :: read) fun hnil => absurd hnil (List.cons_ne_nil c read)

theorem splitWords_scan_prefixed_value {prefix_ : String}
    (hspaced : prefix_accepts_spaced_value (str.to_ascii_lowercase prefix_) = true)
    (hquote : (str.trimStart chars).head? ≠ some quote) :
    str.splitWords [] (scan_prefixed_value chars prefix_).1.toList = keptWords chars := by
  rw [scan_prefixed_value, hspaced, Bool.not_true, if_neg Bool.false_ne_true, if_neg hquote]
  split_ifs with hnamed
  · rw [keptWords_of_known hnamed]
    rfl
  · have hskip : str.trimStart (str.trimStart chars) = str.trimStart chars := List.dropWhile_idempotent _ _
    have hnot := Bool.eq_false_iff.mpr hnamed
    rw [str.splitWords_trim, String.toList_ofList, splitWords_scanSpaced [] (fun _ => by rw [hskip, hnot]),
      str.splitWords_trimStart, keptFrom_of_unknown hnot]

end Words

/-- On its way through the characters the tokenizer reads a value of the prefix from the text. -/
inductive ReadsValue : List Char → String → List Char → Prop
  | here {chars rest : List Char} {c : Char} {parts : List Char × List Char} :
      str.trimStart chars = c :: rest → scanPrefix (unnegated (c :: rest)) = some parts →
      ReadsValue chars (String.ofList parts.1) parts.2
  | later {chars rest text : List Char} {c : Char} {prefix_ : String} :
      str.trimStart chars = c :: rest → ReadsValue (scanToken (c :: rest)).2 prefix_ text →
      ReadsValue chars prefix_ text

/-- The values it reads so are those of the tokens with a prefix. -/
theorem readsValue_iff {chars : List Char} {prefix_ value : String} :
    (∃ token ∈ tokens chars, token.prefix_ = some prefix_ ∧ token.value = value) ↔
      ∃ text, ReadsValue chars prefix_ text ∧ (scan_prefixed_value text prefix_).1 = value := by
  constructor
  · induction hlength : chars.length using Nat.strong_induction_on generalizing chars with
    | _ length ih =>
      rintro ⟨token, hmem, hnamed, hvalue⟩
      cases hstart : str.trimStart chars with
      | nil =>
        rw [tokens_nil hstart] at hmem
        cases hmem
      | cons c rest =>
        rw [tokens_cons hstart, List.mem_cons] at hmem
        rcases hmem with rfl | hmem
        · rw [scanToken] at hnamed hvalue
          cases hscan : scanPrefix (unnegated (c :: rest)) with
          | none =>
            rw [hscan] at hnamed
            cases hnamed
          | some parts =>
            rw [hscan] at hnamed hvalue
            obtain rfl := Option.some.inj hnamed
            exact ⟨parts.2, .here hstart hscan, hvalue⟩
        · have hshorter := length_scanToken_lt hstart
          obtain ⟨text, hreads, hread⟩ := ih _ (hlength ▸ hshorter) rfl ⟨token, hmem, hnamed, hvalue⟩
          exact ⟨text, .later hstart hreads, hread⟩
  · rintro ⟨text, hreads, rfl⟩
    induction hreads with
    | @here chars rest c parts hstart hscan =>
      refine ⟨(scanToken (c :: rest)).1, ?_, ?_, ?_⟩
      · rw [tokens_cons hstart]
        exact List.mem_cons_self
      · rw [scanToken, hscan]
      · rw [scanToken, hscan]
    | later hstart _ ih =>
      obtain ⟨token, hmem, hfound⟩ := ih
      rw [tokens_cons hstart]
      exact ⟨token, List.mem_cons_of_mem _ hmem, hfound⟩

/-- The unquoted value of a prefix that takes several words. -/
def Spaced (prefix_ : String) (text : List Char) : Prop :=
  prefix_accepts_spaced_value (str.to_ascii_lowercase prefix_) = true ∧ (str.trimStart text).head? ≠ some quote

/-- The prefixes with a branch of their own in the parser: `parse_prefixed_unknown` says it of no other. -/
def acceptedPrefixes : List String := knownPrefixes ++ recipientPrefixes

/-- A later word with a prefix is taken into the value. -/
def Swallows (prefix_ : String) (text : List Char) : Prop :=
  ∃ word ∈ str.splitWords [] (scan_prefixed_value text prefix_).1.toList, HasPrefix acceptedPrefixes word

theorem hasPrefix_append {names others : List String} {word : List Char} :
    HasPrefix (names ++ others) word ↔ HasPrefix names word ∨ HasPrefix others word := by
  constructor
  · rintro ⟨name, hname, hmem⟩
    rcases List.mem_append.mp hmem with hmem | hmem
    · exact .inl ⟨name, hname, hmem⟩
    · exact .inr ⟨name, hname, hmem⟩
  · rintro (⟨name, hname, hmem⟩ | ⟨name, hname, hmem⟩)
    · exact ⟨name, hname, List.mem_append_left _ hmem⟩
    · exact ⟨name, hname, List.mem_append_right _ hmem⟩

theorem swallows_iff {prefix_ : String} {text : List Char} (hspaced : Spaced prefix_ text) :
    Swallows prefix_ text ↔ ∃ word ∈ keptWords text, HasPrefix recipientPrefixes word := by
  rw [Swallows, splitWords_scan_prefixed_value hspaced.1 hspaced.2]
  constructor
  · rintro ⟨word, hmem, hnamed⟩
    have hkept := List.mem_takeWhile_imp hmem
    rcases hasPrefix_append.mp hnamed with hknown | hrecipient
    · rw [unprefixed, starts_prefix_token_iff.mpr hknown] at hkept
      cases hkept
    · exact ⟨word, hmem, hrecipient⟩
  · rintro ⟨word, hmem, hrecipient⟩
    exact ⟨word, hmem, hasPrefix_append.mpr (.inr hrecipient)⟩

/-- A prefix of the grammar, in any case. -/
structure GrammarPrefix where
  name : String
  accepted : str.to_ascii_lowercase name ∈ acceptedPrefixes

/-- Words without a prefix of the grammar, the first of them without a quote. -/
structure PlainWords where
  words : List (List Char)
  solid : ∀ word ∈ words, word ≠ [] ∧ ∀ c ∈ word, str.is_whitespace c = false
  plain : ∀ word ∈ words, ¬ HasPrefix acceptedPrefixes word
  unquoted : ∀ word ∈ words.head?, word.head? ≠ some quote

namespace PlainWords

variable (words : PlainWords)

/-- The words and what follows them, with a space before each. -/
def before (following : List Char) : List Char := ' ' :: [' '].intercalate (words.words ++ [following])

def value : String := String.ofList ([' '].intercalate words.words)

end PlainWords

section Following

/-- The next token, written with its prefix. -/
def prefixed (second : GrammarPrefix) (negated : Bool) (rest : List Char) : List Char :=
  signed negated (second.name.toList ++ ':' :: rest)

variable {first second : GrammarPrefix} {words : PlainWords} {negated : Bool} {rest : List Char}

theorem tokens_accepted (first : GrammarPrefix) (negated : Bool) (rest : List Char) :
    tokens (prefixed first negated rest) =
      ⟨negated, some first.name, (scan_prefixed_value rest first.name).1⟩ ::
        tokens (scan_prefixed_value rest first.name).2 :=
  tokens_prefixed first.accepted negated rest

theorem skipMinus_signed {chars : List Char} (hstarts : Starts chars) (negated : Bool) :
    skipMinus (signed negated chars) = chars := by
  obtain ⟨c, rest, rfl, -, hminus⟩ := hstarts
  cases negated with
  | false =>
    show skipMinus (c :: rest) = c :: rest
    rw [skipMinus, List.head?_cons, if_neg fun hhead => hminus (Option.some.inj hhead)]
  | true => rfl

theorem hasPrefix_prefixed {names : List String} (second : GrammarPrefix) (negated : Bool) (rest : List Char) :
    HasPrefix names (prefixed second negated rest) ↔ str.to_ascii_lowercase second.name ∈ names := by
  rw [HasPrefix, prefixed, skipMinus_signed (starts_prefixed second.accepted rest),
    scanPrefix_prefixed second.accepted rest]
  constructor
  · rintro ⟨name, hname, hmem⟩
    obtain rfl := Option.some.inj hname
    rwa [String.ofList_toList] at hmem
  · intro hmem
    exact ⟨_, rfl, by rwa [String.ofList_toList]⟩

theorem head_signed (second : GrammarPrefix) (negated : Bool) (rest : List Char) :
    ∃ c later, prefixed second negated rest = c :: later ∧ notBlank c = true ∧ c ≠ quote := by
  obtain ⟨c, later, hchars, hblank, -, hquote⟩ := head_prefixed second.accepted rest
  rw [prefixed, hchars]
  cases negated with
  | false => exact ⟨c, later, rfl, hblank, hquote⟩
  | true => exact ⟨'-', c :: later, rfl, by decide, by decide⟩

/-- What comes first after the space: no blank and no quote. -/
theorem head_before (words : PlainWords) (second : GrammarPrefix) (negated : Bool) (rest : List Char) :
    ∃ c later, [' '].intercalate (words.words ++ [prefixed second negated rest]) = c :: later ∧ notBlank c = true ∧
      c ≠ quote := by
  obtain ⟨words, hsolid, hplain, hunquoted⟩ := words
  cases words with
  | nil =>
    rw [List.nil_append, List.intercalate_singleton]
    exact head_signed second negated rest
  | cons word others =>
    obtain ⟨hne, hchars⟩ := hsolid word List.mem_cons_self
    obtain ⟨c, inner, rfl⟩ := List.exists_cons_of_ne_nil hne
    refine ⟨c, _, List.intercalate_cons_cons_left, ?_, fun hquote => ?_⟩
    · rw [notBlank, hchars c List.mem_cons_self]
      rfl
    · exact hunquoted (c :: inner) rfl (congrArg some hquote)

theorem trimStart_before (words : PlainWords) (second : GrammarPrefix) (negated : Bool) (rest : List Char) :
    str.trimStart (words.before (prefixed second negated rest)) =
      [' '].intercalate (words.words ++ [prefixed second negated rest]) := by
  obtain ⟨c, later, hchars, hblank, -⟩ := head_before words second negated rest
  have hstay : str.trimStart (c :: later) = c :: later := by
    refine List.dropWhile_cons_of_neg ?_
    rw [Bool.not_eq_true, ← Bool.not_eq_true']
    exact hblank
  rw [PlainWords.before, trimStart_blank (by decide), hchars, hstay]

theorem unquoted_before (words : PlainWords) (second : GrammarPrefix) (negated : Bool) (rest : List Char) :
    (str.trimStart (words.before (prefixed second negated rest))).head? ≠ some quote := by
  obtain ⟨c, later, hchars, -, hquote⟩ := head_before words second negated rest
  rw [trimStart_before, hchars, List.head?_cons]
  exact fun hsame => hquote (Option.some.inj hsame)

theorem splitWords_before (words : PlainWords) (following : List Char) :
    str.splitWords [] (words.before following) = words.words ++ str.splitWords [] following := by
  rw [PlainWords.before, str.splitWords_blank (by decide), str.splitWords_intercalate words.solid]
  rfl

theorem splitWords_value (words : PlainWords) : str.splitWords [] words.value.toList = words.words := by
  rw [PlainWords.value, String.toList_ofList]
  rcases List.eq_nil_or_concat' words.words with hempty | ⟨before, last, hlast⟩
  · rw [hempty]
    rfl
  · have hsolid := words.solid
    rw [hlast] at hsolid
    obtain ⟨hne, hchars⟩ := hsolid last (List.mem_append_right _ List.mem_cons_self)
    rw [hlast, str.splitWords_intercalate fun word hword => hsolid word (List.mem_append_left _ hword),
      splitWords_only hne hchars]

theorem unprefixed_of_plain {word : List Char} (hword : word ∈ words.words) : starts_prefix_token word = false :=
  Bool.eq_false_iff.mpr fun hstarts =>
    words.plain word hword (hasPrefix_append.mpr (.inl (starts_prefix_token_iff.mp hstarts)))

theorem trimStart_prefixed (second : GrammarPrefix) (negated : Bool) (rest : List Char) :
    str.trimStart (prefixed second negated rest) = prefixed second negated rest := by
  obtain ⟨c, later, hchars, hblank, -⟩ := head_signed second negated rest
  rw [hchars]
  exact List.dropWhile_cons_of_neg (by rw [Bool.not_eq_true, ← Bool.not_eq_true']; exact hblank)

/-- A prefix that only the parser knows is kept with the words. -/
theorem keptWords_before (hunknown : str.to_ascii_lowercase second.name ∉ knownPrefixes) :
    keptWords (words.before (prefixed second negated rest)) ≠ words.words := by
  have hnamed : starts_prefix_token (prefixed second negated rest) = false :=
    Bool.eq_false_iff.mpr fun hstarts =>
      hunknown ((hasPrefix_prefixed second negated rest).mp (starts_prefix_token_iff.mp hstarts))
  have hall : ∀ word ∈ words.words, unprefixed word = true := fun word hword => by
    rw [unprefixed, unprefixed_of_plain hword]
    rfl
  rw [keptWords, splitWords_before, List.takeWhile_append_of_pos hall]
  rcases splitWords_cases (prefixed second negated rest) with ⟨hnone, -⟩ | ⟨later, hwords⟩
  · obtain ⟨c, later, hchars, -⟩ := head_signed second negated rest
    rw [trimStart_prefixed, hchars] at hnone
    cases hnone
  · rw [trimStart_prefixed] at hwords
    rw [hwords, List.takeWhile_cons_of_pos]
    · exact fun hsame => List.cons_ne_nil _ _ (List.append_right_eq_self.mp hsame)
    · rw [unprefixed, starts_prefix_token_takeWhile, hnamed]
      rfl

theorem scanSpaced_solid {word : List Char} (hsolid : ∀ c ∈ word, str.is_whitespace c = false) :
    scanSpaced (word ++ rest) = (word ++ (scanSpaced rest).1, (scanSpaced rest).2) := by
  induction word with
  | nil => rfl
  | cons c word ih =>
    have hgo : starts_next_prefix (c :: (word ++ rest)) = false := by
      rw [ starts_next_prefix, List.head?_cons, Option.any_some, hsolid c List.mem_cons_self, Bool.false_and]
    have hrest := ih fun d hd => hsolid d (List.mem_cons_of_mem c hd)
    rw [List.cons_append, scanSpaced, hgo, if_neg Bool.false_ne_true, hrest]
    rfl

/-- The scanner takes the words and stops before the space in front of a prefix it knows. -/
theorem scanSpaced_words {following : List Char} {words : List (List Char)} (hwords : words ≠ [])
    (hsolid : ∀ word ∈ words, word ≠ [] ∧ ∀ c ∈ word, str.is_whitespace c = false)
    (hplain : ∀ word ∈ words, starts_prefix_token word = false)
    (hknown : starts_prefix_token (str.trimStart following) = true) :
    scanSpaced ([' '].intercalate (words ++ [following])) = ([' '].intercalate words, ' ' :: following) := by
  induction words with
  | nil => exact absurd rfl hwords
  | cons word others ih =>
    have hword := (hsolid word List.mem_cons_self).2
    cases others with
    | nil =>
      have hstop : starts_next_prefix (' ' :: following) = true := by
        rw [ starts_next_prefix, trimStart_blank (by decide), hknown]
        rfl
      rw [List.singleton_append, List.intercalate_cons_cons, List.intercalate_singleton, List.append_assoc,
        scanSpaced_solid hword, List.singleton_append, scanSpaced, if_pos hstop, List.intercalate_singleton,
        List.append_nil]
    | cons next others =>
      have hothers : ∀ other ∈ next :: others, other ≠ [] ∧ ∀ c ∈ other, str.is_whitespace c = false :=
        fun other hother => hsolid other (List.mem_cons_of_mem word hother)
      have hrest := ih (List.cons_ne_nil next others) hothers
        fun other hother => hplain other (List.mem_cons_of_mem word hother)
      have hgo : starts_next_prefix (' ' :: [' '].intercalate (next :: others ++ [following])) = false := by
        have hsplit := str.splitWords_intercalate hothers following
        rw [ starts_next_prefix, trimStart_blank (by decide), starts_prefix_token_first hsplit,
          hplain next (List.mem_cons_of_mem word List.mem_cons_self), Bool.and_false]
      rw [List.cons_append, List.cons_append, List.intercalate_cons_cons, ← List.cons_append, List.append_assoc,
        scanSpaced_solid hword, List.singleton_append, scanSpaced, if_neg (Bool.eq_false_iff.mp hgo), hrest,
        List.intercalate_cons_cons, List.append_assoc]
      rfl

theorem intercalate_last (others : List (List Char)) (last : List Char) :
    ∃ before, [' '].intercalate (others ++ [last]) = before ++ last := by
  induction others with
  | nil => exact ⟨[], List.intercalate_singleton⟩
  | cons word others ih =>
    obtain ⟨before, hbefore⟩ := ih
    have hne : others ++ [last] ≠ [] := List.append_ne_nil_of_right_ne_nil others (List.cons_ne_nil last [])
    refine ⟨word ++ [' '] ++ before, ?_⟩
    rw [List.cons_append, List.intercalate_cons_of_ne_nil hne, hbefore, List.append_assoc _ before]

theorem trimEnd_value (words : PlainWords) :
    str.trimEnd ([' '].intercalate words.words) = [' '].intercalate words.words := by
  rcases List.eq_nil_or_concat' words.words with hempty | ⟨others, last, hlast⟩
  · rw [hempty]
    rfl
  · obtain ⟨hne, hsolid⟩ := words.solid last (hlast ▸ List.mem_append_right _ List.mem_cons_self)
    obtain ⟨before, hbefore⟩ := intercalate_last others last
    rcases List.eq_nil_or_concat' last with hnil | ⟨inner, c, rfl⟩
    · exact absurd hnil hne
    · have hblank := hsolid c (List.mem_append_right _ List.mem_cons_self)
      rw [hlast, hbefore, ← List.append_assoc, str.trimEnd, List.reverse_append, List.reverse_singleton,
        List.singleton_append, List.dropWhile_cons_of_neg (by rw [hblank]; exact Bool.false_ne_true),
        List.reverse_cons, List.reverse_reverse]

theorem trimStart_value (words : PlainWords) :
    str.trimStart ([' '].intercalate words.words) = [' '].intercalate words.words := by
  cases hwords : words.words with
  | nil => rfl
  | cons word others =>
    obtain ⟨hne, hsolid⟩ := words.solid word (hwords ▸ List.mem_cons_self)
    obtain ⟨c, inner, rfl⟩ := List.exists_cons_of_ne_nil hne
    rw [List.intercalate_cons_cons_left]
    exact List.dropWhile_cons_of_neg (by rw [hsolid c List.mem_cons_self]; exact Bool.false_ne_true)

theorem trim_value (words : PlainWords) : str.trim words.value = words.value := by
  rw [str.trim, PlainWords.value, String.toList_ofList, trimStart_value, trimEnd_value]

variable (words negated rest) in
/-- A known prefix after the words ends the value with them. -/
theorem scan_prefixed_value_known (hspaced : prefix_accepts_spaced_value (str.to_ascii_lowercase first.name) = true)
    (hknown : str.to_ascii_lowercase second.name ∈ knownPrefixes) :
    ∃ after, scan_prefixed_value (words.before (prefixed second negated rest)) first.name = (words.value, after) ∧
      tokens after = tokens (prefixed second negated rest) := by
  have hquote := unquoted_before words second negated rest
  have hnamed : starts_prefix_token (prefixed second negated rest) = true :=
    starts_prefix_token_iff.mpr ((hasPrefix_prefixed second negated rest).mpr hknown)
  have hstart := trimStart_before words second negated rest
  have hsplit := splitWords_before words (prefixed second negated rest)
  rw [scan_prefixed_value, hspaced, Bool.not_true, if_neg Bool.false_ne_true, if_neg hquote]
  cases hwords : words.words with
  | nil =>
    rw [hwords, List.nil_append, List.intercalate_singleton] at hstart
    rw [hstart, if_pos hnamed]
    refine ⟨_, Prod.ext ?_ rfl, rfl⟩
    rw [PlainWords.value, hwords]
    rfl
  | cons word others =>
    have hfirst : starts_prefix_token word = false := unprefixed_of_plain (hwords ▸ List.mem_cons_self)
    have hne : words.words ≠ [] := hwords ▸ List.cons_ne_nil word others
    have htaken := scanSpaced_words hne words.solid (fun other hother => unprefixed_of_plain hother)
      ((congrArg starts_prefix_token (trimStart_prefixed second negated rest)).trans hnamed)
    rw [hwords, List.cons_append] at hsplit
    rw [starts_prefix_token_first hsplit, hfirst, if_neg Bool.false_ne_true, hstart, htaken]
    exact ⟨_, Prod.ext (trim_value words) rfl, tokens_blank (by decide)⟩

/-- A prefix that takes one word reads to the next whitespace. -/
theorem scan_prefixed_value_word (hword : prefix_accepts_spaced_value (str.to_ascii_lowercase first.name) = false) :
    scan_prefixed_value (words.before (prefixed second negated rest)) first.name =
      (String.ofList (([' '].intercalate (words.words ++ [prefixed second negated rest])).takeWhile notBlank),
        ([' '].intercalate (words.words ++ [prefixed second negated rest])).dropWhile notBlank) := by
  obtain ⟨c, later, hchars, -, hquote⟩ := head_before words second negated rest
  rw [scan_prefixed_value, hword, Bool.not_false, if_pos rfl, trimStart_before, hchars, scan_value, if_neg hquote]

variable (second negated rest) in
theorem scan_prefixed_value_one (hword : prefix_accepts_spaced_value (str.to_ascii_lowercase first.name) = false)
    (hone : words.words.length = 1) :
    ∃ after, scan_prefixed_value (words.before (prefixed second negated rest)) first.name = (words.value, after) ∧
      tokens after = tokens (prefixed second negated rest) := by
  obtain ⟨word, hwords⟩ := List.length_eq_one_iff.mp hone
  obtain ⟨-, hsolid⟩ := words.solid word (hwords ▸ List.mem_cons_self)
  have hall : ∀ c ∈ word, notBlank c = true := fun c hc => by rw [notBlank, hsolid c hc]; rfl
  have htext : [' '].intercalate (words.words ++ [prefixed second negated rest]) =
      word ++ ' ' :: prefixed second negated rest := by
    rw [hwords, List.singleton_append, List.intercalate_cons_cons, List.intercalate_singleton, List.append_assoc]
    rfl
  have htake : (' ' :: prefixed second negated rest).takeWhile notBlank = [] := List.takeWhile_cons_of_neg (by decide)
  have hdrop : (' ' :: prefixed second negated rest).dropWhile notBlank = ' ' :: prefixed second negated rest :=
    List.dropWhile_cons_of_neg (by decide)
  rw [scan_prefixed_value_word hword, htext, List.takeWhile_append_of_pos hall, List.dropWhile_append_of_pos hall,
    htake, hdrop, List.append_nil]
  refine ⟨_, Prod.ext ?_ rfl, tokens_blank (by decide)⟩
  rw [PlainWords.value, hwords, List.intercalate_singleton]

/-- So it reads the words only where there is one. -/
theorem length_of_one_word (hword : prefix_accepts_spaced_value (str.to_ascii_lowercase first.name) = false)
    (hvalue : (scan_prefixed_value (words.before (prefixed second negated rest)) first.name).1 = words.value) :
    words.words.length = 1 := by
  obtain ⟨c, later, hchars, hblank, -⟩ := head_before words second negated rest
  have hsplit := splitWords_value words
  rw [← hvalue, scan_prefixed_value_word hword, String.toList_ofList, hchars] at hsplit
  have hne : (c :: later).takeWhile notBlank ≠ [] := by
    rw [List.takeWhile_cons_of_pos hblank]
    exact List.cons_ne_nil _ _
  rw [splitWords_only hne (solid_takeWhile _)] at hsplit
  rw [← hsplit]
  rfl

/-- The words are read, and the next token after them, exactly when the value read is the words. -/
theorem tokens_before_iff {firstNegated : Bool}
    (hread : (scan_prefixed_value (words.before (prefixed second negated rest)) first.name).1 = words.value →
      tokens (scan_prefixed_value (words.before (prefixed second negated rest)) first.name).2 =
        tokens (prefixed second negated rest)) :
    tokens (prefixed first firstNegated (words.before (prefixed second negated rest))) =
        ⟨firstNegated, some first.name, words.value⟩ ::
          ⟨negated, some second.name, (scan_prefixed_value rest second.name).1⟩ ::
            tokens (scan_prefixed_value rest second.name).2 ↔
      (scan_prefixed_value (words.before (prefixed second negated rest)) first.name).1 = words.value := by
  rw [tokens_accepted first, ← tokens_accepted second, List.cons.injEq]
  constructor
  · rintro ⟨hfirst, -⟩
    exact congrArg Token.value hfirst
  · intro hvalue
    exact ⟨by rw [hvalue], hread hvalue⟩

theorem known_iff (second : GrammarPrefix) :
    str.to_ascii_lowercase second.name ∈ knownPrefixes ↔ str.to_ascii_lowercase second.name ∉ recipientPrefixes := by
  have hapart : ∀ known ∈ knownPrefixes, known ∉ recipientPrefixes := by decide
  constructor
  · exact hapart _
  · intro hnot
    exact (List.mem_append.mp second.accepted).resolve_right hnot

end Following

/-- A spaced value ends at every prefix but the two that the tokenizer does not know; the other prefixes take one
    word, whatever comes after it. -/
theorem spaced_values_end_iff (query : String) (first second : GrammarPrefix) (firstNegated negated : Bool)
    (words : PlainWords) (rest : List Char) :
    ((∀ prefix_ text, ReadsValue query.toList prefix_ text → Spaced prefix_ text → ¬ Swallows prefix_ text) ↔
      ∀ prefix_ text, ReadsValue query.toList prefix_ text → Spaced prefix_ text →
        ∀ word ∈ keptWords text, ¬ HasPrefix recipientPrefixes word) ∧
    (tokenize (String.ofList (prefixed first firstNegated (words.before (prefixed second negated rest)))) =
        ⟨firstNegated, some first.name, words.value⟩ ::
          ⟨negated, some second.name, (scan_prefixed_value rest second.name).1⟩ ::
            tokens (scan_prefixed_value rest second.name).2 ↔
      if prefix_accepts_spaced_value (str.to_ascii_lowercase first.name) then
        str.to_ascii_lowercase second.name ∉ recipientPrefixes
      else words.words.length = 1) := by
  constructor
  · refine forall₄_congr fun prefix_ text hreads hspaced => ?_
    rw [swallows_iff hspaced]
    simp only [not_exists, not_and]
  · rw [tokenize, String.toList_ofList]
    split_ifs with hspaced
    · by_cases hknown : str.to_ascii_lowercase second.name ∈ knownPrefixes
      · obtain ⟨after, hscan, hafter⟩ :=
          scan_prefixed_value_known words negated rest hspaced hknown
        rw [tokens_before_iff (fun _ => by rw [hscan, hafter]), hscan]
        exact iff_of_true rfl ((known_iff second).mp hknown)
      · have hvalue :
            (scan_prefixed_value (words.before (prefixed second negated rest)) first.name).1 ≠ words.value := by
          intro hsame
          have hwords := splitWords_scan_prefixed_value hspaced (unquoted_before words second negated rest)
          rw [hsame, splitWords_value] at hwords
          exact keptWords_before hknown hwords.symm
        rw [tokens_before_iff fun hsame => absurd hsame hvalue]
        exact iff_of_false hvalue fun hnot => hknown ((known_iff second).mpr hnot)
    · have hword := Bool.eq_false_iff.mpr hspaced
      by_cases hone : words.words.length = 1
      · obtain ⟨after, hscan, hafter⟩ :=
          scan_prefixed_value_one second negated rest hword hone
        rw [tokens_before_iff (fun _ => by rw [hscan, hafter]), hscan]
        exact iff_of_true rfl hone
      · rw [tokens_before_iff fun hsame => absurd (length_of_one_word hword hsame) hone]
        exact iff_of_false (fun hsame => hone (length_of_one_word hword hsame)) hone

/-- The recipient is taken into the sender. -/
theorem to_is_swallowed :
    tokenize "from: alice to:bob" = [⟨false, some "from", "alice to:bob"⟩] ∧
      tokenize "from: alice to:bob" ≠ [⟨false, some "from", "alice"⟩, ⟨false, some "to", "bob"⟩] := by
  refine ⟨?_, ?_⟩ <;> decide +kernel

end posthaste.query_grammar
