import Posthaste.Library.Ascii

namespace posthaste.query_grammar

structure Token where
  negated : Bool
  prefix_ : Option String
  value : String
  deriving DecidableEq

def quote : Char := '\x22'

def notBlank (c : Char) : Bool := !str.is_whitespace c

def knownPrefixes : List String :=
  ["f", "from", "sender", "subject", "s", "body", "preview", "is", "has", "tag", "keyword", "in", "mailbox", "source",
    "account", "id", "thread", "threadid", "conversation", "conversationid", "conv", "before", "after", "date",
    "newer", "older"]

def is_known_prefix (prefix_ : String) : Bool := knownPrefixes.contains prefix_

def prefix_accepts_spaced_value (prefix_ : String) : Bool :=
  ["f", "from", "sender", "subject", "s", "body", "preview", "tag", "keyword", "in", "mailbox", "source",
    "account"].contains prefix_

/-- The texts around the first colon, when no whitespace stands before it. -/
def scanPrefix : List Char → Option (List Char × List Char)
  | [] => none
  | c :: rest =>
    if str.is_whitespace c then none
    else if c = ':' then some ([], rest)
    else (scanPrefix rest).map fun parts => (c :: parts.1, parts.2)

/-- A value and what is left after it. -/
def scan_value : List Char → String × List Char
  | [] => ("", [])
  | c :: rest =>
    if c = quote then
      (String.ofList (rest.takeWhile (· ≠ quote)), (rest.dropWhile (· ≠ quote)).drop 1)
    else (String.ofList ((c :: rest).takeWhile notBlank), (c :: rest).dropWhile notBlank)

def skipMinus (chars : List Char) : List Char := if chars.head? = some '-' then chars.drop 1 else chars

def starts_prefix_token (chars : List Char) : Bool :=
  match scanPrefix (skipMinus chars) with
  | some parts => is_known_prefix (str.to_ascii_lowercase (String.ofList parts.1))
  | none => false

def starts_next_prefix (chars : List Char) : Bool :=
  chars.head?.any str.is_whitespace && starts_prefix_token (str.trimStart chars)

/-- The characters up to the next prefix, and the rest. -/
def scanSpaced : List Char → List Char × List Char
  | [] => ([], [])
  | c :: rest =>
    if starts_next_prefix (c :: rest) then ([], c :: rest)
    else (c :: (scanSpaced rest).1, (scanSpaced rest).2)

def scan_prefixed_value (chars : List Char) (prefix_ : String) : String × List Char :=
  let start := str.trimStart chars
  if !prefix_accepts_spaced_value (str.to_ascii_lowercase prefix_) then scan_value start
  else if start.head? = some quote then scan_value start
  else if starts_prefix_token start then ("", start)
  else (str.trim (String.ofList (scanSpaced start).1), (scanSpaced start).2)

/-- A minus with no whitespace after it. -/
def isNegation : List Char → Bool
  | c :: d :: _ => c = '-' && notBlank d
  | _ => false

def unnegated (chars : List Char) : List Char := if isNegation chars then chars.drop 1 else chars

/-- The token at the start of the characters, and what is left after it. -/
def scanToken (chars : List Char) : Token × List Char :=
  match scanPrefix (unnegated chars) with
  | some parts =>
    let scanned := scan_prefixed_value parts.2 (String.ofList parts.1)
    (⟨isNegation chars, some (String.ofList parts.1), scanned.1⟩, scanned.2)
  | none =>
    let scanned := scan_value (unnegated chars)
    (⟨isNegation chars, none, scanned.1⟩, scanned.2)

section Progress

variable {chars : List Char}

theorem eq_of_scanPrefix {parts : List Char × List Char} (hscan : scanPrefix chars = some parts) :
    chars = parts.1 ++ ':' :: parts.2 := by
  induction chars generalizing parts with
  | nil => cases hscan
  | cons c rest ih =>
    rw [scanPrefix] at hscan
    split_ifs at hscan with hblank hcolon
    · obtain rfl := Option.some.inj hscan
      rw [hcolon]
      rfl
    · obtain ⟨inner, hinner, rfl⟩ := Option.map_eq_some_iff.mp hscan
      rw [ih hinner]
      rfl

theorem length_trimStart_le (chars : List Char) : (str.trimStart chars).length ≤ chars.length :=
  (List.dropWhile_sublist str.is_whitespace).length_le

theorem length_scan_value_le (chars : List Char) : (scan_value chars).2.length ≤ chars.length := by
  cases chars with
  | nil => exact le_rfl
  | cons c rest =>
    have hquoted := (List.dropWhile_sublist (l := rest) (· ≠ quote)).length_le
    have hplain := (List.dropWhile_sublist (l := c :: rest) notBlank).length_le
    rw [scan_value]
    split_ifs
    · simp only [List.length_drop, List.length_cons]
      omega
    · exact hplain

theorem length_scanSpaced_le (chars : List Char) : (scanSpaced chars).2.length ≤ chars.length := by
  induction chars with
  | nil => exact le_rfl
  | cons c rest ih =>
    rw [scanSpaced]
    split_ifs
    · exact le_rfl
    · exact Nat.le_succ_of_le ih

theorem length_scan_prefixed_value_le (chars : List Char) (prefix_ : String) :
    (scan_prefixed_value chars prefix_).2.length ≤ chars.length := by
  have hstart := length_trimStart_le chars
  rw [scan_prefixed_value]
  split_ifs
  · exact (length_scan_value_le _).trans hstart
  · exact (length_scan_value_le _).trans hstart
  · exact hstart
  · exact (length_scanSpaced_le _).trans hstart

/-- The scanner moves on from every character that is no whitespace. -/
theorem length_scan_value_lt {c : Char} (hblank : str.is_whitespace c = false) (rest : List Char) :
    (scan_value (c :: rest)).2.length < (c :: rest).length := by
  have hquoted := (List.dropWhile_sublist (l := rest) (· ≠ quote)).length_le
  have hplain := (List.dropWhile_sublist (l := rest) notBlank).length_le
  have hskipped : (c :: rest).dropWhile notBlank = rest.dropWhile notBlank :=
    List.dropWhile_cons_of_pos (by rw [notBlank, hblank]; rfl)
  rw [scan_value, hskipped]
  split_ifs
  all_goals
    simp only [List.length_drop, List.length_cons]
    omega

theorem length_unnegated_le (chars : List Char) : (unnegated chars).length ≤ chars.length := by
  rw [unnegated]
  split_ifs
  · simp only [List.length_drop]
    omega
  · exact le_rfl

theorem length_unnegated_lt (hnegated : isNegation chars = true) : (unnegated chars).length < chars.length := by
  cases chars with
  | nil => cases hnegated
  | cons c rest =>
    rw [unnegated, if_pos hnegated]
    simp only [List.length_drop, List.length_cons]
    omega

theorem head_of_trimStart {c : Char} {rest : List Char} (hstart : str.trimStart chars = c :: rest) :
    str.is_whitespace c = false := by
  have hhead := List.head?_dropWhile_not str.is_whitespace chars
  rw [← str.trimStart, hstart] at hhead
  simpa using hhead

theorem length_scanToken_lt {c : Char} {rest : List Char} (hstart : str.trimStart chars = c :: rest) :
    (scanToken (c :: rest)).2.length < chars.length := by
  have hskipped := length_trimStart_le chars
  have hunnegated := length_unnegated_le (c :: rest)
  rw [hstart] at hskipped
  rw [scanToken]
  cases hscan : scanPrefix (unnegated (c :: rest)) with
  | some parts =>
    have hvalue := length_scan_prefixed_value_le parts.2 (String.ofList parts.1)
    have hlength := congrArg List.length (eq_of_scanPrefix hscan)
    simp only [List.length_append, List.length_cons] at hlength hunnegated hskipped ⊢
    omega
  | none =>
    by_cases hnegated : isNegation (c :: rest) = true
    · have hvalue := length_scan_value_le (unnegated (c :: rest))
      have hminus := length_unnegated_lt hnegated
      simp only
      omega
    · have hvalue := length_scan_value_lt (head_of_trimStart hstart) rest
      rw [unnegated, if_neg hnegated]
      simp only
      omega

end Progress

def tokens (chars : List Char) : List Token :=
  match _hstart : str.trimStart chars with
  | [] => []
  | c :: rest => (scanToken (c :: rest)).1 :: tokens (scanToken (c :: rest)).2
termination_by chars.length
decreasing_by exact length_scanToken_lt _hstart

/-- Splits input on whitespace, respecting `"quoted strings"` and `-` negation. -/
def tokenize (input : String) : List Token := tokens input.toList

example : tokenize "from: alice smith -is:read \"at 10:30\"" =
    [⟨false, some "from", "alice smith"⟩, ⟨true, some "is", "read"⟩, ⟨false, none, "at 10:30"⟩] := by
  decide +kernel

section Scanning

variable {chars rest : List Char} {c : Char}

theorem tokens_nil (hstart : str.trimStart chars = []) : tokens chars = [] := by
  rw [tokens]
  split
  · rfl
  · next hcons =>
    rw [hstart] at hcons
    cases hcons

theorem tokens_cons (hstart : str.trimStart chars = c :: rest) :
    tokens chars = (scanToken (c :: rest)).1 :: tokens (scanToken (c :: rest)).2 := by
  conv => lhs; rw [tokens]
  split
  · next hnil =>
    rw [hstart] at hnil
    cases hnil
  · next hcons =>
    rw [hstart] at hcons
    cases hcons
    rfl

theorem tokens_of_notBlank (hblank : str.is_whitespace c = false) :
    tokens (c :: rest) = (scanToken (c :: rest)).1 :: tokens (scanToken (c :: rest)).2 :=
  tokens_cons (List.dropWhile_cons_of_neg (by rw [hblank]; exact Bool.false_ne_true))

theorem trimStart_blank (hblank : str.is_whitespace c = true) (rest : List Char) :
    str.trimStart (c :: rest) = str.trimStart rest :=
  List.dropWhile_cons_of_pos hblank

theorem tokens_blank (hblank : str.is_whitespace c = true) : tokens (c :: rest) = tokens rest := by
  have hsame := trimStart_blank hblank rest
  cases hstart : str.trimStart rest with
  | nil => rw [tokens_nil (hsame.trans hstart), tokens_nil hstart]
  | cons d after => rw [tokens_cons (hsame.trans hstart), tokens_cons hstart]

/-- A character that may stand in a prefix the scanner finds. -/
def prefixChar (c : Char) : Bool := notBlank c && c ≠ ':'

theorem scanPrefix_append {before : List Char} (hbefore : ∀ c ∈ before, prefixChar c = true) :
    scanPrefix (before ++ ':' :: rest) = some (before, rest) := by
  induction before with
  | nil => rfl
  | cons c before ih =>
    have hchar := hbefore c List.mem_cons_self
    have hinner := ih fun d hd => hbefore d (List.mem_cons_of_mem c hd)
    simp only [prefixChar, notBlank, Bool.and_eq_true, Bool.not_eq_true', decide_eq_true_eq] at hchar
    rw [List.cons_append, scanPrefix, if_neg (by simp only [hchar.1, Bool.false_eq_true, not_false_iff]),
      if_neg hchar.2, hinner]
    rfl

theorem scanPrefix_eq_none_iff : scanPrefix chars = none ↔ ':' ∉ chars.takeWhile notBlank := by
  induction chars with
  | nil => simp [scanPrefix]
  | cons c rest ih =>
    rw [scanPrefix]
    by_cases hblank : str.is_whitespace c = true
    · rw [if_pos hblank, List.takeWhile_cons_of_neg (by simp [notBlank, hblank])]
      simp
    · rw [if_neg hblank, List.takeWhile_cons_of_pos (by simp [notBlank, hblank])]
      by_cases hcolon : c = ':'
      · rw [if_pos hcolon, hcolon]
        simp
      · rw [if_neg hcolon, Option.map_eq_none_iff, ih, List.mem_cons]
        simp [Ne.symm hcolon]

/-- A minus and what it negates. -/
def signed (negated : Bool) (chars : List Char) : List Char := if negated then '-' :: chars else chars

/-- A token can start so: with no whitespace and no minus. -/
def Starts (chars : List Char) : Prop := ∃ c rest, chars = c :: rest ∧ notBlank c = true ∧ c ≠ '-'

theorem isNegation_signed (hstarts : Starts chars) (negated : Bool) :
    isNegation (signed negated chars) = negated := by
  obtain ⟨c, rest, rfl, hblank, hminus⟩ := hstarts
  cases negated with
  | false =>
    cases rest with
    | nil => rfl
    | cons d after =>
      show (decide (c = '-') && notBlank d) = false
      rw [decide_eq_false hminus, Bool.false_and]
  | true =>
    show (decide ('-' = '-') && notBlank c) = true
    rw [hblank]
    rfl

theorem unnegated_signed (hstarts : Starts chars) (negated : Bool) : unnegated (signed negated chars) = chars := by
  rw [unnegated, isNegation_signed hstarts]
  cases negated <;> rfl

theorem tokens_signed (hstarts : Starts chars) (negated : Bool) :
    tokens (signed negated chars) =
      (scanToken (signed negated chars)).1 :: tokens (scanToken (signed negated chars)).2 := by
  obtain ⟨c, rest, rfl, hblank, -⟩ := hstarts
  cases negated with
  | false => exact tokens_of_notBlank (Bool.not_eq_true' _ |>.mp hblank)
  | true => exact tokens_of_notBlank (by decide)

theorem tokens_of_scanPrefix {parts : List Char × List Char} (hstarts : Starts chars) (negated : Bool)
    (hscan : scanPrefix chars = some parts) :
    tokens (signed negated chars) =
      ⟨negated, some (String.ofList parts.1), (scan_prefixed_value parts.2 (String.ofList parts.1)).1⟩ ::
        tokens (scan_prefixed_value parts.2 (String.ofList parts.1)).2 := by
  rw [tokens_signed hstarts, scanToken, unnegated_signed hstarts, isNegation_signed hstarts, hscan]

theorem tokens_of_no_prefix (hstarts : Starts chars) (negated : Bool) (hscan : scanPrefix chars = none) :
    tokens (signed negated chars) = ⟨negated, none, (scan_value chars).1⟩ :: tokens (scan_value chars).2 := by
  rw [tokens_signed hstarts, scanToken, unnegated_signed hstarts, isNegation_signed hstarts, hscan]

theorem scan_value_quoted {value : List Char} (hvalue : quote ∉ value) :
    scan_value (quote :: (value ++ quote :: rest)) = (String.ofList value, rest) := by
  have hopen : ∀ c ∈ value, decide (c ≠ quote) = true := fun c hc =>
    decide_eq_true fun hsame => hvalue (hsame ▸ hc)
  have htake : (quote :: rest).takeWhile (fun c => decide (c ≠ quote)) = [] :=
    List.takeWhile_cons_of_neg (by decide)
  have hdrop : (quote :: rest).dropWhile (fun c => decide (c ≠ quote)) = quote :: rest :=
    List.dropWhile_cons_of_neg (by decide)
  rw [scan_value, if_pos rfl, List.takeWhile_append_of_pos hopen, List.dropWhile_append_of_pos hopen, htake, hdrop,
    List.append_nil]
  rfl

theorem scan_prefixed_value_quoted {value : List Char} (hvalue : quote ∉ value) (prefix_ : String)
    (rest : List Char) :
    scan_prefixed_value (quote :: (value ++ quote :: rest)) prefix_ = (String.ofList value, rest) := by
  have hstart : str.trimStart (quote :: (value ++ quote :: rest)) = quote :: (value ++ quote :: rest) :=
    List.dropWhile_cons_of_neg (by decide)
  rw [scan_prefixed_value, hstart]
  split_ifs with hspaced hquote hnamed
  · exact scan_value_quoted hvalue
  · exact scan_value_quoted hvalue
  · exact absurd rfl hquote
  · exact absurd rfl hquote

end Scanning

section Letters

/-- The letters of the prefixes. -/
def isSmall (c : Char) : Bool := 97 ≤ c.toNat && c.toNat ≤ 122

/-- The prefixes that the parser accepts and the table of the tokenizer leaves out. -/
def recipientPrefixes : List String := ["to", "recipient"]

theorem small_of_mem {prefix_ : String} (hmem : prefix_ ∈ knownPrefixes ++ recipientPrefixes) :
    ∀ c ∈ prefix_.toList, isSmall c = true := by
  have hall : ∀ known ∈ knownPrefixes ++ recipientPrefixes, known.toList.all isSmall = true := by decide
  exact List.all_eq_true.mp (hall prefix_ hmem)

theorem prefixChar_of_small {c : Char} (hsmall : isSmall c.toLower = true) :
    prefixChar c = true ∧ c ≠ '-' ∧ c ≠ quote := by
  have hrange : 97 ≤ c.toLower.toNat ∧ c.toLower.toNat ≤ 122 := by
    simpa only [isSmall, Bool.and_eq_true, decide_eq_true_eq] using hsmall
  have hblank : str.is_whitespace c.toLower = false := by
    simp only [str.is_whitespace, Bool.or_eq_false_iff, Bool.and_eq_false_iff, decide_eq_false_iff_not,
      beq_eq_false_iff_ne]
    omega
  have hmark : ∀ mark : Char, mark.toNat < 65 → c ≠ mark := by
    rintro mark hlow rfl
    have hsame : c.toLower = c := str.toLower_of_not_capital (by omega)
    rw [hsame] at hrange
    omega
  rw [str.is_whitespace_toLower] at hblank
  refine ⟨?_, hmark '-' (by decide), hmark quote (by decide)⟩
  rw [prefixChar, notBlank, hblank, Bool.not_false, Bool.true_and]
  exact decide_eq_true (hmark ':' (by decide))

theorem prefixChar_of_known {prefix_ : String}
    (hknown : str.to_ascii_lowercase prefix_ ∈ knownPrefixes ++ recipientPrefixes) :
    ∀ c ∈ prefix_.toList, prefixChar c = true ∧ c ≠ '-' ∧ c ≠ quote := by
  intro c hc
  apply prefixChar_of_small
  apply small_of_mem hknown
  rw [str.to_ascii_lowercase, String.toList_ofList]
  exact List.mem_map_of_mem hc

/-- What a prefix with its colon starts with. -/
theorem head_prefixed {prefix_ : String}
    (hknown : str.to_ascii_lowercase prefix_ ∈ knownPrefixes ++ recipientPrefixes) (rest : List Char) :
    ∃ c later, prefix_.toList ++ ':' :: rest = c :: later ∧ notBlank c = true ∧ c ≠ '-' ∧ c ≠ quote := by
  have hchars := prefixChar_of_known hknown
  cases hnamed : prefix_.toList with
  | nil => exact ⟨':', rest, rfl, by decide, by decide, by decide⟩
  | cons c inner =>
    obtain ⟨hchar, hmarks⟩ := hchars c (hnamed ▸ List.mem_cons_self)
    exact ⟨c, inner ++ ':' :: rest, rfl, (Bool.and_eq_true _ _ ▸ hchar).1, hmarks⟩

theorem starts_prefixed {prefix_ : String}
    (hknown : str.to_ascii_lowercase prefix_ ∈ knownPrefixes ++ recipientPrefixes) (rest : List Char) :
    Starts (prefix_.toList ++ ':' :: rest) := by
  obtain ⟨c, later, hchars, hblank, hminus, -⟩ := head_prefixed hknown rest
  exact ⟨c, later, hchars, hblank, hminus⟩

theorem scanPrefix_prefixed {prefix_ : String}
    (hknown : str.to_ascii_lowercase prefix_ ∈ knownPrefixes ++ recipientPrefixes) (rest : List Char) :
    scanPrefix (prefix_.toList ++ ':' :: rest) = some (prefix_.toList, rest) :=
  scanPrefix_append fun c hc => (prefixChar_of_known hknown c hc).1

theorem tokens_prefixed {prefix_ : String}
    (hknown : str.to_ascii_lowercase prefix_ ∈ knownPrefixes ++ recipientPrefixes) (negated : Bool)
    (rest : List Char) :
    tokens (signed negated (prefix_.toList ++ ':' :: rest)) =
      ⟨negated, some prefix_, (scan_prefixed_value rest prefix_).1⟩ ::
        tokens (scan_prefixed_value rest prefix_).2 := by
  have hread := tokens_of_scanPrefix (starts_prefixed hknown rest) negated (scanPrefix_prefixed hknown rest)
  rw [String.ofList_toList] at hread
  exact hread

end Letters

/-- A token a user can write with its value quoted: the prefix is one of the grammar, in any case. -/
structure QueryToken extends Token where
  prefix_known : ∀ name ∈ prefix_, str.to_ascii_lowercase name ∈ knownPrefixes ++ recipientPrefixes
  value_unquoted : quote ∉ value.toList

namespace QueryToken

variable (token : QueryToken)

/-- The prefix with its colon and the quoted value. -/
def body : List Char :=
  match token.prefix_ with
  | some name => name.toList ++ ':' :: quote :: (token.value.toList ++ [quote])
  | none => quote :: (token.value.toList ++ [quote])

def render : String := String.ofList (signed token.negated token.body)

/-- No colon stands where the scanner looks for the end of a prefix. -/
def FreeOfColon : Prop := token.prefix_ = none → ':' ∉ token.value.toList.takeWhile notBlank

variable {token}

theorem render_append (tail : List Char) :
    token.render.toList ++ tail = signed token.negated (token.body ++ tail) := by
  rw [render, String.toList_ofList, signed, signed]
  cases token.negated <;> rfl

/-- A rendered token with a prefix is read back, whatever follows it. -/
theorem tokens_render_prefixed {name : String} (hnamed : token.prefix_ = some name) (tail : List Char) :
    tokens (token.render.toList ++ tail) = token.toToken :: tokens tail := by
  have hvalue := scan_prefixed_value_quoted token.value_unquoted name tail
  have htoken : token.toToken = ⟨token.negated, some name, token.value⟩ := by rw [← hnamed]
  have hbody : token.body ++ tail = name.toList ++ ':' :: quote :: (token.value.toList ++ quote :: tail) := by
    rw [body, hnamed]
    simp only [List.append_assoc, List.cons_append, List.nil_append]
  rw [render_append, hbody, tokens_prefixed (token.prefix_known name hnamed), hvalue, htoken, String.ofList_toList]

/-- What follows a quoted value does not reach into the search for a prefix, where whitespace parts them. -/
theorem colon_mem_takeWhile {value tail : List Char} (htail : tail.takeWhile notBlank = []) :
    ':' ∈ (quote :: (value ++ quote :: tail)).takeWhile notBlank ↔ ':' ∈ value.takeWhile notBlank := by
  have hquote : (quote :: tail).takeWhile notBlank = [quote] := by
    rw [List.takeWhile_cons_of_pos (by decide), htail]
  rw [List.takeWhile_cons_of_pos (by decide), List.mem_cons, or_iff_right (by decide), List.takeWhile_append]
  split_ifs with hall
  · rw [hquote, List.mem_append, List.mem_singleton, or_iff_left (by decide),
      (List.takeWhile_prefix notBlank).eq_of_length hall]
  · exact Iff.rfl

theorem render_free_append (hnamed : token.prefix_ = none) (tail : List Char) :
    token.render.toList ++ tail = signed token.negated (quote :: (token.value.toList ++ quote :: tail)) := by
  rw [render_append, body, hnamed]
  simp only [List.append_assoc, List.cons_append, List.nil_append]

theorem starts_quote (rest : List Char) : Starts (quote :: rest) := ⟨quote, rest, rfl, by decide, by decide⟩

theorem tokens_render (hfree : token.FreeOfColon) {tail : List Char} (htail : tail.takeWhile notBlank = []) :
    tokens (token.render.toList ++ tail) = token.toToken :: tokens tail := by
  cases hnamed : token.prefix_ with
  | some name => exact tokens_render_prefixed hnamed tail
  | none =>
    have hscan : scanPrefix (quote :: (token.value.toList ++ quote :: tail)) = none :=
      scanPrefix_eq_none_iff.mpr fun hmem => hfree hnamed ((colon_mem_takeWhile htail).mp hmem)
    have htoken : token.toToken = ⟨token.negated, none, token.value⟩ := by rw [← hnamed]
    rw [render_free_append hnamed, tokens_of_no_prefix (starts_quote _) _ hscan,
      scan_value_quoted token.value_unquoted, htoken, String.ofList_toList]

/-- Otherwise the opening quote becomes the start of a prefix. -/
theorem head_render_of_not_free (hcolon : ¬ token.FreeOfColon) {tail : List Char}
    (htail : tail.takeWhile notBlank = []) :
    ∃ read after, tokens (token.render.toList ++ tail) = read :: after ∧ read ≠ token.toToken := by
  obtain ⟨hnamed, hmem⟩ := Classical.not_imp.mp hcolon
  cases hscan : scanPrefix (quote :: (token.value.toList ++ quote :: tail)) with
  | none => exact absurd (fun hvalue => scanPrefix_eq_none_iff.mp hscan ((colon_mem_takeWhile htail).mpr hvalue)) hmem
  | some parts =>
    refine ⟨_, _, (congrArg tokens (render_free_append hnamed tail)).trans
      (tokens_of_scanPrefix (starts_quote _) _ hscan), fun hsame => ?_⟩
    have hnone := congrArg Token.prefix_ hsame
    rw [hnamed] at hnone
    cases hnone

/-- The tokens separated by spaces. -/
def renderAll (queried : List QueryToken) : String := " ".intercalate (queried.map render)

theorem renderAll_cons (first second : QueryToken) (rest : List QueryToken) :
    (renderAll (first :: second :: rest)).toList =
      first.render.toList ++ ' ' :: (renderAll (second :: rest)).toList := by
  rw [renderAll, renderAll, List.map_cons, List.map_cons, String.intercalate_cons_cons, String.toList_append,
    String.toList_append, List.append_assoc]
  rfl

/-- The text rendered of a list is the first token, followed by nothing or by a space and the other tokens. -/
theorem renderAll_append (first : QueryToken) (rest : List QueryToken) :
    ∃ tail, (renderAll (first :: rest)).toList = first.render.toList ++ tail ∧ tail.takeWhile notBlank = [] ∧
      tokens tail = tokenize (renderAll rest) := by
  cases rest with
  | nil =>
    refine ⟨[], ?_, rfl, rfl⟩
    rw [renderAll, List.map_cons, List.map_nil, String.intercalate_singleton, List.append_nil]
  | cons second rest => exact ⟨_, renderAll_cons first second rest, rfl, tokens_blank (by decide)⟩

end QueryToken

/-- Tokens written with their values quoted are read back unless the value of free text has a colon before its first
    whitespace: the scanner looks for a prefix before it looks for a quote. -/
theorem tokenize_renderAll_iff (queried : List QueryToken) :
    tokenize (QueryToken.renderAll queried) = queried.map QueryToken.toToken ↔
      ∀ token ∈ queried, token.prefix_ = none → ':' ∉ token.value.toList.takeWhile notBlank := by
  induction queried with
  | nil => exact iff_of_true (tokens_nil rfl) (fun _ hmem => absurd hmem List.not_mem_nil)
  | cons first rest ih =>
    obtain ⟨tail, htext, htail, hrest⟩ := QueryToken.renderAll_append first rest
    rw [List.forall_mem_cons, tokenize, htext, List.map_cons, ← ih, ← hrest]
    by_cases hfree : first.FreeOfColon
    · rw [QueryToken.tokens_render hfree htail, List.cons_inj_right]
      exact (and_iff_right hfree).symm
    · obtain ⟨read, after, hread, hother⟩ := QueryToken.head_render_of_not_free hfree htail
      rw [hread]
      exact iff_of_false (fun hsame => hother (List.cons.inj hsame).1) (fun hboth => hfree hboth.1)

/-- A quoted time of day is read as a value with the prefix before its colon. -/
theorem quoted_time_becomes_prefix :
    tokenize (QueryToken.renderAll [⟨⟨false, none, "10:30"⟩, nofun, by decide⟩]) = [⟨false, some "\"10", "30\""⟩] ∧
      tokenize (QueryToken.renderAll [⟨⟨false, none, "10:30"⟩, nofun, by decide⟩]) ≠ [⟨false, none, "10:30"⟩] := by
  refine ⟨?_, ?_⟩ <;> decide +kernel

end posthaste.query_grammar
