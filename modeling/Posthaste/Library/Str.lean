import Mathlib.Data.String.Basic

namespace str

/-- The Unicode `White_Space` property. -/
def is_whitespace (c : Char) : Bool :=
  let code := c.toNat
  (0x09 ≤ code && code ≤ 0x0d) || code == 0x20 || code == 0x85 || code == 0xa0 || code == 0x1680 ||
    (0x2000 ≤ code && code ≤ 0x200a) || code == 0x2028 || code == 0x2029 || code == 0x202f ||
    code == 0x205f || code == 0x3000

def trimStart (chars : List Char) : List Char := chars.dropWhile is_whitespace

def trimEnd (chars : List Char) : List Char := chars.reverse.dropWhile is_whitespace |>.reverse

def trim (text : String) : String := String.ofList (trimEnd (trimStart text.toList))

def take (text : String) (count : Nat) : String := String.ofList (text.toList.take count)

/-- The part after the last separator, if there is one. -/
def rsplit_once_tail (text : String) (separator : Char) : Option String :=
  if separator ∈ text.toList then
    some (String.ofList (text.toList.reverse.takeWhile (· ≠ separator)).reverse)
  else none

def splitWords (word : List Char) : List Char → List (List Char)
  | [] => if word.isEmpty then [] else [word.reverse]
  | c :: rest =>
    if is_whitespace c then
      if word.isEmpty then splitWords [] rest else word.reverse :: splitWords [] rest
    else splitWords (c :: word) rest

def split_whitespace (text : String) : List String := (splitWords [] text.toList).map String.ofList

/-- The trimmed text, when anything is left of it. -/
def nonBlank (text : String) : Option String :=
  if trim text = "" then none else some (trim text)

def hexDigits : List Char :=
  ['0', '1', '2', '3', '4', '5', '6', '7', '8', '9', 'a', 'b', 'c', 'd', 'e', 'f']

def hexDigit (digit : Fin 16) : Char := hexDigits.get digit

theorem hexDigit_injective : Function.Injective hexDigit := by
  unfold Function.Injective
  decide

def highDigit (byte : UInt8) : Fin 16 := ⟨byte.toNat / 16, by have := byte.toNat_lt; omega⟩

def lowDigit (byte : UInt8) : Fin 16 := ⟨byte.toNat % 16, by omega⟩

theorem byte_eq_of_digits {first second : UInt8} (hhigh : highDigit first = highDigit second)
    (hlow : lowDigit first = lowDigit second) : first = second := by
  have hdiv : first.toNat / 16 = second.toNat / 16 := congrArg Fin.val hhigh
  have hmod : first.toNat % 16 = second.toNat % 16 := congrArg Fin.val hlow
  apply UInt8.toNat_inj.mp
  omega

def hexChars : List UInt8 → List Char
  | [] => []
  | byte :: rest => hexDigit (highDigit byte) :: hexDigit (lowDigit byte) :: hexChars rest

/-- Lower-case hexadecimal, two digits a byte. -/
def hex_encode (bytes : List UInt8) : String := String.ofList (hexChars bytes)

theorem hexChars_injective : Function.Injective hexChars := by
  intro first
  induction first with
  | nil =>
    intro second hsame
    cases second with
    | nil => rfl
    | cons byte rest => cases hsame
  | cons byte rest ih =>
    intro second hsame
    cases second with
    | nil => cases hsame
    | cons other others =>
      rw [hexChars, hexChars, List.cons.injEq, List.cons.injEq] at hsame
      obtain ⟨hhigh, hlow, hrest⟩ := hsame
      rw [byte_eq_of_digits (hexDigit_injective hhigh) (hexDigit_injective hlow), ih hrest]

theorem hex_encode_injective : Function.Injective hex_encode := by
  intro first second hsame
  exact hexChars_injective (String.ofList_injective hsame)

/-- The digit of either case. -/
def hexValue (c : Char) : Option (Fin 16) := (List.finRange 16).find? fun digit => hexDigit digit = c.toLower

theorem hexValue_hexDigit (digit : Fin 16) : hexValue (hexDigit digit) = some digit := by
  revert digit
  decide

def hexBytes : List Char → Option (List UInt8)
  | [] => some []
  | [_] => none
  | high :: low :: rest => do
    let high ← hexValue high
    let low ← hexValue low
    let bytes ← hexBytes rest
    return UInt8.ofNat (high.val * 16 + low.val) :: bytes

/-- `hex::decode`: two digits a byte, of either case. -/
def hex_decode (text : String) : Option (List UInt8) := hexBytes text.toList

theorem byte_of_digits (byte : UInt8) : UInt8.ofNat ((highDigit byte).val * 16 + (lowDigit byte).val) = byte := by
  have hvalue : (highDigit byte).val * 16 + (lowDigit byte).val = byte.toNat := by
    have hsplit := Nat.div_add_mod' byte.toNat 16
    exact hsplit
  rw [hvalue, UInt8.ofNat_toNat]

theorem hexBytes_hexChars (bytes : List UInt8) : hexBytes (hexChars bytes) = some bytes := by
  induction bytes with
  | nil => rfl
  | cons byte rest ih =>
    rw [hexChars, hexBytes, hexValue_hexDigit, hexValue_hexDigit, ih]
    simp only [Option.bind_eq_bind, Option.bind_some, byte_of_digits]
    rfl

theorem hex_decode_hex_encode (bytes : List UInt8) : hex_decode (hex_encode bytes) = some bytes := by
  rw [hex_decode, hex_encode, String.toList_ofList, hexBytes_hexChars]
example : trim "  draft-1\t" = "draft-1" := by decide
example : split_whitespace " <a@x>  <b@x> " = ["<a@x>", "<b@x>"] := by decide
example : rsplit_once_tail "a@b@example.com" '@' = some "example.com" := by decide
example : hex_encode [0, 47, 255] = "002fff" := by decide

/-- A separator below every character of the ids before it keeps the order of the pairs. -/
theorem separated_lt {sep : Char} {first second : List Char} (hsecond : ∀ c ∈ second, sep < c)
    (hlt : first < second) (tail other : List Char) : first ++ sep :: tail < second ++ sep :: other := by
  induction first generalizing second with
  | nil =>
    cases second with
    | nil => cases hlt
    | cons c second => exact List.Lex.rel (hsecond c List.mem_cons_self)
  | cons a first ih =>
    cases second with
    | nil => cases hlt
    | cons c second =>
      rcases List.cons_lt_cons_iff.mp hlt with hhead | ⟨rfl, hrest⟩
      · exact List.Lex.rel hhead
      · exact List.Lex.cons (ih (fun d hd => hsecond d (List.mem_cons_of_mem _ hd)) hrest)

section Words

variable {word rest chars : List Char} {c : Char}

theorem splitWords_solid (hsolid : ∀ c ∈ word, is_whitespace c = false) (read : List Char) :
    splitWords read (word ++ rest) = splitWords (word.reverse ++ read) rest := by
  induction word generalizing read with
  | nil => rfl
  | cons c word ih =>
    have hhead := hsolid c List.mem_cons_self
    have hrest := ih (fun d hd => hsolid d (List.mem_cons_of_mem c hd)) (c :: read)
    rw [List.cons_append, splitWords, hhead, if_neg Bool.false_ne_true, hrest, List.reverse_cons, List.append_assoc]
    rfl

/-- A blank ends the word before it. -/
theorem splitWords_blank (hblank : is_whitespace c = true) (read : List Char) :
    splitWords read (c :: rest) = splitWords read [] ++ splitWords [] rest := by
  have hend : splitWords read [] = if read.isEmpty then [] else [read.reverse] := rfl
  rw [hend, splitWords, if_pos hblank]
  split_ifs <;> rfl

theorem splitWords_trimStart (chars : List Char) : splitWords [] (trimStart chars) = splitWords [] chars := by
  induction chars with
  | nil => rfl
  | cons c rest ih =>
    by_cases hblank : is_whitespace c = true
    · have hskip : trimStart (c :: rest) = trimStart rest := List.dropWhile_cons_of_pos hblank
      rw [hskip, ih, splitWords_blank hblank]
      rfl
    · have hstay : trimStart (c :: rest) = c :: rest := List.dropWhile_cons_of_neg hblank
      rw [hstay]

theorem splitWords_gap {gap : List Char} (hgap : ∀ c ∈ gap, is_whitespace c = true) (read : List Char) :
    splitWords read gap = splitWords read [] := by
  induction gap generalizing read with
  | nil => rfl
  | cons c gap ih =>
    rw [splitWords_blank (hgap c List.mem_cons_self), ih fun d hd => hgap d (List.mem_cons_of_mem c hd)]
    exact List.append_nil _

theorem splitWords_append_gap {gap : List Char} (hgap : ∀ c ∈ gap, is_whitespace c = true) (read : List Char) :
    splitWords read (chars ++ gap) = splitWords read chars := by
  induction chars generalizing read with
  | nil => exact splitWords_gap hgap read
  | cons c rest ih =>
    by_cases hblank : is_whitespace c = true
    · rw [List.cons_append, splitWords_blank hblank, splitWords_blank hblank, ih]
    · rw [List.cons_append, splitWords, splitWords, if_neg hblank, if_neg hblank, ih]

theorem splitWords_trimEnd (chars : List Char) : splitWords [] (trimEnd chars) = splitWords [] chars := by
  have hsplit : chars = trimEnd chars ++ (chars.reverse.takeWhile is_whitespace).reverse := by
    rw [trimEnd, ← List.reverse_append, List.takeWhile_append_dropWhile, List.reverse_reverse]
  have hgap : ∀ c ∈ (chars.reverse.takeWhile is_whitespace).reverse, is_whitespace c = true :=
    fun c hc => List.all_eq_true.mp List.all_takeWhile c (List.mem_reverse.mp hc)
  conv => rhs; rw [hsplit]
  rw [splitWords_append_gap hgap]

/-- The words of a trimmed text are those of the text. -/
theorem splitWords_trim (text : String) : splitWords [] (trim text).toList = splitWords [] text.toList := by
  rw [trim, String.toList_ofList, splitWords_trimEnd, splitWords_trimStart]

theorem splitWords_word (hword : word ≠ []) (hsolid : ∀ c ∈ word, is_whitespace c = false)
    (hblank : is_whitespace c = true) : splitWords [] (word ++ c :: rest) = word :: splitWords [] rest := by
  have hread : word.reverse.isEmpty = false := by
    rw [List.isEmpty_reverse]
    exact List.isEmpty_eq_false_iff.mpr hword
  rw [splitWords_solid hsolid, splitWords_blank hblank, List.append_nil, splitWords, hread, if_neg Bool.false_ne_true,
    List.reverse_reverse]
  rfl

/-- Words separated by spaces are the words of the text, whatever stands last. -/
theorem splitWords_intercalate {words : List (List Char)}
    (hwords : ∀ word ∈ words, word ≠ [] ∧ ∀ c ∈ word, is_whitespace c = false) (last : List Char) :
    splitWords [] ([' '].intercalate (words ++ [last])) = words ++ splitWords [] last := by
  induction words with
  | nil => rw [List.nil_append, List.intercalate_singleton, List.nil_append]
  | cons word words ih =>
    obtain ⟨hword, hsolid⟩ := hwords word List.mem_cons_self
    have hrest := ih fun other hother => hwords other (List.mem_cons_of_mem word hother)
    have hne : words ++ [last] ≠ [] := List.append_ne_nil_of_right_ne_nil words (List.cons_ne_nil last [])
    rw [List.cons_append, List.intercalate_cons_of_ne_nil hne, List.append_assoc, List.singleton_append,
      splitWords_word hword hsolid (by decide), hrest]
    rfl

end Words

end str
