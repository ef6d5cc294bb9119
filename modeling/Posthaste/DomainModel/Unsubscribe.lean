import Posthaste.DomainModel.Records
import Posthaste.Library.Effects
import Posthaste.Library.Slice
import Posthaste.Library.Str

open effects slice

namespace posthaste.model

inductive UnsubscribeUrlError where
  | NotHttps
  | NonAscii
  | HasUserinfo
  | IpLiteralHost
  | MalformedAuthority
  deriving DecidableEq

/-- Printable ASCII. The bytes of every other character lie outside the range. -/
def isPrintable (c : Char) : Bool := 0x21 ≤ c.toNat && c.toNat ≤ 0x7e

/-- The text before the first of the characters. -/
def cut_before (test : Char → Bool) (text : List Char) : Except Panic (List Char) :=
  slice_to ((find test text).getD (size text)) text

def hasTwoDots : List Char → Bool
  | '.' :: '.' :: _ => true
  | _ :: rest => hasTwoDots rest
  | [] => false

def malformedPort (port : List Char) : Bool := port.isEmpty || !port.all Char.isDigit || 5 < size port

def malformedHost (host : List Char) : Bool :=
  host.isEmpty || 253 < size host || !(host.all fun c => c.isAlphanum || c == '-' || c == '.') ||
    host.head? == some '-' || host.head? == some '.' || host.getLast? == some '-' || hasTwoDots host

/-- The host of an authority and its port. -/
def hostAndPort (authority : List Char) : List Char × Option (List Char) :=
  match split_once ':' authority with
  | some (host, port) => (host, some port)
  | none => (authority, none)

def validate_authority (authority : List Char) : Except UnsubscribeUrlError Unit :=
  if '@' ∈ authority then .error .HasUserinfo
  else if '[' ∈ authority ∨ ']' ∈ authority then .error .IpLiteralHost
  else if (hostAndPort authority).2.any malformedPort then .error .MalformedAuthority
  else if malformedHost (hostAndPort authority).1 then .error .MalformedAuthority
  else if (hostAndPort authority).1.all fun c => c.isDigit || c == '.' then .error .IpLiteralHost
  else .ok ()

/-- What both checks start with: the scheme, in any case, then printable ASCII. -/
def afterScheme (scheme uri : List Char) : Except Panic (Except UnsubscribeUrlError Unit) :=
  if size uri ≤ scheme.length then .ok (.error .NotHttps)
  else do
    let start ← slice_to scheme.length uri
    .ok (if !eq_ignore_ascii_case start scheme then .error .NotHttps
      else if uri.any fun c => !isPrintable c then .error .NonAscii
      else .ok ())

def validate_one_click_https (uri : List Char) : Except Panic (Except UnsubscribeUrlError Unit) := do
  match ← afterScheme "https://".toList uri with
  | .error error => .ok (.error error)
  | .ok () => do
    let rest ← slice_from 8 uri
    let authority ← cut_before (fun c => c == '/' || c == '?' || c == '#') rest
    .ok (validate_authority authority)

/-- One address of a `mailto:` target: local@domain. -/
def validAddress (address : List Char) : Bool :=
  match split_once '@' address with
  | some (mailbox, domain) => !mailbox.isEmpty && !domain.isEmpty && !domain.contains '@'
  | none => false

def is_valid_mailto (uri : List Char) : Except Panic Bool := do
  match ← afterScheme "mailto:".toList uri with
  | .error _ => .ok false
  | .ok () => do
    let before ← cut_before (· == '?') uri
    let addresses ← slice_from 7 before
    .ok (!addresses.isEmpty && (addresses.splitOn ',').all validAddress)

/-- The text between the next brackets and what follows it, `none` where the loop ends. -/
def next_entry (rest : List Char) : Except Panic (Option (List Char × List Char)) :=
  match find (· == '<') rest with
  | none => .ok none
  | some start => do
    let after ← slice_from (start + 1) rest
    match find (· == '>') after with
    | none => .ok none
    | some stop => do
      let entry ← slice_to stop after
      let rest ← slice_from (stop + 1) after
      .ok (some (entry, rest))

def unfold_entry (entry : List Char) : List Char := entry.filter fun c => !str.is_whitespace c

structure Targets where
  https : Option (List Char)
  mailto : Option (List Char)

def isAccepted (checked : Except UnsubscribeUrlError Unit) : Bool :=
  match checked with
  | .ok _ => true
  | .error _ => false

/-- A kind already found is not checked again. -/
def checkHttps (https : Option (List Char)) (uri : List Char) : Except Panic Bool :=
  if https.isNone then (validate_one_click_https uri).map isAccepted else .ok false

def checkMailto (mailto : Option (List Char)) (uri : List Char) : Except Panic Bool :=
  if mailto.isNone then is_valid_mailto uri else .ok false

/-- One turn of the loop on an entry. -/
def take_entry (targets : Targets) (uri : List Char) : Except Panic Targets := do
  let accepted ← checkHttps targets.https uri
  if accepted then .ok { targets with https := some uri }
  else do
    let mail ← checkMailto targets.mailto uri
    .ok (if mail then { targets with mailto := some uri } else targets)

theorem next_entry_shorter {rest entry after : List Char} (hnext : next_entry rest = .ok (some (entry, after))) :
    after.length < rest.length := by
  unfold next_entry at hnext
  cases hfind : find (· == '<') rest with
  | none =>
    rw [hfind] at hnext
    cases hnext
  | some start =>
    obtain ⟨before, c, tail, rfl, rfl, hc, -⟩ := find_eq_some hfind
    obtain rfl : c = '<' := by simpa using hc
    rw [hfind] at hnext
    simp only [slice_from_after (show ('<' : Char).utf8Size = 1 from rfl), except_bind_ok] at hnext
    cases hstop : find (· == '>') tail with
    | none =>
      rw [hstop] at hnext
      cases hnext
    | some stop =>
      obtain ⟨inside, d, following, rfl, rfl, hd, -⟩ := find_eq_some hstop
      obtain rfl : d = '>' := by simpa using hd
      rw [hstop] at hnext
      simp only [slice_from_after (show ('>' : Char).utf8Size = 1 from rfl), slice_to_before, except_bind_ok] at hnext
      cases hnext
      simp only [List.length_append, List.length_cons]
      omega

/-- The loop over the entries. -/
def scan (targets : Targets) (rest : List Char) : Except Panic Targets :=
  match _hnext : next_entry rest with
  | .error panic => .error panic
  | .ok none => .ok targets
  | .ok (some (entry, after)) =>
    match take_entry targets (unfold_entry entry) with
    | .error panic => .error panic
    | .ok taken => if taken.https.isSome && taken.mailto.isSome then .ok taken else scan taken after
termination_by rest.length
decreasing_by exact next_entry_shorter _hnext

def isOneClick (post_header : Option String) : Bool :=
  post_header.any fun value =>
    eq_ignore_ascii_case (str.trim (String.ofList (value.toList.filter fun c => c != '\r' && c != '\n'))).toList
      "List-Unsubscribe=One-Click".toList

def parse_list_unsubscribe (header : String) (post_header : Option String) :
    Except Panic (Option ListUnsubscribe) := do
  let targets ← scan ⟨none, none⟩ header.toList
  .ok (if targets.https.isNone && targets.mailto.isNone then none
    else some {
      https := targets.https.map String.ofList
      mailto := targets.mailto.map String.ofList
      one_click := targets.https.isSome && isOneClick post_header })

end posthaste.model
