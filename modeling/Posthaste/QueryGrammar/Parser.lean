import Mathlib.Tactic.FinCases
import Posthaste.DomainModel.MailQuery
import Posthaste.Library.Slice
import Posthaste.QueryGrammar.Tokenizer
import Posthaste.SmartMailboxes.Sql

open posthaste.model
open posthaste.store.smart_mailboxes (parse_i64)

namespace posthaste.query_grammar

/-- A computation that does not return. -/
inductive Panic where
  | char_boundary
  | overflow
  | out_of_range
  deriving DecidableEq

inductive Failure where
  | error (message : String)
  | panic (kind : Panic)
  deriving DecidableEq

/-- What the grammar uses of the calendar crate: `none` where a computation panics, the error's text where it fails. -/
structure Calendar where
  Format : Type
  Date : Type
  OffsetDateTime : Type
  Duration : Type
  parse_format : String → Except String Format
  parse_date : String → Format → Except String Date
  midnight_utc : Date → OffsetDateTime
  next_day : Date → Option Date
  days : Int → Option Duration
  weeks : Int → Option Duration
  sub : OffsetDateTime → Duration → Option OffsetDateTime
  format : OffsetDateTime → Except String String

/-- `map_err`, with what is printed before the error. -/
def failWith {α : Type} (text : String) : Except String α → Except Failure α
  | .ok value => .ok value
  | .error cause => .error (.error (text ++ cause))

def ok_or {α : Type} (message : String) : Option α → Except Failure α
  | some value => .ok value
  | none => .error (.error message)

/-- A computation that panics where it has no result. -/
def expect {α : Type} (kind : Panic) : Option α → Except Failure α
  | some value => .ok value
  | none => .error (.panic kind)

def condition_node (field : MailQueryField) (operator : MailQueryOperator) (value : MailQueryValue) (negated : Bool) :
    MailQueryRuleNode :=
  .Condition ⟨field, operator, negated, value⟩

section Dates

variable (calendar : Calendar) (now : calendar.OffsetDateTime)

def date_node (value : String) (negated : Bool) : Except Failure (List MailQueryRuleNode) := do
  let format ← failWith "date format error: " (calendar.parse_format "[year]-[month]-[day]")
  let date ← failWith ("invalid date '" ++ value ++ "': ") (calendar.parse_date value format)
  let start ← failWith "date format error: " (calendar.format (calendar.midnight_utc date))
  let next_day ← ok_or "date overflow" (calendar.next_day date)
  let ending ← failWith "date format error: " (calendar.format (calendar.midnight_utc next_day))
  .ok [.Group (.mk .All negated
    [condition_node .ReceivedAt .Ge (.String start) false, condition_node .ReceivedAt .Lt (.String ending) false])]

/-- A product of two `i64`. -/
def times (n factor : Int) : Option Int :=
  if -2 ^ 63 ≤ n * factor ∧ n * factor < 2 ^ 63 then some (n * factor) else none

/-- `now - duration` -/
def before (duration : Option calendar.Duration) : Except Failure calendar.OffsetDateTime := do
  let duration ← expect .out_of_range duration
  expect .out_of_range (calendar.sub now duration)

/-- The instant so many units before now. -/
def relativeTarget (n : Int) (unit : String) : Except Failure calendar.OffsetDateTime :=
  if unit = "d" then before calendar now (calendar.days n)
  else if unit = "w" then before calendar now (calendar.weeks n)
  else if unit = "m" then do
    let days ← expect .overflow (times n 30)
    before calendar now (calendar.days days)
  else if unit = "y" then do
    let days ← expect .overflow (times n 365)
    before calendar now (calendar.days days)
  else .error (.error ("unknown relative date unit: " ++ unit))

/-- Parses `Nd`, `Nw`, `Nm`, `Ny` and subtracts from now. -/
def compute_relative_date (spec : String) : Except Failure String :=
  let size := slice.size spec.toList
  if size < 2 then .error (.error ("invalid relative date: " ++ spec))
  else do
    let (num_str, unit) ← expect .char_boundary (slice.cut (size - 1) spec.toList)
    match parse_i64 (String.ofList num_str) with
    | none => .error (.error ("invalid number in relative date: " ++ String.ofList num_str))
    | some n => do
      let target ← relativeTarget calendar now n (String.ofList unit)
      failWith "date format error: " (calendar.format target)

def relative_date_node (value : String) (operator : MailQueryOperator) (negated : Bool) :
    Except Failure (List MailQueryRuleNode) := do
  let iso ← compute_relative_date calendar now value
  .ok [condition_node .ReceivedAt operator (.String iso) negated]

end Dates

/-- Any of the conditions on one text. -/
def anyNode (conditions : List (MailQueryField × MailQueryOperator)) (value : String) (negated : Bool) :
    MailQueryRuleNode :=
  .Group (.mk .Any negated (conditions.map fun condition =>
    condition_node condition.1 condition.2 (.String value) false))

def from_node (value : String) (negated : Bool) : MailQueryRuleNode :=
  anyNode [(.FromEmail, .Contains), (.FromName, .Contains)] value negated

def mailbox_node (value : String) (negated : Bool) : MailQueryRuleNode :=
  anyNode [(.MailboxRole, .Equals), (.MailboxId, .Equals), (.MailboxName, .Contains)] value negated

def source_node (value : String) (negated : Bool) : MailQueryRuleNode :=
  anyNode [(.SourceId, .Equals), (.SourceName, .Contains)] value negated

def free_text_node (value : String) (negated : Bool) : MailQueryRuleNode :=
  anyNode [(.FromName, .Contains), (.FromEmail, .Contains), (.Subject, .Contains), (.Preview, .Contains),
    (.Body, .Contains)] value negated

def is_node (value : String) (negated : Bool) : Except Failure (List MailQueryRuleNode) :=
  let value := str.to_ascii_lowercase value
  if value = "unread" then .ok [condition_node .IsRead .Equals (.Bool false) negated]
  else if ["read", "seen"].contains value then .ok [condition_node .IsRead .Equals (.Bool true) negated]
  else if value = "flagged" then .ok [condition_node .IsFlagged .Equals (.Bool true) negated]
  else if value = "unflagged" then .ok [condition_node .IsFlagged .Equals (.Bool false) negated]
  else if ["attachment", "attachments"].contains value then
    .ok [condition_node .HasAttachment .Equals (.Bool true) negated]
  else .error (.error ("unknown is: value: " ++ value))

def has_node (value : String) (negated : Bool) : Except Failure (List MailQueryRuleNode) :=
  let value := str.to_ascii_lowercase value
  if ["attachment", "attachments"].contains value then
    .ok [condition_node .HasAttachment .Equals (.Bool true) negated]
  else .error (.error ("unknown has: value: " ++ value))

section Tokens

variable (calendar : Calendar) (now : calendar.OffsetDateTime)

def parse_prefixed (prefix_ value : String) (negated : Bool) : Except Failure (List MailQueryRuleNode) :=
  let value := str.trim value
  let normalized := str.to_ascii_lowercase prefix_
  let condition := fun field operator => Except.ok [condition_node field operator (.String value) negated]
  if value = "" then .error (.error ("empty value for " ++ prefix_ ++ ":"))
  else if ["f", "from", "sender"].contains normalized then .ok [from_node value negated]
  else if ["subject", "s"].contains normalized then condition .Subject .Contains
  else if ["to", "recipient"].contains normalized then condition .To .Contains
  else if normalized = "body" then condition .Body .Contains
  else if normalized = "preview" then condition .Preview .Contains
  else if normalized = "is" then is_node value negated
  else if normalized = "has" then has_node value negated
  else if ["tag", "keyword"].contains normalized then condition .Keyword .Equals
  else if ["in", "mailbox"].contains normalized then .ok [mailbox_node value negated]
  else if ["source", "account"].contains normalized then .ok [source_node value negated]
  else if normalized = "id" then condition .MessageId .Equals
  else if ["thread", "threadid"].contains normalized then condition .ThreadId .Equals
  else if ["conversation", "conversationid", "conv"].contains normalized then condition .ConversationId .Equals
  else if normalized = "before" then condition .ReceivedAt .Lt
  else if normalized = "after" then condition .ReceivedAt .Gt
  else if normalized = "date" then date_node calendar value negated
  else if normalized = "newer" then relative_date_node calendar now value .Gt negated
  else if normalized = "older" then relative_date_node calendar now value .Lt negated
  else .error (.error ("unknown search prefix: " ++ prefix_))

def parse_token (token : Token) : Except Failure (List MailQueryRuleNode) :=
  match token.prefix_ with
  | some prefix_ => parse_prefixed calendar now prefix_ token.value token.negated
  | none => .ok [free_text_node token.value token.negated]

/-- A token taken out of the tree for the caller to resolve. -/
structure ScopeToken where
  negated : Bool
  value : String
  deriving DecidableEq

def is_scope_prefix (prefix_ : Option String) (scope_prefixes : List String) : Bool :=
  prefix_.any fun name => scope_prefixes.any fun scope => slice.eq_ignore_ascii_case scope.toList name.toList

/-- The loop over the tokens. -/
def parseTokens (scope_prefixes : List String) :
    List Token → Except Failure (List MailQueryRuleNode × List ScopeToken)
  | [] => .ok ([], [])
  | token :: rest =>
    if is_scope_prefix token.prefix_ scope_prefixes then do
      let (nodes, scopes) ← parseTokens scope_prefixes rest
      .ok (nodes, ⟨token.negated, token.value⟩ :: scopes)
    else do
      let parsed ← parse_token calendar now token
      let (nodes, scopes) ← parseTokens scope_prefixes rest
      .ok (parsed ++ nodes, scopes)

def parse_query_with_scopes (query : String) (scope_prefixes : List String) :
    Except Failure (Option MailQueryRule × List ScopeToken) := do
  let (nodes, scopes) ← parseTokens calendar now scope_prefixes (tokenize query)
  .ok (if nodes.isEmpty then none else some ⟨.mk .All false nodes⟩, scopes)

def empty_rule : MailQueryRule := ⟨.mk .All false []⟩

def parse_query (query : String) : Except Failure MailQueryRule := do
  let (rule, _) ← parse_query_with_scopes calendar now query []
  .ok (rule.getD empty_rule)

end Tokens

section Outcomes

variable {α β : Type} {outcome : Except Failure α} {next : α → Except Failure β}

def Panics (outcome : Except Failure α) : Prop := ∃ kind, outcome = .error (.panic kind)

def Returns (outcome : Except Failure α) : Prop := ∃ value, outcome = .ok value

theorem panics_bind_iff :
    Panics (outcome >>= next) ↔ Panics outcome ∨ ∃ value, outcome = .ok value ∧ Panics (next value) := by
  cases outcome with
  | error failure =>
    constructor
    · rintro ⟨kind, hkind⟩
      exact .inl ⟨kind, congrArg Except.error (Except.error.inj hkind)⟩
    · rintro (⟨kind, hkind⟩ | ⟨value, hvalue, -⟩)
      · exact ⟨kind, congrArg Except.error (Except.error.inj hkind)⟩
      · cases hvalue
  | ok value =>
    constructor
    · intro hpanics
      exact .inr ⟨value, rfl, hpanics⟩
    · rintro (⟨kind, hkind⟩ | ⟨value, hvalue, hpanics⟩)
      · cases hkind
      · cases hvalue
        exact hpanics

theorem returns_bind_iff : Returns (outcome >>= next) ↔ ∃ value, outcome = .ok value ∧ Returns (next value) := by
  cases outcome with
  | error failure =>
    constructor
    · rintro ⟨value, hvalue⟩
      cases hvalue
    · rintro ⟨value, hvalue, -⟩
      cases hvalue
  | ok value =>
    constructor
    · intro hreturns
      exact ⟨value, rfl, hreturns⟩
    · rintro ⟨value, hvalue, hreturns⟩
      cases hvalue
      exact hreturns

@[simp] theorem not_panics_ok (value : α) : ¬ Panics (.ok value : Except Failure α) := nofun

@[simp] theorem not_panics_error (message : String) : ¬ Panics (.error (.error message) : Except Failure α) := nofun

@[simp] theorem returns_ok (value : α) : Returns (.ok value : Except Failure α) := ⟨value, rfl⟩

@[simp] theorem not_returns_error (failure : Failure) : ¬ Returns (.error failure : Except Failure α) := nofun

@[simp] theorem not_panics_failWith (text : String) (result : Except String α) : ¬ Panics (failWith text result) := by
  cases result <;> exact nofun

@[simp] theorem failWith_eq_ok_iff {text : String} {result : Except String α} {value : α} :
    failWith text result = .ok value ↔ result = .ok value := by
  cases result with
  | ok found => exact ⟨fun hsame => congrArg Except.ok (Except.ok.inj hsame),
      fun hsame => congrArg Except.ok (Except.ok.inj hsame)⟩
  | error cause => exact ⟨nofun, nofun⟩

@[simp] theorem not_panics_ok_or (message : String) (result : Option α) : ¬ Panics (ok_or message result) := by
  cases result <;> exact nofun

@[simp] theorem ok_or_eq_ok_iff {message : String} {result : Option α} {value : α} :
    ok_or message result = .ok value ↔ result = some value := by
  cases result with
  | some found => exact ⟨fun hsame => congrArg some (Except.ok.inj hsame),
      fun hsame => congrArg Except.ok (Option.some.inj hsame)⟩
  | none => exact ⟨nofun, nofun⟩

@[simp] theorem panics_expect_iff {kind : Panic} {result : Option α} :
    Panics (expect kind result) ↔ result = none := by
  cases result with
  | some value => exact ⟨nofun, nofun⟩
  | none => exact ⟨fun _ => rfl, fun _ => ⟨kind, rfl⟩⟩

@[simp] theorem expect_eq_ok_iff {kind : Panic} {result : Option α} {value : α} :
    expect kind result = .ok value ↔ result = some value := by
  cases result with
  | some found => exact ⟨fun hsame => congrArg some (Except.ok.inj hsame),
      fun hsame => congrArg Except.ok (Option.some.inj hsame)⟩
  | none => exact ⟨nofun, nofun⟩

/-- A chain of branches, read from the front. -/
theorem returns_ite {condition : Prop} [Decidable condition] {first second : Except Failure α}
    (hfirst : condition → Returns first) (hsecond : ¬ condition → Returns second) :
    Returns (if condition then first else second) := by
  by_cases hcondition : condition
  · rw [if_pos hcondition]
    exact hfirst hcondition
  · rw [if_neg hcondition]
    exact hsecond hcondition

end Outcomes

section RelativeDates

variable (calendar : Calendar) (now : calendar.OffsetDateTime)

def dateUnits : List Char := ['d', 'w', 'm', 'y']

/-- The duration of so many units, where it can be computed. -/
def durationOf (n : Int) : Char → Option calendar.Duration
  | 'd' => calendar.days n
  | 'w' => calendar.weeks n
  | 'm' => (times n 30).bind calendar.days
  | 'y' => (times n 365).bind calendar.days
  | _ => none

/-- The instant so many units before now, where it can be computed. -/
def instantBefore (n : Int) (unit : Char) : Option calendar.OffsetDateTime :=
  (durationOf calendar n unit).bind (calendar.sub now)

/-- A relative date whose last character is longer than a byte, or whose amount of time cannot be computed or
    subtracted. -/
def OverreachingDate (spec : String) : Prop :=
  ∃ number unit, spec.toList = number ++ [unit] ∧
    (unit.utf8Size ≠ 1 ∨
      unit ∈ dateUnits ∧ ∃ n, parse_i64 (String.ofList number) = some n ∧ instantBefore calendar now n unit = none)

/-- A number and a unit, at an instant that can be computed and printed. -/
def ReadableDate (spec : String) : Prop :=
  ∃ number unit n target text, spec.toList = number ++ [unit] ∧ unit ∈ dateUnits ∧
    parse_i64 (String.ofList number) = some n ∧ instantBefore calendar now n unit = some target ∧
    calendar.format target = .ok text

variable {calendar now} {spec : String} {number : List Char} {unit : Char} {n : Int}

theorem before_eq_ok_iff {duration : Option calendar.Duration} {target : calendar.OffsetDateTime} :
    before calendar now duration = .ok target ↔ duration.bind (calendar.sub now) = some target := by
  cases duration with
  | none => exact ⟨nofun, nofun⟩
  | some duration => exact expect_eq_ok_iff

theorem panics_before_iff {duration : Option calendar.Duration} :
    Panics (before calendar now duration) ↔ duration.bind (calendar.sub now) = none := by
  cases duration with
  | none => exact ⟨fun _ => rfl, fun _ => ⟨_, rfl⟩⟩
  | some duration => exact panics_expect_iff

theorem before_days_eq_ok_iff {days : Option Int} {target : calendar.OffsetDateTime} :
    (expect .overflow days >>= fun days => before calendar now (calendar.days days)) = .ok target ↔
      (days.bind calendar.days).bind (calendar.sub now) = some target := by
  cases days with
  | none => exact ⟨nofun, nofun⟩
  | some days => exact before_eq_ok_iff

theorem panics_before_days_iff {days : Option Int} :
    Panics (expect .overflow days >>= fun days => before calendar now (calendar.days days)) ↔
      (days.bind calendar.days).bind (calendar.sub now) = none := by
  cases days with
  | none => exact ⟨fun _ => rfl, fun _ => ⟨_, rfl⟩⟩
  | some days => exact panics_before_iff

theorem relativeTarget_unknown (hunit : unit ∉ dateUnits) :
    relativeTarget calendar now n (String.ofList [unit]) =
      .error (.error ("unknown relative date unit: " ++ String.ofList [unit])) := by
  have hother : ∀ known ∈ dateUnits, String.ofList [unit] ≠ String.ofList [known] := by
    intro known hknown hsame
    obtain rfl := List.singleton_inj.mp (String.ofList_inj.mp hsame)
    exact hunit hknown
  rw [relativeTarget, if_neg (hother 'd' (by decide)), if_neg (hother 'w' (by decide)),
    if_neg (hother 'm' (by decide)), if_neg (hother 'y' (by decide))]

/-- The unit decides the branch, and the branch computes the instant. -/
theorem relativeTarget_eq_ok_iff {target : calendar.OffsetDateTime} :
    relativeTarget calendar now n (String.ofList [unit]) = .ok target ↔
      unit ∈ dateUnits ∧ instantBefore calendar now n unit = some target := by
  by_cases hunit : unit ∈ dateUnits
  · rw [and_iff_right hunit]
    simp only [dateUnits, List.mem_cons, List.not_mem_nil, or_false] at hunit
    rcases hunit with rfl | rfl | rfl | rfl
    · exact before_eq_ok_iff
    · exact before_eq_ok_iff
    · exact before_days_eq_ok_iff
    · exact before_days_eq_ok_iff
  · rw [relativeTarget_unknown hunit]
    exact iff_of_false nofun fun hboth => hunit hboth.1

theorem panics_relativeTarget_iff :
    Panics (relativeTarget calendar now n (String.ofList [unit])) ↔
      unit ∈ dateUnits ∧ instantBefore calendar now n unit = none := by
  by_cases hunit : unit ∈ dateUnits
  · rw [and_iff_right hunit]
    simp only [dateUnits, List.mem_cons, List.not_mem_nil, or_false] at hunit
    rcases hunit with rfl | rfl | rfl | rfl
    · exact panics_before_iff
    · exact panics_before_iff
    · exact panics_before_days_iff
    · exact panics_before_days_iff
  · rw [relativeTarget_unknown hunit]
    exact iff_of_false (not_panics_error _) fun hboth => hunit hboth.1

theorem size_ne_zero (hnumber : number ≠ []) : 0 < slice.size number := by
  cases number with
  | nil => exact absurd rfl hnumber
  | cons c rest =>
    have hpos := c.utf8Size_pos
    rw [slice.size_cons]
    omega

theorem size_spec (hspec : spec.toList = number ++ [unit]) :
    slice.size spec.toList = slice.size number + unit.utf8Size := by
  rw [hspec, slice.size_append, slice.size_cons, slice.size_nil, Nat.add_zero]

theorem cut_spec (hspec : spec.toList = number ++ [unit]) (hnarrow : unit.utf8Size = 1) :
    slice.cut (slice.size spec.toList - 1) spec.toList = some (number, [unit]) := by
  have hsize := size_spec hspec
  have hindex : slice.size spec.toList - 1 = slice.size number := by omega
  rw [hindex, hspec]
  exact slice.cut_append

/-- The split one byte before the end falls inside the last character. -/
theorem compute_relative_date_wide (hspec : spec.toList = number ++ [unit]) (hwide : unit.utf8Size ≠ 1) :
    compute_relative_date calendar now spec = .error (.panic .char_boundary) := by
  have hsize := size_spec hspec
  have hpos := unit.utf8Size_pos
  have hcut : slice.cut (slice.size spec.toList - 1) spec.toList = none := by
    rw [hspec] at hsize ⊢
    exact slice.cut_inside (by omega) (by omega)
  rw [compute_relative_date, if_neg (by omega), hcut]
  rfl

theorem compute_relative_date_narrow (hspec : spec.toList = number ++ [unit]) (hnarrow : unit.utf8Size = 1)
    (hparsed : parse_i64 (String.ofList number) = some n) :
    compute_relative_date calendar now spec =
      relativeTarget calendar now n (String.ofList [unit]) >>= fun target =>
        failWith "date format error: " (calendar.format target) := by
  have hsize := size_spec hspec
  have hnumber : number ≠ [] := by
    rintro rfl
    have hempty : parse_i64 (String.ofList []) = none := by decide
    rw [hempty] at hparsed
    cases hparsed
  have hpos := size_ne_zero hnumber
  rw [compute_relative_date, if_neg (by omega), cut_spec hspec hnarrow]
  simp only [expect, bind, Except.bind, hparsed]

variable (calendar now) in
theorem compute_relative_date_no_number (hspec : spec.toList = number ++ [unit]) (hnarrow : unit.utf8Size = 1)
    (hparsed : parse_i64 (String.ofList number) = none) :
    ∃ message, compute_relative_date calendar now spec = .error (.error message) := by
  rw [compute_relative_date, cut_spec hspec hnarrow]
  split_ifs
  · exact ⟨_, rfl⟩
  · simp only [expect, bind, Except.bind, hparsed]
    exact ⟨_, rfl⟩

theorem utf8Size_of_unit (hunit : unit ∈ dateUnits) : unit.utf8Size = 1 := by
  fin_cases hunit <;> rfl

theorem ne_nil_of_last (hspec : spec.toList = number ++ [unit]) : spec.toList ≠ [] := by
  rw [hspec]
  exact List.append_ne_nil_of_right_ne_nil number (List.cons_ne_nil unit [])

theorem OverreachingDate.ne_nil (hreaches : OverreachingDate calendar now spec) : spec.toList ≠ [] := by
  obtain ⟨number, unit, hspec, -⟩ := hreaches
  exact ne_nil_of_last hspec

theorem overreachingDate_iff (hspec : spec.toList = number ++ [unit]) :
    OverreachingDate calendar now spec ↔ unit.utf8Size ≠ 1 ∨
      unit ∈ dateUnits ∧
        ∃ n, parse_i64 (String.ofList number) = some n ∧ instantBefore calendar now n unit = none := by
  constructor
  · rintro ⟨found, last, hfound, hreaches⟩
    obtain ⟨rfl, hlast⟩ := List.append_inj' (hspec.symm.trans hfound) rfl
    obtain rfl := List.singleton_inj.mp hlast
    exact hreaches
  · intro hreaches
    exact ⟨number, unit, hspec, hreaches⟩

theorem readableDate_iff (hspec : spec.toList = number ++ [unit]) :
    ReadableDate calendar now spec ↔ unit ∈ dateUnits ∧ ∃ n target text, parse_i64 (String.ofList number) = some n ∧
      instantBefore calendar now n unit = some target ∧ calendar.format target = .ok text := by
  constructor
  · rintro ⟨found, last, n, target, text, hfound, hunit, hreads⟩
    obtain ⟨rfl, hlast⟩ := List.append_inj' (hspec.symm.trans hfound) rfl
    obtain rfl := List.singleton_inj.mp hlast
    exact ⟨hunit, n, target, text, hreads⟩
  · rintro ⟨hunit, n, target, text, hreads⟩
    exact ⟨number, unit, n, target, text, hspec, hunit, hreads⟩

variable (calendar now) in
/-- A text is refused as too short, or it has a last character. -/
theorem compute_relative_date_cases (spec : String) :
    (spec.toList = [] ∧ ∃ message, compute_relative_date calendar now spec = .error (.error message)) ∨
      ∃ number unit, spec.toList = number ++ [unit] := by
  rcases List.eq_nil_or_concat' spec.toList with hempty | hlast
  · left
    refine ⟨hempty, "invalid relative date: " ++ spec, ?_⟩
    have hsize : slice.size spec.toList < 2 := by
      rw [hempty, slice.size_nil]
      omega
    rw [compute_relative_date, if_pos hsize]
  · exact .inr hlast

theorem panics_compute_relative_date_iff :
    Panics (compute_relative_date calendar now spec) ↔ OverreachingDate calendar now spec := by
  rcases compute_relative_date_cases calendar now spec with
    ⟨hempty, message, herror⟩ | ⟨number, unit, hspec⟩
  · rw [herror]
    exact iff_of_false (not_panics_error message) fun hreaches => hreaches.ne_nil hempty
  · rw [overreachingDate_iff hspec]
    by_cases hnarrow : unit.utf8Size = 1
    · rw [or_iff_right (not_not_intro hnarrow)]
      cases hparsed : parse_i64 (String.ofList number) with
      | none =>
        obtain ⟨message, herror⟩ := compute_relative_date_no_number calendar now hspec hnarrow hparsed
        rw [herror]
        exact iff_of_false (not_panics_error message) nofun
      | some n =>
        rw [compute_relative_date_narrow hspec hnarrow hparsed, panics_bind_iff, panics_relativeTarget_iff]
        simp
    · rw [compute_relative_date_wide hspec hnarrow]
      exact iff_of_true ⟨_, rfl⟩ (.inl hnarrow)

theorem returns_compute_relative_date_iff :
    Returns (compute_relative_date calendar now spec) ↔ ReadableDate calendar now spec := by
  rcases compute_relative_date_cases calendar now spec with
    ⟨hempty, message, herror⟩ | ⟨number, unit, hspec⟩
  · rw [herror]
    refine iff_of_false (not_returns_error _) ?_
    rintro ⟨number, unit, n, target, text, hspec, -⟩
    exact ne_nil_of_last hspec hempty
  · rw [readableDate_iff hspec]
    by_cases hnarrow : unit.utf8Size = 1
    · cases hparsed : parse_i64 (String.ofList number) with
      | none =>
        obtain ⟨message, herror⟩ := compute_relative_date_no_number calendar now hspec hnarrow hparsed
        rw [herror]
        exact iff_of_false (not_returns_error _) nofun
      | some n =>
        rw [compute_relative_date_narrow hspec hnarrow hparsed, returns_bind_iff]
        simp only [relativeTarget_eq_ok_iff, Returns, failWith_eq_ok_iff, Option.some.injEq]
        constructor
        · rintro ⟨target, ⟨hunit, hinstant⟩, text, hformat⟩
          exact ⟨hunit, n, target, text, rfl, hinstant, hformat⟩
        · rintro ⟨hunit, m, target, text, rfl, hinstant, hformat⟩
          exact ⟨target, ⟨hunit, hinstant⟩, text, hformat⟩
    · rw [compute_relative_date_wide hspec hnarrow]
      exact iff_of_false (not_returns_error _) fun hreads => hnarrow (utf8Size_of_unit hreads.1)

end RelativeDates

section Prefixes

variable (calendar : Calendar) (now : calendar.OffsetDateTime)

/-- The prefixes that take every value. -/
def plainPrefixes : List String :=
  ["f", "from", "sender", "subject", "s", "to", "recipient", "body", "preview", "tag", "keyword", "in", "mailbox",
    "source", "account", "id", "thread", "threadid", "conversation", "conversationid", "conv", "before", "after"]

def relativePrefixes : List String := ["newer", "older"]

def attachmentValues : List String := ["attachment", "attachments"]

def isValues : List String := ["unread", "read", "seen", "flagged", "unflagged"] ++ attachmentValues

/-- A day of the calendar, with a next day, both printable. -/
def ReadableDay (value : String) : Prop :=
  ∃ format date start next_day ending, calendar.parse_format "[year]-[month]-[day]" = .ok format ∧
    calendar.parse_date value format = .ok date ∧ calendar.format (calendar.midnight_utc date) = .ok start ∧
    calendar.next_day date = some next_day ∧ calendar.format (calendar.midnight_utc next_day) = .ok ending

/-- A value, trimmed, that its prefix in lower case takes. -/
def ReadableValue (name value : String) : Prop :=
  value ≠ "" ∧
    (name ∈ plainPrefixes ∨ name = "is" ∧ str.to_ascii_lowercase value ∈ isValues ∨
      name = "has" ∧ str.to_ascii_lowercase value ∈ attachmentValues ∨ name = "date" ∧ ReadableDay calendar value ∨
      name ∈ relativePrefixes ∧ ReadableDate calendar now value)

/-- A token with a meaning: free text, or a prefix and a value it takes. -/
def Readable (token : Token) : Prop :=
  ∀ name ∈ token.prefix_, ReadableValue calendar now (str.to_ascii_lowercase name) (str.trim token.value)

/-- An age that the calendar cannot go back to, or that is not cut at a character. -/
def Overreaches (token : Token) : Prop :=
  ∃ name ∈ token.prefix_, str.to_ascii_lowercase name ∈ relativePrefixes ∧
    OverreachingDate calendar now (str.trim token.value)

variable {calendar now} {prefix_ value : String} {negated : Bool}

theorem not_panics_is_node : ¬ Panics (is_node value negated) := by
  rw [is_node]
  split_ifs <;> simp

theorem not_panics_has_node : ¬ Panics (has_node value negated) := by
  rw [has_node]
  split_ifs <;> simp

theorem returns_is_node_iff : Returns (is_node value negated) ↔ str.to_ascii_lowercase value ∈ isValues := by
  rw [is_node]
  generalize str.to_ascii_lowercase value = name
  simp only [isValues, attachmentValues, List.cons_append, List.nil_append, List.mem_cons, List.not_mem_nil, or_false]
  split_ifs <;> (simp_all; try tauto)

theorem returns_has_node_iff :
    Returns (has_node value negated) ↔ str.to_ascii_lowercase value ∈ attachmentValues := by
  rw [has_node]
  split_ifs <;> simp_all [attachmentValues]

theorem not_panics_date_node : ¬ Panics (date_node calendar value negated) := by
  rw [date_node]
  simp only [panics_bind_iff, not_panics_failWith, not_panics_ok_or, not_panics_ok, false_or, and_false, exists_false,
    not_false_iff]

theorem returns_date_node_iff : Returns (date_node calendar value negated) ↔ ReadableDay calendar value := by
  rw [date_node]
  simp only [returns_bind_iff, failWith_eq_ok_iff, ok_or_eq_ok_iff, returns_ok, and_true]
  constructor
  · rintro ⟨format, hformat, date, hdate, start, hstart, next_day, hnext, ending, hending⟩
    exact ⟨format, date, start, next_day, ending, hformat, hdate, hstart, hnext, hending⟩
  · rintro ⟨format, date, start, next_day, ending, hformat, hdate, hstart, hnext, hending⟩
    exact ⟨format, hformat, date, hdate, start, hstart, next_day, hnext, ending, hending⟩

theorem panics_relative_date_node_iff {operator : MailQueryOperator} :
    Panics (relative_date_node calendar now value operator negated) ↔ OverreachingDate calendar now value := by
  rw [relative_date_node, panics_bind_iff, panics_compute_relative_date_iff]
  simp only [not_panics_ok, and_false, exists_false, or_false]

theorem returns_relative_date_node_iff {operator : MailQueryOperator} :
    Returns (relative_date_node calendar now value operator negated) ↔ ReadableDate calendar now value := by
  rw [relative_date_node, returns_bind_iff, ← returns_compute_relative_date_iff]
  simp only [returns_ok, and_true]
  exact Iff.rfl

theorem parse_prefixed_empty (hempty : str.trim value = "") :
    parse_prefixed calendar now prefix_ value negated = .error (.error ("empty value for " ++ prefix_ ++ ":")) := by
  rw [parse_prefixed, if_pos hempty]

variable (calendar now negated) in
theorem parse_prefixed_plain (hvalue : str.trim value ≠ "")
    (hplain : str.to_ascii_lowercase prefix_ ∈ plainPrefixes) :
    Returns (parse_prefixed calendar now prefix_ value negated) := by
  rw [parse_prefixed, if_neg hvalue]
  generalize str.to_ascii_lowercase prefix_ = name at hplain ⊢
  refine returns_ite (fun _ => returns_ok _) fun hfrom => ?_
  refine returns_ite (fun _ => returns_ok _) fun hsubject => ?_
  refine returns_ite (fun _ => returns_ok _) fun hto => ?_
  refine returns_ite (fun _ => returns_ok _) fun hbody => ?_
  refine returns_ite (fun _ => returns_ok _) fun hpreview => ?_
  refine returns_ite (fun his => absurd hplain (his ▸ by decide)) fun _ => ?_
  refine returns_ite (fun hhas => absurd hplain (hhas ▸ by decide)) fun _ => ?_
  refine returns_ite (fun _ => returns_ok _) fun htag => ?_
  refine returns_ite (fun _ => returns_ok _) fun hin => ?_
  refine returns_ite (fun _ => returns_ok _) fun hsource => ?_
  refine returns_ite (fun _ => returns_ok _) fun hid => ?_
  refine returns_ite (fun _ => returns_ok _) fun hthread => ?_
  refine returns_ite (fun _ => returns_ok _) fun hconversation => ?_
  refine returns_ite (fun _ => returns_ok _) fun hbefore => ?_
  refine returns_ite (fun _ => returns_ok _) fun hafter => ?_
  refine absurd hplain ?_
  simp_all [plainPrefixes]

theorem parse_prefixed_is (hvalue : str.trim value ≠ "") (hnamed : str.to_ascii_lowercase prefix_ = "is") :
    parse_prefixed calendar now prefix_ value negated = is_node (str.trim value) negated := by
  rw [parse_prefixed, if_neg hvalue, hnamed]
  simp only [List.contains_cons, List.contains_nil, String.reduceBEq, String.reduceEq, Bool.or_false,
    Bool.false_eq_true, if_false, if_true]

theorem parse_prefixed_has (hvalue : str.trim value ≠ "") (hnamed : str.to_ascii_lowercase prefix_ = "has") :
    parse_prefixed calendar now prefix_ value negated = has_node (str.trim value) negated := by
  rw [parse_prefixed, if_neg hvalue, hnamed]
  simp only [List.contains_cons, List.contains_nil, String.reduceBEq, String.reduceEq, Bool.or_false,
    Bool.false_eq_true, if_false, if_true]

theorem parse_prefixed_date (hvalue : str.trim value ≠ "") (hnamed : str.to_ascii_lowercase prefix_ = "date") :
    parse_prefixed calendar now prefix_ value negated = date_node calendar (str.trim value) negated := by
  rw [parse_prefixed, if_neg hvalue, hnamed]
  simp only [List.contains_cons, List.contains_nil, String.reduceBEq, String.reduceEq, Bool.or_false,
    Bool.false_eq_true, if_false, if_true]

variable (calendar now negated) in
theorem parse_prefixed_relative (hvalue : str.trim value ≠ "")
    (hnamed : str.to_ascii_lowercase prefix_ ∈ relativePrefixes) :
    ∃ operator, parse_prefixed calendar now prefix_ value negated =
      relative_date_node calendar now (str.trim value) operator negated := by
  rw [parse_prefixed, if_neg hvalue]
  generalize str.to_ascii_lowercase prefix_ = name at hnamed ⊢
  fin_cases hnamed
  all_goals
    simp only [List.contains_cons, List.contains_nil, String.reduceBEq, String.reduceEq, Bool.or_false,
      Bool.false_eq_true, if_false, if_true]
    exact ⟨_, rfl⟩

theorem parse_prefixed_unknown (hvalue : str.trim value ≠ "")
    (hunknown : str.to_ascii_lowercase prefix_ ∉ knownPrefixes ++ recipientPrefixes) :
    parse_prefixed calendar now prefix_ value negated = .error (.error ("unknown search prefix: " ++ prefix_)) := by
  have hnone : ∀ names : List String, (∀ known ∈ names, known ∈ knownPrefixes ++ recipientPrefixes) →
      ¬ names.contains (str.to_ascii_lowercase prefix_) = true :=
    fun names hnames hname => hunknown (hnames _ (List.contains_iff_mem.mp hname))
  have hne : ∀ known ∈ knownPrefixes ++ recipientPrefixes, str.to_ascii_lowercase prefix_ ≠ known := by
    rintro known hknown rfl
    exact hunknown hknown
  rw [parse_prefixed, if_neg hvalue, if_neg (hnone _ (by decide)), if_neg (hnone _ (by decide)),
    if_neg (hnone _ (by decide)), if_neg (hne _ (by decide)), if_neg (hne _ (by decide)), if_neg (hne _ (by decide)),
    if_neg (hne _ (by decide)), if_neg (hnone _ (by decide)), if_neg (hnone _ (by decide)),
    if_neg (hnone _ (by decide)), if_neg (hne _ (by decide)), if_neg (hnone _ (by decide)),
    if_neg (hnone _ (by decide)), if_neg (hne _ (by decide)), if_neg (hne _ (by decide)), if_neg (hne _ (by decide)),
    if_neg (hne _ (by decide)), if_neg (hne _ (by decide))]

theorem prefix_cases (name : String) :
    name ∈ plainPrefixes ∨ name = "is" ∨ name = "has" ∨ name = "date" ∨ name ∈ relativePrefixes ∨
      name ∉ knownPrefixes ++ recipientPrefixes := by
  have hall : ∀ known ∈ knownPrefixes ++ recipientPrefixes, known ∈ plainPrefixes ∨ known = "is" ∨ known = "has" ∨
      known = "date" ∨ known ∈ relativePrefixes := by
    decide
  by_cases hknown : name ∈ knownPrefixes ++ recipientPrefixes
  · rcases hall name hknown with hplain | his | hhas | hdate | hrelative
    · exact .inl hplain
    · exact .inr (.inl his)
    · exact .inr (.inr (.inl hhas))
    · exact .inr (.inr (.inr (.inl hdate)))
    · exact .inr (.inr (.inr (.inr (.inl hrelative))))
  · exact .inr (.inr (.inr (.inr (.inr hknown))))

/-- Only an age can panic. -/
theorem panics_parse_prefixed_iff :
    Panics (parse_prefixed calendar now prefix_ value negated) ↔
      str.to_ascii_lowercase prefix_ ∈ relativePrefixes ∧ OverreachingDate calendar now (str.trim value) := by
  by_cases hvalue : str.trim value = ""
  · rw [parse_prefixed_empty hvalue]
    exact iff_of_false (not_panics_error _) fun hboth => hboth.2.ne_nil (congrArg String.toList hvalue)
  · have hplains : ∀ known ∈ plainPrefixes, known ∉ relativePrefixes := by decide
    have hknown : ∀ known ∈ relativePrefixes, known ∈ knownPrefixes ++ recipientPrefixes := by decide
    rcases prefix_cases (str.to_ascii_lowercase prefix_) with hplain | his | hhas | hdate | hrelative | hunknown
    · obtain ⟨nodes, hnodes⟩ := parse_prefixed_plain calendar now negated hvalue hplain
      rw [hnodes]
      exact iff_of_false (not_panics_ok nodes) fun hboth => hplains _ hplain hboth.1
    · rw [parse_prefixed_is hvalue his, his]
      exact iff_of_false not_panics_is_node fun hboth => absurd hboth.1 (by decide)
    · rw [parse_prefixed_has hvalue hhas, hhas]
      exact iff_of_false not_panics_has_node fun hboth => absurd hboth.1 (by decide)
    · rw [parse_prefixed_date hvalue hdate, hdate]
      exact iff_of_false not_panics_date_node fun hboth => absurd hboth.1 (by decide)
    · obtain ⟨operator, hnode⟩ :=
        parse_prefixed_relative calendar now negated hvalue hrelative
      rw [hnode, panics_relative_date_node_iff, and_iff_right hrelative]
    · rw [parse_prefixed_unknown hvalue hunknown]
      exact iff_of_false (not_panics_error _) fun hboth => hunknown (hknown _ hboth.1)

theorem returns_parse_prefixed_iff :
    Returns (parse_prefixed calendar now prefix_ value negated) ↔
      ReadableValue calendar now (str.to_ascii_lowercase prefix_) (str.trim value) := by
  by_cases hvalue : str.trim value = ""
  · rw [parse_prefixed_empty hvalue]
    exact iff_of_false (not_returns_error _) fun hreads => hreads.1 hvalue
  · rw [ReadableValue, and_iff_right hvalue]
    rcases prefix_cases (str.to_ascii_lowercase prefix_) with hplain | his | hhas | hdate | hrelative | hunknown
    · obtain ⟨nodes, hnodes⟩ := parse_prefixed_plain calendar now negated hvalue hplain
      rw [hnodes]
      exact iff_of_true (returns_ok nodes) (.inl hplain)
    · rw [parse_prefixed_is hvalue his, returns_is_node_iff, his]
      simp [plainPrefixes, relativePrefixes]
    · rw [parse_prefixed_has hvalue hhas, returns_has_node_iff, hhas]
      simp [plainPrefixes, relativePrefixes]
    · rw [parse_prefixed_date hvalue hdate, returns_date_node_iff, hdate]
      simp [plainPrefixes, relativePrefixes]
    · obtain ⟨operator, hnode⟩ :=
        parse_prefixed_relative calendar now negated hvalue hrelative
      rw [hnode, returns_relative_date_node_iff]
      generalize str.to_ascii_lowercase prefix_ = name at hrelative ⊢
      fin_cases hrelative <;> simp [plainPrefixes, relativePrefixes]
    · rw [parse_prefixed_unknown hvalue hunknown]
      have hplains : ∀ known ∈ plainPrefixes ++ relativePrefixes, known ∈ knownPrefixes ++ recipientPrefixes := by
        decide
      refine iff_of_false (not_returns_error _) ?_
      rintro (hplain | ⟨his, -⟩ | ⟨hhas, -⟩ | ⟨hdate, -⟩ | ⟨hrelative, -⟩)
      · exact hunknown (hplains _ (List.mem_append_left _ hplain))
      · exact hunknown (his ▸ by decide)
      · exact hunknown (hhas ▸ by decide)
      · exact hunknown (hdate ▸ by decide)
      · exact hunknown (hplains _ (List.mem_append_right _ hrelative))

end Prefixes

section Queries

variable {calendar : Calendar} {now : calendar.OffsetDateTime}

theorem panics_parse_token_iff {token : Token} :
    Panics (parse_token calendar now token) ↔ Overreaches calendar now token := by
  rw [parse_token]
  cases hnamed : token.prefix_ with
  | none => exact iff_of_false (not_panics_ok _) (by rintro ⟨name, hname, -⟩; rw [hnamed] at hname; cases hname)
  | some name =>
    constructor
    · intro hpanics
      exact ⟨name, hnamed, panics_parse_prefixed_iff.mp hpanics⟩
    · rintro ⟨found, hfound, hreaches⟩
      obtain rfl := Option.some.inj (hnamed.symm.trans hfound)
      exact panics_parse_prefixed_iff.mpr hreaches

theorem returns_parse_token_iff {token : Token} :
    Returns (parse_token calendar now token) ↔ Readable calendar now token := by
  rw [parse_token]
  cases hnamed : token.prefix_ with
  | none => exact iff_of_true (returns_ok _) (by intro name hname; rw [hnamed] at hname; cases hname)
  | some name =>
    constructor
    · intro hreturns found hfound
      obtain rfl := Option.some.inj (hnamed.symm.trans hfound)
      exact returns_parse_prefixed_iff.mp hreturns
    · intro hreads
      exact returns_parse_prefixed_iff.mpr (hreads name hnamed)

/-- The loop stops at the first token that is not read. -/
theorem panics_parseTokens_iff {tokens : List Token} :
    Panics (parseTokens calendar now [] tokens) ↔
      ∃ before token after, tokens = before ++ token :: after ∧ (∀ earlier ∈ before, Readable calendar now earlier) ∧
        Overreaches calendar now token := by
  induction tokens with
  | nil =>
    refine iff_of_false (not_panics_ok _) ?_
    rintro ⟨before, token, after, hsplit, -⟩
    exact List.append_ne_nil_of_right_ne_nil before (List.cons_ne_nil token after) hsplit.symm
  | cons first rest ih =>
    have hscope : is_scope_prefix first.prefix_ [] = false := by
      cases hnamed : first.prefix_ <;> rfl
    rw [parseTokens, hscope, if_neg Bool.false_ne_true, panics_bind_iff, panics_parse_token_iff]
    simp only [panics_bind_iff, not_panics_ok, and_false, exists_false, or_false, ih]
    constructor
    · rintro (hfirst | ⟨nodes, hread, before, token, after, hsplit, hearlier, hreaches⟩)
      · exact ⟨[], first, rest, rfl, nofun, hfirst⟩
      · refine ⟨first :: before, token, after, congrArg (first :: ·) hsplit, ?_, hreaches⟩
        exact List.forall_mem_cons.mpr ⟨returns_parse_token_iff.mp ⟨nodes, hread⟩, hearlier⟩
    · rintro ⟨before, token, after, hsplit, hearlier, hreaches⟩
      cases before with
      | nil =>
        obtain ⟨rfl, -⟩ := List.cons.inj hsplit
        exact .inl hreaches
      | cons head before =>
        obtain ⟨rfl, htail⟩ := List.cons.inj hsplit
        obtain ⟨hhead, hbefore⟩ := List.forall_mem_cons.mp hearlier
        obtain ⟨nodes, hread⟩ := returns_parse_token_iff.mpr hhead
        exact .inr ⟨nodes, hread, before, token, after, htail, hbefore, hreaches⟩

end Queries

/-- A query parses or is refused, unless an age before which every token is readable ends in a character longer than a
    byte or goes back further than the calendar. -/
theorem parse_query_panics_iff (calendar : Calendar) (now : calendar.OffsetDateTime) (query : String) :
    (∀ kind, parse_query calendar now query ≠ .error (.panic kind)) ↔
      ∀ before token after, tokenize query = before ++ token :: after →
        (∀ earlier ∈ before, Readable calendar now earlier) → ¬ Overreaches calendar now token := by
  have hpanics : Panics (parse_query calendar now query) ↔ Panics (parseTokens calendar now [] (tokenize query)) := by
    rw [parse_query, parse_query_with_scopes]
    simp only [panics_bind_iff, not_panics_ok, and_false, exists_false, or_false]
  rw [← not_exists, ← Panics, hpanics, panics_parseTokens_iff]
  simp only [not_exists, not_and]

/-- At every date, an age is split inside its last character, and an age in months is multiplied past an `i64`. -/
theorem newer_panics :
    (∀ (calendar : Calendar) (now : calendar.OffsetDateTime),
      parse_query calendar now "newer:7é" = .error (.panic .char_boundary)) ∧
    ∀ (calendar : Calendar) (now : calendar.OffsetDateTime),
      parse_query calendar now "newer:9223372036854775807m" = .error (.panic .overflow) := by
  have hwide : tokenize "newer:7é" = [⟨false, some "newer", "7é"⟩] := by decide +kernel
  have hmonths : tokenize "newer:9223372036854775807m" = [⟨false, some "newer", "9223372036854775807m"⟩] := by
    decide +kernel
  constructor
  · intro calendar now
    rw [parse_query, parse_query_with_scopes, hwide]
    rfl
  · intro calendar now
    rw [parse_query, parse_query_with_scopes, hmonths]
    rfl

end posthaste.query_grammar
