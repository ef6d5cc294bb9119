import Posthaste.DomainModel.MailQuery
import Posthaste.Library.Like
import Posthaste.Library.Predicate
import Posthaste.Library.Str
import Posthaste.SmartMailboxes.Messages

open posthaste.model

namespace posthaste.store.smart_mailboxes

local instance : LawfulBEq (AccountId × MessageId) := Prod.instLawfulBEq

/-- The columns of `message_effective` that rules read. -/
structure QueriedRow extends EffectiveRow where
  size : Int
  deriving DecidableEq

structure MailboxRow where
  account_id : AccountId
  id : MailboxId
  name : String
  role : Option String

/-- The tables beside the message that rules read. `message_fts` is what a `MATCH` finds. -/
structure Archive where
  source_projection : AccountId → Option String
  message_mailbox_effective : List (AccountId × MessageId × MailboxId)
  mailbox : List MailboxRow
  message_keyword_effective : List (AccountId × MessageId × String)
  message_fts : String → List (AccountId × MessageId)

/-- The functions of the standard library, the regex crate and SQLite that rules rest on. `regex` is
    `Regex::new`, `datetime` SQLite's, `datetime_now` its `datetime('now', ?)`. -/
structure Functions where
  to_lowercase : String → String
  is_alphanumeric : Char → Bool
  regex : String → Option (String → Bool)
  datetime : String → Option String
  datetime_now : String → Option String

/-- The row under test: the message, and the row of the subquery around the column, if any. -/
structure Scope where
  message : QueriedRow
  mailbox_id : Option MailboxId
  mailbox : Option MailboxRow
  keyword : Option String
  recipient : Option Recipient

def QueriedRow.scope (message : QueriedRow) : Scope := ⟨message, none, none, none, none⟩

abbrev SqlScalar := sql.Scalar Scope SqlValue

abbrev SqlPredicate := sql.Predicate Scope SqlValue

/-- A fragment of SQL and the parameters it pushes, in order. -/
abbrev Fragment := SqlPredicate × List SqlValue

def textColumn (read : Scope → Option String) : SqlScalar := .column fun scope => (read scope).map .Text

/-- `COALESCE(…, '')`. -/
def coalesceEmpty (operand : SqlScalar) : SqlScalar := .call (fun value => some (value.getD (.Text ""))) operand

def lowerValue : SqlValue → SqlValue
  | .Text s => .Text (lower s)
  | .Integer n => .Text (lower (toString n))

/-- `LOWER(…)`. -/
def lowered (operand : SqlScalar) : SqlScalar := .call (·.map lowerValue) operand

def equalTest (left right : SqlValue) : Option Bool := some (left = right)

def likeTest (escape : Option Char) : SqlValue → SqlValue → Option Bool
  | .Text text, .Text pattern => some (like.likes escape pattern.toList text.toList)
  | _, _ => some false

/-- The `regexp` scalar fails the statement on a pattern that does not compile. -/
def regexpTest (functions : Functions) : SqlValue → SqlValue → Option Bool
  | .Text text, .Text pattern => (functions.regex pattern).map (· text)
  | _, _ => none

/-- Extracts a string value or returns a type error. -/
def expect_string_value : MailQueryValue → Except StoreError String
  | .String value => .ok value
  | _ => .error (.Failure "expected string smart mailbox value")

def expect_strings_value : MailQueryValue → Except StoreError (List String)
  | .Strings values => .ok values
  | _ => .error (.Failure "expected string array smart mailbox value")

def expect_bool_value : MailQueryValue → Except StoreError Bool
  | .Bool value => .ok value
  | _ => .error (.Failure "expected boolean smart mailbox value")

/-- The `{:?}` of a field and of an operator: the variant's name. -/
def fieldName : MailQueryField → String
  | .SourceId => "SourceId"
  | .SourceName => "SourceName"
  | .MessageId => "MessageId"
  | .ThreadId => "ThreadId"
  | .ConversationId => "ConversationId"
  | .MailboxId => "MailboxId"
  | .MailboxName => "MailboxName"
  | .MailboxRole => "MailboxRole"
  | .IsRead => "IsRead"
  | .IsFlagged => "IsFlagged"
  | .HasAttachment => "HasAttachment"
  | .Keyword => "Keyword"
  | .FromName => "FromName"
  | .FromEmail => "FromEmail"
  | .To => "To"
  | .Subject => "Subject"
  | .Preview => "Preview"
  | .Body => "Body"
  | .ReceivedAt => "ReceivedAt"
  | .Size => "Size"

def operatorName : MailQueryOperator → String
  | .Equals => "Equals"
  | .In => "In"
  | .Contains => "Contains"
  | .BeginsWith => "BeginsWith"
  | .EndsWith => "EndsWith"
  | .Regex => "Regex"
  | .Lt => "Lt"
  | .Gt => "Gt"
  | .Le => "Le"
  | .Ge => "Ge"

def unsupportedOperator (condition : MailQueryCondition) : Except StoreError Fragment :=
  .error (.Failure
    s!"unsupported operator {operatorName condition.operator} for field {fieldName condition.field}")

/-- Escapes `%`, `_` and the escape character, for use with `ESCAPE '\'`. -/
def escape_like (input : String) : String := String.ofList (like.escaped '\\' input.toList)

def texts (values : List String) : List SqlValue := values.map .Text

/-- `column IN (?, …)`, or `1 = 0` for an empty list. -/
def compile_in_clause (column : SqlScalar) (values : List String) : Fragment :=
  if values.isEmpty then (.constant false, []) else (.among column (texts values).length, texts values)

section Compile

variable (functions : Functions) (condition : MailQueryCondition)

/-- An `equals` or `in` condition against a simple column. -/
def compile_simple_field (column : SqlScalar) : Except StoreError Fragment :=
  match condition.operator with
  | .Equals => do
    let value ← expect_string_value condition.value
    return (.compare equalTest column .bound, [.Text value])
  | .In => do
    let values ← expect_strings_value condition.value
    return compile_in_clause column values
  | _ => unsupportedOperator condition

/-- The pattern of a text operator: only prefix and suffix escape the value. -/
def likePattern (operator : MailQueryOperator) (value : String) : Option Char × String :=
  match operator with
  | .BeginsWith => (some '\\', escape_like (functions.to_lowercase value) ++ "%")
  | .EndsWith => (some '\\', "%" ++ escape_like (functions.to_lowercase value))
  | _ => (none, "%" ++ functions.to_lowercase value ++ "%")

/-- `LOWER(text) LIKE ? [ESCAPE '\']`. -/
def likeFragment (operator : MailQueryOperator) (text : SqlScalar) (value : String) : Fragment :=
  let (escape, pattern) := likePattern functions operator value
  (.compare (likeTest escape) (lowered text) .bound, [.Text pattern])

def regexpFragment (text : SqlScalar) (value : String) : Fragment :=
  (.compare (regexpTest functions) text .bound, [.Text value])

/-- A text field, its null read as the empty text. -/
def compile_text_field (column : SqlScalar) : Except StoreError Fragment :=
  match condition.operator with
  | .Equals => do
    let value ← expect_string_value condition.value
    return (.compare equalTest (coalesceEmpty column) .bound, [.Text value])
  | .Contains => do
    let value ← expect_string_value condition.value
    return likeFragment functions .Contains (coalesceEmpty column) value
  | .BeginsWith => do
    let value ← expect_string_value condition.value
    return likeFragment functions .BeginsWith (coalesceEmpty column) value
  | .EndsWith => do
    let value ← expect_string_value condition.value
    return likeFragment functions .EndsWith (coalesceEmpty column) value
  | .Regex => do
    let value ← expect_string_value condition.value
    return regexpFragment functions (coalesceEmpty column) value
  | .In => do
    let values ← expect_strings_value condition.value
    return compile_in_clause (coalesceEmpty column) values
  | _ => unsupportedOperator condition

/-- The runs of alphanumeric characters of a text. -/
def tokenRuns (word : List Char) : List Char → List String
  | [] => if word.isEmpty then [] else [String.ofList word.reverse]
  | c :: rest =>
    if functions.is_alphanumeric c then tokenRuns (c :: word) rest
    else if word.isEmpty then tokenRuns [] rest
    else String.ofList word.reverse :: tokenRuns [] rest

/-- `body:"tok1 tok2 …"*`, or nothing when the value has no token. -/
def body_fts_match_expression (value : String) : Option String :=
  match tokenRuns functions [] value.toList with
  | [] => none
  | tokens => some ("body:\"" ++ " ".intercalate tokens ++ "\"*")

/-- `(m.account_id, m.id) IN (SELECT … WHERE message_fts MATCH ?)`. -/
def matched (archive : Archive) : SqlValue → Scope → Bool
  | .Text expression, scope => scope.message.key ∈ archive.message_fts expression
  | .Integer _, _ => false

def compile_body_fts_field (archive : Archive) : Except StoreError Fragment :=
  match condition.operator with
  | .Contains => do
    let value ← expect_string_value condition.value
    match body_fts_match_expression functions value with
    | none => return (.constant false, [])
    | some expression => return (.lookup (matched archive), [.Text expression])
  | _ => unsupportedOperator condition

/-- The SQL comparison of an ordered operator. -/
def comparator : MailQueryOperator → Option (SqlValue → SqlValue → Bool)
  | .Lt => some fun left right => left < right
  | .Gt => some fun left right => right < left
  | .Le => some fun left right => left ≤ right
  | .Ge => some fun left right => right ≤ left
  | _ => none

/-- The SQLite modifier of a relative bound. Weeks become days. -/
def relativeModifier (amount : Nat) : DateUnit → String
  | .Minutes => s!"-{amount} minutes"
  | .Hours => s!"-{amount} hours"
  | .Days => s!"-{amount} days"
  | .Weeks => s!"-{amount * 7} days"
  | .Months => s!"-{amount} months"

/-- SQLite's `datetime` over a value, null when it cannot read it. -/
def datetimeOf (read : String → Option String) : Option SqlValue → Option SqlValue
  | some (.Text text) => (read text).map .Text
  | _ => none

def compile_date_field (column : SqlScalar) : Except StoreError Fragment :=
  match comparator condition.operator with
  | none => unsupportedOperator condition
  | some comparison =>
    match condition.value with
    | .String instant => .ok (.compare (fun left right => some (comparison left right)) column .bound, [.Text instant])
    | .Date (.Absolute value) =>
      .ok (.compare (fun left right => some (comparison left right)) column .bound, [.Text value])
    | .Date (.Relative amount unit) =>
      .ok (.compare (fun left right => some (comparison left right)) (.call (datetimeOf functions.datetime) column)
        (.call (datetimeOf functions.datetime_now) .bound), [.Text (relativeModifier amount unit)])
    | _ => .error (.Failure s!"expected date smart mailbox value for field {fieldName condition.field}")

/-- A byte count compared as an integer. -/
def compile_numeric_field (column : SqlScalar) : Except StoreError Fragment :=
  match comparator condition.operator with
  | none => unsupportedOperator condition
  | some comparison => do
    let raw ← expect_string_value condition.value
    match parse_i64 (str.trim raw) with
    | none => .error (.Failure
        s!"expected integer smart mailbox value for field {fieldName condition.field}, got {raw.quote}")
    | some number =>
      return (.compare (fun left right => some (comparison left right)) column .bound, [.Integer number])

def recipientEmail : SqlScalar := textColumn fun scope => scope.recipient.map (·.email)

def recipientName : SqlScalar := textColumn fun scope => scope.recipient.bind (·.name)

/-- `FROM json_each(m.to_json) r`. -/
def recipientRows (scope : Scope) : List Scope :=
  scope.message.to_.map fun recipient => { scope with recipient := some recipient }

/-- One test of the email or of the name, its parameter bound twice. -/
def eitherPart (part : SqlScalar → Fragment) : Fragment :=
  let email := part (coalesceEmpty recipientEmail)
  let name := part (coalesceEmpty recipientName)
  (.or email.1 name.1, email.2 ++ name.2)

def compile_recipient_json_field : Except StoreError Fragment :=
  match condition.operator with
  | .Equals => do
    let value ← expect_string_value condition.value
    return (.exists recipientRows (.compare equalTest recipientEmail .bound), [.Text value])
  | .Contains => do
    let value ← expect_string_value condition.value
    let either := eitherPart fun part => likeFragment functions .Contains part value
    return (.exists recipientRows either.1, either.2)
  | .BeginsWith => do
    let value ← expect_string_value condition.value
    let either := eitherPart fun part => likeFragment functions .BeginsWith part value
    return (.exists recipientRows either.1, either.2)
  | .EndsWith => do
    let value ← expect_string_value condition.value
    let either := eitherPart fun part => likeFragment functions .EndsWith part value
    return (.exists recipientRows either.1, either.2)
  | .Regex => do
    let value ← expect_string_value condition.value
    let either := eitherPart fun part => regexpFragment functions part value
    return (.exists recipientRows either.1, either.2)
  | .In => do
    let values ← expect_strings_value condition.value
    if values.isEmpty then return (.constant false, [])
    else return (.exists recipientRows (.among recipientEmail (texts values).length), texts values)
  | _ => unsupportedOperator condition

/-- A boolean column is an integer, 0 or 1. -/
def compile_bool_field (read : Scope → Bool) : Except StoreError Fragment :=
  if condition.operator ≠ .Equals then unsupportedOperator condition
  else do
    let expected ← expect_bool_value condition.value
    return (.compare equalTest (.column fun scope => some (.Integer (read scope).toNat))
      (.column fun _ => some (.Integer expected.toNat)), [])

/-- Membership by an `EXISTS` subquery: mailbox id, keyword or mailbox role. -/
def compile_exists_membership (rows : Scope → List Scope) (column : SqlScalar) : Except StoreError Fragment :=
  match condition.operator with
  | .Equals => do
    let value ← expect_string_value condition.value
    return (.exists rows (.compare equalTest column .bound), [.Text value])
  | .In => do
    let values ← expect_strings_value condition.value
    return (.exists rows (.among column (texts values).length), texts values)
  | _ => unsupportedOperator condition

/-- Text membership by an `EXISTS` subquery, for mailbox names. -/
def compile_exists_text_membership (rows : Scope → List Scope) (column : SqlScalar) : Except StoreError Fragment :=
  match condition.operator with
  | .Equals => do
    let value ← expect_string_value condition.value
    return (.exists rows (.compare equalTest column .bound), [.Text value])
  | .Contains => do
    let value ← expect_string_value condition.value
    let test := likeFragment functions .Contains column value
    return (.exists rows (.and (.present column) test.1), test.2)
  | .BeginsWith => do
    let value ← expect_string_value condition.value
    let test := likeFragment functions .BeginsWith column value
    return (.exists rows (.and (.present column) test.1), test.2)
  | .EndsWith => do
    let value ← expect_string_value condition.value
    let test := likeFragment functions .EndsWith column value
    return (.exists rows (.and (.present column) test.1), test.2)
  | .Regex => do
    let value ← expect_string_value condition.value
    let test := regexpFragment functions column value
    return (.exists rows (.and (.present column) test.1), test.2)
  | .In => do
    let values ← expect_strings_value condition.value
    return (.exists rows (.among column (texts values).length), texts values)
  | _ => unsupportedOperator condition

end Compile

end posthaste.store.smart_mailboxes
