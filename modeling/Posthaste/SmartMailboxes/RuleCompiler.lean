import Posthaste.SmartMailboxes.FieldCompilers

open posthaste.model

namespace posthaste.store.smart_mailboxes

section Columns

variable (archive : Archive)

/-- `COALESCE(a.name, m.account_id)`. -/
def sourceName : SqlScalar :=
  textColumn fun scope => some ((archive.source_projection scope.message.account_id).getD scope.message.account_id)

/-- `FROM message_mailbox_effective mm WHERE mm.account_id = m.account_id AND mm.message_id = m.id`. -/
def membershipRows (scope : Scope) : List Scope :=
  (archive.message_mailbox_effective.filter fun mm =>
    mm.1 = scope.message.account_id ∧ mm.2.1 = scope.message.id).map fun mm =>
      { scope with mailbox_id := some mm.2.2 }

/-- The same joined to the mailbox table. -/
def mailboxRows (scope : Scope) : List Scope :=
  (membershipRows archive scope).flatMap fun membership =>
    (archive.mailbox.filter fun b =>
      b.account_id = scope.message.account_id ∧ some b.id = membership.mailbox_id).map fun b =>
        { membership with mailbox := some b }

/-- `FROM message_keyword_effective mk WHERE mk.account_id = m.account_id AND mk.message_id = m.id`. -/
def keywordRows (scope : Scope) : List Scope :=
  (archive.message_keyword_effective.filter fun mk =>
    mk.1 = scope.message.account_id ∧ mk.2.1 = scope.message.id).map fun mk =>
      { scope with keyword := some mk.2.2 }

end Columns

section Compile

variable (functions : Functions) (archive : Archive)

/-- The field's own compiler. -/
def compileField (condition : MailQueryCondition) : Except StoreError Fragment :=
  match condition.field with
  | .SourceId => compile_simple_field condition (textColumn fun scope => some scope.message.account_id)
  | .SourceName => compile_text_field functions condition (sourceName archive)
  | .MessageId => compile_simple_field condition (textColumn fun scope => some scope.message.id)
  | .ThreadId => compile_simple_field condition (textColumn fun scope => some scope.message.thread_id)
  | .ConversationId => compile_simple_field condition (textColumn fun scope => scope.message.conversation_id)
  | .FromName => compile_text_field functions condition (textColumn fun scope => scope.message.from_name)
  | .FromEmail => compile_text_field functions condition (textColumn fun scope => scope.message.from_email)
  | .To => compile_recipient_json_field functions condition
  | .Subject => compile_text_field functions condition (textColumn fun scope => scope.message.subject)
  | .Preview => compile_text_field functions condition (textColumn fun scope => scope.message.preview)
  | .Body => compile_body_fts_field functions condition archive
  | .ReceivedAt => compile_date_field functions condition (textColumn fun scope => some scope.message.received_at)
  | .Size => compile_numeric_field condition (.column fun scope => some (.Integer scope.message.size))
  | .IsRead => compile_bool_field condition fun scope => scope.message.is_read
  | .IsFlagged => compile_bool_field condition fun scope => scope.message.is_flagged
  | .HasAttachment => compile_bool_field condition fun scope => scope.message.has_attachment
  | .MailboxId =>
    compile_exists_membership condition (membershipRows archive) (textColumn fun scope => scope.mailbox_id)
  | .MailboxName =>
    compile_exists_text_membership functions condition (mailboxRows archive)
      (textColumn fun scope => scope.mailbox.map (·.name))
  | .Keyword => compile_exists_membership condition (keywordRows archive) (textColumn fun scope => scope.keyword)
  | .MailboxRole =>
    compile_exists_membership condition (mailboxRows archive)
      (textColumn fun scope => scope.mailbox.bind (·.role))

/-- `NOT (…)` around a negated fragment. -/
def negatedIf (negated : Bool) (fragment : Fragment) : Fragment :=
  (if negated then .not fragment.1 else fragment.1, fragment.2)

/-- The operator is checked against the schema before the field's compiler sees it. -/
def compile_mail_query_condition (condition : MailQueryCondition) : Except StoreError Fragment :=
  if condition.operator ∉ (field_spec condition.field).operators then unsupportedOperator condition
  else do
    let fragment ← compileField functions archive condition
    return negatedIf condition.negated fragment

def MailQueryGroupOperator.joiner : MailQueryGroupOperator → SqlPredicate → SqlPredicate → SqlPredicate
  | .All => .and
  | .Any => .or

/-- The fragments in parentheses, joined from the left. -/
def joined (operator : MailQueryGroupOperator) : Fragment → List Fragment → Fragment
  | first, [] => first
  | first, part :: parts =>
    joined operator (MailQueryGroupOperator.joiner operator first.1 part.1, first.2 ++ part.2) parts

mutual

/-- A group without nodes is `1 = 1`, whatever its operator. -/
def compile_mail_query_group : MailQueryGroup → Except StoreError Fragment
  | .mk operator negated nodes => do
    let parts ← compileNodes nodes
    match parts with
    | [] => return negatedIf negated (.constant true, [])
    | first :: rest => return negatedIf negated (joined operator first rest)

def compileNodes : List MailQueryRuleNode → Except StoreError (List Fragment)
  | [] => .ok []
  | node :: nodes => do
    let fragment ← compileNode node
    let fragments ← compileNodes nodes
    return fragment :: fragments

def compileNode : MailQueryRuleNode → Except StoreError Fragment
  | .Group group => compile_mail_query_group group
  | .Condition condition => compile_mail_query_condition functions archive condition

end

/-- The `WHERE` clause of a rule and the parameters bound to it. -/
def compile_mail_query_rule (rule : MailQueryRule) : Except StoreError Fragment :=
  compile_mail_query_group functions archive rule.root

end Compile

local instance : LawfulBEq (AccountId × MessageId) := Prod.instLawfulBEq

section Meaning

variable (functions : Functions) (archive : Archive)

/-- What a text condition says of a text: letter case counts for equality and regexes only. -/
def textMeans (operator : MailQueryOperator) (value : MailQueryValue) (text : String) : Bool :=
  match operator, value with
  | .Equals, .String value => text = value
  | .In, .Strings values => text ∈ values
  | .Contains, .String value => (functions.to_lowercase value).toList <:+: (functions.to_lowercase text).toList
  | .BeginsWith, .String value => (functions.to_lowercase value).toList <+: (functions.to_lowercase text).toList
  | .EndsWith, .String value => (functions.to_lowercase value).toList <:+ (functions.to_lowercase text).toList
  | .Regex, .String pattern => (functions.regex pattern).any (· text)
  | _, _ => false

/-- A relative bound or an instant that the calendar cannot read compares with nothing. -/
def dateMeans (operator : MailQueryOperator) (value : MailQueryValue) (received_at : Timestamp) : Bool :=
  match comparator operator, value with
  | some comparison, .String instant => comparison (.Text received_at) (.Text instant)
  | some comparison, .Date (.Absolute instant) => comparison (.Text received_at) (.Text instant)
  | some comparison, .Date (.Relative amount unit) =>
    match functions.datetime received_at, functions.datetime_now (relativeModifier amount unit) with
    | some received, some bound => comparison (.Text received) (.Text bound)
    | _, _ => false
  | _, _ => false

def sizeMeans (operator : MailQueryOperator) (value : MailQueryValue) (size : Int) : Bool :=
  match comparator operator, value with
  | some comparison, .String raw => (parse_i64 (str.trim raw)).any fun number => comparison (.Integer size) (.Integer number)
  | _, _ => false

/-- An address condition is about the email, or about either part for the partial matches. -/
def recipientMeans (operator : MailQueryOperator) (value : MailQueryValue) (recipient : Recipient) : Bool :=
  match operator with
  | .Equals | .In => textMeans functions operator value recipient.email
  | _ => textMeans functions operator value recipient.email ||
      textMeans functions operator value (recipient.name.getD "")

/-- The body's index is asked for the phrase of the value's tokens, the last a prefix. -/
def bodyMeans (value : MailQueryValue) (message : QueriedRow) : Bool :=
  match value with
  | .String value =>
    (body_fts_match_expression functions value).any fun expression => message.key ∈ archive.message_fts expression
  | _ => false

/-- The mailboxes the message is in. -/
def mailboxIds (message : QueriedRow) : List MailboxId :=
  (archive.message_mailbox_effective.filter fun mm => mm.1 = message.account_id ∧ mm.2.1 = message.id).map (·.2.2)

/-- Those of them the mailbox table knows. -/
def mailboxesOf (message : QueriedRow) : List MailboxRow :=
  (mailboxIds archive message).flatMap fun mailbox_id =>
    archive.mailbox.filter fun b => b.account_id = message.account_id ∧ b.id = mailbox_id

def keywordsOf (message : QueriedRow) : List String :=
  (archive.message_keyword_effective.filter fun mk => mk.1 = message.account_id ∧ mk.2.1 = message.id).map (·.2.2)

/-- What a condition says of a message, its negation aside. -/
def fieldMeans (condition : MailQueryCondition) (message : QueriedRow) : Bool :=
  let means := textMeans functions condition.operator condition.value
  match condition.field with
  | .SourceId => means message.account_id
  | .SourceName => means ((archive.source_projection message.account_id).getD message.account_id)
  | .MessageId => means message.id
  | .ThreadId => means message.thread_id
  | .ConversationId => message.conversation_id.any means
  | .FromName => means (message.from_name.getD "")
  | .FromEmail => means (message.from_email.getD "")
  | .To => message.to_.any (recipientMeans functions condition.operator condition.value)
  | .Subject => means (message.subject.getD "")
  | .Preview => means (message.preview.getD "")
  | .Body => bodyMeans functions archive condition.value message
  | .ReceivedAt => dateMeans functions condition.operator condition.value message.received_at
  | .Size => sizeMeans condition.operator condition.value message.size
  | .IsRead => condition.value = .Bool message.is_read
  | .IsFlagged => condition.value = .Bool message.is_flagged
  | .HasAttachment => condition.value = .Bool message.has_attachment
  | .MailboxId => (mailboxIds archive message).any means
  | .MailboxName => (mailboxesOf archive message).any fun b => means b.name
  | .MailboxRole => (mailboxesOf archive message).any fun b => b.role.any means
  | .Keyword => (keywordsOf archive message).any means

def conditionMeans (condition : MailQueryCondition) (message : QueriedRow) : Bool :=
  condition.negated ^^ fieldMeans functions archive condition message

/-- Conjunction or disjunction; a group without nodes holds of every message. -/
def combined : MailQueryGroupOperator → List Bool → Bool
  | _, [] => true
  | .All, values => values.all id
  | .Any, values => values.any id

mutual

def groupMeans (message : QueriedRow) : MailQueryGroup → Bool
  | .mk operator negated nodes => negated ^^ combined operator (nodesMean message nodes)

def nodesMean (message : QueriedRow) : List MailQueryRuleNode → List Bool
  | [] => []
  | node :: nodes => nodeMeans message node :: nodesMean message nodes

def nodeMeans (message : QueriedRow) : MailQueryRuleNode → Bool
  | .Group group => groupMeans message group
  | .Condition condition => conditionMeans functions archive condition message

end

/-- The rule holds of the message. -/
def ruleMeans (rule : MailQueryRule) (message : QueriedRow) : Bool :=
  groupMeans functions archive message rule.root

end Meaning

end posthaste.store.smart_mailboxes
