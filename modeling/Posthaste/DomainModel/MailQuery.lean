import Posthaste.DomainModel.Commands

namespace posthaste.model

inductive MailQueryGroupOperator where
  | All
  | Any
  deriving DecidableEq

inductive MailQueryField where
  | SourceId
  | SourceName
  | MessageId
  | ThreadId
  | ConversationId
  | MailboxId
  | MailboxName
  | MailboxRole
  | IsRead
  | IsFlagged
  | HasAttachment
  | Keyword
  | FromName
  | FromEmail
  | To
  | Subject
  | Preview
  | Body
  | ReceivedAt
  | Size
  deriving DecidableEq, Repr

inductive MailQueryOperator where
  | Equals
  | In
  | Contains
  | BeginsWith
  | EndsWith
  | Regex
  | Lt
  | Gt
  | Le
  | Ge
  deriving DecidableEq, Repr

inductive DateUnit where
  | Minutes
  | Hours
  | Days
  | Weeks
  | Months
  deriving DecidableEq

/-- An instant compared as stored, or a bound of so many units before the query. -/
inductive DateValue where
  | Absolute (value : String)
  | Relative (amount : Nat) (unit : DateUnit)
  deriving DecidableEq

inductive MailQueryValue where
  | String (value : String)
  | Strings (values : List String)
  | Bool (value : Bool)
  | Date (value : DateValue)
  deriving DecidableEq

structure MailQueryCondition where
  field : MailQueryField
  operator : MailQueryOperator
  negated : Bool
  value : MailQueryValue
  deriving DecidableEq

mutual

inductive MailQueryGroup where
  | mk (operator : MailQueryGroupOperator) (negated : Bool) (nodes : List MailQueryRuleNode)

inductive MailQueryRuleNode where
  | Group (group : MailQueryGroup)
  | Condition (condition : MailQueryCondition)

end

structure MailQueryRule where
  root : MailQueryGroup

inductive QueryValueType where
  | Text
  | Bool
  | Date
  | Number
  deriving DecidableEq

structure MailQueryFieldSpec where
  value_type : QueryValueType
  operators : List MailQueryOperator

def EQ_IN : List MailQueryOperator := [.Equals, .In]

def EQ_CONTAINS_IN : List MailQueryOperator := [.Equals, .Contains, .In, .BeginsWith, .EndsWith, .Regex]

def CONTAINS_ONLY : List MailQueryOperator := [.Contains]

def EQ_ONLY : List MailQueryOperator := [.Equals]

def ORDERED : List MailQueryOperator := [.Lt, .Gt, .Le, .Ge]

/-- The value type of each field and the operators it accepts. -/
def field_spec : MailQueryField → MailQueryFieldSpec
  | .SourceId | .MessageId | .ThreadId | .ConversationId | .MailboxId | .MailboxRole | .Keyword => ⟨.Text, EQ_IN⟩
  | .SourceName | .MailboxName | .FromName | .FromEmail | .To | .Subject | .Preview => ⟨.Text, EQ_CONTAINS_IN⟩
  | .Body => ⟨.Text, CONTAINS_ONLY⟩
  | .IsRead | .IsFlagged | .HasAttachment => ⟨.Bool, EQ_ONLY⟩
  | .ReceivedAt => ⟨.Date, ORDERED⟩
  | .Size => ⟨.Number, ORDERED⟩

inductive QueryValidationReason where
  | OperatorNotAllowed
  | ValueTypeMismatch
  | InvalidRegex
  deriving DecidableEq

structure QueryValidationError where
  field : MailQueryField
  operator : MailQueryOperator
  reason : QueryValidationReason
  deriving DecidableEq

def value_matches_type : QueryValueType → MailQueryValue → Bool
  | .Text, .String _ | .Text, .Strings _ => true
  | .Bool, .Bool _ => true
  | .Date, .Date _ | .Date, .String _ => true
  | .Number, .String _ => true
  | _, _ => false

section Validate

-- `Regex::new`: the test a pattern compiles to, if it does.
variable (regex : String → Option (String → Bool))

def validate_condition (condition : MailQueryCondition) : Except QueryValidationError Unit :=
  let spec := field_spec condition.field
  if condition.operator ∉ spec.operators then
    .error ⟨condition.field, condition.operator, .OperatorNotAllowed⟩
  else if !value_matches_type spec.value_type condition.value then
    .error ⟨condition.field, condition.operator, .ValueTypeMismatch⟩
  else if condition.operator = .Regex then
    match condition.value with
    | .String pattern =>
      if (regex pattern).isNone then .error ⟨condition.field, condition.operator, .InvalidRegex⟩ else .ok ()
    | _ => .error ⟨condition.field, condition.operator, .ValueTypeMismatch⟩
  else .ok ()

mutual

/-- The first invalid condition, depth first. -/
def validate_group : MailQueryGroup → Except QueryValidationError Unit
  | .mk _ _ nodes => validate_nodes nodes

def validate_nodes : List MailQueryRuleNode → Except QueryValidationError Unit
  | [] => .ok ()
  | node :: nodes => do
    validate_node node
    validate_nodes nodes

def validate_node : MailQueryRuleNode → Except QueryValidationError Unit
  | .Group child => validate_group child
  | .Condition condition => validate_condition regex condition

end

def validate_query (rule : MailQueryRule) : Except QueryValidationError Unit := validate_group regex rule.root

end Validate

mutual

/-- The conditions of a rule tree, in order. -/
def MailQueryGroup.conditions : MailQueryGroup → List MailQueryCondition
  | .mk _ _ nodes => nodesConditions nodes

def nodesConditions : List MailQueryRuleNode → List MailQueryCondition
  | [] => []
  | node :: nodes => node.conditions ++ nodesConditions nodes

def MailQueryRuleNode.conditions : MailQueryRuleNode → List MailQueryCondition
  | .Group child => child.conditions
  | .Condition condition => [condition]

end

def MailQueryRule.conditions (rule : MailQueryRule) : List MailQueryCondition := rule.root.conditions

inductive SmartMailboxKind where
  | Default
  | User
  deriving DecidableEq

abbrev SmartMailboxId := String

structure SmartMailbox where
  id : SmartMailboxId
  name : String
  kind : SmartMailboxKind
  default_key : Option String
  role : Option String
  parent_id : Option SmartMailboxId
  rule : MailQueryRule
  created_at : String
  updated_at : String

end posthaste.model
