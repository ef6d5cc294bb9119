import Posthaste.DomainModel.MailQuery
import Posthaste.Library.Str

namespace posthaste.model

inductive AutomationTrigger where
  | MessageArrived
  | MessageChanged
  | Manual
  deriving DecidableEq

inductive AutomationAction where
  | ApplyTag (tag : String)
  | RemoveTag (tag : String)
  | MarkRead
  | MarkUnread
  | Flag
  | Unflag
  | MoveToMailbox (mailbox_id : MailboxId)
  deriving DecidableEq

structure AutomationRule where
  id : String
  name : String
  enabled : Bool
  triggers : List AutomationTrigger
  condition : MailQueryRule
  actions : List AutomationAction
  backfill : Bool

inductive ValidationError where
  | InvalidAccount (message : String)
  | BaseUrlRequired (account : String)
  | SecretRequired (account : String)
  | UsernameRequired (account : String)
  | SenderRequired (account : String)
  | DuplicateSourceId (id : String)
  | DuplicateSmartMailboxId (id : String)
  | DanglingDefaultAccount (id : String)
  deriving DecidableEq

def isBlank (text : String) : Bool := str.trim text = ""

def automationActionErrors : AutomationAction → List ValidationError
  | .ApplyTag tag | .RemoveTag tag =>
    if isBlank tag ∨ tag.toList.head? = some '$' then
      [.InvalidAccount "automation tag must be a non-system keyword"]
    else []
  | .MoveToMailbox mailbox_id =>
    if isBlank mailbox_id then [.InvalidAccount "automation target mailbox id is required"] else []
  | _ => []

/-- The errors of one rule, given the trimmed ids before it. -/
def automationRuleErrors (ids : List String) (rule : AutomationRule) : List ValidationError :=
  (if isBlank rule.id then [.InvalidAccount "automation rule id is required"]
    else if str.trim rule.id ∈ ids then [.InvalidAccount "automation rule ids must be unique"] else []) ++
  (if isBlank rule.name then [.InvalidAccount "automation rule name is required"] else []) ++
  (if rule.triggers.isEmpty then [.InvalidAccount "automation rule must include at least one trigger"] else []) ++
  (if rule.actions.isEmpty then [.InvalidAccount "automation rule must include at least one action"] else []) ++
  rule.actions.flatMap automationActionErrors

def automationErrorsFrom : List String → List AutomationRule → List ValidationError
  | _, [] => []
  | ids, rule :: rules =>
    automationRuleErrors ids rule ++
      automationErrorsFrom (if isBlank rule.id then ids else str.trim rule.id :: ids) rules

def automation_rule_errors (rules : List AutomationRule) : List ValidationError := automationErrorsFrom [] rules

/-- The first error found. The conditions of the rules are not looked at. -/
def validate_automation_rules (rules : List AutomationRule) : Except ValidationError Unit :=
  match automation_rule_errors rules with
  | [] => .ok ()
  | error :: _ => .error error

end posthaste.model
