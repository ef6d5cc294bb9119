import Posthaste.DomainModel.Automation
import Posthaste.SmartMailboxes.RuleExecution

open posthaste.model

namespace posthaste.store.smart_mailboxes

/-- A smart mailbox with its live counts. -/
structure SmartMailboxRow extends SmartMailbox where
  unread_messages : Nat
  total_messages : Nat

section Consumers

-- What SQLite reports of a statement that fails.
variable (functions : Functions) (sql_error : String)

/-- The rows a rule keeps. -/
def query_by_rule (archive : Archive) (messages : List QueriedRow) (rule : MailQueryRule) :
    Except StoreError (List QueriedRow) := do
  let fragment ← compile_mail_query_rule functions archive rule
  match select fragment messages with
  | none => .error (.Failure sql_error)
  | some selected => .ok selected

/-- Unread and total. -/
def count_smart_mailbox_messages (archive : Archive) (messages : List QueriedRow) (rule : MailQueryRule) :
    Except StoreError (Nat × Nat) := do
  let selected ← query_by_rule functions sql_error archive messages rule
  return (selected.countP (!·.is_read), selected.length)

/-- The list of all smart mailboxes: one rule that fails fails the list. -/
def evaluate_smart_mailboxes (archive : Archive) (messages : List QueriedRow) (mailboxes : List SmartMailbox) :
    Except StoreError (List SmartMailboxRow) :=
  mailboxes.mapM fun mailbox => do
    let (unread_messages, total_messages) ← count_smart_mailbox_messages functions sql_error archive messages mailbox.rule
    return { mailbox with unread_messages := unread_messages, total_messages := total_messages }

def condition_node (field : MailQueryField) (operator : MailQueryOperator) (value : MailQueryValue) :
    MailQueryRuleNode :=
  .Condition ⟨field, operator, false, value⟩

def negated_condition_node (field : MailQueryField) (operator : MailQueryOperator) (value : MailQueryValue) :
    MailQueryRuleNode :=
  .Condition ⟨field, operator, true, value⟩

/-- A message an action would not change is not asked for. -/
def automation_action_precondition : AutomationAction → MailQueryRuleNode
  | .ApplyTag tag => negated_condition_node .Keyword .Equals (.String tag)
  | .RemoveTag tag => condition_node .Keyword .Equals (.String tag)
  | .MarkRead => condition_node .IsRead .Equals (.Bool false)
  | .MarkUnread => condition_node .IsRead .Equals (.Bool true)
  | .Flag => condition_node .IsFlagged .Equals (.Bool false)
  | .Unflag => condition_node .IsFlagged .Equals (.Bool true)
  | .MoveToMailbox mailbox_id => negated_condition_node .MailboxId .Equals (.String mailbox_id)

def automation_query_rule (account_id : AccountId) (rule : AutomationRule) (action : AutomationAction)
    (message_ids : List MessageId) : MailQueryRule :=
  ⟨.mk .All false ([condition_node .SourceId .Equals (.String account_id), .Group rule.condition.root] ++
    (if message_ids.isEmpty then [] else [condition_node .MessageId .In (.Strings message_ids)]) ++
    [automation_action_precondition action])⟩

/-- The account's mail as rules see it, and what an action makes of it. -/
structure Mail (σ : Type) where
  archive : σ → Archive
  messages : σ → List QueriedRow
  apply_automation_action : AccountId → QueriedRow → AutomationAction → σ → Except StoreError σ

variable {σ : Type} (mail : Mail σ)

/-- The first page of a rule's messages, oldest first. -/
def query_message_page_by_rule (state : σ) (rule : MailQueryRule) (limit : Nat) : Except StoreError (List QueriedRow) := do
  let selected ← query_by_rule functions sql_error (mail.archive state) (mail.messages state) rule
  return (SortDirection.Asc.orderBy (fun row => toLex (row.received_at, tie_key row.toEffectiveRow)) selected).take limit

/-- Every rule's actions on the messages that arrived. A query that fails stops the rules after it. -/
def apply_automation_rules (account_id : AccountId) (automation_rules : List AutomationRule)
    (message_ids : List MessageId) (state : σ) : Except StoreError σ :=
  if automation_rules.isEmpty ∨ message_ids.isEmpty then .ok state
  else
    (automation_rules.filter fun rule => rule.enabled ∧ .MessageArrived ∈ rule.triggers).foldlM
      (fun state rule => rule.actions.foldlM (fun state action => do
        let items ← query_message_page_by_rule functions sql_error mail state
          (automation_query_rule account_id rule action message_ids) message_ids.length
        items.foldlM (fun state message => mail.apply_automation_action account_id message action state) state) state)
      state

end Consumers

section Accepted

variable {functions : Functions} {sql_error : String}

mutual

theorem validate_group_ok_iff {regex : String → Option (String → Bool)} {group : MailQueryGroup} :
    validate_group regex group = .ok () ↔ ∀ condition ∈ group.conditions, validate_condition regex condition = .ok () := by
  match group with
  | .mk operator negated nodes => exact validate_nodes_ok_iff

theorem validate_nodes_ok_iff {regex : String → Option (String → Bool)} {nodes : List MailQueryRuleNode} :
    validate_nodes regex nodes = .ok () ↔
      ∀ condition ∈ nodesConditions nodes, validate_condition regex condition = .ok () := by
  match nodes with
  | [] => exact iff_of_true rfl fun _ hmem => absurd hmem List.not_mem_nil
  | node :: nodes =>
    rw [validate_nodes, effects.except_bind_eq_ok_iff, nodesConditions, List.forall_mem_append,
      ← validate_node_ok_iff, ← validate_nodes_ok_iff]
    constructor
    · rintro ⟨_, hnode, hnodes⟩
      exact ⟨hnode, hnodes⟩
    · rintro ⟨hnode, hnodes⟩
      exact ⟨(), hnode, hnodes⟩

theorem validate_node_ok_iff {regex : String → Option (String → Bool)} {node : MailQueryRuleNode} :
    validate_node regex node = .ok () ↔ ∀ condition ∈ node.conditions, validate_condition regex condition = .ok () := by
  match node with
  | .Group group => exact validate_group_ok_iff
  | .Condition condition =>
    rw [MailQueryRuleNode.conditions, List.forall_mem_singleton]
    exact Iff.rfl

end

theorem query_by_rule_of_executes {archive : Archive} {messages : List QueriedRow} {rule : MailQueryRule}
    (hexecutes : Executes functions rule) :
    ∃ selected, query_by_rule functions sql_error archive messages rule = .ok selected := by
  obtain ⟨fragment, selected, hcompile, hselect⟩ := hexecutes archive messages
  exact ⟨selected, by simp only [query_by_rule, hcompile, effects.except_bind_ok, hselect]⟩

theorem evaluate_of_executes {archive : Archive} {messages : List QueriedRow} {mailboxes : List SmartMailbox}
    (hexecutes : ∀ mailbox ∈ mailboxes, Executes functions mailbox.rule) :
    ∃ rows, evaluate_smart_mailboxes functions sql_error archive messages mailboxes = .ok rows := by
  induction mailboxes with
  | nil => exact ⟨[], rfl⟩
  | cons mailbox mailboxes ih =>
    obtain ⟨rows, hrows⟩ := ih fun other hother => hexecutes other (List.mem_cons_of_mem _ hother)
    obtain ⟨selected, hselected⟩ : ∃ selected, query_by_rule functions sql_error archive messages mailbox.rule =
        .ok selected := query_by_rule_of_executes (hexecutes mailbox List.mem_cons_self)
    rw [evaluate_smart_mailboxes] at hrows ⊢
    rw [List.mapM_cons, hrows, count_smart_mailbox_messages, hselected]
    exact ⟨_, rfl⟩

theorem nodesConditions_append {first second : List MailQueryRuleNode} :
    nodesConditions (first ++ second) = nodesConditions first ++ nodesConditions second := by
  induction first with
  | nil => rfl
  | cons node first ih => rw [List.cons_append, nodesConditions, ih, nodesConditions, List.append_assoc]

theorem executable_of_ordinary {field : MailQueryField} {operator : MailQueryOperator} {negated : Bool}
    {value : MailQueryValue} (hoperator : operator ∈ (field_spec field).operators)
    (hshape : ShapeFits ⟨field, operator, negated, value⟩) (hordinary : operator ≠ .Regex) :
    Executable functions ⟨field, operator, negated, value⟩ :=
  ⟨hoperator, hshape, fun hregex => absurd hregex hordinary⟩

theorem precondition_executable {action : AutomationAction} {condition : MailQueryCondition}
    (hcondition : condition ∈ (automation_action_precondition action).conditions) : Executable functions condition := by
  cases action
  all_goals
    obtain rfl := List.mem_singleton.mp hcondition
    refine executable_of_ordinary (by decide) ?_ (by decide)
  case ApplyTag | RemoveTag | MoveToMailbox => rintro ⟨⟩
  all_goals trivial

/-- The account, the messages and the precondition around a rule's own conditions. -/
theorem automation_query_rule_executes {account_id : AccountId} {rule : AutomationRule} {action : AutomationAction}
    {message_ids : List MessageId} (hexecutable : ∀ condition ∈ rule.condition.conditions, Executable functions condition) :
    Executes functions (automation_query_rule account_id rule action message_ids) := by
  have hconditions : ∀ condition ∈ (automation_query_rule account_id rule action message_ids).conditions,
      Executable functions condition := by
    intro condition hcondition
    simp only [MailQueryRule.conditions, automation_query_rule, MailQueryGroup.conditions, nodesConditions_append,
      nodesConditions, List.append_nil, List.mem_append] at hcondition
    rcases hcondition with ((hsource | hown) | hmessages) | hprecondition
    · obtain rfl := List.mem_singleton.mp hsource
      exact executable_of_ordinary (by decide) (by rintro ⟨⟩) (by rintro ⟨⟩)
    · exact hexecutable condition hown
    · split_ifs at hmessages with hnone
      · cases hmessages
      · obtain rfl := List.mem_singleton.mp hmessages
        exact executable_of_ordinary (by decide) rfl (by rintro ⟨⟩)
    · exact precondition_executable hprecondition
  exact executes_iff.mpr hconditions _ fun condition hcondition => hcondition

/-- Rules whose conditions execute run to the end on any mail whose actions do. -/
theorem apply_automation_rules_of_executable {σ : Type} {mail : Mail σ} {account_id : AccountId}
    {rules : List AutomationRule} {message_ids : List MessageId} {state : σ}
    (hact : ∀ message action before, ∃ after, mail.apply_automation_action account_id message action before = .ok after)
    (hexecutable : ∀ rule ∈ rules, ∀ condition ∈ rule.condition.conditions, Executable functions condition) :
    ∃ after, apply_automation_rules functions sql_error mail account_id rules message_ids state = .ok after := by
  rw [apply_automation_rules]
  split_ifs
  · exact ⟨state, rfl⟩
  · refine effects.except_foldlM_ok fun rule hrule before => ?_
    have hrule := hexecutable rule (List.mem_filter.mp hrule).1
    refine effects.except_foldlM_ok fun action _ before => ?_
    obtain ⟨selected, hselected⟩ : ∃ selected, query_by_rule functions sql_error (mail.archive before)
        (mail.messages before) (automation_query_rule account_id rule action message_ids) = .ok selected :=
      query_by_rule_of_executes (automation_query_rule_executes hrule)
    simp only [query_message_page_by_rule, hselected, effects.except_bind_ok]
    exact effects.except_foldlM_ok fun message _ before => hact message action before

end Accepted

section Boundary

variable (functions : Functions) (sql_error : String) (conditions : Set MailQueryCondition)

/-- Smart mailboxes over these conditions that the boundary accepts execute, and list together. -/
def SmartMailboxesExecute : Prop :=
  ∀ mailboxes : List SmartMailbox,
    (∀ mailbox ∈ mailboxes, validate_query functions.regex mailbox.rule = .ok () ∧
      ∀ condition ∈ mailbox.rule.conditions, condition ∈ conditions) →
    (∀ mailbox ∈ mailboxes, Executes functions mailbox.rule) ∧
      ∀ archive messages, ∃ rows, evaluate_smart_mailboxes functions sql_error archive messages mailboxes = .ok rows

/-- Automation rules over these conditions that the boundary accepts execute, and are evaluated to the end. -/
def AutomationRulesExecute : Prop :=
  ∀ rules : List AutomationRule, validate_automation_rules rules = .ok () →
    (∀ rule ∈ rules, ∀ condition ∈ rule.condition.conditions, condition ∈ conditions) →
    (∀ rule ∈ rules, Executes functions rule.condition) ∧
      ∀ (σ : Type) (mail : Mail σ) (account_id : AccountId),
        (∀ message action before, ∃ after, mail.apply_automation_action account_id message action before = .ok after) →
        ∀ message_ids state, ∃ after,
          apply_automation_rules functions sql_error mail account_id rules message_ids state = .ok after

end Boundary

section Boundary

variable {functions : Functions} {sql_error : String} {conditions : Set MailQueryCondition}

/-- The list of smart mailboxes is safe over a set of conditions exactly when those the boundary accepts execute. -/
theorem smartMailboxesExecute_iff : SmartMailboxesExecute functions sql_error conditions ↔
    ∀ condition ∈ conditions, validate_condition functions.regex condition = .ok () → Executable functions condition := by
  let accepted : Set MailQueryCondition := fun condition =>
    condition ∈ conditions ∧ validate_condition functions.regex condition = .ok ()
  have hsets : (∀ rule : MailQueryRule, (∀ condition ∈ rule.conditions, condition ∈ accepted) → Executes functions rule) ↔
      ∀ condition ∈ accepted, Executable functions condition := executes_iff
  have hboth : ∀ rule : MailQueryRule, (validate_query functions.regex rule = .ok () ∧
      ∀ condition ∈ rule.conditions, condition ∈ conditions) ↔ ∀ condition ∈ rule.conditions, condition ∈ accepted := by
    intro rule
    rw [validate_query, validate_group_ok_iff]
    exact ⟨fun h condition hmem => ⟨h.2 condition hmem, h.1 condition hmem⟩,
      fun h => ⟨fun condition hmem => (h condition hmem).2, fun condition hmem => (h condition hmem).1⟩⟩
  constructor
  · intro hexecute condition hmem hvalid
    refine hsets.mp (fun rule hrule => ?_) condition ⟨hmem, hvalid⟩
    let mailbox : SmartMailbox := ⟨"sm-1", "Rule", .User, none, none, none, rule, "", ""⟩
    have haccepted : ∀ other ∈ [mailbox], validate_query functions.regex other.rule = .ok () ∧
        ∀ condition ∈ other.rule.conditions, condition ∈ conditions := by
      intro other hother
      rw [List.mem_singleton.mp hother]
      exact (hboth rule).mpr hrule
    exact (hexecute [mailbox] haccepted).1 mailbox List.mem_cons_self
  · intro hexecutable mailboxes hmailboxes
    have hexecutes : ∀ mailbox ∈ mailboxes, Executes functions mailbox.rule := by
      intro mailbox hmailbox
      refine hsets.mpr (fun condition haccepted => hexecutable condition haccepted.1 haccepted.2) _ ?_
      exact (hboth mailbox.rule).mp (hmailboxes mailbox hmailbox)
    exact ⟨hexecutes, fun _ _ => evaluate_of_executes hexecutes⟩

/-- An automation rule that the boundary accepts whatever its condition is. -/
def acceptedRule (condition : MailQueryRule) : AutomationRule where
  id := "rule-1"
  name := "Rule"
  enabled := true
  triggers := [.MessageArrived]
  condition := condition
  actions := [.MarkRead]
  backfill := false

theorem acceptedRule_accepted {rule : MailQueryRule} : validate_automation_rules [acceptedRule rule] = .ok () := by
  have hid : isBlank "rule-1" = false := by decide
  have hname : isBlank "Rule" = false := by decide
  have hnone : automation_rule_errors [acceptedRule rule] = [] := by
    simp [automation_rule_errors, automationErrorsFrom, automationRuleErrors, acceptedRule, automationActionErrors, hid,
      hname]
  rw [validate_automation_rules, hnone]

/-- Automation rules are safe over a set of conditions exactly when all of them execute: the boundary asks nothing. -/
theorem automationRulesExecute_iff : AutomationRulesExecute functions sql_error conditions ↔
    ∀ condition ∈ conditions, Executable functions condition := by
  constructor
  · intro hexecute
    refine executes_iff.mp fun rule hrule => ?_
    have hin : ∀ other ∈ [acceptedRule rule], ∀ condition ∈ other.condition.conditions, condition ∈ conditions := by
      intro other hother
      rw [List.mem_singleton.mp hother]
      exact hrule
    exact (hexecute [acceptedRule rule] acceptedRule_accepted hin).1 (acceptedRule rule) List.mem_cons_self
  · intro hexecutable rules _ hrules
    have hown : ∀ rule ∈ rules, ∀ condition ∈ rule.condition.conditions, Executable functions condition :=
      fun rule hrule condition hcondition => hexecutable condition (hrules rule hrule condition hcondition)
    refine ⟨fun rule hrule => executes_iff.mpr (hown rule hrule) _ fun _ hcondition => hcondition, ?_⟩
    intro σ mail account_id hact message_ids state
    exact apply_automation_rules_of_executable hact hown

/-- What the write boundaries promise of the rules they accept, over any set of conditions. -/
theorem accepted_rules_execute_iff (functions : Functions) (sql_error : String) (conditions : Set MailQueryCondition) :
    (SmartMailboxesExecute functions sql_error conditions ↔ ∀ condition ∈ conditions,
      validate_condition functions.regex condition = .ok () → Executable functions condition) ∧
    (AutomationRulesExecute functions sql_error conditions ↔ ∀ condition ∈ conditions, Executable functions condition) :=
  ⟨smartMailboxesExecute_iff, automationRulesExecute_iff⟩

end Boundary

/-- A smart mailbox over one condition. -/
def mailboxOf (condition : MailQueryCondition) : SmartMailbox :=
  ⟨"sm-1", "Rule", .User, none, none, none, single false condition, "", ""⟩

/-- A list of subjects under `equals`. -/
def listedSubjects : MailQueryCondition := ⟨.Subject, .Equals, false, .Strings ["a"]⟩

/-- A size that is no number. -/
def wordySize : MailQueryCondition := ⟨.Size, .Gt, false, .String "big"⟩

theorem accepted_rules_that_fail :
    (∀ condition ∈ [listedSubjects, wordySize],
      validate_query asciiFunctions.regex (mailboxOf condition).rule = .ok () ∧
      (evaluate_smart_mailboxes asciiFunctions "" emptyArchive [] [mailboxOf ⟨.Subject, .Equals, false, .String "a"⟩,
        mailboxOf condition]).toOption.isNone) ∧
    validate_automation_rules [acceptedRule (single false ⟨.Subject, .Regex, false, .String "("⟩)] = .ok () ∧
    (query_by_rule asciiFunctions "" emptyArchive [fiveHundred]
      (single false ⟨.Subject, .Regex, false, .String "("⟩)).toOption.isNone := by
  decide

end posthaste.store.smart_mailboxes
