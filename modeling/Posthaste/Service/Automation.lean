import Posthaste.DomainModel.Automation
import Posthaste.Service.Mutation
import Posthaste.SmartMailboxes.RuleTrees

open posthaste.model

namespace posthaste.service

open posthaste.store (AccountId)

open posthaste.store.smart_mailboxes (Archive Functions QueriedRow compileNode mailboxIds keywordsOf)

def condition_node (field : MailQueryField) (operator : MailQueryOperator) (value : MailQueryValue) :
    MailQueryRuleNode :=
  .Condition ⟨field, operator, false, value⟩

def negated_condition_node (field : MailQueryField) (operator : MailQueryOperator) (value : MailQueryValue) :
    MailQueryRuleNode :=
  .Condition ⟨field, operator, true, value⟩

/-- What a message must look like for the action to have something to do. -/
def automation_action_precondition : AutomationAction → Option MailQueryRuleNode
  | .ApplyTag tag => some (negated_condition_node .Keyword .Equals (.String tag))
  | .RemoveTag tag => some (condition_node .Keyword .Equals (.String tag))
  | .MarkRead => some (condition_node .IsRead .Equals (.Bool false))
  | .MarkUnread => some (condition_node .IsRead .Equals (.Bool true))
  | .Flag => some (condition_node .IsFlagged .Equals (.Bool false))
  | .Unflag => some (condition_node .IsFlagged .Equals (.Bool true))
  | .MoveToMailbox mailbox_id => some (negated_condition_node .MailboxId .Equals (.String mailbox_id))

/-- The candidates of one action of a rule: the rule's condition and the action's precondition. -/
def automation_query_rule (account_id : AccountId) (rule : AutomationRule) (action : AutomationAction)
    (message_ids : List MessageId) : MailQueryRule where
  root := .mk .All false
    ([condition_node .SourceId .Equals (.String account_id), .Group rule.condition.root] ++
      (if message_ids.isEmpty then [] else [condition_node .MessageId .In (.Strings message_ids)]) ++
      (automation_action_precondition action).toList)

/-- A summary, as far as automation reads it. -/
structure MessageSummary where
  id : MessageId
  source_id : AccountId
  is_read : Bool
  is_flagged : Bool
  mailbox_ids : List MailboxId
  keywords : List String

/-- The summary of a queried row, its mailboxes and keywords looked up in order. -/
def hydrate_message_summary (archive : Archive) (row : QueriedRow) : MessageSummary where
  id := row.id
  source_id := row.account_id
  is_read := row.is_read
  is_flagged := row.is_flagged
  mailbox_ids := (mailboxIds archive row).mergeSort
  keywords := (keywordsOf archive row).mergeSort

/-- A mutation an action queues. -/
inductive AutomationMutation where
  | set_keywords (command : SetKeywordsCommand)
  | replace_mailboxes (command : ReplaceMailboxesCommand)
  deriving DecidableEq

/-- What an action queues for a message; `none` leaves it alone. -/
def automation_mutation (message : MessageSummary) : AutomationAction → Option AutomationMutation
  | .ApplyTag tag =>
    if message.keywords.any (· = tag) then none else some (.set_keywords { add := [tag], remove := [] })
  | .RemoveTag tag =>
    if !message.keywords.any (· = tag) then none else some (.set_keywords { add := [], remove := [tag] })
  | .MarkRead => if message.is_read then none else some (.set_keywords { add := ["$seen"], remove := [] })
  | .MarkUnread => if !message.is_read then none else some (.set_keywords { add := [], remove := ["$seen"] })
  | .Flag => if message.is_flagged then none else some (.set_keywords { add := ["$flagged"], remove := [] })
  | .Unflag => if !message.is_flagged then none else some (.set_keywords { add := [], remove := ["$flagged"] })
  | .MoveToMailbox mailbox_id =>
    if message.mailbox_ids.length == 1 && message.mailbox_ids.any (· = mailbox_id) then none
    else some (.replace_mailboxes { mailbox_ids := [mailbox_id] })

def apply_automation_action (message : MessageSummary) (action : AutomationAction) (minted : Minted) :
    MailService Unit :=
  match automation_mutation message action with
  | none => return ()
  | some (.set_keywords command) => set_keywords message.id command minted
  | some (.replace_mailboxes command) => replace_mailboxes message.id command minted

section Preconditions

variable {functions : Functions} {archive : Archive} {row : QueriedRow} {action : AutomationAction}

open posthaste.store.smart_mailboxes (select conditionMeans fieldMeans textMeans TextsFaithful textsFaithful_nil Decides condition_decides Faithful
  compile_mail_query_condition)

/-- The statement with the action's precondition as its `WHERE` clause selects the row. -/
def PreconditionHolds (functions : Functions) (archive : Archive) (row : QueriedRow) (action : AutomationAction) :
    Prop :=
  ∃ precondition fragment, automation_action_precondition action = some precondition ∧
    compileNode functions archive precondition = .ok fragment ∧ select fragment [row] = some [row]

/-- The rows the precondition selects are the ones the action queues something for. -/
def PreconditionAgrees (functions : Functions) (archive : Archive) (row : QueriedRow) (action : AutomationAction) :
    Prop :=
  PreconditionHolds functions archive row action ↔
    (automation_mutation (hydrate_message_summary archive row) action).isSome

/-- A precondition that compiles and decides holds when it means true. -/
theorem preconditionHolds_iff {condition : MailQueryCondition}
    (hcondition : automation_action_precondition action = some (.Condition condition))
    (hcompile : ∃ fragment, compile_mail_query_condition functions archive condition = .ok fragment)
    (hfaithful : Faithful functions archive condition row) :
    PreconditionHolds functions archive row action ↔ conditionMeans functions archive condition row = true := by
  obtain ⟨fragment, hfragment⟩ := hcompile
  have hrun := (condition_decides hfaithful hfragment).run
  have hselect : select fragment [row] = some [row] ↔ conditionMeans functions archive condition row = true := by
    rw [select, hrun]
    cases conditionMeans functions archive condition row <;> simp [select]
  constructor
  · rintro ⟨precondition, other, hsome, hother, hselected⟩
    rw [hcondition, Option.some.injEq] at hsome
    obtain rfl := hsome
    rw [compileNode, hfragment, Except.ok.injEq] at hother
    obtain rfl := hother
    exact hselect.mp hselected
  · intro hmeans
    exact ⟨_, fragment, hcondition, hfragment, hselect.mpr hmeans⟩

/-- The condition an action's precondition consists of. -/
def preconditionOf : AutomationAction → MailQueryCondition
  | .ApplyTag tag => ⟨.Keyword, .Equals, true, .String tag⟩
  | .RemoveTag tag => ⟨.Keyword, .Equals, false, .String tag⟩
  | .MarkRead => ⟨.IsRead, .Equals, false, .Bool false⟩
  | .MarkUnread => ⟨.IsRead, .Equals, false, .Bool true⟩
  | .Flag => ⟨.IsFlagged, .Equals, false, .Bool false⟩
  | .Unflag => ⟨.IsFlagged, .Equals, false, .Bool true⟩
  | .MoveToMailbox mailbox_id => ⟨.MailboxId, .Equals, true, .String mailbox_id⟩

theorem automation_action_precondition_eq (action : AutomationAction) :
    automation_action_precondition action = some (.Condition (preconditionOf action)) := by
  cases action <;> rfl

theorem precondition_compiles (action : AutomationAction) :
    ∃ fragment, compile_mail_query_condition functions archive (preconditionOf action) = .ok fragment := by
  cases action <;> exact ⟨_, rfl⟩

/-- No precondition tests a text that reads null or letter case away. -/
theorem precondition_faithful (action : AutomationAction) :
    Faithful functions archive (preconditionOf action) row := by
  have hnone : TextsFaithful functions (preconditionOf action).operator (preconditionOf action).value [] :=
    textsFaithful_nil
  cases action <;> exact hnone

theorem any_eq_iff {values : List String} {value : String} : values.any (· = value) = true ↔ value ∈ values := by
  simp

theorem any_equals_iff {values : List String} {value : String} :
    values.any (textMeans functions .Equals (.String value)) = true ↔ value ∈ values := by
  simp [textMeans]

/-- What the precondition asks of a row. -/
def Asked (archive : Archive) (row : QueriedRow) : AutomationAction → Prop
  | .ApplyTag tag => tag ∉ keywordsOf archive row
  | .RemoveTag tag => tag ∈ keywordsOf archive row
  | .MarkRead => row.is_read = false
  | .MarkUnread => row.is_read = true
  | .Flag => row.is_flagged = false
  | .Unflag => row.is_flagged = true
  | .MoveToMailbox mailbox_id => mailbox_id ∉ mailboxIds archive row

theorem conditionMeans_precondition (action : AutomationAction) :
    conditionMeans functions archive (preconditionOf action) row = true ↔ Asked archive row action := by
  cases action with
  | ApplyTag tag =>
    show (true ^^ (keywordsOf archive row).any (textMeans functions .Equals (.String tag))) = true ↔
      tag ∉ keywordsOf archive row
    rw [← @any_equals_iff functions]
    simp
  | RemoveTag tag =>
    show (false ^^ (keywordsOf archive row).any (textMeans functions .Equals (.String tag))) = true ↔
      tag ∈ keywordsOf archive row
    rw [← @any_equals_iff functions, Bool.false_xor]
  | MarkRead => cases hread : row.is_read <;> simp [conditionMeans, fieldMeans, preconditionOf, Asked, hread]
  | MarkUnread => cases hread : row.is_read <;> simp [conditionMeans, fieldMeans, preconditionOf, Asked, hread]
  | Flag => cases hflag : row.is_flagged <;> simp [conditionMeans, fieldMeans, preconditionOf, Asked, hflag]
  | Unflag => cases hflag : row.is_flagged <;> simp [conditionMeans, fieldMeans, preconditionOf, Asked, hflag]
  | MoveToMailbox mailbox_id =>
    show (true ^^ (mailboxIds archive row).any (textMeans functions .Equals (.String mailbox_id))) = true ↔
      mailbox_id ∉ mailboxIds archive row
    rw [← @any_equals_iff functions]
    simp

/-- What an action has still to do on a row: as the precondition asks, but a move
    also takes the message out of every other mailbox. -/
def Unfinished (archive : Archive) (row : QueriedRow) : AutomationAction → Prop
  | .MoveToMailbox mailbox_id => ¬ ((mailboxIds archive row).length = 1 ∧ mailbox_id ∈ mailboxIds archive row)
  | action => Asked archive row action

theorem automation_mutation_isSome (action : AutomationAction) :
    (automation_mutation (hydrate_message_summary archive row) action).isSome ↔ Unfinished archive row action := by
  have htag : ∀ tag, (hydrate_message_summary archive row).keywords.any (· = tag) = true ↔
      tag ∈ keywordsOf archive row := fun tag => any_eq_iff.trans List.mem_mergeSort
  cases action with
  | ApplyTag tag =>
    show _ ↔ tag ∉ keywordsOf archive row
    rw [automation_mutation, ← htag]
    split_ifs with hheld <;> simp [hheld]
  | RemoveTag tag =>
    show _ ↔ tag ∈ keywordsOf archive row
    rw [automation_mutation, ← htag]
    cases (hydrate_message_summary archive row).keywords.any (· = tag) <;> simp
  | MarkRead =>
    show _ ↔ row.is_read = false
    cases hread : row.is_read <;> simp [automation_mutation, hydrate_message_summary, hread]
  | MarkUnread =>
    show _ ↔ row.is_read = true
    cases hread : row.is_read <;> simp [automation_mutation, hydrate_message_summary, hread]
  | Flag =>
    show _ ↔ row.is_flagged = false
    cases hflag : row.is_flagged <;> simp [automation_mutation, hydrate_message_summary, hflag]
  | Unflag =>
    show _ ↔ row.is_flagged = true
    cases hflag : row.is_flagged <;> simp [automation_mutation, hydrate_message_summary, hflag]
  | MoveToMailbox mailbox_id =>
    have hmailbox : (hydrate_message_summary archive row).mailbox_ids.any (· = mailbox_id) = true ↔
        mailbox_id ∈ mailboxIds archive row := any_eq_iff.trans List.mem_mergeSort
    have hlength : (hydrate_message_summary archive row).mailbox_ids.length = (mailboxIds archive row).length :=
      List.length_mergeSort _
    show _ ↔ ¬ ((mailboxIds archive row).length = 1 ∧ mailbox_id ∈ mailboxIds archive row)
    rw [automation_mutation, hlength, ← hmailbox]
    simp

/-- A move of a message that is in the target and in another mailbox as well. -/
def MovesOutOfOthers (archive : Archive) (row : QueriedRow) (action : AutomationAction) : Prop :=
  ∃ mailbox_id, action = .MoveToMailbox mailbox_id ∧ mailbox_id ∈ mailboxIds archive row ∧
    (mailboxIds archive row).length ≠ 1

theorem preconditionHolds_iff_means (action : AutomationAction) :
    PreconditionHolds functions archive row action ↔
      conditionMeans functions archive (preconditionOf action) row = true :=
  preconditionHolds_iff (automation_action_precondition_eq action) (precondition_compiles action)
    (precondition_faithful action)

end Preconditions

/-- The precondition selects the messages its action queues something for, except
    that a move filters out the messages it would take out of other mailboxes. -/
theorem precondition_is_the_guard (functions : Functions) (archive : Archive) (row : QueriedRow)
    (action : AutomationAction) :
    PreconditionAgrees functions archive row action ↔ ¬ MovesOutOfOthers archive row action := by
  unfold PreconditionAgrees
  rw [preconditionHolds_iff_means, conditionMeans_precondition, automation_mutation_isSome]
  cases action with
  | MoveToMailbox mailbox_id =>
    have hmoves : MovesOutOfOthers archive row (.MoveToMailbox mailbox_id) ↔
        mailbox_id ∈ mailboxIds archive row ∧ (mailboxIds archive row).length ≠ 1 := by
      constructor
      · rintro ⟨_, hsame, hrest⟩
        cases hsame
        exact hrest
      · exact fun hrest => ⟨mailbox_id, rfl, hrest⟩
    show (mailbox_id ∉ mailboxIds archive row ↔
      ¬ ((mailboxIds archive row).length = 1 ∧ mailbox_id ∈ mailboxIds archive row)) ↔ _
    rw [hmoves]
    by_cases hthere : mailbox_id ∈ mailboxIds archive row <;> simp [hthere]
  | ApplyTag _ | RemoveTag _ | MarkRead | MarkUnread | Flag | Unflag =>
    refine iff_of_true Iff.rfl ?_
    rintro ⟨_, hsame, _⟩
    cases hsame

/-- A message in the inbox and in the archive, to be moved to the archive. -/
def filedTwice : Archive where
  source_projection _ := none
  message_mailbox_effective := [("work", "m1", "inbox"), ("work", "m1", "archive")]
  mailbox := []
  message_keyword_effective := []
  message_fts _ := []

def twiceFiledRow : QueriedRow where
  account_id := "work"
  id := "m1"
  thread_id := "t1"
  conversation_id := some "c1"
  subject := none
  from_name := none
  from_email := none
  to_ := []
  preview := none
  received_at := "2026-01-01T00:00:00Z"
  has_attachment := false
  is_read := true
  is_flagged := false
  size := 0

/-- A move that would take a message out of the inbox never gets to see it. -/
theorem message_in_two_mailboxes_is_not_selected :
    ¬ ∀ functions archive row action, PreconditionAgrees functions archive row action := by
  intro hagrees
  have hagree := hagrees posthaste.store.smart_mailboxes.asciiFunctions filedTwice twiceFiledRow (.MoveToMailbox "archive")
  have hunfinished : Unfinished filedTwice twiceFiledRow (.MoveToMailbox "archive") := by
    show ¬ ((mailboxIds filedTwice twiceFiledRow).length = 1 ∧ _)
    decide
  have hholds := hagree.mpr ((automation_mutation_isSome _).mpr hunfinished)
  have hasked := (conditionMeans_precondition _).mp ((preconditionHolds_iff_means _).mp hholds)
  exact hasked (by decide)

end posthaste.service
