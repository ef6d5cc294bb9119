import Posthaste.Config.RuleToml

open serde posthaste.model

namespace posthaste.config

inductive AutomationTriggerToml where
  | MessageArrived
  | MessageChanged
  | Manual
  deriving DecidableEq

inductive AutomationActionToml where
  | ApplyTag (tag : String)
  | RemoveTag (tag : String)
  | MarkRead
  | MarkUnread
  | Flag
  | Unflag
  | MoveToMailbox (mailbox_id : String)
  deriving DecidableEq

structure AutomationRuleToml where
  id : String
  name : String
  enabled : Bool
  triggers : List AutomationTriggerToml
  backfill : Bool
  condition : RuleGroupToml
  actions : List AutomationActionToml

section Serde

instance : toml.Variants AutomationTriggerToml where
  name
    | .MessageArrived => "message_arrived"
    | .MessageChanged => "message_changed"
    | .Manual => "manual"
  parse
    | "message_arrived" => some .MessageArrived
    | "message_changed" => some .MessageChanged
    | "manual" => some .Manual
    | _ => none
  parse_name := by rintro (_ | _ | _) <;> rfl

instance : Serialize AutomationActionToml where
  to_value
    | .ApplyTag tag => .object [("kind", .string "apply_tag"), ("tag", to_value tag)]
    | .RemoveTag tag => .object [("kind", .string "remove_tag"), ("tag", to_value tag)]
    | .MarkRead => .object [("kind", .string "mark_read")]
    | .MarkUnread => .object [("kind", .string "mark_unread")]
    | .Flag => .object [("kind", .string "flag")]
    | .Unflag => .object [("kind", .string "unflag")]
    | .MoveToMailbox mailbox_id =>
      .object [("kind", .string "move_to_mailbox"), ("mailbox_id", to_value mailbox_id)]

instance : Deserialize AutomationActionToml where
  from_value
    | .object entries =>
      match entries.lookup "kind" with
      | some (.string "apply_tag") => (readField entries (required "tag")).map AutomationActionToml.ApplyTag
      | some (.string "remove_tag") => (readField entries (required "tag")).map AutomationActionToml.RemoveTag
      | some (.string "mark_read") => .ok .MarkRead
      | some (.string "mark_unread") => .ok .MarkUnread
      | some (.string "flag") => .ok .Flag
      | some (.string "unflag") => .ok .Unflag
      | some (.string "move_to_mailbox") =>
        (readField entries (required "mailbox_id")).map AutomationActionToml.MoveToMailbox
      | some _ => .error (.invalid_value "an automation action")
      | none => .error (.missing_field "kind")
    | _ => .error (.invalid_type "internally tagged enum AutomationActionToml")

instance : RoundTrip AutomationActionToml where
  from_to action := by cases action <;> rfl

def AutomationRuleToml.fields (rule : AutomationRuleToml) : List (String × Option Value) := [
  ("id", some (to_value rule.id)),
  ("name", some (to_value rule.name)),
  ("enabled", some (to_value rule.enabled)),
  ("triggers", some (to_value rule.triggers)),
  ("backfill", some (to_value rule.backfill)),
  ("condition", some (to_value rule.condition)),
  ("actions", some (to_value rule.actions))]

instance : Serialize AutomationRuleToml where
  to_value rule := toml.table rule.fields

instance : Deserialize AutomationRuleToml where
  from_value := deserialize_struct "struct AutomationRuleToml" do
    let id ← required "id"
    let name ← required "name"
    let enabled ← defaulted "enabled" true
    let triggers ← defaulted "triggers" []
    let backfill ← defaulted "backfill" false
    let condition ← required "condition"
    let actions ← defaulted "actions" []
    return { id, name, enabled, triggers, backfill, condition, actions }

instance : RoundTrip AutomationRuleToml where
  from_to rule := by
    have hat := fun name found => @toml.lookup_present rule.fields (by simp [AutomationRuleToml.fields]) name found
    exact deserialize_struct_object
      (.bind (.required (hat "id" _ rfl))
      (.bind (.required (hat "name" _ rfl))
      (.bind (.defaulted (hat "enabled" _ rfl))
      (.bind (.defaulted (hat "triggers" _ rfl))
      (.bind (.defaulted (hat "backfill" _ rfl))
      (.bind (.required (hat "condition" _ rfl))
      (.bind (.defaulted (hat "actions" _ rfl)) .pure)))))))

end Serde

section Conversions

def convert_automation_trigger : AutomationTriggerToml → AutomationTrigger
  | .MessageArrived => .MessageArrived
  | .MessageChanged => .MessageChanged
  | .Manual => .Manual

def convert_automation_action : AutomationActionToml → AutomationAction
  | .ApplyTag tag => .ApplyTag tag
  | .RemoveTag tag => .RemoveTag tag
  | .MarkRead => .MarkRead
  | .MarkUnread => .MarkUnread
  | .Flag => .Flag
  | .Unflag => .Unflag
  | .MoveToMailbox mailbox_id => .MoveToMailbox mailbox_id

def convert_automation_rule (rule : AutomationRuleToml) : Except String AutomationRule := do
  let root ← convert_rule_group rule.condition
  return {
    id := rule.id, name := rule.name, enabled := rule.enabled,
    triggers := rule.triggers.map convert_automation_trigger, condition := ⟨root⟩,
    actions := rule.actions.map convert_automation_action, backfill := rule.backfill }

def convert_automation_trigger_to_toml : AutomationTrigger → AutomationTriggerToml
  | .MessageArrived => .MessageArrived
  | .MessageChanged => .MessageChanged
  | .Manual => .Manual

def convert_automation_action_to_toml : AutomationAction → AutomationActionToml
  | .ApplyTag tag => .ApplyTag tag
  | .RemoveTag tag => .RemoveTag tag
  | .MarkRead => .MarkRead
  | .MarkUnread => .MarkUnread
  | .Flag => .Flag
  | .Unflag => .Unflag
  | .MoveToMailbox mailbox_id => .MoveToMailbox mailbox_id

def convert_automation_rule_to_toml (rule : AutomationRule) : AutomationRuleToml where
  id := rule.id
  name := rule.name
  enabled := rule.enabled
  triggers := rule.triggers.map convert_automation_trigger_to_toml
  backfill := rule.backfill
  condition := convert_group_to_toml rule.condition.root
  actions := rule.actions.map convert_automation_action_to_toml

theorem convert_trigger_round : convert_automation_trigger ∘ convert_automation_trigger_to_toml = id := by
  funext trigger
  cases trigger <;> rfl

theorem convert_action_round : convert_automation_action ∘ convert_automation_action_to_toml = id := by
  funext action
  cases action <;> rfl

theorem convert_rule_round {rule : AutomationRule} (hwidth : GroupInWidth rule.condition.root) :
    convert_automation_rule (convert_automation_rule_to_toml rule) = .ok rule := by
  obtain ⟨id, name, enabled, triggers, ⟨root⟩, actions, backfill⟩ := rule
  rw [convert_automation_rule, convert_automation_rule_to_toml, convert_group_round root hwidth]
  simp only [List.map_map, convert_trigger_round, convert_action_round, List.map_id]
  rfl

theorem convert_rules_round {rules : List AutomationRule}
    (hwidth : ∀ rule ∈ rules, GroupInWidth rule.condition.root) :
    (rules.map convert_automation_rule_to_toml).mapM convert_automation_rule = .ok rules := by
  induction rules with
  | nil => rfl
  | cons rule rest ih =>
    rw [List.map_cons, List.mapM_cons, convert_rule_round (hwidth rule List.mem_cons_self),
      ih fun other hother => hwidth other (List.mem_cons_of_mem _ hother)]
    rfl

end Conversions

end posthaste.config
