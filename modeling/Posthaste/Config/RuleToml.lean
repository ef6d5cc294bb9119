import Posthaste.Config.Settings
import Posthaste.Library.Toml

open serde posthaste.model

namespace posthaste.config

/-- A schema enum of `bimap_enum!`: the variants of the domain enum under the same names. -/
structure Bimap (α : Type) where
  variant : α
  deriving DecidableEq

namespace Bimap

variable {α : Type}

def to_domain (toml : Bimap α) : α := toml.variant

def from_domain (value : α) : Bimap α := ⟨value⟩

@[simp] theorem to_domain_from_domain (value : α) : (from_domain value).to_domain = value := rfl

end Bimap

abbrev SmartMailboxKindToml := Bimap SmartMailboxKind
abbrev GroupOperatorToml := Bimap MailQueryGroupOperator
abbrev FieldToml := Bimap MailQueryField
abbrev ConditionOperatorToml := Bimap MailQueryOperator

instance : toml.Variants SmartMailboxKindToml where
  name
    | ⟨.Default⟩ => "default"
    | ⟨.User⟩ => "user"
  parse
    | "default" => some ⟨.Default⟩
    | "user" => some ⟨.User⟩
    | _ => none
  parse_name := by rintro ⟨_ | _⟩ <;> rfl

instance : toml.Variants GroupOperatorToml where
  name
    | ⟨.All⟩ => "all"
    | ⟨.Any⟩ => "any"
  parse
    | "all" => some ⟨.All⟩
    | "any" => some ⟨.Any⟩
    | _ => none
  parse_name := by rintro ⟨_ | _⟩ <;> rfl

instance : toml.Variants FieldToml where
  name
    | ⟨.SourceId⟩ => "source_id"
    | ⟨.SourceName⟩ => "source_name"
    | ⟨.MessageId⟩ => "message_id"
    | ⟨.ThreadId⟩ => "thread_id"
    | ⟨.ConversationId⟩ => "conversation_id"
    | ⟨.MailboxId⟩ => "mailbox_id"
    | ⟨.MailboxName⟩ => "mailbox_name"
    | ⟨.MailboxRole⟩ => "mailbox_role"
    | ⟨.IsRead⟩ => "is_read"
    | ⟨.IsFlagged⟩ => "is_flagged"
    | ⟨.HasAttachment⟩ => "has_attachment"
    | ⟨.Keyword⟩ => "keyword"
    | ⟨.FromName⟩ => "from_name"
    | ⟨.FromEmail⟩ => "from_email"
    | ⟨.To⟩ => "to"
    | ⟨.Subject⟩ => "subject"
    | ⟨.Preview⟩ => "preview"
    | ⟨.Body⟩ => "body"
    | ⟨.ReceivedAt⟩ => "received_at"
    | ⟨.Size⟩ => "size"
  parse
    | "source_id" => some ⟨.SourceId⟩
    | "source_name" => some ⟨.SourceName⟩
    | "message_id" => some ⟨.MessageId⟩
    | "thread_id" => some ⟨.ThreadId⟩
    | "conversation_id" => some ⟨.ConversationId⟩
    | "mailbox_id" => some ⟨.MailboxId⟩
    | "mailbox_name" => some ⟨.MailboxName⟩
    | "mailbox_role" => some ⟨.MailboxRole⟩
    | "is_read" => some ⟨.IsRead⟩
    | "is_flagged" => some ⟨.IsFlagged⟩
    | "has_attachment" => some ⟨.HasAttachment⟩
    | "keyword" => some ⟨.Keyword⟩
    | "from_name" => some ⟨.FromName⟩
    | "from_email" => some ⟨.FromEmail⟩
    | "to" => some ⟨.To⟩
    | "subject" => some ⟨.Subject⟩
    | "preview" => some ⟨.Preview⟩
    | "body" => some ⟨.Body⟩
    | "received_at" => some ⟨.ReceivedAt⟩
    | "size" => some ⟨.Size⟩
    | _ => none
  parse_name := by
    rintro ⟨variant⟩
    cases variant <;> rfl

/-- The ordered comparisons are still read under their names from before the rename. -/
instance : toml.Variants ConditionOperatorToml where
  name
    | ⟨.Equals⟩ => "equals"
    | ⟨.In⟩ => "in"
    | ⟨.Contains⟩ => "contains"
    | ⟨.BeginsWith⟩ => "begins_with"
    | ⟨.EndsWith⟩ => "ends_with"
    | ⟨.Regex⟩ => "regex"
    | ⟨.Lt⟩ => "lt"
    | ⟨.Gt⟩ => "gt"
    | ⟨.Le⟩ => "le"
    | ⟨.Ge⟩ => "ge"
  parse
    | "equals" => some ⟨.Equals⟩
    | "in" => some ⟨.In⟩
    | "contains" => some ⟨.Contains⟩
    | "begins_with" => some ⟨.BeginsWith⟩
    | "ends_with" => some ⟨.EndsWith⟩
    | "regex" => some ⟨.Regex⟩
    | "lt" | "before" => some ⟨.Lt⟩
    | "gt" | "after" => some ⟨.Gt⟩
    | "le" | "on_or_before" => some ⟨.Le⟩
    | "ge" | "on_or_after" => some ⟨.Ge⟩
    | _ => none
  parse_name := by
    rintro ⟨variant⟩
    cases variant <;> rfl

structure ConditionToml where
  field : FieldToml
  operator : ConditionOperatorToml
  negated : Bool
  value : Value

mutual

inductive RuleGroupToml where
  | mk (operator : GroupOperatorToml) (negated : Bool) (nodes : List RuleNodeToml)

inductive RuleNodeToml where
  | Condition (condition : ConditionToml)
  | Group (group : RuleGroupToml)

end

section Serde

def ConditionToml.fields (condition : ConditionToml) : List (String × Option Value) :=
  [("field", some (to_value condition.field)), ("operator", some (to_value condition.operator)),
    ("negated", some (to_value condition.negated)), ("value", some condition.value)]

mutual

/-- A group, its nodes tagged by `type`. -/
def RuleGroupToml.fields : RuleGroupToml → List (String × Option Value)
  | .mk operator negated nodes =>
    [("operator", some (to_value operator)), ("negated", some (to_value negated)),
      ("nodes", some (.array (nodesToValues nodes)))]

def RuleNodeToml.fields : RuleNodeToml → List (String × Option Value)
  | .Condition condition => ("type", some (.string "condition")) :: condition.fields
  | .Group group => ("type", some (.string "group")) :: group.fields

def nodesToValues : List RuleNodeToml → List Value
  | [] => []
  | node :: rest => toml.table node.fields :: nodesToValues rest

end

instance : Serialize RuleGroupToml where
  to_value group := toml.table group.fields

/-- Read one field of a table. -/
def readField {α : Type} (entries : List (String × Value)) (visit : StructReader α) : Except Error α :=
  (visit (.map entries)).map Prod.fst

def readCondition (entries : List (String × Value)) : Except Error ConditionToml := do
  let field ← readField entries (required "field")
  let operator ← readField entries (required "operator")
  let negated ← readField entries (defaulted "negated" false)
  let value ← readField entries (required "value")
  return { field, operator, negated, value }

def readGroup (entries : List (String × Value)) (nodes : List RuleNodeToml) : Except Error RuleGroupToml := do
  let operator ← readField entries (defaulted "operator" ⟨.All⟩)
  let negated ← readField entries (defaulted "negated" false)
  return .mk operator negated nodes

mutual

def RuleGroupToml.from_value : Value → Except Error RuleGroupToml
  | .object entries => do
    let nodes ← nodesIn entries
    readGroup entries nodes
  | _ => .error (.invalid_type "struct RuleGroupToml")

def RuleNodeToml.from_value : Value → Except Error RuleNodeToml
  | .object entries =>
    match entries.lookup "type" with
    | some (.string "condition") => (readCondition entries).map RuleNodeToml.Condition
    | some (.string "group") => do
      let nodes ← nodesIn entries
      let group ← readGroup entries nodes
      return .Group group
    | some _ => .error (.invalid_value "condition or group")
    | none => .error (.missing_field "type")
  | _ => .error (.invalid_type "internally tagged enum RuleNodeToml")

/-- The nodes of a table, none where the key is absent. -/
def nodesIn : List (String × Value) → Except Error (List RuleNodeToml)
  | [] => .ok []
  | (name, value) :: rest => if name = "nodes" then nodesOf value else nodesIn rest

def nodesOf : Value → Except Error (List RuleNodeToml)
  | .array items => nodesOfItems items
  | _ => .error (.invalid_type "a sequence")

def nodesOfItems : List Value → Except Error (List RuleNodeToml)
  | [] => .ok []
  | value :: rest => do
    let node ← RuleNodeToml.from_value value
    let nodes ← nodesOfItems rest
    return node :: nodes

end

theorem readField_of_reads {α : Type} {entries : List (String × Value)} {visit : StructReader α} {value : α}
    (hreads : Reads visit entries value) : readField entries visit = .ok value := by
  unfold Reads at hreads
  rw [readField, hreads]
  rfl

theorem nodesIn_of_lookup {entries : List (String × Value)} {value : Value}
    (hlookup : entries.lookup "nodes" = some value) : nodesIn entries = nodesOf value := by
  induction entries with
  | nil => cases hlookup
  | cons entry rest ih =>
    obtain ⟨name, head⟩ := entry
    rw [List.lookup_cons] at hlookup
    rw [nodesIn]
    by_cases hname : name = "nodes"
    · rw [if_pos hname]
      rw [hname] at hlookup
      rw [← Option.some_inj.1 hlookup]
    · rw [if_neg hname]
      rw [beq_false_of_ne (Ne.symm hname)] at hlookup
      exact ih hlookup

theorem readCondition_of_lookups {entries : List (String × Value)} (condition : ConditionToml)
    (hfield : entries.lookup "field" = some (to_value condition.field))
    (hoperator : entries.lookup "operator" = some (to_value condition.operator))
    (hnegated : entries.lookup "negated" = some (to_value condition.negated))
    (hvalue : entries.lookup "value" = some condition.value) : readCondition entries = .ok condition := by
  rw [readCondition, readField_of_reads (Reads.required hfield), readField_of_reads (Reads.required hoperator),
    readField_of_reads (Reads.defaulted hnegated), readField_of_reads (Reads.required hvalue)]
  rfl

theorem readGroup_of_lookups {entries : List (String × Value)} {operator : GroupOperatorToml} {negated : Bool}
    (nodes : List RuleNodeToml) (hoperator : entries.lookup "operator" = some (to_value operator))
    (hnegated : entries.lookup "negated" = some (to_value negated)) :
    readGroup entries nodes = .ok (.mk operator negated nodes) := by
  rw [readGroup, readField_of_reads (Reads.defaulted hoperator), readField_of_reads (Reads.defaulted hnegated)]
  rfl

theorem group_names (group : RuleGroupToml) : (group.fields.map Prod.fst).Nodup := by
  cases group
  simp [RuleGroupToml.fields]

theorem node_names (node : RuleNodeToml) : (node.fields.map Prod.fst).Nodup := by
  cases node with
  | Condition condition => simp [RuleNodeToml.fields, ConditionToml.fields]
  | Group group =>
    cases group
    simp [RuleNodeToml.fields, RuleGroupToml.fields]

mutual

theorem RuleGroupToml.from_to : ∀ group : RuleGroupToml,
    RuleGroupToml.from_value (toml.table group.fields) = .ok group
  | .mk operator negated nodes => by
    have hat := fun name found => @toml.lookup_present _ (group_names (.mk operator negated nodes)) name found
    simp only [toml.table, RuleGroupToml.from_value]
    rw [nodesIn_of_lookup (hat "nodes" _ rfl), nodesOf, nodesOfItems_nodesToValues nodes]
    exact readGroup_of_lookups nodes (hat "operator" _ rfl) (hat "negated" _ rfl)

theorem RuleNodeToml.from_to : ∀ node : RuleNodeToml, RuleNodeToml.from_value (toml.table node.fields) = .ok node
  | .Condition condition => by
    have hat := fun name found => @toml.lookup_present _ (node_names (.Condition condition)) name found
    simp only [toml.table, RuleNodeToml.from_value]
    rw [hat "type" _ rfl]
    simp only
    rw [readCondition_of_lookups condition (hat "field" _ rfl) (hat "operator" _ rfl) (hat "negated" _ rfl)
      (hat "value" _ rfl)]
    rfl
  | .Group (.mk operator negated nodes) => by
    have hat := fun name found => @toml.lookup_present _ (node_names (.Group (.mk operator negated nodes))) name found
    simp only [toml.table, RuleNodeToml.from_value]
    rw [hat "type" _ rfl]
    simp only
    rw [nodesIn_of_lookup (hat "nodes" _ rfl), nodesOf, nodesOfItems_nodesToValues nodes]
    show (readGroup _ nodes >>= _) = _
    rw [readGroup_of_lookups nodes (hat "operator" _ rfl) (hat "negated" _ rfl)]
    rfl

theorem nodesOfItems_nodesToValues : ∀ nodes : List RuleNodeToml, nodesOfItems (nodesToValues nodes) = .ok nodes
  | [] => rfl
  | node :: rest => by
    rw [nodesToValues, nodesOfItems, RuleNodeToml.from_to node, nodesOfItems_nodesToValues rest]
    rfl

end

instance : Deserialize RuleGroupToml where
  from_value := RuleGroupToml.from_value

instance : RoundTrip RuleGroupToml where
  from_to group := RuleGroupToml.from_to group

end Serde

section Conversions

def date_unit_from_str (unit : String) : Except String DateUnit :=
  match unit with
  | "minutes" => .ok .Minutes
  | "hours" => .ok .Hours
  | "days" => .ok .Days
  | "weeks" => .ok .Weeks
  | "months" => .ok .Months
  | other => .error s!"unknown relative date unit: {other}"

def date_unit_str : DateUnit → String
  | .Minutes => "minutes"
  | .Hours => "hours"
  | .Days => "days"
  | .Weeks => "weeks"
  | .Months => "months"

def asString : Option Value → String → Except String String
  | some (.string text), _ => .ok text
  | _, missing => .error missing

def asInteger : Option Value → String → Except String Int
  | some (.number value), _ => .ok value
  | _, missing => .error missing

def convert_toml_date_table (table : List (String × Value)) : Except String MailQueryValue := do
  let kind ← asString (table.lookup "kind") "date value table must have a string `kind`"
  match kind with
  | "absolute" =>
    let value ← asString (table.lookup "value") "absolute date value must have a string `value`"
    return .Date (.Absolute value)
  | "relative" =>
    let amount ← asInteger (table.lookup "amount") "relative date value must have an integer `amount`"
    if 0 ≤ amount ∧ amount.toNat < UInt32.size then
      let unit ← asString (table.lookup "unit") "relative date value must have a string `unit`"
      let unit ← date_unit_from_str unit
      return .Date (.Relative amount.toNat unit)
    else .error "relative date `amount` out of range"
  | other => .error s!"unknown date value kind: {other}"

def stringsOf : List Value → Except String (List String)
  | [] => .ok []
  | .string text :: rest => do
    let texts ← stringsOf rest
    return text :: texts
  | _ :: _ => .error "array values must be strings"

/-- A bare string is also how a date was stored before it had a type of its own. -/
def convert_toml_value : Value → Except String MailQueryValue
  | .string text => .ok (.String text)
  | .bool flag => .ok (.Bool flag)
  | .array items => (stringsOf items).map MailQueryValue.Strings
  | .object table => convert_toml_date_table table
  | .number value => .error s!"unsupported TOML value type: {value}"
  | .float text => .error s!"unsupported TOML value type: {text}"
  | .null => .error "unsupported TOML value type: "

def convert_condition (condition : ConditionToml) : Except String MailQueryCondition := do
  let value ← convert_toml_value condition.value
  return ⟨condition.field.to_domain, condition.operator.to_domain, condition.negated, value⟩

mutual

def convert_rule_group : RuleGroupToml → Except String MailQueryGroup
  | .mk operator negated nodes => do
    let nodes ← convertNodes nodes
    return .mk operator.to_domain negated nodes

def convert_rule_node : RuleNodeToml → Except String MailQueryRuleNode
  | .Condition condition => do
    let condition ← convert_condition condition
    return .Condition condition
  | .Group group => do
    let group ← convert_rule_group group
    return .Group group

def convertNodes : List RuleNodeToml → Except String (List MailQueryRuleNode)
  | [] => .ok []
  | node :: rest => do
    let node ← convert_rule_node node
    let nodes ← convertNodes rest
    return node :: nodes

end

def convert_value_to_toml : MailQueryValue → Value
  | .String text => .string text
  | .Bool flag => .bool flag
  | .Strings values => .array (values.map Value.string)
  | .Date (.Absolute value) => .object [("kind", .string "absolute"), ("value", .string value)]
  | .Date (.Relative amount unit) =>
    .object [("kind", .string "relative"), ("amount", .number amount), ("unit", .string (date_unit_str unit))]

def convert_condition_to_toml (condition : MailQueryCondition) : ConditionToml where
  field := .from_domain condition.field
  operator := .from_domain condition.operator
  negated := condition.negated
  value := convert_value_to_toml condition.value

mutual

def convert_group_to_toml : MailQueryGroup → RuleGroupToml
  | .mk operator negated nodes => .mk (.from_domain operator) negated (nodesToToml nodes)

def convert_node_to_toml : MailQueryRuleNode → RuleNodeToml
  | .Condition condition => .Condition (convert_condition_to_toml condition)
  | .Group group => .Group (convert_group_to_toml group)

def nodesToToml : List MailQueryRuleNode → List RuleNodeToml
  | [] => []
  | node :: rest => convert_node_to_toml node :: nodesToToml rest

end

/-- The width of a relative date's amount. -/
def InWidth : MailQueryValue → Prop
  | .Date (.Relative amount _) => amount < UInt32.size
  | _ => True

mutual

def GroupInWidth : MailQueryGroup → Prop
  | .mk _ _ nodes => NodesInWidth nodes

def NodeInWidth : MailQueryRuleNode → Prop
  | .Condition condition => InWidth condition.value
  | .Group group => GroupInWidth group

def NodesInWidth : List MailQueryRuleNode → Prop
  | [] => True
  | node :: rest => NodeInWidth node ∧ NodesInWidth rest

end

theorem date_unit_from_str_date_unit_str (unit : DateUnit) : date_unit_from_str (date_unit_str unit) = .ok unit := by
  cases unit <;> rfl

theorem stringsOf_map (values : List String) : stringsOf (values.map Value.string) = .ok values := by
  induction values with
  | nil => rfl
  | cons value rest ih =>
    rw [List.map_cons, stringsOf, ih]
    rfl

theorem convert_relative {amount : Nat} (hwidth : amount < UInt32.size) (unit : DateUnit) :
    convert_toml_date_table [("kind", .string "relative"), ("amount", .number amount),
      ("unit", .string (date_unit_str unit))] = .ok (.Date (.Relative amount unit)) := by
  have hrange : 0 ≤ (amount : Int) ∧ (amount : Int).toNat < UInt32.size := by
    rw [Int.toNat_natCast]
    exact ⟨Int.natCast_nonneg amount, hwidth⟩
  simp only [convert_toml_date_table, List.lookup_cons, asString, asInteger, bind, Except.bind]
  simp only [String.reduceBEq, date_unit_from_str_date_unit_str, if_pos hrange]
  rfl

theorem convert_toml_value_convert_value_to_toml {value : MailQueryValue} (hwidth : InWidth value) :
    convert_toml_value (convert_value_to_toml value) = .ok value := by
  cases value with
  | String text => rfl
  | Bool flag => rfl
  | Strings values =>
    rw [convert_value_to_toml, convert_toml_value, stringsOf_map]
    rfl
  | Date date =>
    cases date with
    | Absolute value => rfl
    | Relative amount unit => exact convert_relative hwidth unit

mutual

theorem convert_group_round : ∀ group : MailQueryGroup, GroupInWidth group →
    convert_rule_group (convert_group_to_toml group) = .ok group
  | .mk operator negated nodes => by
    intro hwidth
    rw [convert_group_to_toml, convert_rule_group, convert_nodes_round nodes hwidth]
    rfl

theorem convert_node_round : ∀ node : MailQueryRuleNode, NodeInWidth node →
    convert_rule_node (convert_node_to_toml node) = .ok node
  | .Condition condition => by
    intro hwidth
    rw [convert_node_to_toml, convert_rule_node, convert_condition, convert_condition_to_toml,
      convert_toml_value_convert_value_to_toml hwidth]
    rfl
  | .Group group => by
    intro hwidth
    rw [convert_node_to_toml, convert_rule_node, convert_group_round group hwidth]
    rfl

theorem convert_nodes_round : ∀ nodes : List MailQueryRuleNode, NodesInWidth nodes →
    convertNodes (nodesToToml nodes) = .ok nodes
  | [] => fun _ => rfl
  | node :: rest => by
    intro hwidth
    rw [nodesToToml, convertNodes, convert_node_round node hwidth.1, convert_nodes_round rest hwidth.2]
    rfl

end

end Conversions

end posthaste.config
