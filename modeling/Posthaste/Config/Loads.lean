import Posthaste.Config.Commands
import Posthaste.Config.RoundTrip
import Posthaste.Library.Effects
import Posthaste.Library.Transition

open serde effects posthaste.model

namespace posthaste.config

section Width

theorem inWidth_of_convert {value : Value} {converted : MailQueryValue}
    (hconvert : convert_toml_value value = .ok converted) : InWidth converted := by
  cases value with
  | object table =>
    rw [convert_toml_value, convert_toml_date_table] at hconvert
    obtain ⟨kind, -, hconvert⟩ := except_bind_eq_ok_iff.mp hconvert
    split at hconvert
    · obtain ⟨text, -, hconvert⟩ := except_bind_eq_ok_iff.mp hconvert
      cases hconvert
      trivial
    · obtain ⟨amount, -, hconvert⟩ := except_bind_eq_ok_iff.mp hconvert
      split_ifs at hconvert with hrange
      · obtain ⟨text, -, hconvert⟩ := except_bind_eq_ok_iff.mp hconvert
        obtain ⟨unit, -, hconvert⟩ := except_bind_eq_ok_iff.mp hconvert
        cases hconvert
        exact hrange.2
    · cases hconvert
  | array items =>
    obtain ⟨texts, -, rfl⟩ := except_map_eq_ok_iff.mp hconvert
    trivial
  | string _ | bool _ =>
    cases hconvert
    trivial
  | null | number _ | float _ => cases hconvert

mutual

theorem groupInWidth_of_convert : ∀ (group : RuleGroupToml) (converted : MailQueryGroup),
    convert_rule_group group = .ok converted → GroupInWidth converted
  | .mk operator negated nodes, converted => by
    intro hconvert
    rw [convert_rule_group] at hconvert
    obtain ⟨list, hnodes, hconvert⟩ := except_bind_eq_ok_iff.mp hconvert
    cases hconvert
    exact nodesInWidth_of_convert nodes list hnodes

theorem nodeInWidth_of_convert : ∀ (node : RuleNodeToml) (converted : MailQueryRuleNode),
    convert_rule_node node = .ok converted → NodeInWidth converted
  | .Condition condition, converted => by
    intro hconvert
    rw [convert_rule_node] at hconvert
    obtain ⟨leaf, hleaf, hconvert⟩ := except_bind_eq_ok_iff.mp hconvert
    obtain ⟨value, hvalue, hleaf⟩ := except_bind_eq_ok_iff.mp hleaf
    cases hconvert
    cases hleaf
    exact inWidth_of_convert hvalue
  | .Group group, converted => by
    intro hconvert
    rw [convert_rule_node] at hconvert
    obtain ⟨inner, hinner, hconvert⟩ := except_bind_eq_ok_iff.mp hconvert
    cases hconvert
    exact groupInWidth_of_convert group inner hinner

theorem nodesInWidth_of_convert : ∀ (nodes : List RuleNodeToml) (converted : List MailQueryRuleNode),
    convertNodes nodes = .ok converted → NodesInWidth converted
  | [], converted => by
    intro hconvert
    cases hconvert
    trivial
  | node :: rest, converted => by
    intro hconvert
    rw [convertNodes] at hconvert
    obtain ⟨head, hnode, hconvert⟩ := except_bind_eq_ok_iff.mp hconvert
    obtain ⟨tail, hrest, hconvert⟩ := except_bind_eq_ok_iff.mp hconvert
    cases hconvert
    exact ⟨nodeInWidth_of_convert node head hnode, nodesInWidth_of_convert rest tail hrest⟩

end

theorem inWidth_of_convert_rules {rules : List AutomationRuleToml} {converted : List AutomationRule}
    (hconvert : rules.mapM convert_automation_rule = .ok converted) :
    ∀ rule ∈ converted, GroupInWidth rule.condition.root := by
  induction rules generalizing converted with
  | nil =>
    cases hconvert
    exact fun _ hmem => absurd hmem List.not_mem_nil
  | cons rule rest ih =>
    rw [List.mapM_cons] at hconvert
    obtain ⟨head, hhead, hconvert⟩ := except_bind_eq_ok_iff.mp hconvert
    obtain ⟨tail, htail, hconvert⟩ := except_bind_eq_ok_iff.mp hconvert
    obtain ⟨root, hroot, hhead⟩ := except_bind_eq_ok_iff.mp hhead
    cases hconvert
    cases hhead
    intro other hother
    obtain rfl | hmem := List.mem_cons.1 hother
    · exact groupInWidth_of_convert _ root hroot
    · exact ih htail other hmem

theorem width_of_load_app {file : Option File} {settings : AppSettings}
    (hload : load_app_settings file = .ok settings) : RulesInWidth settings := by
  obtain ⟨app, -, hload⟩ := except_bind_eq_ok_iff.mp hload
  cases hsettings : app.to_app_settings with
  | error error =>
    rw [hsettings] at hload
    cases hload
  | ok converted =>
    rw [hsettings] at hload
    cases hload
    obtain ⟨rules, hrules, hsettings⟩ := except_bind_eq_ok_iff.mp hsettings
    obtain ⟨drafts, hdrafts, hsettings⟩ := except_bind_eq_ok_iff.mp hsettings
    cases hsettings
    exact ⟨inWidth_of_convert_rules hrules, inWidth_of_convert_rules hdrafts⟩

theorem width_of_load_mailbox {config_root stem : String} {file : File} {mailbox : SmartMailbox}
    (hload : load_smart_mailbox config_root stem file = .ok mailbox) : GroupInWidth mailbox.rule.root := by
  obtain ⟨read, -, hload⟩ := except_bind_eq_ok_iff.mp hload
  obtain ⟨_, -, hload⟩ := except_bind_eq_ok_iff.mp hload
  cases hmailbox : read.to_smart_mailbox with
  | error error =>
    rw [hmailbox] at hload
    cases hload
  | ok converted =>
    rw [hmailbox] at hload
    cases hload
    obtain ⟨root, hroot, hmailbox⟩ := except_bind_eq_ok_iff.mp hmailbox
    cases hmailbox
    exact groupInWidth_of_convert _ root hroot

end Width

section Folders

variable {config_root stem : String} {file : File}

theorem id_of_filename {path id : String} (hname : validate_filename_matches_id path stem id = .ok ()) : id = stem := by
  obtain ⟨_, -, hsame⟩ := except_bind_eq_ok_iff.mp hname
  split_ifs at hsame with hid
  · exact (not_not.1 hid).symm

theorem id_of_load_source {source : AccountSettings} (hload : load_source config_root stem file = .ok source) :
    source.id = stem := by
  obtain ⟨read, -, hload⟩ := except_bind_eq_ok_iff.mp hload
  obtain ⟨_, hname, hload⟩ := except_bind_eq_ok_iff.mp hload
  cases hsettings : read.to_account_settings with
  | error error =>
    rw [hsettings] at hload
    cases hload
  | ok settings =>
    rw [hsettings] at hload
    cases hload
    obtain ⟨_, -, hsettings⟩ := except_bind_eq_ok_iff.mp hsettings
    cases hsettings
    exact id_of_filename hname

theorem id_of_load_mailbox {mailbox : SmartMailbox} (hload : load_smart_mailbox config_root stem file = .ok mailbox) :
    mailbox.id = stem := by
  obtain ⟨read, -, hload⟩ := except_bind_eq_ok_iff.mp hload
  obtain ⟨_, hname, hload⟩ := except_bind_eq_ok_iff.mp hload
  cases hmailbox : read.to_smart_mailbox with
  | error error =>
    rw [hmailbox] at hload
    cases hload
  | ok converted =>
    rw [hmailbox] at hload
    cases hload
    obtain ⟨_, -, hmailbox⟩ := except_bind_eq_ok_iff.mp hmailbox
    cases hmailbox
    exact id_of_filename hname

/-- A folder whose files all load yields one value a file, under its stem. -/
theorem mapM_folder {α : Type} {load : String → File → Except ConfigError α} {id : α → String}
    (hid : ∀ stem file value, load stem file = .ok value → id value = stem)
    (entries : List (Sigma fun _ : String => File))
    (hload : ∀ entry ∈ entries, ∃ value, load entry.1 entry.2 = .ok value) :
    ∃ values, entries.mapM (fun entry => load entry.1 entry.2) = .ok values ∧
      values.map id = entries.map Sigma.fst ∧ ∀ value ∈ values, ∃ entry ∈ entries, load entry.1 entry.2 = .ok value := by
  induction entries with
  | nil => exact ⟨[], rfl, rfl, fun _ hmem => absurd hmem List.not_mem_nil⟩
  | cons entry rest ih =>
    obtain ⟨head, hhead⟩ := hload entry List.mem_cons_self
    obtain ⟨tail, htail, hids, hfrom⟩ := ih fun other hother => hload other (List.mem_cons_of_mem _ hother)
    refine ⟨head :: tail, ?_, ?_, ?_⟩
    · rw [List.mapM_cons, hhead, except_bind_ok, htail]
      rfl
    · rw [List.map_cons, List.map_cons, hid _ _ _ hhead, hids]
    · intro value hvalue
      obtain rfl | hmem := List.mem_cons.1 hvalue
      · exact ⟨entry, List.mem_cons_self, hhead⟩
      · obtain ⟨other, hother, hvalue⟩ := hfrom value hmem
        exact ⟨other, List.mem_cons_of_mem _ hother, hvalue⟩

/-- What loading a folder that was accepted found in it. -/
theorem of_mapM_folder {α : Type} {load : String → File → Except ConfigError α} {values : List α}
    {entries : List (Sigma fun _ : String => File)}
    (hload : entries.mapM (fun entry => load entry.1 entry.2) = .ok values) :
    (∀ entry ∈ entries, ∃ value ∈ values, load entry.1 entry.2 = .ok value) ∧
      ∀ value ∈ values, ∃ entry ∈ entries, load entry.1 entry.2 = .ok value := by
  induction entries generalizing values with
  | nil =>
    cases hload
    exact ⟨fun _ hmem => absurd hmem List.not_mem_nil, fun _ hmem => absurd hmem List.not_mem_nil⟩
  | cons entry rest ih =>
    rw [List.mapM_cons] at hload
    obtain ⟨head, hhead, hload⟩ := except_bind_eq_ok_iff.mp hload
    obtain ⟨tail, htail, hload⟩ := except_bind_eq_ok_iff.mp hload
    cases hload
    obtain ⟨hforth, hback⟩ := ih htail
    constructor
    · intro other hother
      obtain rfl | hmem := List.mem_cons.1 hother
      · exact ⟨head, List.mem_cons_self, hhead⟩
      · obtain ⟨value, hvalue, hothers⟩ := hforth other hmem
        exact ⟨value, List.mem_cons_of_mem _ hvalue, hothers⟩
    · intro value hvalue
      obtain rfl | hmem := List.mem_cons.1 hvalue
      · exact ⟨entry, List.mem_cons_self, hhead⟩
      · obtain ⟨other, hother, hothers⟩ := hback value hmem
        exact ⟨other, List.mem_cons_of_mem _ hother, hothers⟩

end Folders

end posthaste.config
