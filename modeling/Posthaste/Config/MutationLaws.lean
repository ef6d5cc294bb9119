import Posthaste.Config.AcceptedLoads
import Posthaste.Config.Concurrent

open effects posthaste.model write_behind

namespace posthaste.config

section Documents

variable {repository : TomlConfigRepository} {mutation : Mutation} {before settings : AppSettings}
  {transform : AppSettings → Except ApiFailure (Option AppSettings)}

/-- The settings saved are those read, with the items of the mutation written. -/
def SettingsChange.Sound (change : SettingsChange) : Prop :=
  ∀ (snapshot : ConfigSnapshot) (item : Item), item.value { snapshot with app_settings := change.settings } =
    (change.mutation.writes item).getD (item.value { snapshot with app_settings := change.read })

/-- What a rule command does to the items. -/
structure RuleLaw (mutation : Mutation) (transform : AppSettings → Except ApiFailure (Option AppSettings)) : Prop where
  sound : ∀ before settings, transform before = .ok (some settings) →
    SettingsChange.Sound ⟨mutation, before, settings⟩
  kept : ∀ before, transform before = .ok none → ∀ (snapshot : ConfigSnapshot) (item : Item),
    item.value { snapshot with app_settings := before } =
      (mutation.writes item).getD (item.value { snapshot with app_settings := before })

/-- A change to the list of rules alone is told by what is found in it. -/
theorem sound_of_find {rules : List AutomationRule} (id : String) (found : Option AutomationRule)
    (hwrites : ∀ item, mutation.writes item = match item with
      | .rule name => if name = id then some (.rule found) else none
      | _ => none)
    (hfind : ∀ name, rules.find? (fun rule => rule.id = name) =
      if name = id then found else before.automation_rules.find? fun rule => rule.id = name) :
    SettingsChange.Sound ⟨mutation, before, { before with automation_rules := rules }⟩ := by
  intro snapshot item
  show _ = (mutation.writes item).getD _
  rw [hwrites item]
  cases item with
  | rule name =>
    simp only [Item.value, findRule, hfind name]
    split_ifs <;> rfl
  | settings => rfl
  | source name => rfl

theorem create_rule_law {rule : AutomationRule} : RuleLaw (.create_rule rule) (create_rule rule) := by
  constructor
  · intro before settings hchange
    rw [create_rule] at hchange
    split_ifs at hchange with hexists
    cases hchange
    refine sound_of_find rule.id (some rule) (fun item => ?_) fun name => ?_
    · cases item <;> rfl
    · rw [List.find?_append]
      split_ifs with hname
      · have hnone : before.automation_rules.find? (fun other => other.id = name) = none := by
          rw [List.find?_eq_none]
          intro other hother hsame
          refine hexists (List.any_eq_true.2 ⟨other, hother, ?_⟩)
          rw [hname] at hsame
          exact hsame
        rw [hnone, hname]
        simp
      · have hother : [rule].find? (fun other => other.id = name) = none := by
          simp [Ne.symm hname]
        rw [hother, Option.or_none]
  · intro before hchange
    rw [create_rule] at hchange
    split_ifs at hchange
    cases hchange

theorem find_replaceRule {rule : AutomationRule} {rules replaced : List AutomationRule}
    (hreplace : replaceRule rule rules = some replaced) (name : String) :
    replaced.find? (fun other => other.id = name) =
      if name = rule.id then some rule else rules.find? fun other => other.id = name := by
  induction rules generalizing replaced with
  | nil => cases hreplace
  | cons existing rest ih =>
    rw [replaceRule] at hreplace
    split_ifs at hreplace with hid
    · cases hreplace
      by_cases hname : name = rule.id
      · simp [hname]
      · simp [hname, hid, Ne.symm hname]
    · obtain ⟨tail, htail, rfl⟩ := Option.map_eq_some_iff.1 hreplace
      rw [List.find?_cons, List.find?_cons, ih htail]
      by_cases hname : name = rule.id
      · subst hname
        simp [hid]
      · simp only [if_neg hname]

theorem update_rule_law {rule : AutomationRule} : RuleLaw (.update_rule rule) (update_rule rule) := by
  constructor
  · intro before settings hchange
    rw [update_rule] at hchange
    split at hchange
    · next rules hreplace =>
      cases hchange
      refine sound_of_find rule.id (some rule) (fun item => ?_) (find_replaceRule hreplace)
      cases item <;> rfl
    · cases hchange
  · intro before hchange
    rw [update_rule] at hchange
    split at hchange <;> cases hchange

theorem find_filter_ne (rule_id name : String) (rules : List AutomationRule) :
    (rules.filter fun existing => existing.id ≠ rule_id).find? (fun other => other.id = name) =
      if name = rule_id then none else rules.find? fun other => other.id = name := by
  rw [List.find?_filter]
  split_ifs with hname
  · rw [List.find?_eq_none]
    intro other _ hother
    simp [hname] at hother
  · refine congrArg (List.find? · rules) (funext fun other => ?_)
    by_cases hother : other.id = name
    · simp [hother, hname]
    · simp [hother]

theorem delete_rule_law {rule_id : String} : RuleLaw (.delete_rule rule_id) (delete_rule rule_id) := by
  constructor
  · intro before settings hchange
    simp only [delete_rule] at hchange
    split_ifs at hchange
    · cases hchange
      refine sound_of_find rule_id none (fun item => ?_) fun name => find_filter_ne rule_id name _
      cases item <;> rfl
    · cases hchange
  · intro before hchange snapshot item
    simp only [delete_rule] at hchange
    split_ifs at hchange with hlength
    · cases hchange
    · -- nothing was filtered out, so no rule has the id
      have hsame : (before.automation_rules.filter fun existing => existing.id ≠ rule_id) = before.automation_rules :=
        List.filter_sublist.eq_of_length (not_not.1 hlength)
      have hsound : SettingsChange.Sound ⟨.delete_rule rule_id, before, { before with automation_rules := before.automation_rules }⟩ := by
        refine sound_of_find rule_id none (fun item => ?_) fun name => ?_
        · cases item <;> rfl
        · have hfind := find_filter_ne rule_id name before.automation_rules
          rw [hsame] at hfind
          exact hfind
      exact hsound snapshot item

/-- What a begun call keeps until its value is in the snapshot. -/
structure SettingsChange.Good (sources : List AccountSettings) (change : SettingsChange) : Prop where
  sound : change.Sound
  valid : ValidSettings sources change.settings

theorem changedRules_spec {changed : Option AppSettings} (hrun : changedRules repository transform = .ok changed) :
    match changed with
    | none => transform repository.get_app_settings = .ok none
    | some settings => transform repository.get_app_settings = .ok (some settings) ∧ validateRules settings = .ok () := by
  obtain ⟨found, htransform, hrun⟩ := except_bind_eq_ok_iff.mp hrun
  cases found with
  | none =>
    cases hrun
    exact htransform
  | some settings =>
    obtain ⟨_, hvalid, hrun⟩ := except_bind_eq_ok_iff.mp hrun
    cases hrun
    exact ⟨htransform, hvalid⟩

/-- A document that a call goes on to save. -/
theorem good_of_document (hread : ValidSettings repository.snapshot.sources repository.snapshot.app_settings)
    (hwidth : mutation.InWidth) (hdocument : mutation.document repository = .ok (some settings)) :
    SettingsChange.Good repository.snapshot.sources ⟨mutation, repository.snapshot.app_settings, settings⟩ := by
  have hrules : ∀ transform, RuleLaw mutation transform → ChangesRules transform →
      changedRules repository transform = .ok (some settings) →
      SettingsChange.Good repository.snapshot.sources ⟨mutation, repository.snapshot.app_settings, settings⟩ := by
    intro transform hlaw hchanges hrun
    obtain ⟨htransform, hvalid⟩ := changedRules_spec hrun
    exact ⟨hlaw.sound _ _ htransform, hchanges.valid hread htransform hvalid⟩
  cases mutation with
  | create_rule rule =>
    obtain ⟨_, -, hrun⟩ := except_bind_eq_ok_iff.mp hdocument
    exact hrules _ create_rule_law (create_rule_changes hwidth) hrun
  | update_rule rule => exact hrules _ update_rule_law (update_rule_changes hwidth) hdocument
  | delete_rule rule_id => exact hrules _ delete_rule_law (delete_rule_changes rule_id) hdocument
  | update_settings document =>
    obtain ⟨_, hvalid, hrun⟩ := except_bind_eq_ok_iff.mp hdocument
    cases hrun
    refine ⟨fun snapshot item => ?_, validSettings_of_document hwidth hvalid⟩
    cases item <;> rfl
  | save_source source => cases hdocument

/-- A call with nothing to save finds its items as it wants them. -/
theorem kept_of_document (hdocument : mutation.document repository = .ok none) (hsettings : ∀ source, mutation ≠ .save_source source)
    (item : Item) : item.value repository.snapshot = (mutation.writes item).getD (item.value repository.snapshot) := by
  cases mutation with
  | create_rule rule =>
    obtain ⟨_, -, hrun⟩ := except_bind_eq_ok_iff.mp hdocument
    exact create_rule_law.kept _ (changedRules_spec hrun) repository.snapshot item
  | update_rule rule => exact update_rule_law.kept _ (changedRules_spec hdocument) repository.snapshot item
  | delete_rule rule_id => exact delete_rule_law.kept _ (changedRules_spec hdocument) repository.snapshot item
  | update_settings document =>
    obtain ⟨_, -, hrun⟩ := except_bind_eq_ok_iff.mp hdocument
    cases hrun
  | save_source source => exact absurd rfl (hsettings source)

end Documents

section Views

/-- What a configuration file holds. -/
def ConfigFile.Content : ConfigFile → Type
  | .app => AppSettings
  | .source _ => Option AccountSettings

def ConfigSnapshot.view (snapshot : ConfigSnapshot) : ∀ file : ConfigFile, file.Content
  | .app => snapshot.app_settings
  | .source id => findSource id snapshot.sources

def Written.write : Written → Sigma ConfigFile.Content
  | .app change => ⟨.app, change.settings⟩
  | .source account => ⟨.source account.id, some account⟩

theorem Written.write_file (write : Written) : write.write.1 = write.file := by cases write <;> rfl

/-- The file loads into this content. -/
def Holds (config_root : String) (disk : Disk) : ∀ file : ConfigFile, file.Content → Prop
  | .app, settings => load_app_settings disk.app = .ok settings
  | .source id, found => (disk.sources.lookup id).map (load_source config_root id) = found.map .ok

theorem findSource_upsert (source : AccountSettings) (id : AccountId) (sources : List AccountSettings) :
    findSource id (TomlConfigRepository.upsert (·.id) source sources) =
      if id = source.id then some source else findSource id sources := by
  induction sources with
  | nil =>
    by_cases hid : id = source.id
    · simp [TomlConfigRepository.upsert, findSource, hid]
    · simp [TomlConfigRepository.upsert, findSource, hid, Ne.symm hid]
  | cons head rest ih =>
    rw [TomlConfigRepository.upsert]
    by_cases hhead : head.id = source.id
    · rw [if_pos hhead]
      by_cases hid : id = source.id
      · simp [findSource, hid]
      · simp [findSource, hid, hhead, Ne.symm hid]
    · rw [if_neg hhead]
      unfold findSource at ih ⊢
      rw [List.find?_cons, List.find?_cons, ih]
      by_cases hid : id = source.id
      · subst hid
        simp [hhead]
      · simp only [if_neg hid]

/-- The snapshot takes a write as a cache does. -/
theorem view_swapped (snapshot : ConfigSnapshot) (write : Written) :
    (write.swapped snapshot).view = settle snapshot.view write.write := by
  funext file
  cases write with
  | app change =>
    cases file with
    | app => exact (@settle_self _ _ _ snapshot.view (Written.app change).write).symm
    | source id => exact (settle_of_ne ConfigFile.noConfusion).symm
  | source account =>
    cases file with
    | app => exact (settle_of_ne ConfigFile.noConfusion).symm
    | source id =>
      show findSource id (TomlConfigRepository.upsert (·.id) account snapshot.sources) = _
      rw [findSource_upsert]
      by_cases hid : id = account.id
      · subst hid
        rw [if_pos rfl]
        exact (@settle_self _ _ _ snapshot.view (Written.source account).write).symm
      · rw [if_neg hid]
        have hother : ConfigFile.source id ≠ (Written.source account).write.1 :=
          fun hsame => hid (ConfigFile.source.inj hsame)
        exact (@settle_of_ne _ _ _ snapshot.view _ _ hother).symm

end Views

end posthaste.config
