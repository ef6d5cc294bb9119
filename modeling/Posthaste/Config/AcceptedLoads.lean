import Posthaste.Config.Mirrors

open effects posthaste.model

namespace posthaste.config

section Start

variable {repository after : TomlConfigRepository}

/-- A directory that loads is mirrored by what it loads into. -/
theorem mirrors_of_load
    (hload : load_snapshot_from_disk repository.config_root repository.disk = .ok repository.snapshot) :
    Mirrors repository := by
  obtain ⟨root, disk, snapshot⟩ := repository
  obtain ⟨settings, happ, hload⟩ := except_bind_eq_ok_iff.mp hload
  obtain ⟨sources, hsources, hload⟩ := except_bind_eq_ok_iff.mp hload
  obtain ⟨mailboxes, hmailboxes, hload⟩ := except_bind_eq_ok_iff.mp hload
  obtain ⟨accounts, haccounts, hsources⟩ := except_bind_eq_ok_iff.mp hsources
  obtain ⟨views, hviews, hmailboxes⟩ := except_bind_eq_ok_iff.mp hmailboxes
  cases hsources
  cases hmailboxes
  cases hvalidate : validate_snapshot ⟨settings, accounts.mergeSort fun first second => decide (first.name ≤ second.name),
      views.mergeSort fun first second => decide (first.id ≤ second.id)⟩ with
  | error errors =>
    simp only [hvalidate] at hload
    cases hload
  | ok _ =>
    simp only [hvalidate] at hload
    cases hload
    have hvalid := validate_snapshot_iff.1 hvalidate
    obtain ⟨hsources, hfrom⟩ := of_mapM_folder haccounts
    obtain ⟨hmailboxes, hviewfrom⟩ := of_mapM_folder hviews
    refine {
      app := ⟨settings, happ, rfl, rfl, rfl⟩
      sources := folderLoads_of_entries fun entry hentry => ?_
      stems := ?_
      mailboxes := folderLoads_of_entries fun entry hentry => ?_
      default_account := fun id hid => List.mem_map.1 (hvalid.default_account id hid)
      accounts := hvalid.accounts
      rules := hvalid.rules
      drafts := hvalid.drafts
      rules_width := width_of_load_app happ
      mailboxes_width := ?_ }
    · obtain ⟨account, haccount, hentryload⟩ := hsources entry hentry
      exact ⟨account, List.mem_mergeSort.2 haccount, hentryload⟩
    · intro account haccount
      obtain ⟨entry, hentry, hentryload⟩ := hfrom account (List.mem_mergeSort.1 haccount)
      rw [id_of_load_source hentryload]
      exact AList.mem_keys.2 (List.mem_map_of_mem hentry)
    · obtain ⟨view, hview, hentryload⟩ := hmailboxes entry hentry
      exact ⟨view, List.mem_mergeSort.2 hview, hentryload⟩
    · intro view hview
      obtain ⟨entry, -, hentryload⟩ := hviewfrom view (List.mem_mergeSort.1 hview)
      exact width_of_load_mailbox hentryload

end Start

section Reset

variable {config_root : String} {defaults : List SmartMailbox} {files after : AList fun _ : String => File}
  {values : List SmartMailbox}

theorem FolderLoads.reset (hloads : FolderLoads (load_smart_mailbox config_root) files values)
    (hsafe : ∀ mailbox ∈ defaults, validate_safe_id mailbox.id = .ok ())
    (hwidth : ∀ mailbox ∈ defaults, GroupInWidth mailbox.rule.root)
    (hfold : defaults.foldlM (fun files mailbox => do
        let file ← write_smart_mailbox_toml config_root (files.lookup mailbox.id) mailbox
        return files.insert mailbox.id file) files = .ok after) :
    FolderLoads (load_smart_mailbox config_root) after
      (defaults.foldl (fun mailboxes mailbox => TomlConfigRepository.upsert (·.id) mailbox mailboxes) values) := by
  induction defaults generalizing files values with
  | nil =>
    cases hfold
    exact hloads
  | cons mailbox rest ih =>
    rw [List.foldlM_cons] at hfold
    obtain ⟨middle, hstep, hfold⟩ := except_bind_eq_ok_iff.mp hfold
    obtain ⟨file, hwrite, hstep⟩ := except_bind_eq_ok_iff.mp hstep
    cases hstep
    refine ih ?_ (fun other hother => hsafe other (List.mem_cons_of_mem _ hother))
      (fun other hother => hwidth other (List.mem_cons_of_mem _ hother)) hfold
    have hload := load_smart_mailbox_after_write (hwidth mailbox List.mem_cons_self) (hsafe mailbox List.mem_cons_self)
      hwrite
    exact hloads.insert (fun _ _ _ => id_of_load_mailbox) hload self_mem_upsert fun _ hother hid =>
      mem_upsert_of_ne hother hid

theorem mem_foldl_upsert {mailbox : SmartMailbox} (hmem : mailbox ∈ defaults.foldl
    (fun mailboxes mailbox => TomlConfigRepository.upsert (·.id) mailbox mailboxes) values) :
    mailbox ∈ defaults ∨ mailbox ∈ values := by
  induction defaults generalizing values with
  | nil => exact .inr hmem
  | cons head rest ih =>
    rw [List.foldl_cons] at hmem
    obtain hrest | hmem := ih hmem
    · exact .inl (List.mem_cons_of_mem _ hrest)
    · obtain rfl | hold := mem_upsert hmem
      · exact .inl List.mem_cons_self
      · exact .inr hold

theorem defaults_are_safe : ∀ mailbox ∈ default_smart_mailboxes, validate_safe_id mailbox.id = .ok () := by
  decide

theorem defaults_in_width : ∀ mailbox ∈ default_smart_mailboxes, GroupInWidth mailbox.rule.root := by
  intro mailbox hmem
  simp only [default_smart_mailboxes, List.mem_cons, List.not_mem_nil, or_false] at hmem
  rcases hmem with rfl | rfl | rfl | rfl | rfl | rfl | rfl
  all_goals simp [role_mailbox, all_mail_mailbox, GroupInWidth, NodesInWidth, NodeInWidth, InWidth]

theorem Mirrors.reset {repository after : TomlConfigRepository} {now : String} (hmirrors : Mirrors repository)
    (hreset : repository.reset_default_smart_mailboxes now = .ok after) : Mirrors after := by
  obtain ⟨files, hfold, hreset⟩ := except_bind_eq_ok_iff.mp hreset
  cases hreset
  have hstamped : ∀ mailbox ∈ default_smart_mailboxes.map fun mailbox => { mailbox with updated_at := now },
      validate_safe_id mailbox.id = .ok () ∧ GroupInWidth mailbox.rule.root := by
    intro mailbox hmem
    obtain ⟨default, hdefault, rfl⟩ := List.mem_map.1 hmem
    exact ⟨defaults_are_safe default hdefault, defaults_in_width default hdefault⟩
  have hloads := hmirrors.mailboxes.reset (fun mailbox hmem => (hstamped mailbox hmem).1)
    (fun mailbox hmem => (hstamped mailbox hmem).2) hfold
  refine { hmirrors with mailboxes := ?_, mailboxes_width := ?_ }
  · intro stem file hfile
    obtain ⟨mailbox, hmem, hload⟩ := hloads stem file hfile
    exact ⟨mailbox, List.mem_mergeSort.2 hmem, hload⟩
  · intro mailbox hmem
    obtain hdefault | hold := mem_foldl_upsert (List.mem_mergeSort.1 hmem)
    · exact (hstamped mailbox hdefault).2
    · exact hmirrors.mailboxes_width mailbox hold

end Reset

section Commands

variable {regex : String → Option (String → Bool)} {to_uppercase : Char → List Char}
  {repository after : TomlConfigRepository} {command : Command}

/-- The account a command writes. -/
def writtenAccount (to_uppercase : Char → List Char) (repository : TomlConfigRepository) :
    Command → Option AccountSettings
  | .create_account intent id now => some (new_account intent (str.trim intent.name) id now)
  | .update_account intent now => (repository.get_source intent.account_id).map fun settings =>
      patchAccount settings intent now
  | .update_account_transport intent now => (repository.get_source intent.account_id).map fun settings =>
      patchTransport settings intent now
  | .set_account_secret account_id (.Replace _) now => (repository.get_source account_id).map fun settings =>
      withSecret settings (some (replacedSecret settings)) now
  | .set_account_secret account_id .Clear now => (repository.get_source account_id).map fun settings =>
      withSecret settings none now
  | .set_account_logo account_id image_id now => (repository.get_source account_id).map fun settings =>
      withLogo to_uppercase settings image_id now
  | .complete_oauth seed id now => some (oauth_account seed id now)
  | _ => none

/-- The width of the amounts in what a command carries. -/
def CommandInWidth : Command → Prop
  | .update_settings settings => RulesInWidth settings
  | .create_rule rule | .update_rule rule => GroupInWidth rule.condition.root
  | .create_smart_mailbox intent _ _ => GroupInWidth intent.rule.root
  | .update_smart_mailbox intent _ => ∀ rule, intent.rule = some rule → GroupInWidth rule.root
  | _ => True

/-- The account a command writes is one that the loader accepts. -/
def WritesValidAccount (to_uppercase : Char → List Char) (repository : TomlConfigRepository) (command : Command) : Prop :=
  ∀ account, writtenAccount to_uppercase repository command = some account → account_settings_errors account = []

theorem get_source_of_load_account {account_id : AccountId} {settings : AccountSettings}
    (hload : load_account repository account_id = .ok settings) : repository.get_source account_id = some settings := by
  unfold load_account at hload
  cases hfound : repository.get_source account_id with
  | none =>
    rw [hfound] at hload
    cases hload
  | some found =>
    rw [hfound] at hload
    cases hload
    rfl

theorem ok_of_answered {α : Type} {result : Except ConfigError α} {value : α} (hok : answered result = .ok value) :
    result = .ok value := by
  cases result with
  | error error => cases hok
  | ok found =>
    cases hok
    rfl

theorem ok_of_mapError {ε ε' α : Type} {result : Except ε α} {change : ε → ε'} {value : α}
    (hok : result.mapError change = .ok value) : result = .ok value := by
  cases result with
  | error error => cases hok
  | ok found =>
    cases hok
    rfl

theorem rules_of_validate {rules : List AutomationRule} (hvalid : validate_automation_rules rules = .ok ()) :
    automation_rule_errors rules = [] := by
  unfold validate_automation_rules at hvalid
  cases herrors : automation_rule_errors rules with
  | nil => rfl
  | cons error rest =>
    rw [herrors] at hvalid
    cases hvalid

theorem drafts_of_validate {rules drafts : List AutomationRule} (hvalid : validate_automation_drafts rules drafts = .ok ()) :
    automation_draft_errors rules drafts = [] := by
  unfold validate_automation_drafts at hvalid
  cases herrors : automation_draft_errors rules drafts with
  | nil => rfl
  | cons error rest =>
    rw [herrors] at hvalid
    cases hvalid

/-- A rule command changes the rules only, and to rules in width. -/
structure ChangesRules (transform : AppSettings → Except ApiFailure (Option AppSettings)) : Prop where
  drafts : ∀ before settings, transform before = .ok (some settings) →
    settings.default_account_id = before.default_account_id ∧ settings.automation_drafts = before.automation_drafts
  width : ∀ before settings, transform before = .ok (some settings) → RulesInWidth before →
    ∀ rule ∈ settings.automation_rules, GroupInWidth rule.condition.root

theorem create_rule_changes {rule : AutomationRule} (hwidth : GroupInWidth rule.condition.root) :
    ChangesRules (create_rule rule) := by
  constructor
  · intro before settings hchange
    rw [create_rule] at hchange
    split_ifs at hchange
    cases hchange
    exact ⟨rfl, rfl⟩
  · intro before settings hchange hbefore other hother
    rw [create_rule] at hchange
    split_ifs at hchange
    cases hchange
    obtain hold | hnew := List.mem_append.1 hother
    · exact hbefore.1 other hold
    · rw [List.mem_singleton.1 hnew]
      exact hwidth

theorem mem_replaceRule {rule : AutomationRule} {rules replaced : List AutomationRule}
    (hreplace : replaceRule rule rules = some replaced) : ∀ other ∈ replaced, other = rule ∨ other ∈ rules := by
  induction rules generalizing replaced with
  | nil => cases hreplace
  | cons existing rest ih =>
    rw [replaceRule] at hreplace
    split_ifs at hreplace
    · cases hreplace
      intro other hother
      exact (List.mem_cons.1 hother).imp_right fun hrest => List.mem_cons_of_mem _ hrest
    · obtain ⟨tail, htail, rfl⟩ := Option.map_eq_some_iff.1 hreplace
      intro other hother
      obtain rfl | hrest := List.mem_cons.1 hother
      · exact .inr List.mem_cons_self
      · exact (ih htail other hrest).imp_right fun hmem => List.mem_cons_of_mem _ hmem

theorem update_rule_changes {rule : AutomationRule} (hwidth : GroupInWidth rule.condition.root) :
    ChangesRules (update_rule rule) := by
  constructor
  · intro before settings hchange
    rw [update_rule] at hchange
    split at hchange
    · cases hchange
      exact ⟨rfl, rfl⟩
    · cases hchange
  · intro before settings hchange hbefore other hother
    rw [update_rule] at hchange
    split at hchange
    · next rules hreplace =>
      cases hchange
      obtain rfl | hold := mem_replaceRule hreplace other hother
      · exact hwidth
      · exact hbefore.1 other hold
    · cases hchange

theorem delete_rule_changes (rule_id : String) : ChangesRules (delete_rule rule_id) := by
  constructor
  · intro before settings hchange
    simp only [delete_rule] at hchange
    split_ifs at hchange
    · cases hchange
      exact ⟨rfl, rfl⟩
    · cases hchange
  · intro before settings hchange hbefore other hother
    simp only [delete_rule] at hchange
    split_ifs at hchange
    · cases hchange
      exact hbefore.1 other (List.mem_filter.1 hother).1
    · cases hchange

/-- What the loader checks of the settings beside these accounts. -/
structure ValidSettings (sources : List AccountSettings) (settings : AppSettings) : Prop where
  width : RulesInWidth settings
  rules : automation_rule_errors settings.automation_rules = []
  drafts : automation_draft_errors settings.automation_rules settings.automation_drafts = []
  default_account : ∀ id, settings.default_account_id = some id → ∃ source ∈ sources, source.id = id

theorem validSettings_of_document {settings : AppSettings} (hwidth : RulesInWidth settings)
    (hvalid : validate_settings_document repository settings = .ok ()) :
    ValidSettings repository.snapshot.sources settings := by
  obtain ⟨_, hdefault, hvalid⟩ := except_bind_eq_ok_iff.mp hvalid
  obtain ⟨_, hvalid, -⟩ := except_bind_eq_ok_iff.mp hvalid
  obtain ⟨_, hrules, hdrafts⟩ := except_bind_eq_ok_iff.mp hvalid
  refine ⟨hwidth, rules_of_validate (ok_of_mapError hrules), drafts_of_validate (ok_of_mapError hdrafts), ?_⟩
  intro id hid
  rw [checkDefaultAccount, hid] at hdefault
  cases hfound : repository.get_source id with
  | none =>
    simp only [hfound] at hdefault
    cases hdefault
  | some source =>
    have hsame := List.find?_some hfound
    exact ⟨source, List.mem_of_find?_eq_some hfound, of_decide_eq_true hsame⟩

/-- The settings that a rule command goes on to save. -/
theorem ChangesRules.valid {transform : AppSettings → Except ApiFailure (Option AppSettings)}
    {sources : List AccountSettings} {before settings : AppSettings} (hchanges : ChangesRules transform)
    (hbefore : ValidSettings sources before) (htransform : transform before = .ok (some settings))
    (hvalid : validateRules settings = .ok ()) : ValidSettings sources settings := by
  obtain ⟨_, hrules, hdrafts⟩ := except_bind_eq_ok_iff.mp hvalid
  obtain ⟨hdefault, hkept⟩ := hchanges.drafts _ settings htransform
  refine ⟨⟨hchanges.width _ settings htransform hbefore.width, ?_⟩, rules_of_validate (ok_of_mapError hrules),
    drafts_of_validate (ok_of_mapError hdrafts), ?_⟩
  · rw [hkept]
    exact hbefore.width.2
  · rw [hdefault]
    exact hbefore.default_account

theorem Mirrors.validSettings (hmirrors : Mirrors repository) :
    ValidSettings repository.snapshot.sources repository.snapshot.app_settings :=
  ⟨hmirrors.rules_width, hmirrors.rules, hmirrors.drafts, hmirrors.default_account⟩

theorem Mirrors.put_valid {settings : AppSettings} (hmirrors : Mirrors repository)
    (hvalid : ValidSettings repository.snapshot.sources settings)
    (hput : repository.put_app_settings settings = .ok after) : Mirrors after :=
  (hmirrors.put_app_settings hput hvalid.width hvalid.rules hvalid.drafts hvalid.default_account).1

theorem Mirrors.mutate_rules {transform : AppSettings → Except ApiFailure (Option AppSettings)}
    (hmirrors : Mirrors repository) (hchanges : ChangesRules transform)
    (hrun : mutate_rules repository transform = .ok after) : Mirrors after := by
  obtain ⟨changed, htransform, hrun⟩ := except_bind_eq_ok_iff.mp hrun
  cases changed with
  | none =>
    cases hrun
    exact hmirrors
  | some settings =>
    obtain ⟨_, hvalid, hput⟩ := except_bind_eq_ok_iff.mp hrun
    exact hmirrors.put_valid (hchanges.valid hmirrors.validSettings htransform hvalid) (ok_of_answered hput)

theorem Mirrors.service_delete_source {id : AccountId} (hmirrors : Mirrors repository)
    (hdelete : service_delete_source repository id = .ok after) : Mirrors after := by
  simp only [config.service_delete_source] at hdelete
  split_ifs at hdelete with hdefault
  · obtain ⟨cleared, hput, hdelete⟩ := except_bind_eq_ok_iff.mp hdelete
    cases hdelete
    obtain ⟨hcleared, hsettings, -⟩ := hmirrors.put_app_settings hput hmirrors.rules_width hmirrors.rules hmirrors.drafts
      fun _ hid => nomatch hid
    refine hcleared.delete_source ?_
    rw [hsettings]
    exact fun hsome => nomatch hsome
  · cases hdelete
    exact hmirrors.delete_source hdefault

/-- An account saved over the one it was made from. -/
theorem Mirrors.resave {account_id : AccountId} {settings : AccountSettings} (hmirrors : Mirrors repository)
    (change : AccountSettings → AccountSettings) (hload : load_account repository account_id = .ok settings)
    (hwritten : writtenAccount to_uppercase repository command = (repository.get_source account_id).map change)
    (hvalid : WritesValidAccount to_uppercase repository command)
    (hsave : answered (repository.save_source (change settings)) = .ok after) : Mirrors after := by
  refine hmirrors.save_source (ok_of_answered hsave) (hvalid _ ?_)
  rw [hwritten, get_source_of_load_account hload]
  rfl

theorem smart_mailbox_width {id : SmartMailboxId} {mailbox : SmartMailbox} (hmirrors : Mirrors repository)
    (hget : getSmartMailbox repository id = .ok mailbox) : GroupInWidth mailbox.rule.root := by
  unfold getSmartMailbox at hget
  split at hget
  · next found hfound =>
    cases hget
    exact hmirrors.mailboxes_width _ (List.mem_of_find?_eq_some hfound)
  · cases hget

/-- What one command keeps. -/
theorem Mirrors.run (hmirrors : Mirrors repository) (hwidth : CommandInWidth command)
    (hvalid : WritesValidAccount to_uppercase repository command)
    (hrun : command.run regex to_uppercase repository = .ok after) : Mirrors after := by
  cases command with
  | create_account intent id now =>
    obtain ⟨_, -, hinsert⟩ := except_bind_eq_ok_iff.mp hrun
    exact hmirrors.insert_source (ok_of_answered hinsert) (hvalid _ rfl)
  | update_account intent now =>
    obtain ⟨settings, hload, hrun⟩ := except_bind_eq_ok_iff.mp hrun
    obtain ⟨_, -, hsave⟩ := except_bind_eq_ok_iff.mp hrun
    exact hmirrors.resave (patchAccount · intent now) hload rfl hvalid hsave
  | update_account_transport intent now =>
    obtain ⟨settings, hload, hsave⟩ := except_bind_eq_ok_iff.mp hrun
    exact hmirrors.resave (patchTransport · intent now) hload rfl hvalid hsave
  | set_account_secret account_id change now =>
    cases change with
    | Keep =>
      cases hrun
      exact hmirrors
    | Replace secret =>
      obtain ⟨_, -, hrun⟩ := except_bind_eq_ok_iff.mp hrun
      obtain ⟨settings, hload, hsave⟩ := except_bind_eq_ok_iff.mp hrun
      exact hmirrors.resave (fun settings => withSecret settings (some (replacedSecret settings)) now) hload rfl hvalid
        hsave
    | Clear =>
      obtain ⟨settings, hload, hsave⟩ := except_bind_eq_ok_iff.mp hrun
      exact hmirrors.resave (withSecret · none now) hload rfl hvalid hsave
  | set_account_logo account_id image_id now =>
    obtain ⟨settings, hload, hsave⟩ := except_bind_eq_ok_iff.mp hrun
    exact hmirrors.resave (withLogo to_uppercase · image_id now) hload rfl hvalid hsave
  | delete_account account_id =>
    obtain ⟨settings, -, hdelete⟩ := except_bind_eq_ok_iff.mp hrun
    exact hmirrors.service_delete_source (ok_of_answered hdelete)
  | complete_oauth seed id now => exact hmirrors.insert_source (ok_of_answered hrun) (hvalid _ rfl)
  | update_settings settings =>
    obtain ⟨_, hdocument, hput⟩ := except_bind_eq_ok_iff.mp hrun
    exact hmirrors.put_valid (validSettings_of_document hwidth hdocument) (ok_of_answered hput)
  | create_rule rule =>
    obtain ⟨_, -, hrun⟩ := except_bind_eq_ok_iff.mp hrun
    exact hmirrors.mutate_rules (create_rule_changes hwidth) hrun
  | update_rule rule => exact hmirrors.mutate_rules (update_rule_changes hwidth) hrun
  | delete_rule rule_id => exact hmirrors.mutate_rules (delete_rule_changes rule_id) hrun
  | create_smart_mailbox intent id now =>
    obtain ⟨_, -, hrun⟩ := except_bind_eq_ok_iff.mp hrun
    obtain ⟨_, -, hrun⟩ := except_bind_eq_ok_iff.mp hrun
    obtain ⟨role, -, hsave⟩ := except_bind_eq_ok_iff.mp hrun
    exact hmirrors.save_smart_mailbox (ok_of_answered hsave) hwidth
  | update_smart_mailbox intent now =>
    obtain ⟨_, -, hrun⟩ := except_bind_eq_ok_iff.mp hrun
    obtain ⟨role, -, hrun⟩ := except_bind_eq_ok_iff.mp hrun
    obtain ⟨_, -, hrun⟩ := except_bind_eq_ok_iff.mp hrun
    obtain ⟨mailbox, hget, hsave⟩ := except_bind_eq_ok_iff.mp hrun
    refine hmirrors.save_smart_mailbox (ok_of_answered hsave) ?_
    show GroupInWidth (intent.rule.getD mailbox.rule).root
    cases hrule : intent.rule with
    | none => exact smart_mailbox_width hmirrors hget
    | some rule => exact hwidth rule hrule
  | delete_smart_mailbox smart_mailbox_id =>
    obtain ⟨mailbox, -, hdelete⟩ := except_bind_eq_ok_iff.mp hrun
    cases hdelete
    exact hmirrors.delete_smart_mailbox mailbox.id
  | reset_smart_mailboxes now => exact hmirrors.reset (ok_of_answered hrun)

/-- The file of an account is one written from it. -/
def HoldsFile (repository : TomlConfigRepository) (account : AccountSettings) : Prop :=
  ∃ before file, validate_safe_id account.id = .ok () ∧
    write_source_toml repository.config_root before account = .ok file ∧
    repository.disk.sources.lookup account.id = some file

/-- The account written is the account in its file. -/
theorem written_file {account : AccountSettings} (hrun : command.run regex to_uppercase repository = .ok after)
    (hwritten : writtenAccount to_uppercase repository command = some account) :
    HoldsFile after account := by
  have hsaved : ∀ account, answered (repository.save_source account) = .ok after → HoldsFile after account := by
    intro account hsave
    obtain ⟨file, hwrite, hsave⟩ := except_bind_eq_ok_iff.mp (ok_of_answered hsave)
    cases hsave
    obtain ⟨hsafe, hwrite⟩ := saveSource_spec hwrite
    exact ⟨_, file, hsafe, hwrite, AList.lookup_insert _⟩
  have hinserted : ∀ account, answered (repository.insert_source account) = .ok after → HoldsFile after account := by
    intro account hinsert
    obtain ⟨_, hsafe, hinsert⟩ := except_bind_eq_ok_iff.mp (ok_of_answered hinsert)
    split_ifs at hinsert
    obtain ⟨file, hwrite, hinsert⟩ := except_bind_eq_ok_iff.mp hinsert
    cases hinsert
    exact ⟨_, file, hsafe, hwrite, AList.lookup_insert _⟩
  have hresaved : ∀ account_id settings change, load_account repository account_id = .ok settings →
      (repository.get_source account_id).map change = some account →
      answered (repository.save_source (change settings)) = .ok after → HoldsFile after account := by
    intro account_id settings change hload hwritten hsave
    rw [get_source_of_load_account hload] at hwritten
    cases hwritten
    exact hsaved _ hsave
  cases command with
  | create_account intent id now =>
    cases hwritten
    obtain ⟨_, -, hinsert⟩ := except_bind_eq_ok_iff.mp hrun
    exact hinserted _ hinsert
  | update_account intent now =>
    obtain ⟨settings, hload, hrun⟩ := except_bind_eq_ok_iff.mp hrun
    obtain ⟨_, -, hsave⟩ := except_bind_eq_ok_iff.mp hrun
    exact hresaved _ settings (patchAccount · intent now) hload hwritten hsave
  | update_account_transport intent now =>
    obtain ⟨settings, hload, hsave⟩ := except_bind_eq_ok_iff.mp hrun
    exact hresaved _ settings (patchTransport · intent now) hload hwritten hsave
  | set_account_secret account_id change now =>
    cases change with
    | Keep => cases hwritten
    | Replace secret =>
      obtain ⟨_, -, hrun⟩ := except_bind_eq_ok_iff.mp hrun
      obtain ⟨settings, hload, hsave⟩ := except_bind_eq_ok_iff.mp hrun
      exact hresaved _ settings (fun settings => withSecret settings (some (replacedSecret settings)) now) hload
        hwritten hsave
    | Clear =>
      obtain ⟨settings, hload, hsave⟩ := except_bind_eq_ok_iff.mp hrun
      exact hresaved _ settings (withSecret · none now) hload hwritten hsave
  | set_account_logo account_id image_id now =>
    obtain ⟨settings, hload, hsave⟩ := except_bind_eq_ok_iff.mp hrun
    exact hresaved _ settings (withLogo to_uppercase · image_id now) hload hwritten hsave
  | complete_oauth seed id now =>
    cases hwritten
    exact hinserted _ hrun
  | delete_account _ | update_settings _ | create_rule _ | update_rule _ | delete_rule _ | create_smart_mailbox _ _ _
  | update_smart_mailbox _ _ | delete_smart_mailbox _ | reset_smart_mailboxes _ => cases hwritten

/-- A directory with the file of an account that the loader refuses does not load. -/
theorem HoldsFile.valid_of_loads {account : AccountSettings} {snapshot : ConfigSnapshot}
    (hholds : HoldsFile repository account)
    (hload : load_snapshot_from_disk repository.config_root repository.disk = .ok snapshot) :
    account_settings_errors account = [] := by
  obtain ⟨before, file, hsafe, hwrite, hfile⟩ := hholds
  have hmirrors := @mirrors_of_load ⟨repository.config_root, repository.disk, snapshot⟩ hload
  obtain ⟨found, hfound, hentry⟩ := hmirrors.sources account.id file hfile
  rw [load_source_after_write hsafe hwrite] at hentry
  split at hentry
  · cases hentry
  · cases hentry
    exact hmirrors.accounts account hfound

end Commands

section Runs

variable (regex : String → Option (String → Bool)) (to_uppercase : Char → List Char)

/-- Commands that succeed, one after another, from a directory just loaded. The amounts of a command are machine
    integers. -/
def configuring : TransitionSystem TomlConfigRepository Command where
  start repository := load_snapshot_from_disk repository.config_root repository.disk = .ok repository.snapshot
  step repository command after := CommandInWidth command ∧ command.run regex to_uppercase repository = .ok after

theorem mirrors_of_reachable {repository : TomlConfigRepository}
    (hreach : (configuring regex to_uppercase).Reachable (WritesValidAccount to_uppercase) repository) :
    Mirrors repository := by
  refine hreach.invariant (fun state hstart => @mirrors_of_load state hstart) ?_
  rintro state command after hmirrors hvalid ⟨hwidth, hrun⟩
  exact hmirrors.run hwidth hvalid hrun

/-- While every account written is one the loader accepts the directory loads, and the first command that writes
    another leaves one that does not. -/
theorem configuration_loads_iff {repository : TomlConfigRepository}
    (hreach : (configuring regex to_uppercase).Reachable (WritesValidAccount to_uppercase) repository) :
    (∃ snapshot, load_snapshot_from_disk repository.config_root repository.disk = .ok snapshot) ∧
      ∀ command after, (configuring regex to_uppercase).step repository command after →
        ((∃ snapshot, load_snapshot_from_disk after.config_root after.disk = .ok snapshot) ↔
          WritesValidAccount to_uppercase repository command) := by
  have hmirrors := mirrors_of_reachable regex to_uppercase hreach
  refine ⟨hmirrors.loads, ?_⟩
  rintro command after ⟨hwidth, hrun⟩
  constructor
  · rintro ⟨snapshot, hload⟩ account hwritten
    exact (written_file hrun hwritten).valid_of_loads hload
  · intro hvalid
    exact (hmirrors.run hwidth hvalid hrun).loads

def emptyDisk : Disk := ⟨none, ∅, ∅⟩

/-- A directory without a file, as a first start finds it. -/
def unconfigured : TomlConfigRepository := ⟨"/config", emptyDisk, ⟨.default, [], []⟩⟩

theorem unconfigured_loads :
    load_snapshot_from_disk unconfigured.config_root unconfigured.disk = .ok unconfigured.snapshot := by
  have hsources : load_sources "/config" ∅ = .ok [] := by simp [load_sources, except_bind_ok, pure, Except.pure]
  have hmailboxes : load_smart_mailboxes "/config" ∅ = .ok [] := by
    simp [load_smart_mailboxes, except_bind_ok, pure, Except.pure]
  have hvalid : validate_snapshot ⟨.default, [], []⟩ = .ok () := by decide
  have happ : load_app_settings none = .ok .default := rfl
  simp only [load_snapshot_from_disk, unconfigured, emptyDisk, happ, except_bind_ok, hsources, hmailboxes, hvalid]

def oauthSeed : OauthAccountSeed where
  provider := .Gmail
  identity_email := "me@example.org"
  imap := ⟨"imap.example.org", 993, .Tls⟩
  smtp := ⟨"smtp.example.org", 465, .Tls⟩

def authorize : Command := .complete_oauth oauthSeed "account" RFC3339_EPOCH

theorem authorized_configuration_loads : ∃ after, authorize.run (fun _ => none) (fun char => [char]) unconfigured = .ok after ∧
    ∃ snapshot, load_snapshot_from_disk after.config_root after.disk = .ok snapshot := by
  have hsaved : isSaved (unconfigured.insert_source (oauth_account oauthSeed "account" RFC3339_EPOCH)) = true := by
    decide
  obtain ⟨after, hinsert⟩ := saved_of_isSaved hsaved
  have hrun : authorize.run (fun _ => none) (fun char => [char]) unconfigured = .ok after := by
    simp only [authorize, Command.run, answered, hinsert, Except.mapError]
  have hvalid : WritesValidAccount (fun char => [char]) unconfigured authorize := by
    rintro account hwritten
    cases hwritten
    decide
  have hreach : (configuring (fun _ => none) fun char => [char]).Reachable (WritesValidAccount fun char => [char]) after :=
    .next (.start unconfigured_loads) hvalid ⟨trivial, hrun⟩
  exact ⟨after, hrun, (configuration_loads_iff (fun _ => none) (fun char => [char]) hreach).1⟩

def newAccount : CreateAccountIntent where
  name := "Mail"
  full_name := none
  signature := none
  email_patterns := ["me@example.org"]
  enabled := none

theorem configuration_does_not_load :
    load_snapshot_from_disk unconfigured.config_root unconfigured.disk = .ok unconfigured.snapshot ∧
      ∃ after, Command.run (fun _ => none) (fun char => [char]) unconfigured
          (.create_account newAccount "account" RFC3339_EPOCH) = .ok after ∧
        ∀ snapshot, load_snapshot_from_disk after.config_root after.disk ≠ .ok snapshot := by
  have hsaved : isSaved (unconfigured.insert_source (new_account newAccount "Mail" "account" RFC3339_EPOCH)) = true := by
    decide
  obtain ⟨after, hinsert⟩ := saved_of_isSaved hsaved
  have hname : str.trim newAccount.name = "Mail" := by decide
  have hrun : Command.run (fun _ => none) (fun char => [char]) unconfigured
      (.create_account newAccount "account" RFC3339_EPOCH) = .ok after := by
    simp only [Command.run, answered, hname, hinsert, Except.mapError]
    rfl
  refine ⟨unconfigured_loads, after, hrun, fun snapshot hload => ?_⟩
  have hvalid := (written_file hrun rfl).valid_of_loads hload
  rw [hname] at hvalid
  exact absurd hvalid (by decide)

end Runs

end posthaste.config
