import Posthaste.Config.Io

open serde posthaste.model

namespace posthaste.config

section App

variable {config_root : String} {file : Option File} {settings : AppSettings} {existing : AppToml} {after : File}

/-- The width of every relative date's amount. -/
def RulesInWidth (settings : AppSettings) : Prop :=
  (∀ rule ∈ settings.automation_rules, GroupInWidth rule.condition.root) ∧
    ∀ rule ∈ settings.automation_drafts, GroupInWidth rule.condition.root

theorem readFrom_base (hread : read_app_toml file = .ok existing) : existing.ReadFrom (base file).values := by
  obtain _ | error | document := file
  · cases hread
    have hempty : (from_value (.object []) : Except Error AppToml) = .ok .default := rfl
    exact AppToml.readFrom_of_from_value hempty
  · cases hread
  · apply AppToml.readFrom_of_from_value
    simp only [read_app_toml, from_str] at hread
    cases hvalue : (from_value (.object document.values) : Except Error AppToml) with
    | error error =>
      rw [hvalue] at hread
      cases hread
    | ok app =>
      rw [hvalue] at hread
      cases hread
      exact hvalue

theorem app_names (app : AppToml) : (app.fields.map Prod.fst).Nodup := by simp [AppToml.fields]

/-- What the file reads as: the sections without a managed key are those it had. -/
def kept (written existing : AppToml) : AppToml :=
  { written with
    smart_mailbox_order := existing.smart_mailbox_order
    account_order := existing.account_order
    mailbox_groups := existing.mailbox_groups
    compose := existing.compose }

theorem readFrom_after {written : AppToml} {managed : toml.Document}
    (hlegacy : ∀ appearance, written.appearance = some appearance → appearance.accent_hue = none)
    (hread : read_app_toml file = .ok existing) (hvalue : to_value written = .object managed.values) :
    (kept written existing).ReadFrom ((base file).overwrite managed APP_TOML_MANAGED_KEYS).values := by
  have hbase := readFrom_base hread
  have hat := fun name found hfield hkey =>
    @lookup_of_write file APP_TOML_MANAGED_KEYS written.fields managed hvalue (app_names written) name found hfield hkey
  have hkept := fun name (hkey : name ∉ APP_TOML_MANAGED_KEYS) =>
    (@toml.Document.lookup_overwrite_of_not_mem (base file) managed name _ hkey).symm
  exact {
    schema_version := .defaulted (hat "schema_version" _ rfl (by decide))
    default_source_id := toml.reads_optional (hat "default_source_id" _ rfl (by decide))
    automations := .defaulted (hat "automations" _ rfl (by decide))
    draft_automations := .defaulted (hat "draft_automations" _ rfl (by decide))
    daemon := .defaulted (hat "daemon" _ rfl (by decide))
    logging := .defaulted (hat "logging" _ rfl (by decide))
    cache := .defaulted (hat "cache" _ rfl (by decide))
    appearance := toml.reads_defaulted_of (fun _ hheld => AppearanceToml.from_to (hlegacy _ hheld))
      (hat "appearance" _ rfl (by decide))
    notifications := toml.reads_defaulted (hat "notifications" _ rfl (by decide))
    mailbox_colors := .defaulted (hat "mailbox_colors" _ rfl (by decide))
    tags := .defaulted (hat "tags" _ rfl (by decide))
    smart_mailbox_order := toml.reads_congr (hkept _ (by decide)) hbase.smart_mailbox_order
    account_order := toml.reads_congr (hkept _ (by decide)) hbase.account_order
    mailbox_groups := toml.reads_congr (hkept _ (by decide)) hbase.mailbox_groups
    compose := toml.reads_congr (hkept _ (by decide)) hbase.compose
    link := .defaulted (hat "link" _ rfl (by decide))
    tls := toml.reads_defaulted (hat "tls" _ rfl (by decide)) }

/-- The settings a restart finds after a save over a file that read as `existing`. -/
def reloaded (settings : AppSettings) (existing : AppToml) : AppSettings :=
  { settings with
    cache_policy := { settings.cache_policy with
      hard_cap_bytes := max settings.cache_policy.hard_cap_bytes settings.cache_policy.soft_cap_bytes }
    smart_mailbox_order := existing.smart_mailbox_order
    account_order := existing.account_order
    mailbox_groups := existing.mailbox_groups.map MailboxGroupToml.to_mailbox_group
    compose := existing.compose.map ComposeToml.to_compose_settings }

theorem appearance_round (appearance : Appearance) :
    (AppearanceToml.from_appearance appearance).to_appearance = appearance := by
  obtain ⟨mode, theme, density, light, dark, glass_theme⟩ := appearance
  cases light <;> cases dark <;> rfl

theorem to_app_settings_kept {earlier : AppToml} (hwidth : RulesInWidth settings) :
    (kept (AppToml.from_app_settings settings earlier) existing).to_app_settings = .ok (reloaded settings existing) := by
  have happearance : AppearanceToml.to_appearance ∘ AppearanceToml.from_appearance = id :=
    funext appearance_round
  have hnotifications : NotificationsToml.to_notifications ∘ NotificationsToml.from_notifications = id := rfl
  have hcolors : MailboxColorToml.to_mailbox_color ∘ MailboxColorToml.from_mailbox_color = id := rfl
  have htags : TagAppearanceToml.to_tag_appearance ∘ TagAppearanceToml.from_tag_appearance = id := rfl
  rw [AppToml.to_app_settings]
  simp only [kept, AppToml.from_app_settings, convert_rules_round hwidth.1, convert_rules_round hwidth.2,
    Option.map_map, List.map_map, happearance, hnotifications, hcolors, htags, Option.map_id, List.map_id]
  rfl

/-- The file may have been read earlier for the sections that are no settings. -/
theorem load_after_write_app {earlier : AppToml} (hwidth : RulesInWidth settings)
    (hread : read_app_toml file = .ok existing)
    (hwrite : write_app_toml config_root file (AppToml.from_app_settings settings earlier) = .ok after) :
    load_app_settings (some after) = .ok (reloaded settings existing) := by
  obtain ⟨-, managed, hvalue, rfl⟩ := write_managed_toml_spec hwrite
  have hlegacy : ∀ appearance, (AppToml.from_app_settings settings earlier).appearance = some appearance →
      appearance.accent_hue = none := by
    intro appearance happearance
    obtain ⟨_, -, rfl⟩ := Option.map_eq_some_iff.1 happearance
    rfl
  have hafter := (readFrom_after hlegacy hread hvalue).from_value
  rw [load_app_settings, read_app_toml, from_str]
  simp only [hafter, bind, Except.bind, to_app_settings_kept hwidth]

theorem load_after_save (hwidth : RulesInWidth settings) (hread : read_app_toml file = .ok existing)
    (hsave : saveAppSettings config_root file settings = .ok after) :
    load_app_settings (some after) = .ok (reloaded settings existing) := by
  rw [saveAppSettings, hread] at hsave
  exact load_after_write_app hwidth hread hsave

/-- When a save survives a restart: the sections that no managed key names are as the file already has them, and the
    hard cap is no smaller than the soft one. -/
def SurvivesRestart (file : Option File) (settings : AppSettings) : Prop :=
  ∃ existing, read_app_toml file = .ok existing ∧
    settings.smart_mailbox_order = existing.smart_mailbox_order ∧
    settings.account_order = existing.account_order ∧
    settings.mailbox_groups = existing.mailbox_groups.map MailboxGroupToml.to_mailbox_group ∧
    settings.compose = existing.compose.map ComposeToml.to_compose_settings ∧
    settings.cache_policy.soft_cap_bytes ≤ settings.cache_policy.hard_cap_bytes

theorem max_eq_left_iff {first second : UInt64} : max first second = first ↔ second ≤ first := by
  show (if first ≤ second then second else first) = first ↔ _
  split_ifs with hle
  · exact ⟨fun hsame => hsame ▸ UInt64.le_refl _, fun hge => UInt64.le_antisymm hge hle⟩
  · exact ⟨fun _ => (UInt64.le_total first second).resolve_left hle, fun _ => rfl⟩

theorem reloaded_eq_iff (hread : read_app_toml file = .ok existing) :
    reloaded settings existing = settings ↔ SurvivesRestart file settings := by
  constructor
  · intro hsame
    have hmailboxes := congrArg AppSettings.smart_mailbox_order hsame
    have haccounts := congrArg AppSettings.account_order hsame
    have hgroups := congrArg AppSettings.mailbox_groups hsame
    have hcompose := congrArg AppSettings.compose hsame
    have hcap := congrArg (fun settings => settings.cache_policy.hard_cap_bytes) hsame
    exact ⟨existing, hread, hmailboxes.symm, haccounts.symm, hgroups.symm, hcompose.symm, max_eq_left_iff.1 hcap⟩
  · rintro ⟨app, happ, hmailboxes, haccounts, hgroups, hcompose, hcap⟩
    rw [hread] at happ
    cases happ
    simp only [reloaded, ← hmailboxes, ← haccounts, ← hgroups, ← hcompose, max_eq_left_iff.2 hcap]

theorem app_round_trip_iff (hwidth : RulesInWidth settings) (hsave : saveAppSettings config_root file settings = .ok after) :
    (load_app_settings (some after) = .ok settings ∧ Untouched APP_TOML_MANAGED_KEYS file after) ↔
      SurvivesRestart file settings := by
  obtain ⟨existing, hread⟩ : ∃ existing, read_app_toml file = .ok existing := by
    cases hread : read_app_toml file with
    | error error =>
      rw [saveAppSettings, hread] at hsave
      cases hsave
    | ok existing => exact ⟨existing, rfl⟩
  have huntouched : Untouched APP_TOML_MANAGED_KEYS file after := by
    rw [saveAppSettings, hread] at hsave
    exact untouched_of_write hsave
  rw [load_after_save hwidth hread hsave, Except.ok.injEq, reloaded_eq_iff hread]
  exact and_iff_left huntouched

end App

section Sources

variable {config_root : String} {file : Option File} {source : AccountSettings} {mailbox : SmartMailbox} {after : File}

theorem filename_of_safe {path id : String} (hsafe : validate_safe_id id = .ok ()) :
    validate_filename_matches_id path id id = .ok () := by
  rw [validate_filename_matches_id, hsafe]
  show (if id ≠ id then _ else _) = _
  rw [if_neg (not_not_intro rfl)]

theorem load_source_after_write (hsafe : validate_safe_id source.id = .ok ())
    (hwrite : write_source_toml config_root file source = .ok after) :
    load_source config_root source.id after =
      match validate_source_settings source with
      | .error error =>
        .error (.Parse s!"{sourcePath config_root source.id}: invalid automation rule: {error}")
      | .ok () => .ok source := by
  obtain ⟨-, managed, hvalue, rfl⟩ := write_managed_toml_spec hwrite
  have hnames : ((SourceToml.from_account_settings source).fields.map Prod.fst).Nodup := by simp [SourceToml.fields]
  have hkeys : ∀ name ∈ (SourceToml.from_account_settings source).fields.map Prod.fst,
      name ∈ SOURCE_TOML_MANAGED_KEYS := fun _ hname => hname
  have hread := SourceToml.from_value_of_lookups fun name found hfield =>
    @lookup_of_write file SOURCE_TOML_MANAGED_KEYS _ managed hvalue hnames name found hfield
      (hkeys name (toml.mem_of_lookup hfield))
  rw [load_source, from_str]
  simp only [hread, bind, Except.bind]
  rw [show (SourceToml.from_account_settings source).id = source.id from rfl, filename_of_safe hsafe]
  simp only [SourceToml.to_account_settings, settings_from_account_settings, bind, Except.bind]
  cases validate_source_settings source <;> rfl

theorem source_round_trip_iff (hsafe : validate_safe_id source.id = .ok ())
    (hwrite : write_source_toml config_root file source = .ok after) :
    (load_source config_root source.id after = .ok source ∧ Untouched SOURCE_TOML_MANAGED_KEYS file after) ↔
      validate_source_settings source = .ok () := by
  rw [load_source_after_write hsafe hwrite]
  have huntouched : Untouched SOURCE_TOML_MANAGED_KEYS file after := untouched_of_write hwrite
  cases validate_source_settings source with
  | error error => simp
  | ok _ => simp [huntouched]

theorem load_smart_mailbox_after_write (hwidth : GroupInWidth mailbox.rule.root)
    (hsafe : validate_safe_id mailbox.id = .ok ())
    (hwrite : write_smart_mailbox_toml config_root file mailbox = .ok after) :
    load_smart_mailbox config_root mailbox.id after = .ok mailbox := by
  obtain ⟨-, managed, hvalue, rfl⟩ := write_managed_toml_spec hwrite
  have hnames : ((SmartMailboxToml.from_smart_mailbox mailbox).fields.map Prod.fst).Nodup := by
    simp [SmartMailboxToml.fields]
  have hkeys : ∀ name ∈ (SmartMailboxToml.from_smart_mailbox mailbox).fields.map Prod.fst,
      name ∈ SMART_MAILBOX_TOML_MANAGED_KEYS := by
    simp [SmartMailboxToml.fields, SMART_MAILBOX_TOML_MANAGED_KEYS]
  have hread := SmartMailboxToml.from_value_of_lookups fun name found hfield =>
    @lookup_of_write file SMART_MAILBOX_TOML_MANAGED_KEYS _ managed hvalue hnames name found hfield
      (hkeys name (toml.mem_of_lookup hfield))
  rw [load_smart_mailbox, from_str]
  simp only [hread, bind, Except.bind]
  rw [show (SmartMailboxToml.from_smart_mailbox mailbox).id = mailbox.id from rfl, filename_of_safe hsafe]
  simp only [to_smart_mailbox_from_smart_mailbox hwidth]

theorem saveSource_spec (hsave : saveSource config_root file source = .ok after) :
    validate_safe_id source.id = .ok () ∧ write_source_toml config_root file source = .ok after := by
  rw [saveSource] at hsave
  cases hsafe : validate_safe_id source.id with
  | error error =>
    rw [hsafe] at hsave
    cases hsave
  | ok _ =>
    rw [hsafe] at hsave
    exact ⟨rfl, hsave⟩

theorem saveSmartMailbox_spec (hsave : saveSmartMailbox config_root file mailbox = .ok after) :
    validate_safe_id mailbox.id = .ok () ∧ write_smart_mailbox_toml config_root file mailbox = .ok after := by
  rw [saveSmartMailbox] at hsave
  cases hsafe : validate_safe_id mailbox.id with
  | error error =>
    rw [hsafe] at hsave
    cases hsave
  | ok _ =>
    rw [hsafe] at hsave
    exact ⟨rfl, hsave⟩

end Sources

section RoundTrip

def isSaved {α : Type} : Except ConfigError α → Bool
  | .ok _ => true
  | .error _ => false

theorem saved_of_isSaved {α : Type} {result : Except ConfigError α} (hsaved : isSaved result = true) :
    ∃ saved, result = .ok saved := by
  cases result with
  | error _ => cases hsaved
  | ok saved => exact ⟨saved, rfl⟩

/-- One smart mailbox pinned in the sidebar. -/
def pinned : AppSettings := { AppSettings.default with smart_mailbox_order := ["inbox"] }

/-- A hard cap below the soft one. -/
def capped : AppSettings :=
  { AppSettings.default with cache_policy := { CachePolicy.default with hard_cap_bytes := 0 } }

/-- An account as it is created, without its connection details. -/
def created : AccountSettings where
  id := "account"
  name := "Mail"
  full_name := none
  signature := none
  email_patterns := ["me@example.org"]
  driver := .ImapSmtp
  enabled := false
  appearance := none
  transport := .default
  created_at := RFC3339_EPOCH
  updated_at := RFC3339_EPOCH

end RoundTrip

end posthaste.config
