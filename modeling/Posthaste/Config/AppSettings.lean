import Posthaste.Config.AppToml

open serde posthaste.model

namespace posthaste.config

section Serde

instance : NonNull AppearanceToml where
  to_value_ne_null _ := by simp [to_value, toml.table]

instance : NonNull ComposeToml where
  to_value_ne_null _ := by simp [to_value, toml.table]

/-- The keys of `app.toml` in order. An absent `[tls]` is skipped, as every absent option is in TOML. -/
def AppToml.fields (app : AppToml) : List (String × Option Value) := [
  ("schema_version", some (to_value app.schema_version)),
  ("default_source_id", app.default_source_id.map to_value),
  ("automations", some (to_value app.automations)),
  ("draft_automations", some (to_value app.draft_automations)),
  ("daemon", some (to_value app.daemon)),
  ("logging", some (to_value app.logging)),
  ("cache", some (to_value app.cache)),
  ("appearance", app.appearance.map to_value),
  ("notifications", app.notifications.map to_value),
  ("mailbox_colors", some (to_value app.mailbox_colors)),
  ("tags", some (to_value app.tags)),
  ("smart_mailbox_order", some (to_value app.smart_mailbox_order)),
  ("account_order", some (to_value app.account_order)),
  ("mailbox_groups", some (to_value app.mailbox_groups)),
  ("compose", app.compose.map to_value),
  ("link", some (to_value app.link)),
  ("tls", app.tls.map to_value)]

instance : Serialize AppToml where
  to_value app := toml.table app.fields

def DaemonToml.default : DaemonToml := ⟨none, none, none, none, []⟩

def LoggingToml.default : LoggingToml := ⟨none⟩

def CachePolicyToml.default : CachePolicyToml := ⟨none, none, none, none, none⟩

def LinkToml.default : LinkToml := ⟨none, none, none, none⟩

/-- The fields in the order the derived visitor reads them here; by name, so the order does not matter. -/
def AppToml.visit : StructReader AppToml := do
  let schema_version ← defaulted "schema_version" 0
  let default_source_id ← serde.optional "default_source_id"
  let automations ← defaulted "automations" []
  let draft_automations ← defaulted "draft_automations" []
  let daemon ← defaulted "daemon" DaemonToml.default
  let logging ← defaulted "logging" LoggingToml.default
  let cache ← defaulted "cache" CachePolicyToml.default
  let appearance ← defaulted "appearance" none
  let notifications ← defaulted "notifications" none
  let mailbox_colors ← defaulted "mailbox_colors" []
  let tags ← defaulted "tags" []
  let smart_mailbox_order ← defaulted "smart_mailbox_order" []
  let account_order ← defaulted "account_order" []
  let mailbox_groups ← defaulted "mailbox_groups" []
  let compose ← defaulted "compose" none
  let link ← defaulted "link" LinkToml.default
  let tls ← defaulted "tls" none
  return {
    schema_version, default_source_id, automations, draft_automations, daemon, logging, cache, appearance,
    notifications, mailbox_colors, tags, smart_mailbox_order, account_order, mailbox_groups, compose, link, tls }

instance : Deserialize AppToml where
  from_value := deserialize_struct "struct AppToml" AppToml.visit

def AppToml.default : AppToml where
  schema_version := 0
  default_source_id := none
  automations := []
  draft_automations := []
  daemon := .default
  logging := .default
  cache := .default
  appearance := none
  notifications := none
  mailbox_colors := []
  tags := []
  smart_mailbox_order := []
  account_order := []
  mailbox_groups := []
  compose := none
  link := .default
  tls := none

/-- Every field read by its key. -/
structure AppToml.ReadFrom (entries : List (String × Value)) (app : AppToml) : Prop where
  schema_version : Reads (defaulted "schema_version" 0) entries app.schema_version
  default_source_id : Reads (serde.optional "default_source_id") entries app.default_source_id
  automations : Reads (defaulted "automations" []) entries app.automations
  draft_automations : Reads (defaulted "draft_automations" []) entries app.draft_automations
  daemon : Reads (defaulted "daemon" DaemonToml.default) entries app.daemon
  logging : Reads (defaulted "logging" LoggingToml.default) entries app.logging
  cache : Reads (defaulted "cache" CachePolicyToml.default) entries app.cache
  appearance : Reads (defaulted "appearance" none) entries app.appearance
  notifications : Reads (defaulted "notifications" none) entries app.notifications
  mailbox_colors : Reads (defaulted "mailbox_colors" []) entries app.mailbox_colors
  tags : Reads (defaulted "tags" []) entries app.tags
  smart_mailbox_order : Reads (defaulted "smart_mailbox_order" []) entries app.smart_mailbox_order
  account_order : Reads (defaulted "account_order" []) entries app.account_order
  mailbox_groups : Reads (defaulted "mailbox_groups" []) entries app.mailbox_groups
  compose : Reads (defaulted "compose" none) entries app.compose
  link : Reads (defaulted "link" LinkToml.default) entries app.link
  tls : Reads (defaulted "tls" none) entries app.tls

theorem AppToml.ReadFrom.from_value {entries : List (String × Value)} {app : AppToml}
    (hreads : app.ReadFrom entries) : (from_value (.object entries) : Except Error AppToml) = .ok app :=
  deserialize_struct_object
    (.bind hreads.schema_version (.bind hreads.default_source_id (.bind hreads.automations
    (.bind hreads.draft_automations (.bind hreads.daemon (.bind hreads.logging (.bind hreads.cache
    (.bind hreads.appearance (.bind hreads.notifications (.bind hreads.mailbox_colors (.bind hreads.tags
    (.bind hreads.smart_mailbox_order (.bind hreads.account_order (.bind hreads.mailbox_groups
    (.bind hreads.compose (.bind hreads.link (.bind hreads.tls .pure)))))))))))))))))

theorem AppToml.readFrom_of_from_value {entries : List (String × Value)} {app : AppToml}
    (hvalue : (from_value (.object entries) : Except Error AppToml) = .ok app) : app.ReadFrom entries := by
  obtain ⟨⟨read, access⟩, hvisit, rfl⟩ : ∃ read, AppToml.visit (.map entries) = .ok read ∧ read.1 = app := by
    cases hvisit : AppToml.visit (.map entries) with
    | error error =>
      simp only [from_value, deserialize_struct, hvisit] at hvalue
      cases hvalue
    | ok read =>
      simp only [from_value, deserialize_struct, hvisit] at hvalue
      cases hvalue
      exact ⟨read, rfl, rfl⟩
  have hstays := fun {α : Type} [Deserialize α] {name : String} {entry item : Option α} =>
    @toml.stays_next_field α _ name entry item
  obtain ⟨_, hschema_version, hvisit⟩ := toml.reads_of_bind hstays hvisit
  obtain ⟨_, hdefault_source_id, hvisit⟩ := toml.reads_of_bind hstays hvisit
  obtain ⟨_, hautomations, hvisit⟩ := toml.reads_of_bind hstays hvisit
  obtain ⟨_, hdraft_automations, hvisit⟩ := toml.reads_of_bind hstays hvisit
  obtain ⟨_, hdaemon, hvisit⟩ := toml.reads_of_bind hstays hvisit
  obtain ⟨_, hlogging, hvisit⟩ := toml.reads_of_bind hstays hvisit
  obtain ⟨_, hcache, hvisit⟩ := toml.reads_of_bind hstays hvisit
  obtain ⟨_, happearance, hvisit⟩ := toml.reads_of_bind hstays hvisit
  obtain ⟨_, hnotifications, hvisit⟩ := toml.reads_of_bind hstays hvisit
  obtain ⟨_, hmailbox_colors, hvisit⟩ := toml.reads_of_bind hstays hvisit
  obtain ⟨_, htags, hvisit⟩ := toml.reads_of_bind hstays hvisit
  obtain ⟨_, hsmart_mailbox_order, hvisit⟩ := toml.reads_of_bind hstays hvisit
  obtain ⟨_, haccount_order, hvisit⟩ := toml.reads_of_bind hstays hvisit
  obtain ⟨_, hmailbox_groups, hvisit⟩ := toml.reads_of_bind hstays hvisit
  obtain ⟨_, hcompose, hvisit⟩ := toml.reads_of_bind hstays hvisit
  obtain ⟨_, hlink, hvisit⟩ := toml.reads_of_bind hstays hvisit
  obtain ⟨_, htls, hvisit⟩ := toml.reads_of_bind hstays hvisit
  cases hvisit
  exact ⟨hschema_version, hdefault_source_id, hautomations, hdraft_automations, hdaemon, hlogging, hcache, happearance,
    hnotifications, hmailbox_colors, htags, hsmart_mailbox_order, haccount_order, hmailbox_groups, hcompose, hlink,
    htls⟩

end Serde

section Conversions

def MailboxColorToml.to_mailbox_color (color : MailboxColorToml) : MailboxColor :=
  ⟨color.source_id, color.mailbox_id, color.hue⟩

def MailboxColorToml.from_mailbox_color (color : MailboxColor) : MailboxColorToml :=
  ⟨color.source_id, color.mailbox_id, color.hue⟩

def MailboxGroupToml.to_mailbox_group (group : MailboxGroupToml) : MailboxGroup :=
  ⟨group.id, group.name, group.mailbox_ids, group.order⟩

def MailboxGroupToml.from_mailbox_group (group : MailboxGroup) : MailboxGroupToml :=
  ⟨group.id, group.name, group.mailbox_ids, group.order⟩

def TagAppearanceToml.to_tag_appearance (tag : TagAppearanceToml) : TagAppearance :=
  ⟨tag.name, tag.fg, tag.bg, tag.icon⟩

def TagAppearanceToml.from_tag_appearance (tag : TagAppearance) : TagAppearanceToml :=
  ⟨tag.name, tag.fg, tag.bg, tag.icon⟩

/-- The hard cap is never read below the soft one. -/
def CachePolicyToml.to_cache_policy (cache : CachePolicyToml) : CachePolicy :=
  let default := CachePolicy.default
  { soft_cap_bytes := cache.soft_cap_bytes.getD default.soft_cap_bytes
    hard_cap_bytes := max (cache.hard_cap_bytes.getD default.hard_cap_bytes)
      (cache.soft_cap_bytes.getD default.soft_cap_bytes)
    cache_bodies := cache.cache_bodies.getD default.cache_bodies
    cache_raw_messages := cache.cache_raw_messages.getD default.cache_raw_messages
    cache_attachments := cache.cache_attachments.getD default.cache_attachments }

def CachePolicyToml.from_cache_policy (policy : CachePolicy) : CachePolicyToml where
  soft_cap_bytes := some policy.soft_cap_bytes
  hard_cap_bytes := some policy.hard_cap_bytes
  cache_bodies := some policy.cache_bodies
  cache_raw_messages := some policy.cache_raw_messages
  cache_attachments := some policy.cache_attachments

def ThemeColorsToml.to_theme_colors (colors : ThemeColorsToml) : ThemeColors :=
  ⟨colors.accent_hue, colors.surface_hue, colors.tokens⟩

def ThemeColorsToml.from_theme_colors (colors : ThemeColors) : ThemeColorsToml :=
  ⟨colors.accent_hue, colors.surface_hue, colors.tokens⟩

/-- The old single accent seeds a mode that has no colours of its own. -/
def AppearanceToml.to_appearance (appearance : AppearanceToml) : Appearance :=
  let legacy := appearance.accent_hue.map fun accent_hue => ThemeColors.mk (some accent_hue) none ⟨[]⟩
  { mode := appearance.mode
    theme := appearance.theme
    density := appearance.density
    light := appearance.light.map ThemeColorsToml.to_theme_colors <|> legacy
    dark := appearance.dark.map ThemeColorsToml.to_theme_colors <|> legacy
    glass_theme := appearance.glass_theme }

def AppearanceToml.from_appearance (appearance : Appearance) : AppearanceToml where
  mode := appearance.mode
  theme := appearance.theme
  density := appearance.density
  accent_hue := none
  light := appearance.light.map ThemeColorsToml.from_theme_colors
  dark := appearance.dark.map ThemeColorsToml.from_theme_colors
  glass_theme := appearance.glass_theme

def NotificationsToml.to_notifications (notifications : NotificationsToml) : Notifications :=
  ⟨notifications.new_mail, notifications.sound⟩

def NotificationsToml.from_notifications (notifications : Notifications) : NotificationsToml :=
  ⟨notifications.new_mail, notifications.sound⟩

def ComposeToml.to_compose_settings (compose : ComposeToml) : ComposeSettings := ⟨compose.undo_send_delay_seconds⟩

def ComposeToml.from_compose_settings (compose : ComposeSettings) : ComposeToml := ⟨compose.undo_send_delay_seconds⟩

def AppToml.to_app_settings (app : AppToml) : Except String AppSettings := do
  let automation_rules ← app.automations.mapM convert_automation_rule
  let automation_drafts ← app.draft_automations.mapM convert_automation_rule
  return {
    default_account_id := app.default_source_id
    cache_policy := app.cache.to_cache_policy
    automation_rules
    automation_drafts
    appearance := app.appearance.map AppearanceToml.to_appearance
    notifications := app.notifications.map NotificationsToml.to_notifications
    mailbox_colors := app.mailbox_colors.map MailboxColorToml.to_mailbox_color
    tags := app.tags.map TagAppearanceToml.to_tag_appearance
    smart_mailbox_order := app.smart_mailbox_order
    account_order := app.account_order
    mailbox_groups := app.mailbox_groups.map MailboxGroupToml.to_mailbox_group
    compose := app.compose.map ComposeToml.to_compose_settings }

/-- The daemon's own sections are kept from the file. -/
def AppToml.from_app_settings (settings : AppSettings) (existing : AppToml) : AppToml where
  schema_version := max existing.schema_version 1
  default_source_id := settings.default_account_id
  automations := settings.automation_rules.map convert_automation_rule_to_toml
  draft_automations := settings.automation_drafts.map convert_automation_rule_to_toml
  daemon := existing.daemon
  logging := existing.logging
  cache := .from_cache_policy settings.cache_policy
  appearance := settings.appearance.map AppearanceToml.from_appearance
  notifications := settings.notifications.map NotificationsToml.from_notifications
  mailbox_colors := settings.mailbox_colors.map MailboxColorToml.from_mailbox_color
  tags := settings.tags.map TagAppearanceToml.from_tag_appearance
  smart_mailbox_order := settings.smart_mailbox_order
  account_order := settings.account_order
  mailbox_groups := settings.mailbox_groups.map MailboxGroupToml.from_mailbox_group
  compose := settings.compose.map ComposeToml.from_compose_settings
  link := existing.link
  tls := existing.tls

end Conversions

end posthaste.config
