import Posthaste.Config.AutomationToml

open serde posthaste.model

namespace posthaste.config

structure MailboxColorToml where
  source_id : String
  mailbox_id : String
  hue : UInt32

structure MailboxGroupToml where
  id : String
  name : String
  mailbox_ids : List String
  order : Int64

structure TagAppearanceToml where
  name : String
  fg : Option String
  bg : Option String
  icon : Option String

structure LinkToml where
  serve : Option Bool
  token : Option String
  runtimes : Option StringMap
  authority_server_url : Option String

structure LoggingToml where
  level : Option String

structure CachePolicyToml where
  soft_cap_bytes : Option UInt64
  hard_cap_bytes : Option UInt64
  cache_bodies : Option Bool
  cache_raw_messages : Option Bool
  cache_attachments : Option Bool

structure ThemeColorsToml where
  accent_hue : Option UInt32
  surface_hue : Option UInt32
  tokens : StringMap

/-- The single `accent_hue` of older files is read, never written. -/
structure AppearanceToml where
  mode : Option ThemeMode
  theme : Option String
  density : Option UiDensity
  accent_hue : Option UInt32
  light : Option ThemeColorsToml
  dark : Option ThemeColorsToml
  glass_theme : Option GlassTheme

structure NotificationsToml where
  new_mail : Option Bool
  sound : Option Bool

structure ComposeToml where
  undo_send_delay_seconds : Option UInt32

structure DaemonToml where
  bind : Option String
  cors_origin : Option String
  poll_interval_seconds : Option UInt64
  require_auth : Option Bool
  allowed_hosts : List String

structure TlsToml where
  cert : Option String
  key : Option String

structure AppToml where
  schema_version : UInt32
  default_source_id : Option String
  automations : List AutomationRuleToml
  draft_automations : List AutomationRuleToml
  daemon : DaemonToml
  logging : LoggingToml
  cache : CachePolicyToml
  appearance : Option AppearanceToml
  notifications : Option NotificationsToml
  mailbox_colors : List MailboxColorToml
  tags : List TagAppearanceToml
  smart_mailbox_order : List String
  account_order : List String
  mailbox_groups : List MailboxGroupToml
  compose : Option ComposeToml
  link : LinkToml
  tls : Option TlsToml

section Serde

instance : Serialize Float64 where
  to_value value := .float value.text

/-- An integer reads as a float as well. -/
instance : Deserialize Float64 where
  from_value
    | .float text => .ok ⟨text⟩
    | .number value => .ok ⟨s!"{value}.0"⟩
    | _ => .error (.invalid_type "f64")

instance : RoundTrip Float64 where
  from_to _ := rfl

def readStrings : List (String × Value) → Except Error (List (String × String))
  | [] => .ok []
  | (name, .string text) :: rest => do
    let entries ← readStrings rest
    return (name, text) :: entries
  | _ :: _ => .error (.invalid_type "a string")

instance : Serialize StringMap where
  to_value map := .object (map.entries.map fun entry => (entry.1, .string entry.2))

instance : Deserialize StringMap where
  from_value
    | .object entries => (readStrings entries).map StringMap.mk
    | _ => .error (.invalid_type "a map")

theorem readStrings_map (entries : List (String × String)) :
    readStrings (entries.map fun entry => (entry.1, .string entry.2)) = .ok entries := by
  induction entries with
  | nil => rfl
  | cons entry rest ih =>
    rw [List.map_cons, readStrings, ih]
    rfl

instance : RoundTrip StringMap where
  from_to map := by
    show (readStrings _).map StringMap.mk = _
    rw [readStrings_map]
    rfl

instance : NonNull StringMap where
  to_value_ne_null _ := by simp [to_value]

instance : toml.Variants ThemeMode where
  name
    | .Light => "light"
    | .Dark => "dark"
    | .System => "system"
  parse
    | "light" => some .Light
    | "dark" => some .Dark
    | "system" => some .System
    | _ => none
  parse_name := by rintro (_ | _ | _) <;> rfl

instance : toml.Variants UiDensity where
  name
    | .Compact => "compact"
    | .Cozy => "cozy"
    | .Comfortable => "comfortable"
  parse
    | "compact" => some .Compact
    | "cozy" => some .Cozy
    | "comfortable" => some .Comfortable
    | _ => none
  parse_name := by rintro (_ | _ | _) <;> rfl

instance : Serialize GlassBloom where
  to_value bloom := .object [("id", to_value bloom.id), ("hue", to_value bloom.hue), ("x", to_value bloom.x),
    ("y", to_value bloom.y), ("opacity", to_value bloom.opacity), ("radius", to_value bloom.radius)]

instance : Deserialize GlassBloom where
  from_value := deserialize_struct "struct GlassBloom" do
    let id ← required "id"
    let hue ← required "hue"
    let x ← required "x"
    let y ← required "y"
    let opacity ← required "opacity"
    let radius ← required "radius"
    return { id, hue, x, y, opacity, radius }

instance : RoundTrip GlassBloom where
  from_to _ := deserialize_struct_object (.bind (.required rfl) (.bind (.required rfl) (.bind (.required rfl)
    (.bind (.required rfl) (.bind (.required rfl) (.bind (.required rfl) .pure))))))

instance : Serialize GlassTheme where
  to_value theme := .object [("blooms", to_value theme.blooms)]

instance : Deserialize GlassTheme where
  from_value := deserialize_struct "struct GlassTheme" do
    let blooms ← required "blooms"
    return { blooms }

instance : RoundTrip GlassTheme where
  from_to _ := deserialize_struct_object (.bind (.required rfl) .pure)

instance : NonNull GlassTheme where
  to_value_ne_null _ := by simp [to_value]

instance : Serialize MailboxColorToml where
  to_value color := .object [("source_id", to_value color.source_id), ("mailbox_id", to_value color.mailbox_id),
    ("hue", to_value color.hue)]

instance : Deserialize MailboxColorToml where
  from_value := deserialize_struct "struct MailboxColorToml" do
    let source_id ← required "source_id"
    let mailbox_id ← required "mailbox_id"
    let hue ← required "hue"
    return { source_id, mailbox_id, hue }

instance : RoundTrip MailboxColorToml where
  from_to _ := deserialize_struct_object (.bind (.required rfl) (.bind (.required rfl) (.bind (.required rfl) .pure)))

instance : Serialize MailboxGroupToml where
  to_value group := .object [("id", to_value group.id), ("name", to_value group.name),
    ("mailbox_ids", to_value group.mailbox_ids), ("order", to_value group.order)]

instance : Deserialize MailboxGroupToml where
  from_value := deserialize_struct "struct MailboxGroupToml" do
    let id ← required "id"
    let name ← required "name"
    let mailbox_ids ← defaulted "mailbox_ids" []
    let order ← required "order"
    return { id, name, mailbox_ids, order }

instance : RoundTrip MailboxGroupToml where
  from_to _ := deserialize_struct_object
    (.bind (.required rfl) (.bind (.required rfl) (.bind (.defaulted rfl) (.bind (.required rfl) .pure))))

def TagAppearanceToml.fields (tag : TagAppearanceToml) : List (String × Option Value) := [
  ("name", some (to_value tag.name)),
  ("fg", tag.fg.map to_value),
  ("bg", tag.bg.map to_value),
  ("icon", tag.icon.map to_value)]

instance : Serialize TagAppearanceToml where
  to_value tag := toml.table tag.fields

instance : Deserialize TagAppearanceToml where
  from_value := deserialize_struct "struct TagAppearanceToml" do
    let name ← required "name"
    let fg ← defaulted "fg" none
    let bg ← defaulted "bg" none
    let icon ← defaulted "icon" none
    return { name, fg, bg, icon }

instance : RoundTrip TagAppearanceToml where
  from_to tag := by
    have hat := fun name found => @toml.lookup_present tag.fields (by simp [TagAppearanceToml.fields]) name found
    exact deserialize_struct_object (.bind (.required (hat "name" _ rfl)) (.bind (toml.reads_defaulted (hat "fg" _ rfl))
      (.bind (toml.reads_defaulted (hat "bg" _ rfl)) (.bind (toml.reads_defaulted (hat "icon" _ rfl)) .pure))))

def LinkToml.fields (link : LinkToml) : List (String × Option Value) := [
  ("serve", link.serve.map to_value),
  ("token", link.token.map to_value),
  ("runtimes", link.runtimes.map to_value),
  ("authority_server_url", link.authority_server_url.map to_value)]

instance : Serialize LinkToml where
  to_value link := toml.table link.fields

instance : Deserialize LinkToml where
  from_value := deserialize_struct "struct LinkToml" do
    let serve ← serde.optional "serve"
    let token ← serde.optional "token"
    let runtimes ← serde.optional "runtimes"
    let authority_server_url ← serde.optional "authority_server_url"
    return { serve, token, runtimes, authority_server_url }

instance : RoundTrip LinkToml where
  from_to link := by
    have hat := fun name found => @toml.lookup_present link.fields (by simp [LinkToml.fields]) name found
    exact deserialize_struct_object (.bind (toml.reads_optional (hat "serve" _ rfl))
      (.bind (toml.reads_optional (hat "token" _ rfl)) (.bind (toml.reads_optional (hat "runtimes" _ rfl))
      (.bind (toml.reads_optional (hat "authority_server_url" _ rfl)) .pure))))

def LoggingToml.fields (logging : LoggingToml) : List (String × Option Value) :=
  [("level", logging.level.map to_value)]

instance : Serialize LoggingToml where
  to_value logging := toml.table logging.fields

instance : Deserialize LoggingToml where
  from_value := deserialize_struct "struct LoggingToml" do
    let level ← serde.optional "level"
    return { level }

instance : RoundTrip LoggingToml where
  from_to logging := by
    have hat := fun name found => @toml.lookup_present logging.fields (by simp [LoggingToml.fields]) name found
    exact deserialize_struct_object (.bind (toml.reads_optional (hat "level" _ rfl)) .pure)

def CachePolicyToml.fields (cache : CachePolicyToml) : List (String × Option Value) := [
  ("soft_cap_bytes", cache.soft_cap_bytes.map to_value),
  ("hard_cap_bytes", cache.hard_cap_bytes.map to_value),
  ("cache_bodies", cache.cache_bodies.map to_value),
  ("cache_raw_messages", cache.cache_raw_messages.map to_value),
  ("cache_attachments", cache.cache_attachments.map to_value)]

instance : Serialize CachePolicyToml where
  to_value cache := toml.table cache.fields

instance : Deserialize CachePolicyToml where
  from_value := deserialize_struct "struct CachePolicyToml" do
    let soft_cap_bytes ← serde.optional "soft_cap_bytes"
    let hard_cap_bytes ← serde.optional "hard_cap_bytes"
    let cache_bodies ← serde.optional "cache_bodies"
    let cache_raw_messages ← serde.optional "cache_raw_messages"
    let cache_attachments ← serde.optional "cache_attachments"
    return { soft_cap_bytes, hard_cap_bytes, cache_bodies, cache_raw_messages, cache_attachments }

instance : RoundTrip CachePolicyToml where
  from_to cache := by
    have hat := fun name found => @toml.lookup_present cache.fields (by simp [CachePolicyToml.fields]) name found
    exact deserialize_struct_object (.bind (toml.reads_optional (hat "soft_cap_bytes" _ rfl))
      (.bind (toml.reads_optional (hat "hard_cap_bytes" _ rfl)) (.bind (toml.reads_optional (hat "cache_bodies" _ rfl))
      (.bind (toml.reads_optional (hat "cache_raw_messages" _ rfl))
      (.bind (toml.reads_optional (hat "cache_attachments" _ rfl)) .pure)))))

/-- Tokens are left out when there are none. -/
def ThemeColorsToml.fields (colors : ThemeColorsToml) : List (String × Option Value) := [
  ("accent_hue", colors.accent_hue.map to_value),
  ("surface_hue", colors.surface_hue.map to_value),
  ("tokens", if colors.tokens.entries.isEmpty then none else some (to_value colors.tokens))]

instance : Serialize ThemeColorsToml where
  to_value colors := toml.table colors.fields

instance : Deserialize ThemeColorsToml where
  from_value := deserialize_struct "struct ThemeColorsToml" do
    let accent_hue ← serde.optional "accent_hue"
    let surface_hue ← serde.optional "surface_hue"
    let tokens ← defaulted "tokens" ⟨[]⟩
    return { accent_hue, surface_hue, tokens }

instance : RoundTrip ThemeColorsToml where
  from_to colors := by
    have hat := fun name found => @toml.lookup_present colors.fields (by simp [ThemeColorsToml.fields]) name found
    refine deserialize_struct_object (.bind (toml.reads_optional (hat "accent_hue" _ rfl))
      (.bind (toml.reads_optional (hat "surface_hue" _ rfl)) (.bind ?_ .pure)))
    have htokens := hat "tokens" _ rfl
    obtain ⟨_, _, ⟨_ | ⟨entry, rest⟩⟩⟩ := colors
    · exact .defaulted_absent htokens
    · exact .defaulted htokens

instance : NonNull ThemeColorsToml where
  to_value_ne_null _ := by simp [to_value, toml.table]

/-- A field read under an older name too. -/
def aliased (name older : String) : StructReader (Option String)
  | .map entries =>
    match entries.lookup name, entries.lookup older with
    | some _, some _ => .error (.invalid_value s!"duplicate field {name}")
    | some value, none | none, some value => (from_value value).map (some ·, .map entries)
    | none, none => .ok (none, .map entries)
  | access => serde.optional name access

theorem reads_aliased {entries : List (String × Value)} {name older : String} {value : Option String}
    (hname : entries.lookup name = value.map to_value) (holder : entries.lookup older = none) :
    Reads (aliased name older) entries value := by
  cases value with
  | none => simp [Reads, aliased, hname, holder]
  | some value => simp [Reads, aliased, hname, holder, Except.map]

def AppearanceToml.fields (appearance : AppearanceToml) : List (String × Option Value) := [
  ("mode", appearance.mode.map to_value),
  ("theme", appearance.theme.map to_value),
  ("density", appearance.density.map to_value),
  ("light", appearance.light.map to_value),
  ("dark", appearance.dark.map to_value),
  ("glass_theme", appearance.glass_theme.map to_value)]

instance : Serialize AppearanceToml where
  to_value appearance := toml.table appearance.fields

instance : Deserialize AppearanceToml where
  from_value := deserialize_struct "struct AppearanceToml" do
    let mode ← serde.optional "mode"
    let theme ← aliased "theme" "palette_preset"
    let density ← serde.optional "density"
    let accent_hue ← serde.optional "accent_hue"
    let light ← serde.optional "light"
    let dark ← serde.optional "dark"
    let glass_theme ← serde.optional "glass_theme"
    return { mode, theme, density, accent_hue, light, dark, glass_theme }

theorem AppearanceToml.from_to {appearance : AppearanceToml} (hlegacy : appearance.accent_hue = none) :
    from_value (to_value appearance) = .ok appearance := by
  obtain ⟨mode, theme, density, _, light, dark, glass_theme⟩ := appearance
  cases hlegacy
  let fields := AppearanceToml.fields ⟨mode, theme, density, none, light, dark, glass_theme⟩
  have hnames : (fields.map Prod.fst).Nodup := by simp [fields, AppearanceToml.fields]
  have hat := fun name found => @toml.lookup_present fields hnames name found
  have hothers := fun name (hname : name ∉ fields.map Prod.fst) =>
    toml.lookup_eq_none_of_not_mem fun hmem => hname (toml.present_names hmem)
  have hpreset : (toml.present fields).lookup "palette_preset" = none :=
    hothers _ (by simp [fields, AppearanceToml.fields])
  have haccent : (toml.present fields).lookup "accent_hue" = (none : Option UInt32).map to_value :=
    hothers _ (by simp [fields, AppearanceToml.fields])
  exact deserialize_struct_object (.bind (toml.reads_optional (hat "mode" _ rfl))
    (.bind (reads_aliased (hat "theme" _ rfl) hpreset) (.bind (toml.reads_optional (hat "density" _ rfl))
    (.bind (toml.reads_optional haccent) (.bind (toml.reads_optional (hat "light" _ rfl))
    (.bind (toml.reads_optional (hat "dark" _ rfl)) (.bind (toml.reads_optional (hat "glass_theme" _ rfl)) .pure)))))))

def NotificationsToml.fields (notifications : NotificationsToml) : List (String × Option Value) :=
  [("new_mail", notifications.new_mail.map to_value), ("sound", notifications.sound.map to_value)]

instance : Serialize NotificationsToml where
  to_value notifications := toml.table notifications.fields

instance : Deserialize NotificationsToml where
  from_value := deserialize_struct "struct NotificationsToml" do
    let new_mail ← serde.optional "new_mail"
    let sound ← serde.optional "sound"
    return { new_mail, sound }

instance : RoundTrip NotificationsToml where
  from_to notifications := by
    have hat := fun name found =>
      @toml.lookup_present notifications.fields (by simp [NotificationsToml.fields]) name found
    exact deserialize_struct_object (.bind (toml.reads_optional (hat "new_mail" _ rfl))
      (.bind (toml.reads_optional (hat "sound" _ rfl)) .pure))

instance : NonNull NotificationsToml where
  to_value_ne_null _ := by simp [to_value, toml.table]

instance : Serialize ComposeToml where
  to_value compose :=
    toml.table [("undo_send_delay_seconds", compose.undo_send_delay_seconds.map to_value)]

instance : Deserialize ComposeToml where
  from_value := deserialize_struct "struct ComposeToml" do
    let undo_send_delay_seconds ← serde.optional "undo_send_delay_seconds"
    return { undo_send_delay_seconds }

def DaemonToml.fields (daemon : DaemonToml) : List (String × Option Value) := [
  ("bind", daemon.bind.map to_value),
  ("cors_origin", daemon.cors_origin.map to_value),
  ("poll_interval_seconds", daemon.poll_interval_seconds.map to_value),
  ("require_auth", daemon.require_auth.map to_value),
  ("allowed_hosts", if daemon.allowed_hosts.isEmpty then none else some (to_value daemon.allowed_hosts))]

instance : Serialize DaemonToml where
  to_value daemon := toml.table daemon.fields

instance : Deserialize DaemonToml where
  from_value := deserialize_struct "struct DaemonToml" do
    let bind ← serde.optional "bind"
    let cors_origin ← serde.optional "cors_origin"
    let poll_interval_seconds ← serde.optional "poll_interval_seconds"
    let require_auth ← serde.optional "require_auth"
    let allowed_hosts ← defaulted "allowed_hosts" []
    return { bind, cors_origin, poll_interval_seconds, require_auth, allowed_hosts }

instance : RoundTrip DaemonToml where
  from_to daemon := by
    have hat := fun name found => @toml.lookup_present daemon.fields (by simp [DaemonToml.fields]) name found
    refine deserialize_struct_object (.bind (toml.reads_optional (hat "bind" _ rfl))
      (.bind (toml.reads_optional (hat "cors_origin" _ rfl))
      (.bind (toml.reads_optional (hat "poll_interval_seconds" _ rfl))
      (.bind (toml.reads_optional (hat "require_auth" _ rfl)) (.bind ?_ .pure)))))
    have hhosts := hat "allowed_hosts" _ rfl
    obtain ⟨_, _, _, _, _ | ⟨host, rest⟩⟩ := daemon
    · exact .defaulted_absent hhosts
    · exact .defaulted hhosts

def TlsToml.fields (tls : TlsToml) : List (String × Option Value) :=
  [("cert", tls.cert.map to_value), ("key", tls.key.map to_value)]

instance : Serialize TlsToml where
  to_value tls := toml.table tls.fields

instance : Deserialize TlsToml where
  from_value := deserialize_struct "struct TlsToml" do
    let cert ← serde.optional "cert"
    let key ← serde.optional "key"
    return { cert, key }

instance : RoundTrip TlsToml where
  from_to tls := by
    have hat := fun name found => @toml.lookup_present tls.fields (by simp [TlsToml.fields]) name found
    exact deserialize_struct_object (.bind (toml.reads_optional (hat "cert" _ rfl))
      (.bind (toml.reads_optional (hat "key" _ rfl)) .pure))

instance : NonNull TlsToml where
  to_value_ne_null _ := by simp [to_value, toml.table]

end Serde

end posthaste.config
