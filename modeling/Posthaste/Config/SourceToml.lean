import Posthaste.Config.RuleToml
import Posthaste.Library.Str

open serde posthaste.model

namespace posthaste.config

def RFC3339_EPOCH : String := "1970-01-01T00:00:00Z"

abbrev DriverToml := Bimap AccountDriver
abbrev SecretKindToml := Bimap SecretKind
abbrev ProviderHintToml := Bimap ProviderHint
abbrev ProviderAuthKindToml := Bimap ProviderAuthKind
abbrev TransportSecurityToml := Bimap TransportSecurity

structure SecretRefToml where
  kind : SecretKindToml
  key : String

structure ImapTransportToml where
  host : String
  port : UInt16
  security : TransportSecurityToml

structure SmtpTransportToml where
  host : String
  port : UInt16
  security : TransportSecurityToml

structure TransportToml where
  provider : ProviderHintToml
  auth : ProviderAuthKindToml
  base_url : Option String
  username : Option String
  secret_ref : Option SecretRefToml
  imap : Option ImapTransportToml
  smtp : Option SmtpTransportToml

inductive AccountAppearanceToml where
  | Initials (initials : String) (color_hue : UInt16)
  | Image (image_id : String) (initials : String) (color_hue : UInt16)

structure SourceToml where
  id : String
  name : String
  full_name : Option String
  signature : Option String
  email_patterns : List String
  driver : DriverToml
  enabled : Bool
  appearance : Option AccountAppearanceToml
  transport : TransportToml
  created_at : Option String
  updated_at : Option String

section Serde

instance : toml.Variants DriverToml where
  name
    | ⟨.Jmap⟩ => "jmap"
    | ⟨.ImapSmtp⟩ => "imap_smtp"
    | ⟨.Mock⟩ => "mock"
  parse
    | "jmap" => some ⟨.Jmap⟩
    | "imap_smtp" => some ⟨.ImapSmtp⟩
    | "mock" => some ⟨.Mock⟩
    | _ => none
  parse_name := by rintro ⟨_ | _ | _⟩ <;> rfl

instance : toml.Variants SecretKindToml where
  name
    | ⟨.Env⟩ => "env"
    | ⟨.Os⟩ => "os"
  parse
    | "env" => some ⟨.Env⟩
    | "os" => some ⟨.Os⟩
    | _ => none
  parse_name := by rintro ⟨_ | _⟩ <;> rfl

instance : toml.Variants ProviderHintToml where
  name
    | ⟨.Generic⟩ => "generic"
    | ⟨.Gmail⟩ => "gmail"
    | ⟨.Outlook⟩ => "outlook"
    | ⟨.Icloud⟩ => "icloud"
  parse
    | "generic" => some ⟨.Generic⟩
    | "gmail" => some ⟨.Gmail⟩
    | "outlook" => some ⟨.Outlook⟩
    | "icloud" => some ⟨.Icloud⟩
    | _ => none
  parse_name := by rintro ⟨_ | _ | _ | _⟩ <;> rfl

instance : toml.Variants ProviderAuthKindToml where
  name
    | ⟨.Password⟩ => "password"
    | ⟨.AppPassword⟩ => "app_password"
    | ⟨.OAuth2⟩ => "oauth2"
  parse
    | "password" => some ⟨.Password⟩
    | "app_password" => some ⟨.AppPassword⟩
    | "oauth2" => some ⟨.OAuth2⟩
    | _ => none
  parse_name := by rintro ⟨_ | _ | _⟩ <;> rfl

instance : toml.Variants TransportSecurityToml where
  name
    | ⟨.Tls⟩ => "tls"
    | ⟨.StartTls⟩ => "start_tls"
    | ⟨.Plain⟩ => "plain"
  parse
    | "tls" => some ⟨.Tls⟩
    | "start_tls" => some ⟨.StartTls⟩
    | "plain" => some ⟨.Plain⟩
    | _ => none
  parse_name := by rintro ⟨_ | _ | _⟩ <;> rfl

instance : Serialize SecretRefToml where
  to_value secret_ref := .object [("kind", to_value secret_ref.kind), ("key", to_value secret_ref.key)]

instance : Deserialize SecretRefToml where
  from_value := deserialize_struct "struct SecretRefToml" do
    let kind ← required "kind"
    let key ← required "key"
    return { kind, key }

instance : RoundTrip SecretRefToml where
  from_to _ := deserialize_struct_object (.bind (.required rfl) (.bind (.required rfl) .pure))

instance : NonNull SecretRefToml where
  to_value_ne_null _ := by simp [to_value]

instance : Serialize ImapTransportToml where
  to_value imap := .object [("host", to_value imap.host), ("port", to_value imap.port),
    ("security", to_value imap.security)]

instance : Deserialize ImapTransportToml where
  from_value := deserialize_struct "struct ImapTransportToml" do
    let host ← required "host"
    let port ← required "port"
    let security ← required "security"
    return { host, port, security }

instance : RoundTrip ImapTransportToml where
  from_to _ := deserialize_struct_object (.bind (.required rfl) (.bind (.required rfl) (.bind (.required rfl) .pure)))

instance : NonNull ImapTransportToml where
  to_value_ne_null _ := by simp [to_value]

instance : Serialize SmtpTransportToml where
  to_value smtp := .object [("host", to_value smtp.host), ("port", to_value smtp.port),
    ("security", to_value smtp.security)]

instance : Deserialize SmtpTransportToml where
  from_value := deserialize_struct "struct SmtpTransportToml" do
    let host ← required "host"
    let port ← required "port"
    let security ← required "security"
    return { host, port, security }

instance : RoundTrip SmtpTransportToml where
  from_to _ := deserialize_struct_object (.bind (.required rfl) (.bind (.required rfl) (.bind (.required rfl) .pure)))

instance : NonNull SmtpTransportToml where
  to_value_ne_null _ := by simp [to_value]

def TransportToml.fields (transport : TransportToml) : List (String × Option Value) := [
  ("provider", some (to_value transport.provider)),
  ("auth", some (to_value transport.auth)),
  ("base_url", transport.base_url.map to_value),
  ("username", transport.username.map to_value),
  ("secret_ref", transport.secret_ref.map to_value),
  ("imap", transport.imap.map to_value),
  ("smtp", transport.smtp.map to_value)]

instance : Serialize TransportToml where
  to_value transport := toml.table transport.fields

instance : Deserialize TransportToml where
  from_value := deserialize_struct "struct TransportToml" do
    let provider ← defaulted "provider" ⟨.Generic⟩
    let auth ← defaulted "auth" ⟨.Password⟩
    let base_url ← serde.optional "base_url"
    let username ← serde.optional "username"
    let secret_ref ← serde.optional "secret_ref"
    let imap ← serde.optional "imap"
    let smtp ← serde.optional "smtp"
    return { provider, auth, base_url, username, secret_ref, imap, smtp }

instance : RoundTrip TransportToml where
  from_to transport := by
    have hat := fun name found => @toml.lookup_present transport.fields (by simp [TransportToml.fields]) name found
    exact deserialize_struct_object (.bind (.defaulted (hat "provider" _ rfl)) (.bind (.defaulted (hat "auth" _ rfl))
      (.bind (toml.reads_optional (hat "base_url" _ rfl)) (.bind (toml.reads_optional (hat "username" _ rfl))
      (.bind (toml.reads_optional (hat "secret_ref" _ rfl)) (.bind (toml.reads_optional (hat "imap" _ rfl))
      (.bind (toml.reads_optional (hat "smtp" _ rfl)) .pure)))))))

instance : Serialize AccountAppearanceToml where
  to_value
    | .Initials initials color_hue =>
      .object [("kind", .string "initials"), ("initials", to_value initials), ("color_hue", to_value color_hue)]
    | .Image image_id initials color_hue =>
      .object [("kind", .string "image"), ("image_id", to_value image_id), ("initials", to_value initials),
        ("color_hue", to_value color_hue)]

instance : Deserialize AccountAppearanceToml where
  from_value
    | .object entries =>
      match entries.lookup "kind" with
      | some (.string "initials") => readField entries do
        let initials ← required "initials"
        let color_hue ← required "color_hue"
        return .Initials initials color_hue
      | some (.string "image") => readField entries do
        let image_id ← required "image_id"
        let initials ← required "initials"
        let color_hue ← required "color_hue"
        return .Image image_id initials color_hue
      | some _ => .error (.invalid_value "initials or image")
      | none => .error (.missing_field "kind")
    | _ => .error (.invalid_type "internally tagged enum AccountAppearanceToml")

instance : RoundTrip AccountAppearanceToml where
  from_to appearance := by
    cases appearance with
    | Initials initials color_hue => exact readField_of_reads (.bind (.required rfl) (.bind (.required rfl) .pure))
    | Image image_id initials color_hue =>
      exact readField_of_reads (.bind (.required rfl) (.bind (.required rfl) (.bind (.required rfl) .pure)))

instance : NonNull AccountAppearanceToml where
  to_value_ne_null appearance := by cases appearance <;> simp [to_value]

def SourceToml.fields (source : SourceToml) : List (String × Option Value) := [
  ("id", some (to_value source.id)),
  ("name", some (to_value source.name)),
  ("full_name", source.full_name.map to_value),
  ("signature", source.signature.map to_value),
  ("email_patterns", some (to_value source.email_patterns)),
  ("driver", some (to_value source.driver)),
  ("enabled", some (to_value source.enabled)),
  ("appearance", source.appearance.map to_value),
  ("transport", some (to_value source.transport)),
  ("created_at", source.created_at.map to_value),
  ("updated_at", source.updated_at.map to_value)]

instance : Serialize SourceToml where
  to_value source := toml.table source.fields

def TransportToml.default : TransportToml := ⟨⟨.Generic⟩, ⟨.Password⟩, none, none, none, none, none⟩

instance : Deserialize SourceToml where
  from_value := deserialize_struct "struct SourceToml" do
    let id ← required "id"
    let name ← required "name"
    let full_name ← serde.optional "full_name"
    let signature ← serde.optional "signature"
    let email_patterns ← defaulted "email_patterns" []
    let driver ← required "driver"
    let enabled ← defaulted "enabled" true
    let appearance ← serde.optional "appearance"
    let transport ← defaulted "transport" TransportToml.default
    let created_at ← serde.optional "created_at"
    let updated_at ← serde.optional "updated_at"
    return {
      id, name, full_name, signature, email_patterns, driver, enabled, appearance, transport, created_at, updated_at }

/-- Any table that has these fields reads as this source. -/
theorem SourceToml.from_value_of_lookups {entries : List (String × Value)} {source : SourceToml}
    (hat : ∀ name found, source.fields.lookup name = some found → entries.lookup name = found) :
    (from_value (.object entries) : Except Error SourceToml) = .ok source :=
  deserialize_struct_object
    (.bind (.required (hat "id" _ rfl))
    (.bind (.required (hat "name" _ rfl))
    (.bind (toml.reads_optional (hat "full_name" _ rfl))
    (.bind (toml.reads_optional (hat "signature" _ rfl))
    (.bind (.defaulted (hat "email_patterns" _ rfl))
    (.bind (.required (hat "driver" _ rfl))
    (.bind (.defaulted (hat "enabled" _ rfl))
    (.bind (toml.reads_optional (hat "appearance" _ rfl))
    (.bind (.defaulted (hat "transport" _ rfl))
    (.bind (toml.reads_optional (hat "created_at" _ rfl))
    (.bind (toml.reads_optional (hat "updated_at" _ rfl)) .pure)))))))))))

end Serde

section Conversions

/-- What the loader asks of a source on its own. -/
def validate_source_settings (settings : AccountSettings) : Except String Unit :=
  if settings.driver ≠ .ImapSmtp then .ok ()
  else if (settings.transport.username.bind str.nonBlank).isNone then
    .error "imap_smtp source requires transport.username"
  else if settings.transport.secret_ref.isNone then .error "imap_smtp source requires transport.secret_ref"
  else if settings.transport.imap.isNone then .error "imap_smtp source requires transport.imap"
  else if settings.transport.smtp.isNone then .error "imap_smtp source requires transport.smtp"
  else if ¬ settings.email_patterns.any fun pattern =>
      let trimmed := (str.trim pattern).toList
      !trimmed.contains '*' && trimmed.contains '@' then
    .error "imap_smtp source requires a concrete sender email pattern"
  else .ok ()

def AccountAppearanceToml.to_domain : AccountAppearanceToml → AccountAppearance
  | .Initials initials color_hue => .Initials initials color_hue
  | .Image image_id initials color_hue => .Image image_id initials color_hue

def AccountAppearanceToml.from_domain : AccountAppearance → AccountAppearanceToml
  | .Initials initials color_hue => .Initials initials color_hue
  | .Image image_id initials color_hue => .Image image_id initials color_hue

def SourceToml.settings (source : SourceToml) : AccountSettings where
  id := source.id
  name := source.name
  full_name := source.full_name
  signature := source.signature
  email_patterns := source.email_patterns
  driver := source.driver.to_domain
  enabled := source.enabled
  appearance := source.appearance.map AccountAppearanceToml.to_domain
  transport := {
    provider := source.transport.provider.to_domain
    auth := source.transport.auth.to_domain
    base_url := source.transport.base_url
    username := source.transport.username
    secret_ref := source.transport.secret_ref.map fun secret_ref => ⟨secret_ref.kind.to_domain, secret_ref.key⟩
    imap := source.transport.imap.map fun imap => ⟨imap.host, imap.port, imap.security.to_domain⟩
    smtp := source.transport.smtp.map fun smtp => ⟨smtp.host, smtp.port, smtp.security.to_domain⟩ }
  created_at := source.created_at.getD RFC3339_EPOCH
  updated_at := source.updated_at.getD RFC3339_EPOCH

def SourceToml.to_account_settings (source : SourceToml) : Except String AccountSettings := do
  validate_source_settings source.settings
  return source.settings

def SourceToml.from_account_settings (settings : AccountSettings) : SourceToml where
  id := settings.id
  name := settings.name
  full_name := settings.full_name
  signature := settings.signature
  email_patterns := settings.email_patterns
  driver := .from_domain settings.driver
  enabled := settings.enabled
  appearance := settings.appearance.map AccountAppearanceToml.from_domain
  transport := {
    provider := .from_domain settings.transport.provider
    auth := .from_domain settings.transport.auth
    base_url := settings.transport.base_url
    username := settings.transport.username
    secret_ref := settings.transport.secret_ref.map fun secret_ref => ⟨.from_domain secret_ref.kind, secret_ref.key⟩
    imap := settings.transport.imap.map fun imap => ⟨imap.host, imap.port, .from_domain imap.security⟩
    smtp := settings.transport.smtp.map fun smtp => ⟨smtp.host, smtp.port, .from_domain smtp.security⟩ }
  created_at := some settings.created_at
  updated_at := some settings.updated_at

theorem settings_from_account_settings (settings : AccountSettings) :
    (SourceToml.from_account_settings settings).settings = settings := by
  obtain ⟨_, _, _, _, _, _, _, appearance, ⟨_, _, _, _, secret_ref, imap, smtp⟩, _, _⟩ := settings
  have happearance : (appearance.map AccountAppearanceToml.from_domain).map AccountAppearanceToml.to_domain =
      appearance := by
    obtain _ | _ | _ := appearance <;> rfl
  have hsecret : (secret_ref.map fun secret_ref : SecretRef => (⟨.from_domain secret_ref.kind, secret_ref.key⟩ :
      SecretRefToml)).map (fun secret_ref => (⟨secret_ref.kind.to_domain, secret_ref.key⟩ : SecretRef)) =
      secret_ref := by
    cases secret_ref <;> rfl
  have himap : (imap.map fun imap : ImapTransportSettings => (⟨imap.host, imap.port, .from_domain imap.security⟩ :
      ImapTransportToml)).map (fun imap => (⟨imap.host, imap.port, imap.security.to_domain⟩ : ImapTransportSettings)) =
      imap := by
    cases imap <;> rfl
  have hsmtp : (smtp.map fun smtp : SmtpTransportSettings => (⟨smtp.host, smtp.port, .from_domain smtp.security⟩ :
      SmtpTransportToml)).map (fun smtp => (⟨smtp.host, smtp.port, smtp.security.to_domain⟩ : SmtpTransportSettings)) =
      smtp := by
    cases smtp <;> rfl
  simp only [SourceToml.from_account_settings, SourceToml.settings, Bimap.to_domain_from_domain, happearance, hsecret,
    himap, hsmtp, Option.getD_some]

end Conversions

end posthaste.config
