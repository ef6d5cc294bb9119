import Posthaste.DomainModel.Automation

open posthaste.model

namespace posthaste.config

abbrev AccountId := String

/-- A float, by the text it prints as and is read back from. -/
structure Float64 where
  text : String
  deriving DecidableEq

/-- A `BTreeMap<String, String>`, in key order. -/
structure StringMap where
  entries : List (String × String)
  deriving DecidableEq

structure CachePolicy where
  soft_cap_bytes : UInt64
  hard_cap_bytes : UInt64
  cache_bodies : Bool
  cache_raw_messages : Bool
  cache_attachments : Bool
  deriving DecidableEq

def CachePolicy.default : CachePolicy where
  soft_cap_bytes := 1024 * 1024 * 1024
  hard_cap_bytes := 2 * 1024 * 1024 * 1024
  cache_bodies := true
  cache_raw_messages := false
  cache_attachments := false

inductive ThemeMode where
  | Light
  | Dark
  | System
  deriving DecidableEq

inductive UiDensity where
  | Compact
  | Cozy
  | Comfortable
  deriving DecidableEq

structure GlassBloom where
  id : String
  hue : UInt32
  x : Float64
  y : Float64
  opacity : Float64
  radius : Float64
  deriving DecidableEq

structure GlassTheme where
  blooms : List GlassBloom
  deriving DecidableEq

structure ThemeColors where
  accent_hue : Option UInt32
  surface_hue : Option UInt32
  tokens : StringMap
  deriving DecidableEq

structure Appearance where
  mode : Option ThemeMode
  theme : Option String
  density : Option UiDensity
  light : Option ThemeColors
  dark : Option ThemeColors
  glass_theme : Option GlassTheme
  deriving DecidableEq

structure Notifications where
  new_mail : Option Bool
  sound : Option Bool
  deriving DecidableEq

structure MailboxColor where
  source_id : AccountId
  mailbox_id : MailboxId
  hue : UInt32
  deriving DecidableEq

structure TagAppearance where
  name : String
  fg : Option String
  bg : Option String
  icon : Option String
  deriving DecidableEq

structure MailboxGroup where
  id : String
  name : String
  mailbox_ids : List String
  order : Int64
  deriving DecidableEq

structure ComposeSettings where
  undo_send_delay_seconds : Option UInt32
  deriving DecidableEq

def ComposeSettings.MAX_UNDO_SEND_DELAY_SECONDS : UInt32 := 120

structure AppSettings where
  default_account_id : Option AccountId
  cache_policy : CachePolicy
  automation_rules : List AutomationRule
  automation_drafts : List AutomationRule
  appearance : Option Appearance
  notifications : Option Notifications
  mailbox_colors : List MailboxColor
  tags : List TagAppearance
  smart_mailbox_order : List SmartMailboxId
  account_order : List AccountId
  mailbox_groups : List MailboxGroup
  compose : Option ComposeSettings

def AppSettings.default : AppSettings where
  default_account_id := none
  cache_policy := .default
  automation_rules := []
  automation_drafts := []
  appearance := none
  notifications := none
  mailbox_colors := []
  tags := []
  smart_mailbox_order := []
  account_order := []
  mailbox_groups := []
  compose := none

inductive AccountDriver where
  | Jmap
  | ImapSmtp
  | Mock
  deriving DecidableEq

inductive SecretKind where
  | Env
  | Os
  deriving DecidableEq

structure SecretRef where
  kind : SecretKind
  key : String
  deriving DecidableEq

inductive ProviderHint where
  | Generic
  | Gmail
  | Outlook
  | Icloud
  deriving DecidableEq

inductive ProviderAuthKind where
  | Password
  | AppPassword
  | OAuth2
  deriving DecidableEq

inductive TransportSecurity where
  | Tls
  | StartTls
  | Plain
  deriving DecidableEq

/-- An IMAP endpoint. The SMTP one has the same fields. -/
structure ImapTransportSettings where
  host : String
  port : UInt16
  security : TransportSecurity
  deriving DecidableEq

structure SmtpTransportSettings where
  host : String
  port : UInt16
  security : TransportSecurity
  deriving DecidableEq

structure AccountTransportSettings where
  provider : ProviderHint
  auth : ProviderAuthKind
  base_url : Option String
  username : Option String
  secret_ref : Option SecretRef
  imap : Option ImapTransportSettings
  smtp : Option SmtpTransportSettings
  deriving DecidableEq

def AccountTransportSettings.default : AccountTransportSettings where
  provider := .Generic
  auth := .Password
  base_url := none
  username := none
  secret_ref := none
  imap := none
  smtp := none

inductive AccountAppearance where
  | Initials (initials : String) (color_hue : UInt16)
  | Image (image_id : String) (initials : String) (color_hue : UInt16)
  deriving DecidableEq

structure AccountSettings where
  id : AccountId
  name : String
  full_name : Option String
  signature : Option String
  email_patterns : List String
  driver : AccountDriver
  enabled : Bool
  appearance : Option AccountAppearance
  transport : AccountTransportSettings
  created_at : String
  updated_at : String
  deriving DecidableEq

inductive ConfigError where
  | NotFound (message : String)
  | Conflict (message : String)
  | Validation (message : String)
  | Io (message : String)
  | Parse (message : String)
  deriving DecidableEq

end posthaste.config
