import Posthaste.Config.Repository

open posthaste.model

namespace posthaste.config

inductive ApiFailure where
  | malformed (message : String)
  | conflict (message : String)
  | unknown_id (subject : String)
  | service (error : ConfigError)
  deriving DecidableEq

inductive FieldPatch (α : Type) where
  | Keep
  | Set (value : α)
  | Clear

def FieldPatch.apply {α : Type} (patch : FieldPatch α) (target : Option α) : Option α :=
  match patch with
  | .Keep => target
  | .Set value => some value
  | .Clear => none

structure CreateAccountIntent where
  name : String
  full_name : Option String
  signature : Option String
  email_patterns : List String
  enabled : Option Bool

structure UpdateAccountIntent where
  account_id : AccountId
  name : Option String
  full_name : FieldPatch String
  signature : FieldPatch String
  email_patterns : Option (List String)
  enabled : Option Bool
  appearance : Option AccountAppearance

structure UpdateAccountTransportIntent where
  account_id : AccountId
  provider : Option ProviderHint
  auth : Option ProviderAuthKind
  base_url : FieldPatch String
  username : FieldPatch String
  imap : Option ImapTransportSettings
  smtp : Option SmtpTransportSettings

inductive AccountSecretChange where
  | Keep
  | Replace (secret : String)
  | Clear

/-- What a completed OAuth flow hands over, less the secret. -/
structure OauthAccountSeed where
  provider : ProviderHint
  identity_email : String
  imap : ImapTransportSettings
  smtp : SmtpTransportSettings

structure CreateSmartMailboxIntent where
  name : String
  role : Option String
  rule : MailQueryRule

structure UpdateSmartMailboxIntent where
  smart_mailbox_id : SmartMailboxId
  name : Option String
  role : FieldPatch String
  rule : Option MailQueryRule

/-- A command, with the ids and the time it is given on the way. -/
inductive Command where
  | create_account (intent : CreateAccountIntent) (id : AccountId) (now : String)
  | update_account (intent : UpdateAccountIntent) (now : String)
  | update_account_transport (intent : UpdateAccountTransportIntent) (now : String)
  | set_account_secret (account_id : AccountId) (change : AccountSecretChange) (now : String)
  | set_account_logo (account_id : AccountId) (image_id : String) (now : String)
  | delete_account (account_id : AccountId)
  | complete_oauth (seed : OauthAccountSeed) (id : AccountId) (now : String)
  | update_settings (settings : AppSettings)
  | create_rule (rule : AutomationRule)
  | update_rule (rule : AutomationRule)
  | delete_rule (rule_id : String)
  | create_smart_mailbox (intent : CreateSmartMailboxIntent) (id : SmartMailboxId) (now : String)
  | update_smart_mailbox (intent : UpdateSmartMailboxIntent) (now : String)
  | delete_smart_mailbox (smart_mailbox_id : SmartMailboxId)
  | reset_smart_mailboxes (now : String)

section Accounts

def new_account (intent : CreateAccountIntent) (name id now : String) : AccountSettings where
  id := id
  name := name
  full_name := intent.full_name
  signature := intent.signature
  email_patterns := intent.email_patterns
  driver := .ImapSmtp
  enabled := intent.enabled.getD false
  appearance := none
  transport := .default
  created_at := now
  updated_at := now

/-- The account with the fields of the intent. -/
def patchAccount (settings : AccountSettings) (intent : UpdateAccountIntent) (now : String) : AccountSettings :=
  { settings with
    name := (intent.name.map str.trim).getD settings.name
    full_name := intent.full_name.apply settings.full_name
    signature := intent.signature.apply settings.signature
    email_patterns := intent.email_patterns.getD settings.email_patterns
    enabled := intent.enabled.getD settings.enabled
    appearance := intent.appearance <|> settings.appearance
    updated_at := now }

def patchTransport (settings : AccountSettings) (intent : UpdateAccountTransportIntent) (now : String) :
    AccountSettings :=
  { settings with
    transport := { settings.transport with
      provider := intent.provider.getD settings.transport.provider
      auth := intent.auth.getD settings.transport.auth
      base_url := intent.base_url.apply settings.transport.base_url
      username := intent.username.apply settings.transport.username
      imap := intent.imap <|> settings.transport.imap
      smtp := intent.smtp <|> settings.transport.smtp }
    updated_at := now }

def os_secret_ref (account_id : AccountId) : SecretRef := ⟨.Os, s!"account:{account_id}"⟩

/-- An environment reference is read-only: a new secret moves the account to its own keyring entry. -/
def replacedSecret (settings : AccountSettings) : SecretRef :=
  match settings.transport.secret_ref with
  | some ⟨.Os, key⟩ => ⟨.Os, key⟩
  | _ => os_secret_ref settings.id

def withSecret (settings : AccountSettings) (secret_ref : Option SecretRef) (now : String) : AccountSettings :=
  { settings with transport := { settings.transport with secret_ref }, updated_at := now }

def idHue (id : String) : UInt32 :=
  id.toUTF8.toList.foldl (fun hue byte => hue * 31 + byte.toUInt32) 0 % 360

/-- The initials and hue to keep, or those derived from the name and the id. -/
def appearance_fallback_parts (to_uppercase : Char → List Char) (settings : AccountSettings) : String × UInt16 :=
  match settings.appearance with
  | some (.Initials initials color_hue) | some (.Image _ initials color_hue) => (initials, color_hue)
  | none =>
    let firsts := (str.split_whitespace settings.name).filterMap fun word => word.toList.head?
    let initials := String.ofList ((firsts.take 2).flatMap to_uppercase)
    (if initials = "" then "?" else initials, (idHue settings.id).toUInt16)

def withLogo (to_uppercase : Char → List Char) (settings : AccountSettings) (image_id now : String) :
    AccountSettings :=
  let parts := appearance_fallback_parts to_uppercase settings
  { settings with appearance := some (.Image image_id parts.1 parts.2), updated_at := now }

def oauth_account (seed : OauthAccountSeed) (id now : String) : AccountSettings where
  id := id
  name := seed.identity_email
  full_name := none
  signature := none
  email_patterns := [seed.identity_email]
  driver := .ImapSmtp
  enabled := true
  appearance := none
  transport := {
    provider := seed.provider
    auth := .OAuth2
    base_url := none
    username := some seed.identity_email
    secret_ref := some (os_secret_ref id)
    imap := some seed.imap
    smtp := some seed.smtp }
  created_at := now
  updated_at := now

end Accounts

section Run

-- `Regex::new`: the test a pattern compiles to, if it does.
variable (regex : String → Option (String → Bool)) (to_uppercase : Char → List Char) (repository : TomlConfigRepository)

/-- A configuration error as the API answers it. -/
def answered {α : Type} (result : Except ConfigError α) : Except ApiFailure α := result.mapError ApiFailure.service

def load_account (account_id : AccountId) : Except ApiFailure AccountSettings :=
  match repository.get_source account_id with
  | some settings => .ok settings
  | none => .error (.unknown_id s!"account {account_id}")

/-- `MailService::delete_source`: a default account is cleared before it goes. -/
def service_delete_source (id : AccountId) : Except ConfigError TomlConfigRepository :=
  let settings := repository.get_app_settings
  if settings.default_account_id = some id then do
    let cleared ← repository.put_app_settings { settings with default_account_id := none }
    return cleared.delete_source id
  else .ok (repository.delete_source id)

/-- An early return. -/
def refuseIf (condition : Prop) [Decidable condition] (failure : ApiFailure) : Except ApiFailure Unit :=
  if condition then .error failure else .ok ()

def checkDefaultAccount (settings : AppSettings) : Except ApiFailure Unit :=
  match settings.default_account_id with
  | some default_account_id =>
    refuseIf (repository.get_source default_account_id).isNone
      (.malformed s!"defaultAccountId {default_account_id} does not name a configured account")
  | none => .ok ()

def validateRules (settings : AppSettings) : Except ApiFailure Unit := do
  (validate_automation_rules settings.automation_rules).mapError fun error => .malformed (toString error)
  (validate_automation_drafts settings.automation_rules settings.automation_drafts).mapError
    fun error => .malformed (toString error)

def validate_settings_document (settings : AppSettings) : Except ApiFailure Unit := do
  checkDefaultAccount repository settings
  validateRules settings
  match settings.compose with
  | some ⟨some delay⟩ =>
    refuseIf (ComposeSettings.MAX_UNDO_SEND_DELAY_SECONDS < delay)
      (.malformed s!"undoSendDelaySeconds must be at most {ComposeSettings.MAX_UNDO_SEND_DELAY_SECONDS}")
  | _ => .ok ()

/-- What a rule command makes of the settings, `none` where it changes nothing. -/
def create_rule (rule : AutomationRule) (settings : AppSettings) : Except ApiFailure (Option AppSettings) :=
  if settings.automation_rules.any fun existing => existing.id = rule.id then
    .error (.conflict s!"automation rule {rule.id} already exists")
  else .ok (some { settings with automation_rules := settings.automation_rules ++ [rule] })

/-- The first rule with the id, replaced. -/
def replaceRule (rule : AutomationRule) : List AutomationRule → Option (List AutomationRule)
  | [] => none
  | existing :: rest =>
    if existing.id = rule.id then some (rule :: rest) else (replaceRule rule rest).map (existing :: ·)

def update_rule (rule : AutomationRule) (settings : AppSettings) : Except ApiFailure (Option AppSettings) :=
  match replaceRule rule settings.automation_rules with
  | some automation_rules => .ok (some { settings with automation_rules })
  | none => .error (.unknown_id s!"automation rule {rule.id}")

def delete_rule (rule_id : String) (settings : AppSettings) : Except ApiFailure (Option AppSettings) :=
  let automation_rules := settings.automation_rules.filter fun existing => existing.id ≠ rule_id
  if automation_rules.length ≠ settings.automation_rules.length then .ok (some { settings with automation_rules })
  else .ok none

def mutate_rules (transform : AppSettings → Except ApiFailure (Option AppSettings)) :
    Except ApiFailure TomlConfigRepository := do
  match ← transform repository.get_app_settings with
  | none => .ok repository
  | some settings =>
    validateRules settings
    answered (repository.put_app_settings settings)

def ASSIGNABLE_ROLES : List String := ["inbox", "archive", "drafts", "sent", "junk", "trash"]

def normalize_view_role (role : Option String) : Except ApiFailure (Option String) :=
  match role with
  | none => .ok none
  | some role =>
    let trimmed := str.trim role
    if trimmed = "" then .ok none
    else if trimmed ∈ ASSIGNABLE_ROLES then .ok (some trimmed)
    else .error (.malformed s!"'{trimmed}' is not an assignable smart-mailbox role")

def normalizeRolePatch : FieldPatch String → Except ApiFailure (Option (Option String))
  | .Keep => .ok none
  | .Set value => (normalize_view_role (some value)).map some
  | .Clear => .ok (some none)

def validate_rule (rule : MailQueryRule) : Except ApiFailure Unit :=
  match validate_query regex rule with
  | .ok () => .ok ()
  | .error _ => .error (.malformed "invalid smart-mailbox rule")

def getSmartMailbox (id : SmartMailboxId) : Except ApiFailure SmartMailbox :=
  match repository.get_smart_mailbox id with
  | some mailbox => .ok mailbox
  | none => .error (.unknown_id s!"smart_mailbox {id}")

/-- A command that succeeds, on the configuration. The secret store and the logo files are not part of it. -/
def Command.run : Command → Except ApiFailure TomlConfigRepository
  | .create_account intent id now => do
    let name := str.trim intent.name
    refuseIf (name = "") (.malformed "account name must not be empty")
    answered (repository.insert_source (new_account intent name id now))
  | .update_account intent now => do
    let settings ← load_account repository intent.account_id
    refuseIf (intent.name.any isBlank) (.malformed "account name must not be empty")
    answered (repository.save_source (patchAccount settings intent now))
  | .update_account_transport intent now => do
    let settings ← load_account repository intent.account_id
    answered (repository.save_source (patchTransport settings intent now))
  | .set_account_secret _ .Keep _ => .ok repository
  | .set_account_secret account_id (.Replace secret) now => do
    refuseIf (isBlank secret) (.malformed "secret material must not be empty")
    let settings ← load_account repository account_id
    answered (repository.save_source (withSecret settings (some (replacedSecret settings)) now))
  | .set_account_secret account_id .Clear now => do
    let settings ← load_account repository account_id
    answered (repository.save_source (withSecret settings none now))
  | .set_account_logo account_id image_id now => do
    let settings ← load_account repository account_id
    answered (repository.save_source (withLogo to_uppercase settings image_id now))
  | .delete_account account_id => do
    let settings ← load_account repository account_id
    answered (service_delete_source repository settings.id)
  | .complete_oauth seed id now => answered (repository.insert_source (oauth_account seed id now))
  | .update_settings settings => do
    validate_settings_document repository settings
    answered (repository.put_app_settings settings)
  | .create_rule rule => do
    refuseIf (isBlank rule.id) (.malformed "automation rule id must not be empty")
    mutate_rules repository (config.create_rule rule)
  | .update_rule rule => mutate_rules repository (config.update_rule rule)
  | .delete_rule rule_id => mutate_rules repository (config.delete_rule rule_id)
  | .create_smart_mailbox intent id now => do
    let name := str.trim intent.name
    refuseIf (name = "") (.malformed "smart mailbox name must not be empty")
    validate_rule regex intent.rule
    let role ← normalize_view_role intent.role
    answered (repository.save_smart_mailbox ⟨id, name, .User, none, role, none, intent.rule, now, now⟩)
  | .update_smart_mailbox intent now => do
    refuseIf (intent.name.any isBlank) (.malformed "smart mailbox name must not be empty")
    let role_update ← normalizeRolePatch intent.role
    intent.rule.forM (validate_rule regex)
    let mailbox ← getSmartMailbox repository intent.smart_mailbox_id
    answered (repository.save_smart_mailbox { mailbox with
      name := (intent.name.map str.trim).getD mailbox.name
      role := role_update.getD mailbox.role
      rule := intent.rule.getD mailbox.rule
      updated_at := now })
  | .delete_smart_mailbox smart_mailbox_id => do
    let mailbox ← getSmartMailbox repository smart_mailbox_id
    return repository.delete_smart_mailbox mailbox.id
  | .reset_smart_mailboxes now => answered (repository.reset_default_smart_mailboxes now)

end Run

end posthaste.config
