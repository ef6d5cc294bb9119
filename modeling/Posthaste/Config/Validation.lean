import Posthaste.Config.SourceToml

open posthaste.model

namespace posthaste.config

structure ConfigSnapshot where
  app_settings : AppSettings
  sources : List AccountSettings
  smart_mailboxes : List SmartMailbox

/-- The text before and after the first separator. -/
def split_once (separator : Char) (text : List Char) : Option (List Char × List Char) :=
  if separator ∈ text then
    some (text.takeWhile (· ≠ separator), (text.dropWhile (· ≠ separator)).tail)
  else none

def is_concrete_email_pattern (pattern : String) : Bool :=
  let trimmed := (str.trim pattern).toList
  if trimmed.isEmpty || trimmed.contains '*' then false
  else
    match split_once '@' trimmed with
    | some (before, domain) => !before.isEmpty && !domain.isEmpty
    | none => false

/-- The errors of an endpoint, by its host and port. -/
def endpoint_errors (label : String) : Option (String × UInt16) → List ValidationError
  | none => [.InvalidAccount s!"{label} endpoint is required"]
  | some (host, port) =>
    (if isBlank host then [.InvalidAccount s!"{label} host is required"] else []) ++
    (if port = 0 then [.InvalidAccount s!"{label} port must be greater than zero"] else [])

def AccountAppearance.initials : AccountAppearance → String
  | .Initials initials _ | .Image _ initials _ => initials

def jmapErrors (account : AccountSettings) : List ValidationError :=
  (if (account.transport.base_url.bind str.nonBlank).isNone then [.BaseUrlRequired "JMAP base URL is required"]
    else []) ++
  (if account.transport.secret_ref.isNone then
    [.SecretRequired "JMAP secret must be configured before saving the account"] else [])

def imapSmtpErrors (account : AccountSettings) : List ValidationError :=
  (if (account.transport.username.bind str.nonBlank).isNone then [.UsernameRequired "IMAP/SMTP username is required"]
    else []) ++
  (if account.transport.secret_ref.isNone then
    [.SecretRequired "IMAP/SMTP secret must be configured before saving the account"] else []) ++
  endpoint_errors "IMAP" (account.transport.imap.map fun imap => (imap.host, imap.port)) ++
  endpoint_errors "SMTP" (account.transport.smtp.map fun smtp => (smtp.host, smtp.port)) ++
  (if account.email_patterns.any is_concrete_email_pattern then []
    else [.SenderRequired "IMAP/SMTP accounts require a concrete sender email pattern"])

def account_settings_errors (account : AccountSettings) : List ValidationError :=
  (if isBlank account.id then [.InvalidAccount "account id is required"] else []) ++
  (if isBlank account.name then [.InvalidAccount "account name is required"] else []) ++
  (if account.email_patterns.any isBlank then [.InvalidAccount "email patterns must not be blank"] else []) ++
  (if account.driver = .Jmap then jmapErrors account else []) ++
  (if account.driver = .ImapSmtp then imapSmtpErrors account else []) ++
  (match account.appearance with
    | some appearance =>
      if isBlank appearance.initials then [.InvalidAccount "account appearance initials are required"] else []
    | none => [])

/-- The drafts after these trimmed ids. -/
def draftErrorsFrom : List String → List AutomationRule → List ValidationError
  | _, [] => []
  | ids, rule :: rules =>
    if isBlank rule.id then .InvalidAccount "automation draft id is required" :: draftErrorsFrom ids rules
    else
      (if str.trim rule.id ∈ ids then [.InvalidAccount "automation rule and draft ids must be unique"] else []) ++
        draftErrorsFrom (str.trim rule.id :: ids) rules

def automation_draft_errors (active_rules draft_rules : List AutomationRule) : List ValidationError :=
  draftErrorsFrom (active_rules.map fun rule => str.trim rule.id) draft_rules

def validate_automation_drafts (active_rules draft_rules : List AutomationRule) : Except ValidationError Unit :=
  match automation_draft_errors active_rules draft_rules with
  | [] => .ok ()
  | error :: _ => .error error

/-- An error for each id that occurred before. -/
def duplicateErrors (error : String → ValidationError) : List String → List String → List ValidationError
  | _, [] => []
  | seen, id :: ids => (if id ∈ seen then [error id] else []) ++ duplicateErrors error (id :: seen) ids

def defaultAccountErrors (snapshot : ConfigSnapshot) : List ValidationError :=
  match snapshot.app_settings.default_account_id with
  | some id => if id ∈ snapshot.sources.map (·.id) then [] else [.DanglingDefaultAccount id]
  | none => []

def snapshotErrors (snapshot : ConfigSnapshot) : List ValidationError :=
  duplicateErrors .DuplicateSourceId [] (snapshot.sources.map (·.id)) ++
  duplicateErrors .DuplicateSmartMailboxId [] (snapshot.smart_mailboxes.map (·.id)) ++
  defaultAccountErrors snapshot ++
  snapshot.sources.flatMap account_settings_errors ++
  automation_rule_errors snapshot.app_settings.automation_rules ++
  automation_draft_errors snapshot.app_settings.automation_rules snapshot.app_settings.automation_drafts

def validate_snapshot (snapshot : ConfigSnapshot) : Except (List ValidationError) Unit :=
  if (snapshotErrors snapshot).isEmpty then .ok () else .error (snapshotErrors snapshot)

section Facts

theorem if_nil_iff {α : Type} {condition : Prop} [Decidable condition] {error : α} :
    (if condition then [error] else []) = [] ↔ ¬ condition := by
  by_cases hcondition : condition
  · simp [hcondition]
  · simp [hcondition]

theorem duplicateErrors_eq_nil_iff {error : String → ValidationError} {seen ids : List String} :
    duplicateErrors error seen ids = [] ↔ ids.Nodup ∧ ∀ id ∈ ids, id ∉ seen := by
  induction ids generalizing seen with
  | nil => simp [duplicateErrors]
  | cons id rest ih =>
    rw [duplicateErrors, List.append_eq_nil_iff, if_nil_iff, ih, List.nodup_cons]
    simp only [List.mem_cons, not_or, forall_eq_or_imp]
    constructor
    · rintro ⟨hid, hnodup, hfresh⟩
      exact ⟨⟨fun hmem => (hfresh id hmem).1 rfl, hnodup⟩, hid, fun other hother => (hfresh other hother).2⟩
    · rintro ⟨⟨hid, hnodup⟩, hseen, hfresh⟩
      refine ⟨hseen, hnodup, fun other hother => ⟨?_, hfresh other hother⟩⟩
      rintro rfl
      exact hid hother

/-- What a valid snapshot consists of. -/
structure ValidSnapshot (snapshot : ConfigSnapshot) : Prop where
  source_ids : (snapshot.sources.map (·.id)).Nodup
  smart_mailbox_ids : (snapshot.smart_mailboxes.map (·.id)).Nodup
  default_account : ∀ id, snapshot.app_settings.default_account_id = some id → id ∈ snapshot.sources.map (·.id)
  accounts : ∀ source ∈ snapshot.sources, account_settings_errors source = []
  rules : automation_rule_errors snapshot.app_settings.automation_rules = []
  drafts : automation_draft_errors snapshot.app_settings.automation_rules snapshot.app_settings.automation_drafts = []

theorem defaultAccountErrors_eq_nil_iff {snapshot : ConfigSnapshot} : defaultAccountErrors snapshot = [] ↔
    ∀ id, snapshot.app_settings.default_account_id = some id → id ∈ snapshot.sources.map (·.id) := by
  unfold defaultAccountErrors
  cases hdefault : snapshot.app_settings.default_account_id with
  | none => simp
  | some id =>
    simp only [Option.some_inj, forall_eq']
    split_ifs with hmem
    · simp [hmem]
    · simp [hmem]

theorem validate_snapshot_iff {snapshot : ConfigSnapshot} :
    validate_snapshot snapshot = .ok () ↔ ValidSnapshot snapshot := by
  have hempty : validate_snapshot snapshot = .ok () ↔ snapshotErrors snapshot = [] := by
    rw [validate_snapshot, ← List.isEmpty_iff]
    cases (snapshotErrors snapshot).isEmpty <;> simp
  rw [hempty, snapshotErrors]
  simp only [List.append_eq_nil_iff, duplicateErrors_eq_nil_iff, defaultAccountErrors_eq_nil_iff,
    List.flatMap_eq_nil_iff]
  constructor
  · rintro ⟨⟨⟨⟨⟨hsources, hmailboxes⟩, hdefault⟩, haccounts⟩, hrules⟩, hdrafts⟩
    exact ⟨hsources.1, hmailboxes.1, hdefault, haccounts, hrules, hdrafts⟩
  · intro hvalid
    exact ⟨⟨⟨⟨⟨⟨hvalid.source_ids, fun _ _ => List.not_mem_nil⟩, hvalid.smart_mailbox_ids,
      fun _ _ => List.not_mem_nil⟩, hvalid.default_account⟩, hvalid.accounts⟩, hvalid.rules⟩, hvalid.drafts⟩

theorem at_of_concrete {pattern : String} (hconcrete : is_concrete_email_pattern pattern = true) :
    (str.trim pattern).toList.contains '*' = false ∧ (str.trim pattern).toList.contains '@' = true := by
  unfold is_concrete_email_pattern at hconcrete
  simp only at hconcrete
  split_ifs at hconcrete with hstar
  rw [Bool.or_eq_true, not_or, Bool.not_eq_true, Bool.not_eq_true] at hstar
  refine ⟨hstar.2, ?_⟩
  unfold split_once at hconcrete
  split_ifs at hconcrete with hat
  · exact List.contains_iff_mem.2 hat

/-- An account that passes the snapshot's check passes the file's. -/
theorem validate_source_of_account {account : AccountSettings} (hvalid : account_settings_errors account = []) :
    validate_source_settings account = .ok () := by
  unfold validate_source_settings
  by_cases hdriver : account.driver = .ImapSmtp
  · simp only [account_settings_errors, List.append_eq_nil_iff, if_pos hdriver] at hvalid
    obtain ⟨⟨-, himap⟩, -⟩ := hvalid
    simp only [imapSmtpErrors, List.append_eq_nil_iff, if_nil_iff, Bool.not_eq_true] at himap
    obtain ⟨⟨⟨⟨husername, hsecret⟩, hendpoint⟩, hsubmission⟩, hsender⟩ := himap
    have hconcrete : account.email_patterns.any is_concrete_email_pattern = true := by
      by_contra hnone
      rw [if_neg hnone] at hsender
      cases hsender
    have hpattern : (account.email_patterns.any fun pattern =>
        !(str.trim pattern).toList.contains '*' && (str.trim pattern).toList.contains '@') = true := by
      obtain ⟨pattern, hmem, hgood⟩ := List.any_eq_true.1 hconcrete
      obtain ⟨hstar, hat⟩ := at_of_concrete hgood
      exact List.any_eq_true.2 ⟨pattern, hmem, by rw [hstar, hat]; rfl⟩
    have hincoming : account.transport.imap.isNone = false := by
      cases hcase : account.transport.imap with
      | none =>
        rw [hcase] at hendpoint
        cases hendpoint
      | some _ => rfl
    have houtgoing : account.transport.smtp.isNone = false := by
      cases hcase : account.transport.smtp with
      | none =>
        rw [hcase] at hsubmission
        cases hsubmission
      | some _ => rfl
    simp only [hdriver, ne_eq, not_true_eq_false, if_false, husername, hsecret, hincoming, houtgoing, hpattern,
      Bool.false_eq_true]
  · rw [if_pos hdriver]

end Facts

end posthaste.config
