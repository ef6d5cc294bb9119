import Mathlib.Data.List.AList
import Posthaste.Config.Io
import Posthaste.Config.Validation

open posthaste.model

namespace posthaste.config

/-- The files of a configuration directory, those of the two folders by their stem. -/
structure Disk where
  app : Option File
  sources : AList fun _ : String => File
  smart_mailboxes : AList fun _ : String => File

/-- The directory and the snapshot cached of it. -/
structure TomlConfigRepository where
  config_root : String
  disk : Disk
  snapshot : ConfigSnapshot

def load_sources (config_root : String) (files : AList fun _ : String => File) :
    Except ConfigError (List AccountSettings) := do
  let sources ← files.entries.mapM fun entry => load_source config_root entry.1 entry.2
  return sources.mergeSort fun first second => first.name ≤ second.name

def load_smart_mailboxes (config_root : String) (files : AList fun _ : String => File) :
    Except ConfigError (List SmartMailbox) := do
  let mailboxes ← files.entries.mapM fun entry => load_smart_mailbox config_root entry.1 entry.2
  return mailboxes.mergeSort fun first second => first.id ≤ second.id

instance : ToString ValidationError where
  toString
    | .InvalidAccount message | .BaseUrlRequired message | .SecretRequired message | .UsernameRequired message
    | .SenderRequired message => message
    | .DuplicateSourceId id => s!"duplicate source id '{id}'"
    | .DuplicateSmartMailboxId id => s!"duplicate smart mailbox id '{id}'"
    | .DanglingDefaultAccount id => s!"default account '{id}' does not exist"

def load_snapshot_from_disk (config_root : String) (disk : Disk) : Except ConfigError ConfigSnapshot := do
  let app_settings ← load_app_settings disk.app
  let sources ← load_sources config_root disk.sources
  let smart_mailboxes ← load_smart_mailboxes config_root disk.smart_mailboxes
  let snapshot : ConfigSnapshot := ⟨app_settings, sources, smart_mailboxes⟩
  match validate_snapshot snapshot with
  | .error errors => .error (.Validation ("; ".intercalate (errors.map toString)))
  | .ok () => .ok snapshot

namespace TomlConfigRepository

variable (repository : TomlConfigRepository)

def get_app_settings : AppSettings := repository.snapshot.app_settings

def put_app_settings (settings : AppSettings) : Except ConfigError TomlConfigRepository := do
  let file ← saveAppSettings repository.config_root repository.disk.app settings
  return { repository with
    disk := { repository.disk with app := some file }
    snapshot := { repository.snapshot with app_settings := settings } }

def get_source (id : AccountId) : Option AccountSettings := repository.snapshot.sources.find? fun source => source.id = id

def insert_source (source : AccountSettings) : Except ConfigError TomlConfigRepository := do
  validate_safe_id source.id
  if repository.snapshot.sources.any (fun existing => existing.id = source.id) || source.id ∈ repository.disk.sources then
    .error (.Conflict s!"account '{source.id}' already exists")
  else
    let file ← write_source_toml repository.config_root (repository.disk.sources.lookup source.id) source
    return { repository with
      disk := { repository.disk with sources := repository.disk.sources.insert source.id file }
      snapshot := { repository.snapshot with sources := repository.snapshot.sources ++ [source] } }

/-- The entry with the same id replaced, or the value appended. -/
def upsert {α : Type} (id : α → String) (value : α) : List α → List α
  | [] => [value]
  | existing :: rest => if id existing = id value then value :: rest else existing :: upsert id value rest

def save_source (source : AccountSettings) : Except ConfigError TomlConfigRepository := do
  let file ← saveSource repository.config_root (repository.disk.sources.lookup source.id) source
  return { repository with
    disk := { repository.disk with sources := repository.disk.sources.insert source.id file }
    snapshot := { repository.snapshot with sources := upsert (·.id) source repository.snapshot.sources } }

def delete_source (id : AccountId) : TomlConfigRepository :=
  { repository with
    disk := { repository.disk with sources := repository.disk.sources.erase id }
    snapshot := { repository.snapshot with sources := repository.snapshot.sources.filter fun source => source.id ≠ id } }

def get_smart_mailbox (id : SmartMailboxId) : Option SmartMailbox :=
  repository.snapshot.smart_mailboxes.find? fun mailbox => mailbox.id = id

def save_smart_mailbox (mailbox : SmartMailbox) : Except ConfigError TomlConfigRepository := do
  let file ← saveSmartMailbox repository.config_root (repository.disk.smart_mailboxes.lookup mailbox.id) mailbox
  return { repository with
    disk := { repository.disk with smart_mailboxes := repository.disk.smart_mailboxes.insert mailbox.id file }
    snapshot := { repository.snapshot with
      smart_mailboxes := upsert (·.id) mailbox repository.snapshot.smart_mailboxes } }

def delete_smart_mailbox (id : SmartMailboxId) : TomlConfigRepository :=
  { repository with
    disk := { repository.disk with smart_mailboxes := repository.disk.smart_mailboxes.erase id }
    snapshot := { repository.snapshot with
      smart_mailboxes := repository.snapshot.smart_mailboxes.filter fun mailbox => mailbox.id ≠ id } }

end TomlConfigRepository

section Defaults

def role_mailbox (id name default_key role : String) : SmartMailbox where
  id := id
  name := name
  kind := .Default
  default_key := some default_key
  role := some role
  parent_id := none
  rule := ⟨.mk .All false [.Condition ⟨.MailboxRole, .Equals, false, .String role⟩]⟩
  created_at := RFC3339_EPOCH
  updated_at := RFC3339_EPOCH

def all_mail_mailbox : SmartMailbox where
  id := "default-all-mail"
  name := "All Mail"
  kind := .Default
  default_key := some "all-mail"
  role := none
  parent_id := none
  rule := ⟨.mk .All false []⟩
  created_at := RFC3339_EPOCH
  updated_at := RFC3339_EPOCH

def default_smart_mailboxes : List SmartMailbox := [
  role_mailbox "default-inbox" "Inbox" "inbox" "inbox",
  role_mailbox "default-archive" "Archive" "archive" "archive",
  role_mailbox "default-drafts" "Drafts" "drafts" "drafts",
  role_mailbox "default-sent" "Sent" "sent" "sent",
  role_mailbox "default-junk" "Junk" "junk" "junk",
  role_mailbox "default-trash" "Trash" "trash" "trash",
  all_mail_mailbox]

def DEFAULT_SMART_MAILBOX_ORDER : List String :=
  ["inbox", "archive", "drafts", "sent", "junk", "trash", "all-mail"]

def smart_mailbox_fallback_rank (default_key : Option String) : Nat :=
  match default_key with
  | some key => DEFAULT_SMART_MAILBOX_ORDER.idxOf key
  | none => DEFAULT_SMART_MAILBOX_ORDER.length

/-- The built-ins in their own order, then the others by age and name. -/
def fallbackBefore (first second : SmartMailbox) : Bool :=
  let firstRank := smart_mailbox_fallback_rank first.default_key
  let secondRank := smart_mailbox_fallback_rank second.default_key
  firstRank < secondRank || (firstRank = secondRank && (first.created_at < second.created_at ||
    (first.created_at = second.created_at && first.name ≤ second.name)))

/-- Every default is written over what the user made of it. The ids need no check. -/
def TomlConfigRepository.reset_default_smart_mailboxes (repository : TomlConfigRepository) (now : String) :
    Except ConfigError TomlConfigRepository := do
  let defaults := default_smart_mailboxes.map fun mailbox => { mailbox with updated_at := now }
  let files ← defaults.foldlM
    (fun files mailbox => do
      let file ← write_smart_mailbox_toml repository.config_root (files.lookup mailbox.id) mailbox
      return files.insert mailbox.id file)
    repository.disk.smart_mailboxes
  let mailboxes := defaults.foldl (fun mailboxes mailbox => TomlConfigRepository.upsert (·.id) mailbox mailboxes)
    repository.snapshot.smart_mailboxes
  return { repository with
    disk := { repository.disk with smart_mailboxes := files }
    snapshot := { repository.snapshot with smart_mailboxes := mailboxes.mergeSort fallbackBefore } }

end Defaults

end posthaste.config
