import Posthaste.Config.AppSettings
import Posthaste.Config.SourceToml
import Posthaste.Library.TomlDocument

open serde posthaste.model

namespace posthaste.config

structure SmartMailboxToml where
  id : String
  name : String
  kind : SmartMailboxKindToml
  default_key : Option String
  role : Option String
  parent_id : Option String
  rule : RuleGroupToml
  created_at : Option String
  updated_at : Option String

section Serde

def SmartMailboxToml.fields (mailbox : SmartMailboxToml) : List (String × Option Value) := [
  ("id", some (to_value mailbox.id)),
  ("name", some (to_value mailbox.name)),
  ("kind", some (to_value mailbox.kind)),
  ("default_key", mailbox.default_key.map to_value),
  ("role", mailbox.role.map to_value),
  ("parent_id", mailbox.parent_id.map to_value),
  ("rule", some (to_value mailbox.rule)),
  ("created_at", mailbox.created_at.map to_value),
  ("updated_at", mailbox.updated_at.map to_value)]

instance : Serialize SmartMailboxToml where
  to_value mailbox := toml.table mailbox.fields

instance : Deserialize SmartMailboxToml where
  from_value := deserialize_struct "struct SmartMailboxToml" do
    let id ← required "id"
    let name ← required "name"
    let kind ← defaulted "kind" ⟨.User⟩
    let default_key ← serde.optional "default_key"
    let role ← defaulted "role" none
    let parent_id ← serde.optional "parent_id"
    let rule ← required "rule"
    let created_at ← serde.optional "created_at"
    let updated_at ← serde.optional "updated_at"
    return { id, name, kind, default_key, role, parent_id, rule, created_at, updated_at }

/-- Any table that has these fields reads as this mailbox. -/
theorem SmartMailboxToml.from_value_of_lookups {entries : List (String × Value)} {mailbox : SmartMailboxToml}
    (hat : ∀ name found, mailbox.fields.lookup name = some found → entries.lookup name = found) :
    (from_value (.object entries) : Except Error SmartMailboxToml) = .ok mailbox :=
  deserialize_struct_object
    (.bind (.required (hat "id" _ rfl))
    (.bind (.required (hat "name" _ rfl))
    (.bind (.defaulted (hat "kind" _ rfl))
    (.bind (toml.reads_optional (hat "default_key" _ rfl))
    (.bind (toml.reads_defaulted (hat "role" _ rfl))
    (.bind (toml.reads_optional (hat "parent_id" _ rfl))
    (.bind (.required (hat "rule" _ rfl))
    (.bind (toml.reads_optional (hat "created_at" _ rfl))
    (.bind (toml.reads_optional (hat "updated_at" _ rfl)) .pure)))))))))

end Serde

section Conversions

def SmartMailboxToml.to_smart_mailbox (mailbox : SmartMailboxToml) : Except String SmartMailbox := do
  let root ← convert_rule_group mailbox.rule
  return {
    id := mailbox.id
    name := mailbox.name
    kind := mailbox.kind.to_domain
    default_key := mailbox.default_key
    role := mailbox.role
    parent_id := mailbox.parent_id
    rule := ⟨root⟩
    created_at := mailbox.created_at.getD RFC3339_EPOCH
    updated_at := mailbox.updated_at.getD RFC3339_EPOCH }

def SmartMailboxToml.from_smart_mailbox (mailbox : SmartMailbox) : SmartMailboxToml where
  id := mailbox.id
  name := mailbox.name
  kind := .from_domain mailbox.kind
  default_key := mailbox.default_key
  role := mailbox.role
  parent_id := mailbox.parent_id
  rule := convert_group_to_toml mailbox.rule.root
  created_at := some mailbox.created_at
  updated_at := some mailbox.updated_at

theorem to_smart_mailbox_from_smart_mailbox {mailbox : SmartMailbox} (hwidth : GroupInWidth mailbox.rule.root) :
    (SmartMailboxToml.from_smart_mailbox mailbox).to_smart_mailbox = .ok mailbox := by
  rw [SmartMailboxToml.to_smart_mailbox, SmartMailboxToml.from_smart_mailbox,
    convert_group_round mailbox.rule.root hwidth]
  rfl

end Conversions

/-- A configuration file as `toml_edit` reads it: its document, or the parse error. -/
abbrev File := Except String toml.Document

def APP_TOML_MANAGED_KEYS : List String := [
  "schema_version", "default_source_id", "automations", "draft_automations", "daemon", "logging", "cache", "appearance",
  "notifications", "mailbox_colors", "tags", "link", "tls"]

def SOURCE_TOML_MANAGED_KEYS : List String := [
  "id", "name", "full_name", "signature", "email_patterns", "driver", "enabled", "appearance", "transport", "created_at",
  "updated_at"]

def SMART_MAILBOX_TOML_MANAGED_KEYS : List String := [
  "id", "name", "position", "kind", "default_key", "role", "parent_id", "rule", "created_at", "updated_at"]

/-- A file read into a schema struct. -/
def from_str {α : Type} [Deserialize α] (path : String) (file : File) : Except ConfigError α :=
  match file with
  | .error error => .error (.Parse s!"{path}: {error}")
  | .ok document =>
    match from_value (.object document.values) with
    | .error error => .error (.Parse s!"{path}: {error}")
    | .ok value => .ok value

def read_app_toml : Option File → Except ConfigError AppToml
  | none => .ok .default
  | some file => from_str "app.toml" file

/-- The managed keys of the file are overwritten from the value. A missing file is an empty one. -/
def write_managed_toml {α : Type} [Serialize α] (path : String) (file : Option File) (value : α)
    (managed_keys : List String) : Except ConfigError File := do
  let doc ← match file with
    | none => .ok toml.Document.empty
    | some (.error error) => .error (.Parse s!"{path}: {error}")
    | some (.ok document) => .ok document
  let managed ← match toml.Document.print (to_value value) with
    | .error error => .error (.Parse error)
    | .ok managed => .ok managed
  return .ok (doc.overwrite managed managed_keys)

def write_app_toml (config_root : String) (file : Option File) (app : AppToml) : Except ConfigError File :=
  write_managed_toml s!"{config_root}/app.toml" file app APP_TOML_MANAGED_KEYS

def sourcePath (config_root stem : String) : String := s!"{config_root}/sources/{stem}.toml"

def smartMailboxPath (config_root stem : String) : String := s!"{config_root}/smart-mailboxes/{stem}.toml"

def write_source_toml (config_root : String) (file : Option File) (source : AccountSettings) :
    Except ConfigError File :=
  write_managed_toml (sourcePath config_root source.id) file (SourceToml.from_account_settings source)
    SOURCE_TOML_MANAGED_KEYS

def write_smart_mailbox_toml (config_root : String) (file : Option File) (mailbox : SmartMailbox) :
    Except ConfigError File :=
  write_managed_toml (smartMailboxPath config_root mailbox.id) file (SmartMailboxToml.from_smart_mailbox mailbox)
    SMART_MAILBOX_TOML_MANAGED_KEYS

def hasTwoDots : List Char → Bool
  | '.' :: '.' :: _ => true
  | _ :: rest => hasTwoDots rest
  | [] => false

def validate_safe_id (id : String) : Except ConfigError Unit :=
  let chars := id.toList
  if chars.isEmpty || chars.contains '/' || chars.contains '\\' || hasTwoDots chars || chars.contains (Char.ofNat 0) then
    .error (.Validation s!"id '{id}' contains unsafe characters")
  else .ok ()

def validate_filename_matches_id (path stem id : String) : Except ConfigError Unit := do
  validate_safe_id id
  if stem ≠ id then .error (.Validation s!"filename '{stem}' does not match id '{id}' in {path}") else .ok ()

/-- One file of `sources/`. -/
def load_source (config_root stem : String) (file : File) : Except ConfigError AccountSettings := do
  let path := sourcePath config_root stem
  let source : SourceToml ← from_str path file
  validate_filename_matches_id path stem source.id
  match source.to_account_settings with
  | .error error => .error (.Parse s!"{path}: invalid automation rule: {error}")
  | .ok settings => .ok settings

/-- One file of `smart-mailboxes/`. -/
def load_smart_mailbox (config_root stem : String) (file : File) : Except ConfigError SmartMailbox := do
  let path := smartMailboxPath config_root stem
  let mailbox : SmartMailboxToml ← from_str path file
  validate_filename_matches_id path stem mailbox.id
  match mailbox.to_smart_mailbox with
  | .error error => .error (.Parse s!"{path}: {error}")
  | .ok mailbox => .ok mailbox

def load_app_settings (file : Option File) : Except ConfigError AppSettings := do
  let app ← read_app_toml file
  match app.to_app_settings with
  | .error error => .error (.Parse error)
  | .ok settings => .ok settings

/-- The file half of `put_app_settings`. -/
def saveAppSettings (config_root : String) (file : Option File) (settings : AppSettings) :
    Except ConfigError File := do
  let existing ← read_app_toml file
  write_app_toml config_root file (AppToml.from_app_settings settings existing)

/-- The file half of `insert_source` and `save_source`. -/
def saveSource (config_root : String) (file : Option File) (source : AccountSettings) : Except ConfigError File := do
  validate_safe_id source.id
  write_source_toml config_root file source

/-- The file half of `save_smart_mailbox`. -/
def saveSmartMailbox (config_root : String) (file : Option File) (mailbox : SmartMailbox) :
    Except ConfigError File := do
  validate_safe_id mailbox.id
  write_smart_mailbox_toml config_root file mailbox

section Writes

variable {α : Type} [Serialize α] {path : String} {file : Option File} {value : α} {keys : List String} {after : File}

/-- The document a write starts from. -/
def base : Option File → toml.Document
  | some (.ok document) => document
  | _ => .empty

/-- A write that succeeds leaves a document whose managed keys are the value's. -/
theorem write_managed_toml_spec (hwrite : write_managed_toml path file value keys = .ok after) :
    (∀ error, file ≠ some (.error error)) ∧
      ∃ managed, to_value value = .object managed.values ∧ after = .ok ((base file).overwrite managed keys) := by
  unfold write_managed_toml at hwrite
  cases hprint : toml.Document.print (to_value value) with
  | error error =>
    rw [hprint] at hwrite
    obtain _ | _ | _ := file <;> cases hwrite
  | ok managed =>
    rw [hprint] at hwrite
    obtain _ | error | document := file
    · cases hwrite
      exact ⟨nofun, managed, toml.Document.values_of_print hprint, rfl⟩
    · cases hwrite
    · cases hwrite
      exact ⟨nofun, managed, toml.Document.values_of_print hprint, rfl⟩

/-- The keys and comments of the file that are not managed. -/
def Untouched (keys : List String) (file : Option File) (after : File) : Prop :=
  ∃ document, after = .ok document ∧ document.unmanaged keys = (base file).unmanaged keys ∧
    document.trailing = (base file).trailing

theorem untouched_of_write (hwrite : write_managed_toml path file value keys = .ok after) :
    Untouched keys file after := by
  obtain ⟨-, managed, -, rfl⟩ := write_managed_toml_spec hwrite
  exact ⟨_, rfl, toml.Document.unmanaged_overwrite⟩

/-- A managed field of the written value is read back. -/
theorem lookup_of_write {fields : List (String × Option Value)} {managed : toml.Document}
    (hvalue : toml.table fields = .object managed.values) (hnames : (fields.map Prod.fst).Nodup)
    {name : String} {found : Option Value} (hfield : fields.lookup name = some found) (hkey : name ∈ keys) :
    ((base file).overwrite managed keys).values.lookup name = found := by
  rw [toml.Document.lookup_overwrite hkey, ← Value.object.inj hvalue]
  exact toml.lookup_present hnames hfield

end Writes

end posthaste.config
