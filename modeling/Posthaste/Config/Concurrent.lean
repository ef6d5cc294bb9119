import Posthaste.Config.Commands
import Posthaste.Config.RoundTrip
import Posthaste.Library.Transition
import Posthaste.Library.WriteBehind

open posthaste.model

namespace posthaste.config

/-- A call that changes the settings or an account. -/
inductive Mutation where
  | create_rule (rule : AutomationRule)
  | update_rule (rule : AutomationRule)
  | delete_rule (rule_id : String)
  | update_settings (settings : AppSettings)
  | save_source (source : AccountSettings)

/-- What one mutation can change apart from another. -/
inductive Item where
  | rule (id : String)
  | settings
  | source (id : AccountId)

inductive ItemValue where
  | rule (rule : Option AutomationRule)
  | settings (settings : AppSettings)
  | source (source : Option AccountSettings)

def findRule (id : String) (settings : AppSettings) : Option AutomationRule :=
  settings.automation_rules.find? fun rule => rule.id = id

/-- The settings that are no rule. -/
def otherSettings (settings : AppSettings) : AppSettings := { settings with automation_rules := [] }

def findSource (id : AccountId) (sources : List AccountSettings) : Option AccountSettings :=
  sources.find? fun source => source.id = id

def Item.value (snapshot : ConfigSnapshot) : Item → ItemValue
  | .rule id => .rule (findRule id snapshot.app_settings)
  | .settings => .settings (otherSettings snapshot.app_settings)
  | .source id => .source (findSource id snapshot.sources)

/-- What a mutation makes of an item, `none` where it leaves the item alone. -/
def Mutation.writes : Mutation → Item → Option ItemValue
  | .create_rule rule, .rule id | .update_rule rule, .rule id => if id = rule.id then some (.rule (some rule)) else none
  | .delete_rule rule_id, .rule id => if id = rule_id then some (.rule none) else none
  | .update_settings settings, .rule id => some (.rule (findRule id settings))
  | .update_settings settings, .settings => some (.settings (otherSettings settings))
  | .save_source source, .source id => if id = source.id then some (.source (some source)) else none
  | _, _ => none

section Documents

variable (repository : TomlConfigRepository)

/-- The first half of `mutate_rules`. -/
def changedRules (transform : AppSettings → Except ApiFailure (Option AppSettings)) :
    Except ApiFailure (Option AppSettings) := do
  match ← transform repository.get_app_settings with
  | none => .ok none
  | some settings =>
    validateRules settings
    return some settings

/-- The settings a call goes on to save, `none` where there is nothing to save. -/
def Mutation.document : Mutation → Except ApiFailure (Option AppSettings)
  | .create_rule rule => do
    refuseIf (isBlank rule.id) (.malformed "automation rule id must not be empty")
    changedRules repository (config.create_rule rule)
  | .update_rule rule => changedRules repository (config.update_rule rule)
  | .delete_rule rule_id => changedRules repository (config.delete_rule rule_id)
  | .update_settings settings => do
    validate_settings_document repository settings
    return some settings
  | .save_source _ => .ok none

end Documents

/-- The settings a call saves and those it had read. -/
structure SettingsChange where
  mutation : Mutation
  read : AppSettings
  settings : AppSettings

/-- A call on the way to its file. -/
inductive Call where
  | validated (change : SettingsChange)
  | parsed (change : SettingsChange) (app_toml : AppToml)
  | merged (change : SettingsChange) (file : File)
  | checked (source : AccountSettings)
  | mergedSource (source : AccountSettings) (file : File)

/-- A call whose file is written and whose value the snapshot does not have yet. -/
inductive Written where
  | app (change : SettingsChange)
  | source (source : AccountSettings)

/-- A mutation in the snapshot: still without an answer, acknowledged or refused after all. -/
structure LogEntry where
  mutation : Mutation
  answer : Option Bool

/-- The repository and the calls that run on it: the written ones in the order of the writes, the log in the order in
    which the snapshot took them. -/
structure ConfigService where
  repository : TomlConfigRepository
  calls : List Call
  written : List Written
  log : List LogEntry

def ConfigService.snapshot (state : ConfigService) : ConfigSnapshot := state.repository.snapshot

inductive Action where
  | begin (mutation : Mutation)
  | advance (index : Nat)
  | fail (index : Nat)
  | swap (index : Nat)
  | answer (index : Nat) (succeeds : Bool)

section Steps

variable (state : ConfigService)

/-- The call goes on to save the document, or is done. -/
def begun (mutation : Mutation) : Except ApiFailure (Option AppSettings) → Option ConfigService
  | .ok (some settings) =>
    some { state with calls := state.calls ++ [.validated ⟨mutation, state.snapshot.app_settings, settings⟩] }
  | .ok none => some { state with log := state.log ++ [⟨mutation, some true⟩] }
  | .error _ => none

/-- A call up to its first read of a file: the lock on the snapshot is held for the copy alone. -/
def begin : Mutation → Option ConfigService
  | .save_source source =>
    match validate_safe_id source.id with
    | .ok () => some { state with calls := state.calls ++ [.checked source] }
    | .error _ => none
  | mutation => begun state mutation (mutation.document state.repository)

def ConfigService.replace (index : Nat) (call : Call) : ConfigService :=
  { state with calls := state.calls.set index call }

/-- The next read or the write of a call. The file is read twice before it is replaced. -/
def advance (index : Nat) : Call → Option ConfigService
  | .validated change =>
    match read_app_toml state.repository.disk.app with
    | .ok existing => some (state.replace index (.parsed change (AppToml.from_app_settings change.settings existing)))
    | .error _ => none
  | .parsed change app_toml =>
    match write_app_toml state.repository.config_root state.repository.disk.app app_toml with
    | .ok file => some (state.replace index (.merged change file))
    | .error _ => none
  | .merged change file => some { state with
      repository := { state.repository with disk := { state.repository.disk with app := some file } }
      calls := state.calls.eraseIdx index
      written := state.written ++ [.app change] }
  | .checked source =>
    match write_source_toml state.repository.config_root (state.repository.disk.sources.lookup source.id) source with
    | .ok file => some (state.replace index (.mergedSource source file))
    | .error _ => none
  | .mergedSource source file => some { state with
      repository := { state.repository with disk := { state.repository.disk with
        sources := state.repository.disk.sources.insert source.id file } }
      calls := state.calls.eraseIdx index
      written := state.written ++ [.source source] }

def Written.mutation : Written → Mutation
  | .app change => change.mutation
  | .source account => .save_source account

/-- What the snapshot takes of a write. -/
def Written.swapped (snapshot : ConfigSnapshot) : Written → ConfigSnapshot
  | .app change => { snapshot with app_settings := change.settings }
  | .source account => { snapshot with sources := TomlConfigRepository.upsert (·.id) account snapshot.sources }

def next : Action → Option ConfigService
  | .begin mutation => begin state mutation
  | .advance index => state.calls[index]?.bind (advance state index)
  | .fail index => state.calls[index]?.map fun _ => { state with calls := state.calls.eraseIdx index }
  | .swap index => state.written[index]?.map fun write => { state with
      repository := { state.repository with snapshot := write.swapped state.snapshot }
      written := state.written.eraseIdx index
      log := state.log ++ [⟨write.mutation, none⟩] }
  | .answer index succeeds =>
    match state.log[index]? with
    | some ⟨mutation, none⟩ => some { state with log := state.log.set index ⟨mutation, some succeeds⟩ }
    | _ => none

/-- No call is running. -/
structure ConfigService.Idle : Prop where
  calls : state.calls = []
  written : state.written = []
  answered : ∀ entry ∈ state.log, entry.answer ≠ none

end Steps

section Guard

/-- The amounts in what a call carries are machine integers. -/
def Mutation.InWidth : Mutation → Prop
  | .create_rule rule | .update_rule rule => GroupInWidth rule.condition.root
  | .update_settings settings => RulesInWidth settings
  | .delete_rule _ | .save_source _ => True

def Action.InWidth : Action → Prop
  | .begin mutation => mutation.InWidth
  | _ => True

/-- Calls from a directory just loaded, in every order of their steps. -/
def mutating : TransitionSystem ConfigService Action where
  start state := load_snapshot_from_disk state.repository.config_root state.repository.disk = .ok state.snapshot ∧
    state.calls = [] ∧ state.written = [] ∧ state.log = []
  step state action after := action.InWidth ∧ next state action = some after

/-- The file a write replaced. -/
inductive ConfigFile where
  | app
  | source (id : AccountId)
  deriving DecidableEq

def Written.file : Written → ConfigFile
  | .app _ => .app
  | .source account => .source account.id

/-- What a call writes comes back as it is at the next start. -/
def Survives (repository : TomlConfigRepository) : Call → Prop
  | .parsed change _ => SurvivesRestart repository.disk.app change.settings
  | .checked source => account_settings_errors source = []
  | _ => True

/-- No item but its own has changed since the call read the settings. -/
def Fresh (snapshot : ConfigSnapshot) : Written → Prop
  | .app change => ∀ item, change.mutation.writes item = none →
      item.value { snapshot with app_settings := change.read } = item.value snapshot
  | .source _ => True

/-- No step of the run is one that loses something. -/
def Orderly (state : ConfigService) : Action → Prop
  | .begin _ | .fail _ => True
  | .advance index => ∀ call, state.calls[index]? = some call → Survives state.repository call
  | .swap index => ∀ write, state.written[index]? = some write → Fresh state.snapshot write ∧
      ∀ earlier < index, ∀ other, state.written[earlier]? = some other → other.file ≠ write.file
  | .answer index succeeds => succeeds = true ∨ ∀ entry, state.log[index]? = some entry → ∀ earlier < index,
      ∀ other, state.log[earlier]? = some other → other.answer = some false ∨
        ∀ item, entry.mutation.writes item = none ∨ other.mutation.writes item = none

/-- Every acknowledged mutation is in the snapshot, but for the items that a later acknowledged one changed. -/
def NoneLost (state : ConfigService) : Prop :=
  ∀ (index : Nat) (entry : LogEntry), state.log[index]? = some entry → entry.answer = some true →
    ∀ (item : Item) (value : ItemValue), entry.mutation.writes item = some value →
    (∀ later > index, ∀ other : LogEntry, state.log[later]? = some other → other.answer = some true →
      other.mutation.writes item = none) →
    item.value state.snapshot = value

/-- The directory loads into the snapshot, up to the order of the accounts. -/
def Consistent (repository : TomlConfigRepository) : Prop :=
  ∃ loaded, load_snapshot_from_disk repository.config_root repository.disk = .ok loaded ∧
    loaded.app_settings = repository.snapshot.app_settings ∧
    loaded.smart_mailboxes = repository.snapshot.smart_mailboxes ∧
    loaded.sources.Perm repository.snapshot.sources

end Guard

end posthaste.config
