import Mathlib.Data.List.InsertIdx
import Posthaste.Config.MutationLaws

open effects posthaste.model write_behind

namespace posthaste.config

section Log

variable {log : List LogEntry} {entry : LogEntry} {before after : ConfigSnapshot} {mutations : List Mutation}
  {mutation : Mutation}

/-- Each mutation taken is in the snapshot, but for the items that a later one changed. -/
def LogPresent (snapshot : ConfigSnapshot) (mutations : List Mutation) : Prop :=
  ∀ (index : Nat) (mutation : Mutation), mutations[index]? = some mutation →
    ∀ (item : Item) (value : ItemValue), mutation.writes item = some value →
    (∀ later > index, ∀ other : Mutation, mutations[later]? = some other → other.writes item = none) →
    item.value snapshot = value

theorem LogPresent.append (hpresent : LogPresent before mutations)
    (htaken : ∀ item : Item, item.value after = (mutation.writes item).getD (item.value before)) :
    LogPresent after (mutations ++ [mutation]) := by
  intro index found hfound item value hwrites hlater
  have hold : ∀ position < mutations.length, (mutations ++ [mutation])[position]? = mutations[position]? :=
    fun position hposition => List.getElem?_append_left hposition
  by_cases hindex : index < mutations.length
  · rw [hold index hindex] at hfound
    have hnone : mutation.writes item = none := hlater mutations.length hindex mutation List.getElem?_concat_length
    rw [htaken item, hnone, Option.getD_none]
    refine hpresent index found hfound item value hwrites fun later hafter other hother => ?_
    have hbound : later < mutations.length := (List.getElem?_eq_some_iff.1 hother).1
    exact hlater later hafter other ((hold later hbound).trans hother)
  · rw [List.getElem?_append_right (Nat.le_of_not_lt hindex)] at hfound
    have hfound : found = mutation := by
      rw [List.getElem?_singleton] at hfound
      split_ifs at hfound
      exact (Option.some_inj.1 hfound).symm
    rw [htaken item, ← hfound, hwrites, Option.getD_some]

/-- A call that failed after its swap wrote over no mutation that was acknowledged. -/
def LogFailures (log : List LogEntry) : Prop :=
  ∀ (index : Nat) (entry : LogEntry), log[index]? = some entry → entry.answer = some false → ∀ earlier < index,
    ∀ other : LogEntry, log[earlier]? = some other → other.answer = some false ∨
      ∀ item, entry.mutation.writes item = none ∨ other.mutation.writes item = none

theorem LogFailures.append (hfailures : LogFailures log) (hentry : entry.answer ≠ some false) :
    LogFailures (log ++ [entry]) := by
  intro index found hfound hfailed earlier hearlier other hother
  by_cases hindex : index < log.length
  · rw [List.getElem?_append_left hindex] at hfound
    rw [List.getElem?_append_left (Nat.lt_trans hearlier hindex)] at hother
    exact hfailures index found hfound hfailed earlier hearlier other hother
  · rw [List.getElem?_append_right (Nat.le_of_not_lt hindex), List.getElem?_singleton] at hfound
    split_ifs at hfound
    cases hfound
    exact absurd hfailed hentry

theorem LogFailures.answer {index : Nat} {succeeds : Bool} (hfailures : LogFailures log)
    (hentry : log[index]? = some ⟨mutation, none⟩)
    (horderly : succeeds = true ∨ ∀ entry, log[index]? = some entry → ∀ earlier < index, ∀ other : LogEntry,
      log[earlier]? = some other → other.answer = some false ∨
        ∀ item, entry.mutation.writes item = none ∨ other.mutation.writes item = none) :
    LogFailures (log.set index ⟨mutation, some succeeds⟩) := by
  intro position found hfound hfailed earlier hearlier other hother
  rw [List.getElem?_set] at hfound hother
  by_cases hposition : index = position
  · subst hposition
    rw [if_pos rfl] at hfound
    rw [if_neg (Nat.ne_of_gt hearlier)] at hother
    split_ifs at hfound
    cases hfound
    obtain rfl | hdisjoint := horderly
    · cases hfailed
    · exact hdisjoint _ hentry earlier hearlier other hother
  · rw [if_neg hposition] at hfound
    by_cases hsame : index = earlier
    · subst hsame
      rw [if_pos rfl] at hother
      split_ifs at hother
      cases hother
      obtain hno | hdisjoint := hfailures position found hfound hfailed index hearlier _ hentry
      · cases hno
      · exact .inr hdisjoint
    · rw [if_neg hsame] at hother
      exact hfailures position found hfound hfailed earlier hearlier other hother

theorem mutations_answer {index : Nat} {answer : Option Bool} (hentry : log[index]? = some entry) :
    (log.set index ⟨entry.mutation, answer⟩).map LogEntry.mutation = log.map LogEntry.mutation := by
  rw [List.map_set]
  obtain ⟨hbound, hget⟩ := List.getElem?_eq_some_iff.1 hentry
  have hmapped : index < (log.map LogEntry.mutation).length := by simpa using hbound
  have hsame : (log.map LogEntry.mutation)[index] = entry.mutation := by
    rw [List.getElem_map, hget]
  rw [← hsame, List.set_getElem_self]

end Log

section Invariant

variable {state after : ConfigService} {sources : List AccountSettings} {config_root : String} {call : Call}
  {write : Written}

/-- What a call on the way to its file has prepared. -/
def CallSound (config_root : String) (sources : List AccountSettings) : Call → Prop
  | .validated change => change.Good sources
  | .parsed change app_toml =>
    change.Good sources ∧ ∃ earlier, app_toml = AppToml.from_app_settings change.settings earlier
  | .merged change file => change.Good sources ∧ load_app_settings (some file) = .ok change.settings
  | .checked source => validate_safe_id source.id = .ok ()
  | .mergedSource source file =>
    load_source config_root source.id file = .ok source ∧ account_settings_errors source = []

def WriteSound (sources : List AccountSettings) : Written → Prop
  | .app change => change.Good sources
  | .source account => account_settings_errors account = []

/-- The files hold what the snapshot comes to once every write has reached it. -/
structure ConfigInvariant (state : ConfigService) : Prop where
  disk : ∀ file, Holds state.repository.config_root state.repository.disk file
    (drain (state.written.map Written.write) state.snapshot.view file)
  mailboxes : load_smart_mailboxes state.repository.config_root state.repository.disk.smart_mailboxes =
    .ok state.snapshot.smart_mailboxes
  accounts : ∀ source ∈ state.snapshot.sources, account_settings_errors source = []
  source_ids : (state.snapshot.sources.map (·.id)).Nodup
  settings : ValidSettings state.snapshot.sources state.snapshot.app_settings
  calls : ∀ call ∈ state.calls, CallSound state.repository.config_root state.snapshot.sources call
  written : ∀ write ∈ state.written, WriteSound state.snapshot.sources write
  present : LogPresent state.snapshot (state.log.map LogEntry.mutation)
  failures : LogFailures state.log

theorem ValidSettings.mono {later : List AccountSettings} {settings : AppSettings} (hvalid : ValidSettings sources settings)
    (hkept : ∀ source ∈ sources, ∃ other ∈ later, other.id = source.id) : ValidSettings later settings := by
  refine { hvalid with default_account := fun id hid => ?_ }
  obtain ⟨source, hsource, rfl⟩ := hvalid.default_account id hid
  exact hkept source hsource

theorem SettingsChange.Good.mono {later : List AccountSettings} {change : SettingsChange} (hgood : change.Good sources)
    (hkept : ∀ source ∈ sources, ∃ other ∈ later, other.id = source.id) : change.Good later :=
  ⟨hgood.sound, hgood.valid.mono hkept⟩

theorem CallSound.mono {later : List AccountSettings} (hsound : CallSound config_root sources call)
    (hkept : ∀ source ∈ sources, ∃ other ∈ later, other.id = source.id) : CallSound config_root later call := by
  cases call with
  | validated change => exact hsound.mono hkept
  | parsed change app_toml => exact ⟨hsound.1.mono hkept, hsound.2⟩
  | merged change file => exact ⟨hsound.1.mono hkept, hsound.2⟩
  | checked source => exact hsound
  | mergedSource source file => exact hsound

theorem WriteSound.mono {later : List AccountSettings} (hsound : WriteSound sources write)
    (hkept : ∀ source ∈ sources, ∃ other ∈ later, other.id = source.id) : WriteSound later write := by
  cases write with
  | app change => exact hsound.mono hkept
  | source account => exact hsound

theorem forall_mem_append {α : Type} {property : α → Prop} {items : List α} {item : α}
    (hitems : ∀ other ∈ items, property other) (hitem : property item) : ∀ other ∈ items ++ [item], property other := by
  intro other hother
  obtain hold | hnew := List.mem_append.1 hother
  · exact hitems other hold
  · rw [List.mem_singleton.1 hnew]
    exact hitem

theorem forall_mem_set {α : Type} {property : α → Prop} {items : List α} {item : α} {index : Nat}
    (hitems : ∀ other ∈ items, property other) (hitem : property item) :
    ∀ other ∈ items.set index item, property other := by
  intro other hother
  obtain hold | rfl := List.mem_or_eq_of_mem_set hother
  · exact hitems other hold
  · exact hitem

theorem forall_mem_eraseIdx {α : Type} {property : α → Prop} {items : List α} {index : Nat}
    (hitems : ∀ other ∈ items, property other) : ∀ other ∈ items.eraseIdx index, property other :=
  fun other hother => hitems other (List.mem_of_mem_eraseIdx hother)

theorem begin_eq {mutation : Mutation} (hother : ∀ source, mutation ≠ .save_source source) :
    begin state mutation = begun state mutation (mutation.document state.repository) := by
  cases mutation with
  | save_source source => exact absurd rfl (hother source)
  | create_rule _ | update_rule _ | delete_rule _ | update_settings _ => rfl

theorem ConfigInvariant.begin {mutation : Mutation} (hinvariant : ConfigInvariant state) (hwidth : mutation.InWidth)
    (hbegin : begin state mutation = some after) : ConfigInvariant after := by
  by_cases hsave : ∃ source, mutation = .save_source source
  · obtain ⟨source, rfl⟩ := hsave
    simp only [config.begin] at hbegin
    split at hbegin
    · next hsafe =>
      cases hbegin
      exact { hinvariant with calls := forall_mem_append hinvariant.calls hsafe }
    · cases hbegin
  · rw [not_exists] at hsave
    rw [begin_eq hsave] at hbegin
    cases hdocument : mutation.document state.repository with
    | error failure =>
      rw [hdocument] at hbegin
      cases hbegin
    | ok document =>
      rw [hdocument] at hbegin
      cases document with
      | some settings =>
        cases hbegin
        have hgood := good_of_document hinvariant.settings hwidth hdocument
        exact { hinvariant with calls := forall_mem_append hinvariant.calls hgood }
      | none =>
        cases hbegin
        refine { hinvariant with present := ?_, failures := ?_ }
        · rw [List.map_append]
          exact hinvariant.present.append (kept_of_document hdocument hsave)
        · exact hinvariant.failures.append (by simp)

theorem Holds.app_of_ne {file : ConfigFile} {content : file.Content} {disk : Disk} {app : Option File}
    (hholds : Holds config_root disk file content) (hfile : file ≠ .app) :
    Holds config_root { disk with app := app } file content := by
  cases file with
  | app => exact absurd rfl hfile
  | source id => exact hholds

theorem Holds.source_of_ne {file : ConfigFile} {content : file.Content} {disk : Disk} {id : AccountId} {written : File}
    (hholds : Holds config_root disk file content) (hfile : file ≠ .source id) :
    Holds config_root { disk with sources := disk.sources.insert id written } file content := by
  cases file with
  | app => exact hholds
  | source other =>
    have hother : other ≠ id := fun hsame => hfile (congrArg ConfigFile.source hsame)
    show (AList.lookup other (AList.insert id written disk.sources)).map _ = _
    rw [AList.lookup_insert_ne hother]
    exact hholds

theorem ConfigInvariant.advance {index : Nat} (hinvariant : ConfigInvariant state) (hcall : state.calls[index]? = some call)
    (hsurvives : Survives state.repository call) (hadvance : advance state index call = some after) :
    ConfigInvariant after := by
  have hsound := hinvariant.calls call (List.mem_of_getElem? hcall)
  cases call with
  | validated change =>
    simp only [config.advance] at hadvance
    split at hadvance
    · next existing hread =>
      cases hadvance
      exact { hinvariant with calls := forall_mem_set hinvariant.calls ⟨hsound, existing, rfl⟩ }
    · cases hadvance
  | parsed change app_toml =>
    simp only [config.advance] at hadvance
    split at hadvance
    · next file hwrite =>
      cases hadvance
      obtain ⟨hgood, earlier, rfl⟩ := hsound
      obtain ⟨existing, hread, -⟩ := id hsurvives
      have hload := load_after_write_app hgood.valid.width hread hwrite
      rw [(reloaded_eq_iff hread).2 hsurvives] at hload
      exact { hinvariant with calls := forall_mem_set hinvariant.calls ⟨hgood, hload⟩ }
    · cases hadvance
  | merged change file =>
    cases hadvance
    obtain ⟨hgood, hload⟩ := hsound
    refine { hinvariant with
      disk := fun name => ?_
      calls := forall_mem_eraseIdx hinvariant.calls
      written := forall_mem_append hinvariant.written hgood }
    rw [List.map_append, List.map_singleton, drain_append]
    by_cases hname : name = .app
    · subst hname
      rw [show settle _ (Written.app change).write .app = change.settings from settle_self]
      exact hload
    · rw [settle_of_ne hname]
      exact (hinvariant.disk name).app_of_ne hname
  | checked source =>
    simp only [config.advance] at hadvance
    split at hadvance
    · next file hwrite =>
      cases hadvance
      have hload := ((source_round_trip_iff hsound hwrite).2 (validate_source_of_account hsurvives)).1
      exact { hinvariant with calls := forall_mem_set hinvariant.calls ⟨hload, hsurvives⟩ }
    · cases hadvance
  | mergedSource source file =>
    cases hadvance
    obtain ⟨hload, hvalid⟩ := hsound
    refine { hinvariant with
      disk := fun name => ?_
      calls := forall_mem_eraseIdx hinvariant.calls
      written := forall_mem_append hinvariant.written hvalid }
    rw [List.map_append, List.map_singleton, drain_append]
    by_cases hname : name = .source source.id
    · subst hname
      rw [show settle _ (Written.source source).write (.source source.id) = some source from settle_self]
      show (AList.lookup source.id (AList.insert source.id file state.repository.disk.sources)).map _ = _
      rw [AList.lookup_insert, Option.map_some, hload]
      rfl
    · rw [settle_of_ne hname]
      exact (hinvariant.disk name).source_of_ne hname

theorem ids_upsert {source : AccountSettings} (hnodup : (sources.map (·.id)).Nodup) :
    ((TomlConfigRepository.upsert (·.id) source sources).map (·.id)).Nodup := by
  have hmem : ∀ list : List AccountSettings, ∀ id ∈ (TomlConfigRepository.upsert (·.id) source list).map (·.id),
      id = source.id ∨ id ∈ list.map (·.id) := by
    intro list id hid
    obtain ⟨other, hother, rfl⟩ := List.mem_map.1 hid
    obtain rfl | hold := mem_upsert hother
    · exact .inl rfl
    · exact .inr (List.mem_map_of_mem hold)
  induction sources with
  | nil => simp [TomlConfigRepository.upsert]
  | cons head rest ih =>
    rw [List.map_cons, List.nodup_cons] at hnodup
    rw [TomlConfigRepository.upsert]
    split_ifs with hhead
    · rw [List.map_cons, List.nodup_cons, ← hhead]
      exact hnodup
    · rw [List.map_cons, List.nodup_cons]
      refine ⟨fun hid => ?_, ih hnodup.2⟩
      obtain hsame | hold := hmem rest head.id hid
      · exact hhead hsame
      · exact hnodup.1 hold

/-- No account leaves the snapshot. -/
theorem id_kept_swapped (snapshot : ConfigSnapshot) (write : Written) :
    ∀ source ∈ snapshot.sources, ∃ other ∈ (write.swapped snapshot).sources, other.id = source.id := by
  intro source hsource
  cases write with
  | app change => exact ⟨source, hsource, rfl⟩
  | source account =>
    by_cases hid : source.id = account.id
    · exact ⟨account, self_mem_upsert, hid.symm⟩
    · exact ⟨source, mem_upsert_of_ne hsource hid, rfl⟩

/-- A swap gives the items of its mutation their values and leaves the others. -/
theorem value_swapped (hsound : WriteSound state.snapshot.sources write) (hfresh : Fresh state.snapshot write)
    (item : Item) : item.value (write.swapped state.snapshot) =
      (write.mutation.writes item).getD (item.value state.snapshot) := by
  cases write with
  | app change =>
    show item.value { state.snapshot with app_settings := change.settings } = _
    rw [hsound.sound state.snapshot item]
    show (change.mutation.writes item).getD _ = (change.mutation.writes item).getD _
    cases hwrites : change.mutation.writes item with
    | some value => rfl
    | none => exact hfresh item hwrites
  | source account =>
    cases item with
    | rule id => rfl
    | settings => rfl
    | source id =>
      show ItemValue.source (findSource id (TomlConfigRepository.upsert (·.id) account state.snapshot.sources)) =
        Option.getD (if id = account.id then some (.source (some account)) else none) _
      rw [findSource_upsert]
      split_ifs <;> rfl

theorem ConfigInvariant.swap {index : Nat} (hinvariant : ConfigInvariant state)
    (hwrite : state.written[index]? = some write) (hfresh : Fresh state.snapshot write)
    (holdest : ∀ earlier < index, ∀ other, state.written[earlier]? = some other → other.file ≠ write.file) :
    ConfigInvariant { state with
      repository := { state.repository with snapshot := write.swapped state.snapshot }
      written := state.written.eraseIdx index
      log := state.log ++ [⟨write.mutation, none⟩] } := by
  have hsound := hinvariant.written write (List.mem_of_getElem? hwrite)
  have hkept := id_kept_swapped state.snapshot write
  refine {
    disk := fun file => ?_
    mailboxes := ?_
    accounts := ?_
    source_ids := ?_
    settings := ?_
    calls := fun call hcall => (hinvariant.calls call hcall).mono hkept
    written := fun other hother => (hinvariant.written other (List.mem_of_mem_eraseIdx hother)).mono hkept
    present := ?_
    failures := hinvariant.failures.append (by simp) }
  · show Holds _ _ file (drain ((state.written.eraseIdx index).map Written.write) (write.swapped state.snapshot).view file)
    rw [view_swapped, ← List.eraseIdx_map]
    have hindex : (state.written.map Written.write)[index]? = some write.write := by
      rw [List.getElem?_map, hwrite]
      rfl
    rw [drain_eraseIdx hindex]
    · exact hinvariant.disk file
    · intro earlier hearlier other hother
      rw [List.getElem?_map, Option.map_eq_some_iff] at hother
      obtain ⟨found, hfound, rfl⟩ := hother
      rw [found.write_file, write.write_file]
      exact holdest earlier hearlier found hfound
  · cases write <;> exact hinvariant.mailboxes
  · intro source hsource
    cases write with
    | app change => exact hinvariant.accounts source hsource
    | source account =>
      obtain rfl | hold := mem_upsert hsource
      · exact hsound
      · exact hinvariant.accounts source hold
  · cases write with
    | app change => exact hinvariant.source_ids
    | source account => exact ids_upsert hinvariant.source_ids
  · cases write with
    | app change => exact hsound.valid
    | source account => exact hinvariant.settings.mono hkept
  · show LogPresent (write.swapped state.snapshot) ((state.log ++ [LogEntry.mk write.mutation none]).map LogEntry.mutation)
    rw [List.map_append]
    exact hinvariant.present.append (value_swapped hsound hfresh)

theorem ConfigInvariant.next {action : Action} (hinvariant : ConfigInvariant state) (horderly : Orderly state action)
    (hwidth : action.InWidth) (hnext : next state action = some after) : ConfigInvariant after := by
  cases action with
  | begin mutation => exact hinvariant.begin hwidth hnext
  | advance index =>
    obtain ⟨call, hcall, hadvance⟩ := Option.bind_eq_some_iff.1 hnext
    exact hinvariant.advance hcall (horderly call hcall) hadvance
  | fail index =>
    obtain ⟨call, hcall, rfl⟩ := Option.map_eq_some_iff.1 hnext
    exact { hinvariant with calls := forall_mem_eraseIdx hinvariant.calls }
  | swap index =>
    obtain ⟨write, hwrite, rfl⟩ := Option.map_eq_some_iff.1 hnext
    obtain ⟨hfresh, holdest⟩ := horderly write hwrite
    exact hinvariant.swap hwrite hfresh holdest
  | answer index succeeds =>
    simp only [config.next] at hnext
    split at hnext
    · next mutation hentry =>
      cases hnext
      refine { hinvariant with present := ?_, failures := hinvariant.failures.answer hentry horderly }
      show LogPresent state.snapshot ((state.log.set index ⟨mutation, some succeeds⟩).map LogEntry.mutation)
      rw [mutations_answer hentry]
      exact hinvariant.present
    · cases hnext

end Invariant

section Runs

variable {state : ConfigService} {repository : TomlConfigRepository}

theorem findSource_of_mem {sources : List AccountSettings} {source : AccountSettings}
    (hnodup : (sources.map (·.id)).Nodup) (hmem : source ∈ sources) : findSource source.id sources = some source := by
  induction sources with
  | nil => cases hmem
  | cons head rest ih =>
    rw [List.map_cons, List.nodup_cons] at hnodup
    rw [findSource, List.find?_cons]
    obtain rfl | hrest := List.mem_cons.1 hmem
    · simp
    · have hother : head.id ≠ source.id := fun hsame => hnodup.1 (hsame ▸ List.mem_map_of_mem hrest)
      simp only [hother, decide_false]
      exact ih hnodup.2 hrest

theorem mem_of_findSource {sources : List AccountSettings} {source : AccountSettings} {id : AccountId}
    (hfound : findSource id sources = some source) : source ∈ sources ∧ source.id = id := by
  have hsame := List.find?_some hfound
  exact ⟨List.mem_of_find?_eq_some hfound, of_decide_eq_true hsame⟩

/-- What a directory that loads holds. -/
theorem parts_of_load {config_root : String} {disk : Disk} {snapshot : ConfigSnapshot}
    (hload : load_snapshot_from_disk config_root disk = .ok snapshot) :
    load_app_settings disk.app = .ok snapshot.app_settings ∧
      (∃ accounts, disk.sources.entries.mapM (fun entry => load_source config_root entry.1 entry.2) = .ok accounts ∧
        snapshot.sources.Perm accounts) ∧
      load_smart_mailboxes config_root disk.smart_mailboxes = .ok snapshot.smart_mailboxes ∧
      (snapshot.sources.map (·.id)).Nodup := by
  obtain ⟨settings, happ, hload⟩ := except_bind_eq_ok_iff.mp hload
  obtain ⟨sources, hsources, hload⟩ := except_bind_eq_ok_iff.mp hload
  obtain ⟨mailboxes, hmailboxes, hload⟩ := except_bind_eq_ok_iff.mp hload
  obtain ⟨accounts, haccounts, hsources⟩ := except_bind_eq_ok_iff.mp hsources
  cases hsources
  cases hvalidate : validate_snapshot ⟨settings, accounts.mergeSort fun first second => decide (first.name ≤ second.name),
      mailboxes⟩ with
  | error errors =>
    simp only [hvalidate] at hload
    cases hload
  | ok _ =>
    simp only [hvalidate] at hload
    cases hload
    exact ⟨happ, ⟨accounts, haccounts, List.mergeSort_perm _ _⟩, hmailboxes,
      (validate_snapshot_iff.1 hvalidate).source_ids⟩

/-- Every file of the accounts says what the snapshot says, and the snapshot has no account without a file. -/
theorem holds_of_load (hload : load_snapshot_from_disk repository.config_root repository.disk = .ok repository.snapshot)
    (file : ConfigFile) : Holds repository.config_root repository.disk file (repository.snapshot.view file) := by
  obtain ⟨happ, ⟨accounts, haccounts, hperm⟩, -, hnodup⟩ := parts_of_load hload
  cases file with
  | app => exact happ
  | source id =>
    obtain ⟨hentries, hfrom⟩ := of_mapM_folder haccounts
    show (repository.disk.sources.lookup id).map _ = (findSource id repository.snapshot.sources).map _
    cases hlookup : repository.disk.sources.lookup id with
    | some file =>
      obtain ⟨source, hsource, hread⟩ := hentries ⟨id, file⟩ (AList.mem_lookup_iff.1 hlookup)
      have hid := id_of_load_source hread
      have hfound := findSource_of_mem hnodup (hperm.mem_iff.2 hsource)
      rw [hid] at hfound
      rw [hfound, Option.map_some, Option.map_some]
      exact congrArg some hread
    | none =>
      cases hfound : findSource id repository.snapshot.sources with
      | none => rfl
      | some source =>
        obtain ⟨hsource, rfl⟩ := mem_of_findSource hfound
        obtain ⟨entry, hentry, hread⟩ := hfrom source (hperm.mem_iff.1 hsource)
        have hstem := id_of_load_source hread
        rw [hstem, AList.mem_lookup_iff.2 hentry] at hlookup
        cases hlookup

theorem ConfigInvariant.start (hstart : mutating.start state) : ConfigInvariant state := by
  obtain ⟨hload, hcalls, hwritten, hlog⟩ := hstart
  have hmirrors := @mirrors_of_load state.repository hload
  obtain ⟨-, -, hmailboxes, hnodup⟩ := parts_of_load hload
  refine {
    disk := ?_
    mailboxes := hmailboxes
    accounts := hmirrors.accounts
    source_ids := hnodup
    settings := hmirrors.validSettings
    calls := ?_
    written := ?_
    present := ?_
    failures := ?_ }
  · rw [hwritten]
    exact fun file => @holds_of_load state.repository hload file
  · rw [hcalls]
    exact fun _ hmem => absurd hmem List.not_mem_nil
  · rw [hwritten]
    exact fun _ hmem => absurd hmem List.not_mem_nil
  · rw [hlog]
    exact fun _ _ hfound => nomatch hfound
  · rw [hlog]
    exact fun _ _ hfound => nomatch hfound

/-- With no write under way the snapshot and the directory say the same. -/
theorem ConfigInvariant.consistent (hinvariant : ConfigInvariant state) (hwritten : state.written = []) :
    Consistent state.repository := by
  have hholds : ∀ file, Holds state.repository.config_root state.repository.disk file (state.snapshot.view file) := by
    have hdisk := hinvariant.disk
    rw [hwritten] at hdisk
    exact hdisk
  have hfiles : ∀ stem file, state.repository.disk.sources.lookup stem = some file →
      ∃ source ∈ state.snapshot.sources, load_source state.repository.config_root stem file = .ok source := by
    intro stem file hfile
    have hheld : (state.repository.disk.sources.lookup stem).map _ = (findSource stem state.snapshot.sources).map _ :=
      hholds (.source stem)
    rw [hfile, Option.map_some] at hheld
    obtain ⟨source, hfound, hread⟩ := Option.map_eq_some_iff.1 hheld.symm
    exact ⟨source, (mem_of_findSource hfound).1, hread.symm⟩
  have hstems : ∀ source ∈ state.snapshot.sources, ∃ file, state.repository.disk.sources.lookup source.id = some file ∧
      load_source state.repository.config_root source.id file = .ok source := by
    intro source hsource
    have hheld : (state.repository.disk.sources.lookup source.id).map _ =
      (findSource source.id state.snapshot.sources).map _ := hholds (.source source.id)
    rw [findSource_of_mem hinvariant.source_ids hsource, Option.map_some] at hheld
    exact Option.map_eq_some_iff.1 hheld
  obtain ⟨views, hviews, hsort⟩ := except_bind_eq_ok_iff.mp hinvariant.mailboxes
  have hviewperm : state.snapshot.smart_mailboxes.Perm views := by
    rw [← Except.ok.inj hsort]
    exact List.mergeSort_perm _ _
  obtain ⟨hentries, hfrom⟩ := of_mapM_folder hviews
  have hmirrors : Mirrors state.repository := {
    app := ⟨state.snapshot.app_settings, hholds .app, rfl, rfl, rfl⟩
    sources := hfiles
    stems := fun source hsource => by
      obtain ⟨file, hfile, -⟩ := hstems source hsource
      exact AList.lookup_isSome.1 (Option.isSome_of_mem hfile)
    mailboxes := folderLoads_of_entries fun entry hentry => by
      obtain ⟨view, hview, hread⟩ := hentries entry hentry
      exact ⟨view, hviewperm.mem_iff.2 hview, hread⟩
    default_account := hinvariant.settings.default_account
    accounts := hinvariant.accounts
    rules := hinvariant.settings.rules
    drafts := hinvariant.settings.drafts
    rules_width := hinvariant.settings.width
    mailboxes_width := fun view hview => by
      obtain ⟨entry, -, hread⟩ := hfrom view (hviewperm.mem_iff.1 hview)
      exact width_of_load_mailbox hread }
  obtain ⟨loaded, hload⟩ := hmirrors.loads
  obtain ⟨happ, ⟨accounts, haccounts, hperm⟩, hmailboxes, hnodup⟩ := parts_of_load hload
  obtain ⟨hread, hwhence⟩ := of_mapM_folder haccounts
  refine ⟨loaded, hload, ?_, ?_, ?_⟩
  · exact Except.ok.inj (happ.symm.trans (hholds .app))
  · exact Except.ok.inj (hmailboxes.symm.trans hinvariant.mailboxes)
  · refine (List.perm_ext_iff_of_nodup hnodup.of_map hinvariant.source_ids.of_map).2 fun source => ⟨?_, ?_⟩
    · intro hsource
      obtain ⟨entry, hentry, hentryread⟩ := hwhence source (hperm.mem_iff.1 hsource)
      obtain ⟨other, hother, hsame⟩ := hfiles entry.1 entry.2 (AList.mem_lookup_iff.2 hentry)
      rw [hentryread, Except.ok.injEq] at hsame
      rw [hsame]
      exact hother
    · intro hsource
      obtain ⟨file, hfile, hsame⟩ := hstems source hsource
      obtain ⟨other, hother, hentryread⟩ := hread ⟨source.id, file⟩ (AList.mem_lookup_iff.1 hfile)
      rw [hsame, Except.ok.injEq] at hentryread
      rw [hentryread]
      exact hperm.mem_iff.2 hother

theorem invariant_of_orderly (hreach : mutating.Reachable Orderly state) : ConfigInvariant state := by
  refine hreach.invariant (fun _ hstart => ConfigInvariant.start hstart) ?_
  rintro before action after hinvariant horderly ⟨hwidth, hnext⟩
  exact hinvariant.next horderly hwidth hnext

theorem ConfigInvariant.noneLost (hinvariant : ConfigInvariant state) (hidle : state.Idle) : NoneLost state := by
  intro index entry hentry hacknowledged item value hwrites hlater
  have hmutation : (state.log.map LogEntry.mutation)[index]? = some entry.mutation := by
    rw [List.getElem?_map, hentry]
    rfl
  refine hinvariant.present index entry.mutation hmutation item value hwrites fun later hafter mutation hfound => ?_
  rw [List.getElem?_map] at hfound
  obtain ⟨other, hother, rfl⟩ := Option.map_eq_some_iff.1 hfound
  cases hanswer : other.answer with
  | none => exact absurd hanswer (hidle.answered other (List.mem_of_getElem? hother))
  | some succeeds =>
    cases succeeds with
    | true => exact hlater later hafter other hother hanswer
    | false =>
      obtain hfailed | hdisjoint := hinvariant.failures later other hother hanswer index hafter entry hentry
      · rw [hacknowledged] at hfailed
        cases hfailed
      · obtain hnone | hnone := hdisjoint item
        · exact hnone
        · rw [hwrites] at hnone
          cases hnone

/-- In a run without a lost step every acknowledged mutation is there once no call is running, and the directory loads
    into the snapshot. -/
theorem no_update_lost (hreach : mutating.Reachable Orderly state) (hidle : state.Idle) :
    NoneLost state ∧ Consistent state.repository := by
  have hinvariant := invariant_of_orderly hreach
  exact ⟨hinvariant.noneLost hidle, hinvariant.consistent hidle.written⟩

/-- One more step of a run, from the state it leads to. -/
theorem reach_next {guard : ConfigService → Action → Prop} {after : ConfigService} (action : Action)
    (hreach : mutating.Reachable guard state) (hguard : guard state action) (hwidth : action.InWidth)
    (hnext : next state action = some after) : mutating.Reachable guard after :=
  .next hreach hguard ⟨hwidth, hnext⟩

theorem next_checked {index : Nat} {source : AccountSettings} {file : File}
    (hcall : state.calls[index]? = some (.checked source))
    (hwrite : write_source_toml state.repository.config_root (state.repository.disk.sources.lookup source.id) source =
      .ok file) : next state (.advance index) = some (state.replace index (.mergedSource source file)) := by
  simp only [next, hcall, Option.bind_some, advance, hwrite]

theorem next_parsed {index : Nat} {change : SettingsChange} {app_toml : AppToml} {file : File}
    (hcall : state.calls[index]? = some (.parsed change app_toml))
    (hwrite : write_app_toml state.repository.config_root state.repository.disk.app app_toml = .ok file) :
    next state (.advance index) = some (state.replace index (.merged change file)) := by
  simp only [next, hcall, Option.bind_some, advance, hwrite]

/-- The service on a directory without a file. -/
def fresh : ConfigService := ⟨unconfigured, [], [], []⟩

theorem fresh_starts : mutating.start fresh := ⟨unconfigured_loads, rfl, rfl, rfl⟩

def authorized : AccountSettings := oauth_account oauthSeed "account" RFC3339_EPOCH

theorem saved_account_is_not_lost : ∃ state, state.log = [⟨.save_source authorized, some true⟩] ∧ NoneLost state ∧
    Consistent state.repository := by
  have hsaved : isSaved (write_source_toml "/config" none authorized) = true := by decide
  obtain ⟨file, hwrite⟩ := saved_of_isSaved hsaved
  have hvalid : account_settings_errors authorized = [] := by decide
  have hchecked : mutating.Reachable Orderly { fresh with calls := [.checked authorized] } :=
    reach_next (.begin (.save_source authorized)) (.start fresh_starts) trivial trivial rfl
  have hmerged : mutating.Reachable Orderly { fresh with calls := [.mergedSource authorized file] } := by
    refine reach_next (.advance 0) hchecked ?_ trivial ?_
    · rintro call hcall
      cases hcall
      exact hvalid
    · exact next_checked rfl hwrite
  have hwritten : mutating.Reachable Orderly { fresh with
      repository := { unconfigured with disk := { emptyDisk with sources := AList.insert authorized.id file ∅ } }
      written := [.source authorized] } := by
    refine reach_next (.advance 0) hmerged ?_ trivial rfl
    rintro call hcall
    cases hcall
    trivial
  have hswapped := reach_next (.swap 0) hwritten (by
    rintro write hwrite
    cases hwrite
    exact ⟨trivial, fun _ hearlier => absurd hearlier (Nat.not_lt_zero _)⟩) trivial rfl
  have hanswered := reach_next (.answer 0 true) hswapped (.inl rfl) trivial rfl
  have hnone := no_update_lost hanswered ⟨rfl, rfl, fun entry hentry => by
    rw [List.mem_singleton.1 hentry]
    exact fun hopen => nomatch hopen⟩
  exact ⟨_, rfl, hnone⟩

def filed (id : String) : AutomationRule := ⟨id, id, true, [.Manual], ⟨.mk .All false []⟩, [.Flag], false⟩

def withRule (id : String) : AppSettings := { AppSettings.default with automation_rules := [filed id] }

def filing (id : String) : SettingsChange := ⟨.create_rule (filed id), .default, withRule id⟩

/-- Two rules filed at once: the file of the second, the snapshot of the first. -/
def mixed (file : File) : ConfigService where
  repository := ⟨"/config", { emptyDisk with app := some file }, ⟨withRule "first", [], []⟩⟩
  calls := []
  written := []
  log := [⟨.create_rule (filed "second"), some true⟩, ⟨.create_rule (filed "first"), some true⟩]

theorem overlapping_rules_are_lost : ∃ state, mutating.Reachable TransitionSystem.unguarded state ∧ state.Idle ∧
    ¬ NoneLost state ∧ ¬ Consistent state.repository := by
  have hsaved : ∀ id ∈ ["first", "second"], ∃ file,
      write_app_toml "/config" none (AppToml.from_app_settings (withRule id) .default) = .ok file := by
    intro id hid
    apply saved_of_isSaved
    obtain rfl | hid := List.mem_cons.1 hid
    · decide
    · rw [List.mem_singleton.1 hid]
      decide
  obtain ⟨first, hfirst⟩ := hsaved "first" (by simp)
  obtain ⟨second, hsecond⟩ := hsaved "second" (by simp)
  have hwidth : ∀ id, GroupInWidth (filed id).condition.root := fun _ => trivial
  have hbegun := reach_next (.begin (.create_rule (filed "first")))
    (@TransitionSystem.Reachable.start _ _ _ TransitionSystem.unguarded _ fresh_starts) trivial (hwidth "first") rfl
  have hboth := reach_next (.begin (.create_rule (filed "second"))) hbegun trivial (hwidth "second") rfl
  have hparsed := reach_next (.advance 1) (reach_next (.advance 0) hboth trivial trivial rfl) trivial trivial rfl
  have hmerged := reach_next (.advance 0) hparsed trivial trivial (next_parsed rfl hfirst)
  have hmerged := reach_next (.advance 1) hmerged trivial trivial (next_parsed rfl hsecond)
  have hwritten := reach_next (.advance 0) (reach_next (.advance 0) hmerged trivial trivial rfl) trivial trivial rfl
  have hswapped := reach_next (.swap 0) (reach_next (.swap 1) hwritten trivial trivial rfl) trivial trivial rfl
  have hanswered : mutating.Reachable TransitionSystem.unguarded (mixed second) :=
    reach_next (.answer 1 true) (reach_next (.answer 0 true) hswapped trivial trivial rfl) trivial trivial rfl
  refine ⟨mixed second, hanswered, ⟨rfl, rfl, ?_⟩, ?_, ?_⟩
  · intro entry hentry
    obtain rfl | hentry := List.mem_cons.1 hentry
    · exact fun hopen => nomatch hopen
    · rw [List.mem_singleton.1 hentry]
      exact fun hopen => nomatch hopen
  · intro hnone
    have hlast : ∀ later > 0, ∀ other : LogEntry, (mixed second).log[later]? = some other → other.answer = some true →
        other.mutation.writes (.rule "second") = none := by
      intro later hlater other hother _
      obtain rfl | hafter := Nat.eq_or_lt_of_le hlater
      · cases hother
        rfl
      · have hbound : later < 2 := (List.getElem?_eq_some_iff.1 hother).1
        omega
    have hpresent := hnone 0 ⟨.create_rule (filed "second"), some true⟩ rfl rfl (.rule "second")
      (.rule (some (filed "second"))) rfl hlast
    cases hpresent
  · rintro ⟨loaded, hload, happ, -⟩
    have hrules : RulesInWidth (withRule "second") := by
      refine ⟨fun rule hrule => ?_, fun _ hmem => absurd hmem List.not_mem_nil⟩
      rw [List.mem_singleton.1 hrule]
      exact hwidth "second"
    have hread : load_app_settings (some second) = .ok loaded.app_settings := (parts_of_load hload).1
    rw [load_after_write_app hrules rfl hsecond, happ] at hread
    have hids := congrArg (fun settings => settings.automation_rules.map AutomationRule.id) (Except.ok.inj hread)
    have hids : ["second"] = ["first"] := hids
    exact absurd hids (by decide)

end Runs

end posthaste.config
