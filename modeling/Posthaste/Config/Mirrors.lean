import Posthaste.Config.Loads

open effects posthaste.model

namespace posthaste.config

/-- Every file of a folder loads, into one of these values. -/
def FolderLoads {α : Type} (load : String → File → Except ConfigError α) (files : AList fun _ : String => File)
    (values : List α) : Prop :=
  ∀ stem file, files.lookup stem = some file → ∃ value ∈ values, load stem file = .ok value

/-- The settings parts that the check of a whole snapshot looks at. -/
structure SameRules (first second : AppSettings) : Prop where
  default_account_id : first.default_account_id = second.default_account_id
  automation_rules : first.automation_rules = second.automation_rules
  automation_drafts : first.automation_drafts = second.automation_drafts

/-- The directory loads, and into what the snapshot says of it. -/
structure Mirrors (repository : TomlConfigRepository) : Prop where
  app : ∃ loaded, load_app_settings repository.disk.app = .ok loaded ∧
    SameRules loaded repository.snapshot.app_settings
  sources : FolderLoads (load_source repository.config_root) repository.disk.sources repository.snapshot.sources
  stems : ∀ source ∈ repository.snapshot.sources, source.id ∈ repository.disk.sources
  mailboxes : FolderLoads (load_smart_mailbox repository.config_root) repository.disk.smart_mailboxes
    repository.snapshot.smart_mailboxes
  default_account : ∀ id, repository.snapshot.app_settings.default_account_id = some id →
    ∃ source ∈ repository.snapshot.sources, source.id = id
  accounts : ∀ source ∈ repository.snapshot.sources, account_settings_errors source = []
  rules : automation_rule_errors repository.snapshot.app_settings.automation_rules = []
  drafts : automation_draft_errors repository.snapshot.app_settings.automation_rules
    repository.snapshot.app_settings.automation_drafts = []
  rules_width : RulesInWidth repository.snapshot.app_settings
  mailboxes_width : ∀ mailbox ∈ repository.snapshot.smart_mailboxes, GroupInWidth mailbox.rule.root

section Folders

variable {α : Type} {load : String → File → Except ConfigError α} {files : AList fun _ : String => File}
  {values after : List α} {id : α → String}

theorem FolderLoads.entries (hloads : FolderLoads load files values) :
    ∀ entry ∈ files.entries, ∃ value ∈ values, load entry.1 entry.2 = .ok value := by
  intro entry hentry
  exact hloads entry.1 entry.2 (AList.mem_lookup_iff.2 hentry)

theorem folderLoads_of_entries (hentries : ∀ entry ∈ files.entries, ∃ value ∈ values, load entry.1 entry.2 = .ok value) :
    FolderLoads load files values := by
  intro stem file hfile
  exact hentries ⟨stem, file⟩ (AList.mem_lookup_iff.1 hfile)

/-- One file written: its value is there, and the values of the other stems stay. -/
theorem FolderLoads.insert (hloads : FolderLoads load files values) {stem : String} {file : File} {value : α}
    (hid : ∀ stem file value, load stem file = .ok value → id value = stem) (hvalue : load stem file = .ok value)
    (hmem : value ∈ after) (hkept : ∀ other ∈ values, id other ≠ stem → other ∈ after) :
    FolderLoads load (files.insert stem file) after := by
  intro name found hfound
  by_cases hname : name = stem
  · subst hname
    rw [AList.lookup_insert, Option.some_inj] at hfound
    subst hfound
    exact ⟨value, hmem, hvalue⟩
  · rw [AList.lookup_insert_ne hname] at hfound
    obtain ⟨other, hother, hload⟩ := hloads name found hfound
    refine ⟨other, hkept other hother ?_, hload⟩
    rw [hid name found other hload]
    exact hname

theorem FolderLoads.erase (hloads : FolderLoads load files values) {stem : String}
    (hid : ∀ stem file value, load stem file = .ok value → id value = stem)
    (hkept : ∀ other ∈ values, id other ≠ stem → other ∈ after) : FolderLoads load (files.erase stem) after := by
  intro name found hfound
  by_cases hname : name = stem
  · subst hname
    rw [AList.lookup_erase] at hfound
    cases hfound
  · rw [AList.lookup_erase_ne hname] at hfound
    obtain ⟨other, hother, hload⟩ := hloads name found hfound
    refine ⟨other, hkept other hother ?_, hload⟩
    rw [hid name found other hload]
    exact hname

theorem mem_upsert {value other : α} :
    other ∈ TomlConfigRepository.upsert id value values → other = value ∨ other ∈ values := by
  induction values with
  | nil => exact fun hmem => .inl (List.mem_singleton.1 hmem)
  | cons head rest ih =>
    rw [TomlConfigRepository.upsert]
    split_ifs with hhead
    · exact fun hmem => (List.mem_cons.1 hmem).imp_right fun hrest => List.mem_cons_of_mem _ hrest
    · intro hmem
      obtain rfl | hrest := List.mem_cons.1 hmem
      · exact .inr List.mem_cons_self
      · exact (ih hrest).imp_right fun hold => List.mem_cons_of_mem _ hold

theorem self_mem_upsert {value : α} : value ∈ TomlConfigRepository.upsert id value values := by
  induction values with
  | nil => exact List.mem_singleton_self _
  | cons head rest ih =>
    rw [TomlConfigRepository.upsert]
    split_ifs with hhead
    · exact List.mem_cons_self
    · exact List.mem_cons_of_mem _ ih

theorem mem_upsert_of_ne {value other : α} (hmem : other ∈ values) (hother : id other ≠ id value) :
    other ∈ TomlConfigRepository.upsert id value values := by
  induction values with
  | nil => cases hmem
  | cons head rest ih =>
    rw [TomlConfigRepository.upsert]
    split_ifs with hhead
    · obtain rfl | hrest := List.mem_cons.1 hmem
      · exact absurd hhead hother
      · exact List.mem_cons_of_mem _ hrest
    · obtain rfl | hrest := List.mem_cons.1 hmem
      · exact List.mem_cons_self
      · exact List.mem_cons_of_mem _ (ih hrest)

end Folders

section Steps

variable {repository after : TomlConfigRepository} {settings : AppSettings} {source : AccountSettings}
  {mailbox : SmartMailbox}

/-- A directory that mirrors its snapshot loads. -/
theorem Mirrors.loads (hmirrors : Mirrors repository) :
    ∃ snapshot, load_snapshot_from_disk repository.config_root repository.disk = .ok snapshot := by
  obtain ⟨loaded, happ, hsame⟩ := hmirrors.app
  have hsources := fun entry hentry => (hmirrors.sources.entries entry hentry).imp fun _ hvalue => hvalue.2
  have hmailboxes := fun entry hentry => (hmirrors.mailboxes.entries entry hentry).imp fun _ hvalue => hvalue.2
  obtain ⟨accounts, haccounts, hids, hfrom⟩ :=
    @mapM_folder _ (load_source repository.config_root) AccountSettings.id (fun _ _ _ => id_of_load_source)
      repository.disk.sources.entries hsources
  obtain ⟨views, hviews, hviewids, -⟩ :=
    @mapM_folder _ (load_smart_mailbox repository.config_root) SmartMailbox.id (fun _ _ _ => id_of_load_mailbox)
      repository.disk.smart_mailboxes.entries hmailboxes
  have hperm := List.mergeSort_perm accounts fun first second => decide (first.name ≤ second.name)
  have hviewperm := List.mergeSort_perm views fun first second => decide (first.id ≤ second.id)
  have hkeys : (accounts.map fun account => account.id).Nodup := by
    rw [hids]
    exact repository.disk.sources.keys_nodup
  have hviewkeys : (views.map fun view => view.id).Nodup := by
    rw [hviewids]
    exact repository.disk.smart_mailboxes.keys_nodup
  have hvalid : ValidSnapshot ⟨loaded, accounts.mergeSort fun first second => decide (first.name ≤ second.name),
      views.mergeSort fun first second => decide (first.id ≤ second.id)⟩ := by
    refine ⟨(hperm.map _).nodup_iff.2 hkeys, (hviewperm.map _).nodup_iff.2 hviewkeys, ?_, ?_, ?_, ?_⟩
    · intro id hid
      rw [hsame.default_account_id] at hid
      obtain ⟨source, hsource, rfl⟩ := hmirrors.default_account id hid
      rw [(hperm.map _).mem_iff, hids]
      exact hmirrors.stems source hsource
    · intro account haccount
      obtain ⟨entry, hentry, hload⟩ := hfrom account (hperm.mem_iff.1 haccount)
      obtain ⟨source, hsource, hsame⟩ := hmirrors.sources.entries entry hentry
      rw [hload, Except.ok.injEq] at hsame
      rw [hsame]
      exact hmirrors.accounts source hsource
    · rw [hsame.automation_rules]
      exact hmirrors.rules
    · rw [hsame.automation_rules, hsame.automation_drafts]
      exact hmirrors.drafts
  refine ⟨⟨loaded, accounts.mergeSort fun first second => decide (first.name ≤ second.name),
    views.mergeSort fun first second => decide (first.id ≤ second.id)⟩, ?_⟩
  rw [load_snapshot_from_disk, happ, except_bind_ok, load_sources, haccounts, except_bind_ok, load_smart_mailboxes,
    hviews, except_bind_ok]
  simp only [pure, Except.pure, except_bind_ok, validate_snapshot_iff.2 hvalid]

/-- Settings saved whose rules pass and whose default account is there. -/
theorem Mirrors.put_app_settings (hmirrors : Mirrors repository) (hput : repository.put_app_settings settings = .ok after)
    (hwidth : RulesInWidth settings) (hrules : automation_rule_errors settings.automation_rules = [])
    (hdrafts : automation_draft_errors settings.automation_rules settings.automation_drafts = [])
    (hdefault : ∀ id, settings.default_account_id = some id → ∃ source ∈ repository.snapshot.sources, source.id = id) :
    Mirrors after ∧ after.snapshot.app_settings = settings ∧ after.snapshot.sources = repository.snapshot.sources := by
  rw [TomlConfigRepository.put_app_settings] at hput
  obtain ⟨file, hsave, hput⟩ := except_bind_eq_ok_iff.mp hput
  cases hput
  obtain ⟨existing, hread, -⟩ := except_bind_eq_ok_iff.mp hsave
  refine ⟨?_, rfl, rfl⟩
  exact { hmirrors with
    app := ⟨reloaded settings existing, load_after_save hwidth hread hsave, ⟨rfl, rfl, rfl⟩⟩
    default_account := hdefault
    rules := hrules
    drafts := hdrafts
    rules_width := hwidth }

/-- A valid account written to its file and put into the snapshot. -/
theorem Mirrors.putSource (hmirrors : Mirrors repository) {file : File} {sources : List AccountSettings}
    (hvalid : account_settings_errors source = [])
    (hload : load_source repository.config_root source.id file = .ok source) (hself : source ∈ sources)
    (hfrom : ∀ other ∈ sources, other = source ∨ other ∈ repository.snapshot.sources)
    (hkept : ∀ other ∈ repository.snapshot.sources, other.id ≠ source.id → other ∈ sources) :
    Mirrors { repository with
      disk := { repository.disk with sources := repository.disk.sources.insert source.id file }
      snapshot := { repository.snapshot with sources := sources } } := by
  refine { hmirrors with sources := ?_, stems := ?_, default_account := ?_, accounts := ?_ }
  · exact hmirrors.sources.insert (fun _ _ _ => id_of_load_source) hload hself hkept
  · intro other hother
    rw [AList.mem_insert]
    obtain rfl | hold := hfrom other hother
    · exact .inl rfl
    · exact .inr (hmirrors.stems other hold)
  · intro id hid
    obtain ⟨other, hother, hsame⟩ := hmirrors.default_account id hid
    by_cases hwritten : other.id = source.id
    · exact ⟨source, hself, hwritten.symm.trans hsame⟩
    · exact ⟨other, hkept other hother hwritten, hsame⟩
  · intro other hother
    obtain rfl | hold := hfrom other hother
    · exact hvalid
    · exact hmirrors.accounts other hold

theorem Mirrors.save_source (hmirrors : Mirrors repository) (hsave : repository.save_source source = .ok after)
    (hvalid : account_settings_errors source = []) : Mirrors after := by
  rw [TomlConfigRepository.save_source] at hsave
  obtain ⟨file, hwrite, hsave⟩ := except_bind_eq_ok_iff.mp hsave
  cases hsave
  obtain ⟨hsafe, hwrite⟩ := saveSource_spec hwrite
  refine hmirrors.putSource hvalid ?_ self_mem_upsert (fun _ hother => mem_upsert hother)
    (fun _ hother hid => mem_upsert_of_ne hother hid)
  exact ((source_round_trip_iff hsafe hwrite).2 (validate_source_of_account hvalid)).1

theorem Mirrors.insert_source (hmirrors : Mirrors repository) (hinsert : repository.insert_source source = .ok after)
    (hvalid : account_settings_errors source = []) : Mirrors after := by
  rw [TomlConfigRepository.insert_source] at hinsert
  obtain ⟨_, hsafe, hinsert⟩ := except_bind_eq_ok_iff.mp hinsert
  split_ifs at hinsert
  obtain ⟨file, hwrite, hinsert⟩ := except_bind_eq_ok_iff.mp hinsert
  cases hinsert
  refine hmirrors.putSource hvalid ?_ (List.mem_append_right _ (List.mem_singleton_self _)) ?_
    (fun _ hother _ => List.mem_append_left _ hother)
  · exact ((source_round_trip_iff hsafe hwrite).2 (validate_source_of_account hvalid)).1
  · intro other hother
    obtain hold | hnew := List.mem_append.1 hother
    · exact .inr hold
    · exact .inl (List.mem_singleton.1 hnew)

/-- An account that is not the default goes. -/
theorem Mirrors.delete_source (hmirrors : Mirrors repository) {id : AccountId}
    (hdefault : repository.snapshot.app_settings.default_account_id ≠ some id) : Mirrors (repository.delete_source id) := by
  have hkept : ∀ other ∈ repository.snapshot.sources, other.id ≠ id →
      other ∈ (repository.delete_source id).snapshot.sources := by
    intro other hother hid
    exact List.mem_filter.2 ⟨hother, by simpa using hid⟩
  refine { hmirrors with sources := ?_, stems := ?_, default_account := ?_, accounts := ?_ }
  · exact hmirrors.sources.erase (fun _ _ _ => id_of_load_source) hkept
  · intro other hother
    obtain ⟨hold, hid⟩ := List.mem_filter.1 hother
    exact AList.mem_erase.2 ⟨by simpa using hid, hmirrors.stems other hold⟩
  · intro account haccount
    obtain ⟨other, hother, rfl⟩ := hmirrors.default_account account haccount
    refine ⟨other, hkept other hother fun hsame => hdefault ?_, rfl⟩
    rw [← hsame]
    exact haccount
  · intro other hother
    exact hmirrors.accounts other (List.mem_filter.1 hother).1

theorem Mirrors.save_smart_mailbox (hmirrors : Mirrors repository)
    (hsave : repository.save_smart_mailbox mailbox = .ok after) (hwidth : GroupInWidth mailbox.rule.root) :
    Mirrors after := by
  rw [TomlConfigRepository.save_smart_mailbox] at hsave
  obtain ⟨file, hwrite, hsave⟩ := except_bind_eq_ok_iff.mp hsave
  cases hsave
  obtain ⟨hsafe, hwrite⟩ := saveSmartMailbox_spec hwrite
  refine { hmirrors with mailboxes := ?_, mailboxes_width := ?_ }
  · exact hmirrors.mailboxes.insert (fun _ _ _ => id_of_load_mailbox)
      (load_smart_mailbox_after_write hwidth hsafe hwrite) self_mem_upsert fun _ hother hid => mem_upsert_of_ne hother hid
  · intro other hother
    obtain rfl | hold := mem_upsert hother
    · exact hwidth
    · exact hmirrors.mailboxes_width other hold

theorem Mirrors.delete_smart_mailbox (hmirrors : Mirrors repository) (id : SmartMailboxId) :
    Mirrors (repository.delete_smart_mailbox id) := by
  refine { hmirrors with mailboxes := ?_, mailboxes_width := ?_ }
  · refine hmirrors.mailboxes.erase (fun _ _ _ => id_of_load_mailbox) fun other hother hid => ?_
    exact List.mem_filter.2 ⟨hother, by simpa using hid⟩
  · intro other hother
    exact hmirrors.mailboxes_width other (List.mem_filter.1 hother).1

end Steps

end posthaste.config
