import Posthaste.Store.FullText

open posthaste.model contentIndex

namespace posthaste.store.fullText

/-- What `sqlite_master` says of the `message_fts` table. -/
inductive IndexShape where
  | missing
  | headerOnly
  | bodyIndexing
  deriving DecidableEq

/-- A database file, with a note of whether the backfill has returned since the index took its present shape. -/
structure Archive where
  db : Database
  shape : IndexShape
  backfilled : Bool

namespace Archive

variable (archive : Archive)

/-- An index of the old shape is dropped with its triggers. -/
def migrate_legacy_message_fts : Archive :=
  match archive.shape with
  | .missing | .bodyIndexing => archive
  | .headerOnly => { archive with db := { archive.db with commands := [] }, shape := .missing }

/-- The part of opening that concerns the index. A missing one is created empty. -/
def init_schema : Archive :=
  let migrated := archive.migrate_legacy_message_fts
  match migrated.shape with
  | .missing | .headerOnly =>
    { db := { migrated.db with commands := [] }, shape := .bodyIndexing, backfilled := false }
  | .bodyIndexing => migrated

end Archive

namespace Database

variable (db : Database)

def has_messages : Bool := !db.message.rows.isEmpty

/-- Probed on the sizes the index keeps, not on its rows. -/
def has_index_rows : Bool := !(docsize db.commands).isEmpty

/-- The rebuild reads every row of the content view again. -/
def rebuild : Database :=
  { db with commands := rebuilt (db.message.rows.map fun message => (message.rowid, columns db.message_body message)) }

/-- The database after the backfill, and whether a rebuild ran. -/
def backfill_message_fts : Database × Bool :=
  if !db.has_messages || db.has_index_rows then (db, false) else (db.rebuild, true)

/-- Whether the backfill would rebuild. -/
def backfillDue : Bool := db.has_messages && !db.has_index_rows

/-- Whether a statement makes a trigger send something to the index. -/
def reachesIndex : Statement → Bool
  | .insertMessage _ | .upsertMessage _ => true
  | .updateMessages chosen _ => db.message.rows.any chosen
  | .deleteMessages chosen => db.message.rows.any fun old => chosen old.key
  | .insertBody row | .upsertBody row => !(owning db.message.rows row.key).isEmpty
  | .deleteBodies chosen => db.message_body.rows.any fun old => chosen old.key && !(owning db.message.rows old.key).isEmpty

end Database

inductive ArchiveAction where
  | init_schema
  | write (statement : Statement)
  | backfill_message_fts

/-- Opening, also again after a crash; a write; the deferred backfill. The last two need an open database. -/
def Archive.step (archive : Archive) : ArchiveAction → Option Archive
  | .init_schema => some archive.init_schema
  | .write statement =>
    match archive.shape with
    | .missing | .headerOnly => none
    | .bodyIndexing => (archive.db.step statement).map fun db => { archive with db }
  | .backfill_message_fts =>
    match archive.shape with
    | .missing | .headerOnly => none
    | .bodyIndexing => some { archive with db := archive.db.backfill_message_fts.1, backfilled := true }

/-- Every legacy database, before it is opened. -/
def archiveSystem : TransitionSystem Archive ArchiveAction :=
  TransitionSystem.ofFunction (fun archive => archive.shape ≠ .bodyIndexing ∧ archive.backfilled = false) Archive.step

/-- While the backfill is due, a write stays away from the index. A deletion sent there
    would carry values that were never indexed. -/
def Undisturbed (archive : Archive) (action : ArchiveAction) : Prop :=
  match action with
  | .write statement => archive.db.backfillDue = true → archive.db.reachesIndex statement = false
  | .init_schema | .backfill_message_fts => True

instance (archive : Archive) (action : ArchiveAction) : Decidable (Undisturbed archive action) :=
  match action with
  | .write _ => inferInstanceAs (Decidable (_ = true → _ = false))
  | .init_schema | .backfill_message_fts => .isTrue trivial

section Silent

variable {db after : Database}

theorem commands_deleteBodies {rows : List Body} (hunowned : ∀ old ∈ rows, owning db.message.rows old.key = []) :
    (rows.foldl Database.deleteBody db).commands = db.commands := by
  induction rows generalizing db with
  | nil => rfl
  | cons old rest ih =>
    have hnone : owning db.message.rows old.key = [] := hunowned old List.mem_cons_self
    have hsame : (db.deleteBody old).commands = db.commands := by
      unfold Database.deleteBody Database.send message_body_fts_ad reindex
      simp only [hnone, if_true]
      rfl
    rw [List.foldl_cons, ← hsame]
    exact ih fun other hother => hunowned other (List.mem_cons_of_mem _ hother)

theorem commands_insertBody {row : Body} (hunowned : owning db.message.rows row.key = [])
    (hinsert : db.insertBody row = some after) : after.commands = db.commands := by
  unfold Database.insertBody at hinsert
  split_ifs at hinsert
  cases hinsert
  unfold Database.send message_body_fts_ai reindex
  simp only [hunowned, if_true]
  rfl

/-- A statement that stays away from the index sends it nothing. -/
theorem commands_of_silent {statement : Statement} (hsilent : db.reachesIndex statement = false)
    (hstep : db.step statement = some after) : after.commands = db.commands := by
  cases statement with
  | insertMessage row => cases hsilent
  | upsertMessage row => cases hsilent
  | updateMessages chosen change =>
    cases hstep
    have hnone : db.message.rows.filter chosen = [] := by
      rw [List.filter_eq_nil_iff]
      exact List.any_eq_false.mp hsilent
    rw [hnone]
    rfl
  | deleteMessages chosen =>
    cases hstep
    have hnone : db.message.rows.filter (fun old => chosen old.key) = [] := by
      rw [List.filter_eq_nil_iff]
      exact List.any_eq_false.mp hsilent
    rw [hnone]
    rfl
  | insertBody row =>
    have hnone : owning db.message.rows row.key = [] := by simpa [Database.reachesIndex] using hsilent
    exact commands_insertBody hnone hstep
  | upsertBody row =>
    have hnone : owning db.message.rows row.key = [] := by simpa [Database.reachesIndex] using hsilent
    have hupsert : db.upsertBody row = some after := hstep
    unfold Database.upsertBody at hupsert
    split at hupsert
    · cases hupsert
      unfold Database.updateBody Database.send message_body_fts_au reindex
      simp only [hnone, if_true]
      rfl
    · exact commands_insertBody hnone hupsert
  | deleteBodies chosen =>
    cases hstep
    refine commands_deleteBodies fun old hold => ?_
    obtain ⟨hstored, hchosen⟩ := List.mem_filter.mp hold
    have hquiet := List.any_eq_false.mp hsilent old hstored
    simpa [hchosen] using hquiet

end Silent

section Rebuilt

variable {db : Database}

/-- A rebuilt index holds the content view. -/
theorem synchronised_rebuild (db : Database) : db.rebuild.Synchronised := by
  have hrows : (db.message.rows.map fun message => (message.rowid, columns db.message_body message)).map Prod.fst =
      db.message.rows.map Message.rowid := by
    rw [List.map_map]
    rfl
  have hholds := holds_rebuilt (hrows ▸ db.message.keys_nodup)
  have hcontent : message_fts_content db.message db.message_body = fun rowid =>
      ((db.message.rows.map fun message => (message.rowid, columns db.message_body message)).find?
        (·.1 = rowid)).map Prod.snd := by
    funext rowid
    rw [List.find?_map, Option.map_map]
    rfl
  unfold Database.Synchronised
  show Holds (Database.rebuild db).commands (message_fts_content db.message db.message_body)
  rw [hcontent]
  exact hholds

/-- An index without messages holds their content. -/
theorem synchronised_of_empty (hcommands : db.commands = []) (hmessages : db.has_messages = false) : db.Synchronised := by
  have hrows : db.message.rows = [] := by simpa [Database.has_messages] using hmessages
  have hcontent : message_fts_content db.message db.message_body = fun _ => none := by
    funext rowid
    unfold message_fts_content Table.find
    rw [hrows]
    rfl
  unfold Database.Synchronised
  rw [hcommands, hcontent]
  exact holds_nil

theorem not_has_index_rows (hcommands : db.commands = []) : db.has_index_rows = false := by
  unfold Database.has_index_rows
  rw [hcommands]
  rfl

theorem synchronised_backfill (hindex : db.Synchronised ∨ db.commands = []) :
    db.backfill_message_fts.1.Synchronised := by
  unfold Database.backfill_message_fts
  split_ifs with hdone
  · obtain hsync | hcommands := hindex
    · exact hsync
    · rw [not_has_index_rows hcommands, Bool.or_false, Bool.not_eq_true'] at hdone
      exact synchronised_of_empty hcommands hdone
  · exact synchronised_rebuild db

/-- A message inserted into an empty index stops every rebuild, and the older rows stay out of it. -/
theorem insert_hides_older {after : Database} {row : Message} (hcommands : db.commands = [])
    (hinsert : db.insertMessage row = some after) : after.backfill_message_fts = (after, false) ∧
      ∀ old ∈ db.message.rows, indexed after.commands old.rowid = [] := by
  unfold Database.insertMessage at hinsert
  split_ifs at hinsert with hfresh
  cases hinsert
  have hsent : db.send (message_fts_ai db.message_body row) = [.insert row.rowid (columns db.message_body row)] := by
    unfold Database.send
    rw [hcommands]
    rfl
  constructor
  · unfold Database.backfill_message_fts
    apply if_pos
    unfold Database.has_index_rows
    simp only [hsent]
    exact Bool.or_true _
  · intro old hold
    have hother : row.rowid ≠ old.rowid := fun hsame => hfresh.1 (hsame ▸ List.mem_map_of_mem hold)
    simp only [hsent, indexed, if_neg hother]

end Rebuilt

/-- An open database is in step, or its index is empty and the backfill has not returned. -/
structure Archive.Accounted (archive : Archive) : Prop where
  opened : archive.shape = .bodyIndexing → archive.db.Synchronised ∨ archive.db.commands = []
  backfilled : archive.backfilled = true → archive.db.Synchronised

section Steps

variable {archive after : Archive}

/-- Opening leaves an index of the present shape alone, and creates any other anew. -/
theorem init_schema_cases (archive : Archive) :
    archive.init_schema = archive ∧ archive.shape = .bodyIndexing ∨
      archive.init_schema.shape = .bodyIndexing ∧ archive.init_schema.db.commands = [] ∧
        archive.init_schema.backfilled = false := by
  obtain ⟨db, shape, backfilled⟩ := archive
  cases shape with
  | missing => exact Or.inr ⟨rfl, rfl, rfl⟩
  | headerOnly => exact Or.inr ⟨rfl, rfl, rfl⟩
  | bodyIndexing => exact Or.inl ⟨rfl, rfl⟩

theorem accounted_init_schema (haccounted : archive.Accounted) : archive.init_schema.Accounted := by
  obtain ⟨hsame, _⟩ | ⟨_, hcommands, hnew⟩ := init_schema_cases archive
  · rwa [hsame]
  · refine ⟨fun _ => Or.inr hcommands, fun hbackfilled => ?_⟩
    rw [hnew] at hbackfilled
    exact absurd hbackfilled Bool.false_ne_true

theorem accounted_write (haccounted : archive.Accounted) {statement : Statement}
    (hundisturbed : Undisturbed archive (.write statement)) (hstep : archive.step (.write statement) = some after) :
    after.Accounted := by
  unfold Archive.step at hstep
  cases hshape : archive.shape with
  | missing => simp only [hshape, reduceCtorEq] at hstep
  | headerOnly => simp only [hshape, reduceCtorEq] at hstep
  | bodyIndexing =>
    simp only [hshape] at hstep
    obtain ⟨db, hdb, rfl⟩ := Option.map_eq_some_iff.mp hstep
    refine ⟨fun _ => ?_, fun hbackfilled => (haccounted.backfilled hbackfilled).step hdb⟩
    obtain hsync | hcommands := haccounted.opened hshape
    · exact Or.inl (hsync.step hdb)
    · cases hmessages : archive.db.has_messages with
      | false => exact Or.inl ((synchronised_of_empty hcommands hmessages).step hdb)
      | true =>
        have hdue : archive.db.backfillDue = true := by
          unfold Database.backfillDue
          rw [hmessages, not_has_index_rows hcommands]
          rfl
        exact Or.inr ((commands_of_silent (hundisturbed hdue) hdb).trans hcommands)

theorem accounted_backfill (haccounted : archive.Accounted)
    (hstep : archive.step .backfill_message_fts = some after) : after.Accounted := by
  unfold Archive.step at hstep
  cases hshape : archive.shape with
  | missing => simp only [hshape, reduceCtorEq] at hstep
  | headerOnly => simp only [hshape, reduceCtorEq] at hstep
  | bodyIndexing =>
    simp only [hshape] at hstep
    cases hstep
    have hsync := synchronised_backfill (haccounted.opened hshape)
    exact ⟨fun _ => Or.inl hsync, fun _ => hsync⟩

end Steps

theorem accounted_of_reachable {archive : Archive} (hreach : archiveSystem.Reachable Undisturbed archive) :
    archive.Accounted := by
  refine hreach.invariant ?_ ?_
  · rintro start ⟨hshape, hbackfilled⟩
    refine ⟨fun hopened => absurd hopened hshape, fun hdone => ?_⟩
    rw [hbackfilled] at hdone
    exact absurd hdone Bool.false_ne_true
  · intro before action after haccounted hundisturbed hstep
    cases action with
    | init_schema =>
      cases hstep
      exact accounted_init_schema haccounted
    | write statement => exact accounted_write haccounted hundisturbed hstep
    | backfill_message_fts => exact accounted_backfill haccounted hstep

/-- Once the backfill has returned, and as long as no write went to the index while it
    was due, the index holds every message as the content view has it. -/
theorem backfilled_index_is_complete {archive : Archive} (hreach : archiveSystem.Reachable Undisturbed archive)
    (hbackfilled : archive.backfilled = true) (rowid : Int) : indexed archive.db.commands rowid =
      (message_fts_content archive.db.message archive.db.message_body rowid).toList :=
  ((accounted_of_reachable hreach).backfilled hbackfilled).indexed rowid

section Upgrade

/-- A database of the header-only index with one message. -/
def oldArchive : Archive where
  db := {
    message := ⟨[headerRow 1 "m1" "old"], List.nodup_singleton _⟩
    primary_key := List.nodup_singleton _
    message_body := Table.empty
    commands := [] }
  shape := .headerOnly
  backfilled := false

def arrival : ArchiveAction := .write (.insertMessage (headerRow 2 "m2" "new"))

/-- The archive after the actions. -/
def actedOn (actions : List ArchiveAction) : Archive :=
  (TransitionSystem.runActions Archive.step (fun _ _ => true) oldArchive actions).getD oldArchive

theorem backfilled_index_is_complete_upgrade :
    (actedOn [.init_schema, .backfill_message_fts, arrival]).backfilled = true ∧
      ∀ rowid, indexed (actedOn [.init_schema, .backfill_message_fts, arrival]).db.commands rowid =
        (message_fts_content (actedOn [.init_schema, .backfill_message_fts, arrival]).db.message
          (actedOn [.init_schema, .backfill_message_fts, arrival]).db.message_body rowid).toList := by
  have hstart : archiveSystem.Reachable Undisturbed oldArchive := .start ⟨by decide, rfl⟩
  have hrun : TransitionSystem.runActions Archive.step (fun archive action => decide (Undisturbed archive action))
      oldArchive [.init_schema, .backfill_message_fts, arrival] =
        some (actedOn [.init_schema, .backfill_message_fts, arrival]) := rfl
  have hreach := TransitionSystem.reachable_of_runActions (fun _ _ hguard => of_decide_eq_true hguard) hstart hrun
  exact ⟨rfl, backfilled_index_is_complete hreach rfl⟩

/-- A message that arrives before the backfill leaves the old one out of the index. -/
theorem arrival_hides_the_archive : ¬ ∀ archive : Archive,
    archiveSystem.Reachable TransitionSystem.unguarded archive → archive.backfilled = true → ∀ rowid,
      indexed archive.db.commands rowid = (message_fts_content archive.db.message archive.db.message_body rowid).toList := by
  intro hcomplete
  have hrun : TransitionSystem.runActions Archive.step (fun _ _ => true) oldArchive
      [.init_schema, arrival, .backfill_message_fts] =
        some (actedOn [.init_schema, arrival, .backfill_message_fts]) := rfl
  have hstart : archiveSystem.Reachable TransitionSystem.unguarded oldArchive := .start ⟨by decide, rfl⟩
  have hreach := TransitionSystem.reachable_of_runActions (fun _ _ _ => trivial) hstart hrun
  have hlength := congrArg List.length (hcomplete _ hreach rfl 1)
  exact absurd hlength (by decide)

end Upgrade

end posthaste.store.fullText
