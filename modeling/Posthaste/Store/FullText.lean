import Posthaste.Library.ContentIndex
import Posthaste.Library.Table
import Posthaste.Library.Transition
import Posthaste.DomainModel.Commands

open posthaste.model contentIndex

namespace posthaste.store.fullText

/-- The indexed columns of a message row. -/
structure Headers where
  subject : Option String
  from_name : Option String
  from_email : Option String
  preview : Option String
  deriving DecidableEq

/-- What one entry of `message_fts` indexes. -/
structure Columns extends Headers where
  body : Option String
  deriving DecidableEq

/-- The primary key of both tables: the account and the message. -/
abbrev Key := String × MessageId

local instance : LawfulBEq Key := Prod.instLawfulBEq

structure Message where
  rowid : Int
  account_id : String
  id : MessageId
  headers : Headers

structure Body where
  account_id : String
  message_id : MessageId
  body_text : Option String

def Message.key (message : Message) : Key := (message.account_id, message.id)

def Body.key (body : Body) : Key := (body.account_id, body.message_id)

abbrev BodyTable := Table Body Body.key

/-- The two tables the triggers are on, and the commands they have sent, newest first. -/
structure Database where
  message : Table Message Message.rowid
  primary_key : (message.rows.map Message.key).Nodup
  message_body : BodyTable
  commands : List (Command Int Columns)

/-- The scalar subselect of `body_text`: NULL where there is no row. -/
def body_text (bodies : BodyTable) (key : Key) : Option String := (bodies.find key).bind Body.body_text

/-- One row of the content view. -/
def columns (bodies : BodyTable) (message : Message) : Columns :=
  { message.headers with body := body_text bodies message.key }

/-- The content view by rowid. -/
def message_fts_content (message : Table Message Message.rowid) (bodies : BodyTable) (rowid : Int) : Option Columns :=
  (message.find rowid).map (columns bodies)

section Triggers

variable (bodies : BodyTable) (messages : List Message)

def message_fts_ai (new : Message) : List (Command Int Columns) := [.insert new.rowid (columns bodies new)]

def message_fts_ad (old : Message) : List (Command Int Columns) := [.delete old.rowid (columns bodies old)]

def message_fts_au (old new : Message) : List (Command Int Columns) :=
  [.delete old.rowid (columns bodies old), .insert new.rowid (columns bodies new)]

/-- The message rows with that key. There is at most one. -/
def owning (key : Key) : List Message := messages.filter fun message => message.key = key

/-- The pair of statements of a body trigger, run when the message of the guard exists. -/
def reindex (guard deleted inserted : Key) (before after : Option String) : List (Command Int Columns) :=
  if owning messages guard = [] then []
  else
    (owning messages deleted).map (fun message => .delete message.rowid { message.headers with body := before }) ++
      (owning messages inserted).map fun message => .insert message.rowid { message.headers with body := after }

def message_body_fts_ai (new : Body) : List (Command Int Columns) :=
  reindex messages new.key new.key new.key none new.body_text

def message_body_fts_au (old new : Body) : List (Command Int Columns) :=
  reindex messages new.key old.key new.key old.body_text new.body_text

def message_body_fts_ad (old : Body) : List (Command Int Columns) :=
  reindex messages old.key old.key old.key old.body_text none

end Triggers

namespace Database

variable (db : Database)

/-- The commands a trigger sends, after those before. -/
def send (commands : List (Command Int Columns)) : List (Command Int Columns) := commands.reverse ++ db.commands

/-- INSERT INTO message. The rowid is one that is not in use. A taken key is an error. -/
def insertMessage (row : Message) : Option Database :=
  if hfresh : row.rowid ∉ db.message.rows.map Message.rowid ∧ row.key ∉ db.message.rows.map Message.key then
    some {
      message := ⟨db.message.rows ++ [row], by
        rw [List.map_append, List.map_singleton]
        exact db.message.keys_nodup.append (List.nodup_singleton _) (List.disjoint_singleton.mpr hfresh.1)⟩
      primary_key := by
        rw [List.map_append, List.map_singleton]
        exact db.primary_key.append (List.nodup_singleton _) (List.disjoint_singleton.mpr hfresh.2)
      message_body := db.message_body
      commands := db.send (message_fts_ai db.message_body row) }
  else none

/-- UPDATE message, one row. -/
def updateMessage (old : Message) (headers : Headers) : Database where
  message := db.message.updateIf old.rowid (fun _ => true) (fun row => { row with headers }) fun _ => rfl
  primary_key := by
    have hsame : (db.message.updateIf old.rowid (fun _ => true) (fun row => { row with headers })
        fun _ => rfl).rows.map Message.key = db.message.rows.map Message.key := by
      simp only [Table.updateIf, List.map_map]
      refine List.map_congr_left fun row _ => ?_
      simp only [Function.comp_apply]
      split_ifs <;> rfl
    rw [hsame]
    exact db.primary_key
  message_body := db.message_body
  commands := db.send (message_fts_au db.message_body old { old with headers })

/-- DELETE FROM message, one row. -/
def deleteMessage (old : Message) : Database where
  message := db.message.deleteIf old.rowid fun _ => true
  primary_key := db.primary_key.sublist (List.filter_sublist.map Message.key)
  message_body := db.message_body
  commands := db.send (message_fts_ad db.message_body old)

def insertBody (row : Body) : Option Database :=
  if (db.message_body.find row.key).isSome then none
  else some { db with
    message_body := db.message_body.insertOrIgnore row
    commands := db.send (message_body_fts_ai db.message.rows row) }

def updateBody (old new : Body) : Database :=
  { db with
    message_body := db.message_body.put new
    commands := db.send (message_body_fts_au db.message.rows old new) }

/-- INSERT with ON CONFLICT DO UPDATE. The stored row keeps its rowid. -/
def upsertMessage (row : Message) : Option Database :=
  match db.message.rows.find? fun old => old.key = row.key with
  | some old => some (db.updateMessage old row.headers)
  | none => db.insertMessage row

def upsertBody (row : Body) : Option Database :=
  match db.message_body.find row.key with
  | some old => some (db.updateBody old row)
  | none => db.insertBody row

def deleteBody (old : Body) : Database :=
  { db with
    message_body := db.message_body.deleteIf old.key fun _ => true
    commands := db.send (message_body_fts_ad db.message.rows old) }

end Database

/-- The writes of the two tables. A statement over several rows runs its trigger row by row. -/
inductive Statement where
  | insertMessage (row : Message)
  | upsertMessage (row : Message)
  | updateMessages (chosen : Message → Bool) (change : Headers → Headers)
  | deleteMessages (chosen : Key → Bool)
  | insertBody (row : Body)
  | upsertBody (row : Body)
  | deleteBodies (chosen : Key → Bool)

namespace Database

/-- A statement that fails leaves nothing behind. -/
def step (db : Database) : Statement → Option Database
  | .insertMessage row => db.insertMessage row
  | .upsertMessage row => db.upsertMessage row
  | .updateMessages chosen change =>
    some ((db.message.rows.filter chosen).foldl (fun db old => db.updateMessage old (change old.headers)) db)
  | .deleteMessages chosen =>
    some ((db.message.rows.filter fun old => chosen old.key).foldl deleteMessage db)
  | .insertBody row => db.insertBody row
  | .upsertBody row => db.upsertBody row
  | .deleteBodies chosen =>
    some ((db.message_body.rows.filter fun old => chosen old.key).foldl deleteBody db)

def empty : Database where
  message := Table.empty
  primary_key := List.nodup_nil
  message_body := Table.empty
  commands := []

end Database

/-- The statements the store's own functions run on the two tables. -/
def upsert_message_record_tx (row : Message) : List Statement := [.upsertMessage row]

def upsert_body_tx (row : Body) : List Statement := [.upsertBody row]

def delete_message_tx (account_id : String) (message_id : MessageId) : List Statement :=
  [.deleteBodies (· = (account_id, message_id)), .deleteMessages (· = (account_id, message_id))]

def delete_source_data (account_id : String) : List Statement :=
  [.deleteMessages (·.1 = account_id), .deleteBodies (·.1 = account_id)]

/-- A fresh database and every sequence of writes. -/
def fullTextSystem : TransitionSystem Database Statement :=
  TransitionSystem.ofFunction (fun db => db = Database.empty) Database.step

/-- The index holds the content view. -/
def Database.Synchronised (db : Database) : Prop :=
  Holds db.commands (message_fts_content db.message db.message_body)

section View

variable {message after : Table Message Message.rowid} {bodies : BodyTable} {row old : Message}

theorem content_of_mem (hold : old ∈ message.rows) :
    message_fts_content message bodies old.rowid = some (columns bodies old) := by
  unfold message_fts_content
  rw [Table.find_of_mem hold]
  rfl

theorem content_append (hrows : after.rows = message.rows ++ [row]) (hfresh : message.find row.rowid = none) :
    message_fts_content after bodies =
      Function.update (message_fts_content message bodies) row.rowid (some (columns bodies row)) := by
  funext rowid
  unfold message_fts_content Table.find
  rw [hrows, List.find?_append]
  by_cases hrowid : rowid = row.rowid
  · unfold Table.find at hfresh
    rw [hrowid, Function.update_self, hfresh]
    simp
  · rw [Function.update_of_ne hrowid]
    simp [Ne.symm hrowid]

theorem content_updateIf (hold : old ∈ message.rows) (headers : Headers) :
    message_fts_content
        (message.updateIf old.rowid (fun _ => true) (fun row => { row with headers }) fun _ => rfl) bodies =
      Function.update (message_fts_content message bodies) old.rowid (some (columns bodies { old with headers })) := by
  funext rowid
  unfold message_fts_content
  by_cases hrowid : rowid = old.rowid
  · rw [hrowid, Function.update_self, Table.find_updateIf, Table.find_of_mem hold]
    simp
  · rw [Function.update_of_ne hrowid, Table.find_updateIf_ne hrowid]

theorem content_deleteIf (hold : old ∈ message.rows) :
    message_fts_content (message.deleteIf old.rowid fun _ => true) bodies =
      Function.update (message_fts_content message bodies) old.rowid none := by
  funext rowid
  unfold message_fts_content
  by_cases hrowid : rowid = old.rowid
  · rw [hrowid, Function.update_self, Table.find_deleteIf, Table.find_of_mem hold]
    simp
  · rw [Function.update_of_ne hrowid, Table.find_deleteIf_ne hrowid]

end View

section Bodies

variable {db : Database} {key : Key} {bodies : BodyTable}

/-- A key is that of no message row, or of one. -/
theorem owning_cases (db : Database) (key : Key) :
    (owning db.message.rows key = [] ∧ ∀ stored ∈ db.message.rows, stored.key ≠ key) ∨
      ∃ owner ∈ db.message.rows, owner.key = key ∧ owning db.message.rows key = [owner] := by
  cases howning : owning db.message.rows key with
  | nil =>
    refine Or.inl ⟨rfl, fun stored hstored => ?_⟩
    simpa using List.filter_eq_nil_iff.mp howning stored hstored
  | cons owner rest =>
    have howned : ∀ stored ∈ owner :: rest, stored ∈ db.message.rows ∧ stored.key = key := by
      intro stored hstored
      rw [← howning] at hstored
      simpa [owning] using hstored
    obtain ⟨hstored, hkey⟩ := howned owner List.mem_cons_self
    refine Or.inr ⟨owner, hstored, hkey, ?_⟩
    have hnodup : ((owner :: rest).map Message.key).Nodup := by
      rw [← howning]
      exact db.primary_key.sublist (List.filter_sublist.map Message.key)
    cases rest with
    | nil => rfl
    | cons second rest =>
      obtain ⟨_, hsecond⟩ := howned second (List.mem_cons_of_mem _ List.mem_cons_self)
      simp [hkey, hsecond] at hnodup

/-- Another body under one key changes no row but the one it belongs to. -/
theorem content_of_body (hothers : ∀ other, other ≠ key → body_text bodies other = body_text db.message_body other)
    {rowid : Int} (hrow : ∀ stored, db.message.find rowid = some stored → stored.key ≠ key) :
    message_fts_content db.message bodies rowid = message_fts_content db.message db.message_body rowid := by
  unfold message_fts_content
  refine Option.map_congr fun stored hstored => ?_
  unfold columns
  rw [hothers stored.key (hrow stored hstored)]

/-- The pair of statements of a body trigger indexes the message of the key anew. -/
theorem holds_reindex (hsync : db.Synchronised)
    (hothers : ∀ other, other ≠ key → body_text bodies other = body_text db.message_body other) :
    Holds (db.send (reindex db.message.rows key key key (body_text db.message_body key) (body_text bodies key)))
      (message_fts_content db.message bodies) := by
  unfold Database.send reindex
  obtain ⟨hnone, hunowned⟩ | ⟨owner, howner, hkey, hone⟩ := owning_cases db key
  · have hcontent : message_fts_content db.message bodies = message_fts_content db.message db.message_body := by
      funext rowid
      exact content_of_body hothers fun stored hstored => hunowned stored (Table.mem_of_find hstored)
    rw [if_pos hnone, hcontent]
    exact hsync
  · have hcontent : message_fts_content db.message bodies =
        Function.update (message_fts_content db.message db.message_body) owner.rowid
          (some (columns bodies owner)) := by
      funext rowid
      by_cases hrowid : rowid = owner.rowid
      · rw [hrowid, Function.update_self, content_of_mem howner]
      · rw [Function.update_of_ne hrowid]
        refine content_of_body hothers fun stored hstored hsame => hrowid ?_
        have hrow : stored = owner :=
          List.inj_on_of_nodup_map db.primary_key (Table.mem_of_find hstored) howner (hsame.trans hkey.symm)
        rw [← Table.find_key hstored, hrow]
    rw [hcontent, hone, if_neg (List.cons_ne_nil _ _), ← hkey]
    exact Holds.replace hsync (content_of_mem howner) (columns bodies owner)

end Bodies

namespace Database.Synchronised

variable {db after : Database} {row old : Message}

theorem insertMessage (hsync : db.Synchronised) (hinsert : db.insertMessage row = some after) :
    after.Synchronised := by
  unfold Database.insertMessage at hinsert
  split_ifs at hinsert with hfresh
  obtain rfl := Option.some.inj hinsert
  have hnone : db.message.find row.rowid = none := by
    refine Table.find_eq_none_iff.mpr fun stored hstored hrowid => hfresh.1 ?_
    rw [← hrowid]
    exact List.mem_map_of_mem hstored
  have hnew : message_fts_content db.message db.message_body row.rowid = none := by
    unfold message_fts_content
    rw [hnone]
    rfl
  unfold Database.Synchronised
  rw [content_append rfl hnone]
  exact Holds.insert hsync hnew

theorem updateMessage (hsync : db.Synchronised) (hold : old ∈ db.message.rows) (headers : Headers) :
    (db.updateMessage old headers).Synchronised := by
  unfold Database.Synchronised Database.updateMessage
  rw [content_updateIf hold]
  exact Holds.replace hsync (content_of_mem hold) _

theorem deleteMessage (hsync : db.Synchronised) (hold : old ∈ db.message.rows) :
    (db.deleteMessage old).Synchronised := by
  unfold Database.Synchronised Database.deleteMessage
  rw [content_deleteIf hold]
  exact Holds.delete hsync (content_of_mem hold)

theorem insertBody (hsync : db.Synchronised) {row : Body} (hinsert : db.insertBody row = some after) :
    after.Synchronised := by
  unfold Database.insertBody at hinsert
  split_ifs at hinsert with htaken
  obtain rfl := Option.some.inj hinsert
  have hnone : db.message_body.find row.key = none := by simpa using htaken
  have hfind : ∀ other, (db.message_body.insertOrIgnore row).find other =
      (db.message_body.find other).orElse fun _ => if row.key = other then some row else none :=
    fun other => Table.find_insertOrIgnore _ _ _
  have hbefore : body_text db.message_body row.key = none := by
    unfold body_text
    rw [hnone]
    rfl
  have hafter : body_text (db.message_body.insertOrIgnore row) row.key = row.body_text := by
    unfold body_text
    rw [hfind, hnone]
    simp
  have hothers : ∀ other, other ≠ row.key →
      body_text (db.message_body.insertOrIgnore row) other = body_text db.message_body other := by
    intro other hother
    unfold body_text
    rw [hfind, if_neg (Ne.symm hother)]
    simp
  have hholds := holds_reindex hsync hothers
  rw [hbefore, hafter] at hholds
  exact hholds

theorem updateBody (hsync : db.Synchronised) {old new : Body} (hold : db.message_body.find new.key = some old) :
    (db.updateBody old new).Synchronised := by
  have hkey : old.key = new.key := Table.find_key hold
  have hbefore : body_text db.message_body new.key = old.body_text := by
    unfold body_text
    rw [hold]
    rfl
  have hafter : body_text (db.message_body.put new) new.key = new.body_text := by
    unfold body_text
    rw [Table.find_put_self]
    rfl
  have hothers : ∀ other, other ≠ new.key →
      body_text (db.message_body.put new) other = body_text db.message_body other := by
    intro other hother
    unfold body_text
    rw [Table.find_put_ne hother]
  have hholds := holds_reindex hsync hothers
  rw [hbefore, hafter] at hholds
  unfold Database.Synchronised Database.updateBody message_body_fts_au
  rw [hkey]
  exact hholds

theorem deleteBody (hsync : db.Synchronised) {old : Body} (hold : old ∈ db.message_body.rows) :
    (db.deleteBody old).Synchronised := by
  have hbefore : body_text db.message_body old.key = old.body_text := by
    unfold body_text
    rw [Table.find_of_mem hold]
    rfl
  have hafter : body_text (db.message_body.deleteIf old.key fun _ => true) old.key = none := by
    unfold body_text
    rw [Table.find_deleteIf, Table.find_of_mem hold]
    simp
  have hothers : ∀ other, other ≠ old.key →
      body_text (db.message_body.deleteIf old.key fun _ => true) other = body_text db.message_body other := by
    intro other hother
    unfold body_text
    rw [Table.find_deleteIf_ne hother]
  have hholds := holds_reindex hsync hothers
  rw [hbefore, hafter] at hholds
  exact hholds

theorem upsertMessage (hsync : db.Synchronised) (hupsert : db.upsertMessage row = some after) :
    after.Synchronised := by
  unfold Database.upsertMessage at hupsert
  split at hupsert
  · rename_i old hfind
    obtain rfl := Option.some.inj hupsert
    exact hsync.updateMessage (List.mem_of_find?_eq_some hfind) row.headers
  · exact hsync.insertMessage hupsert

theorem upsertBody (hsync : db.Synchronised) {row : Body} (hupsert : db.upsertBody row = some after) :
    after.Synchronised := by
  unfold Database.upsertBody at hupsert
  split at hupsert
  · rename_i old hfind
    obtain rfl := Option.some.inj hupsert
    exact hsync.updateBody hfind
  · exact hsync.insertBody hupsert

/-- Row by row, each row as the statement read it. -/
theorem foldl {change : Database → Message → Database} {rows : List Message}
    (hchange : ∀ db old, db.Synchronised → old ∈ db.message.rows → (change db old).Synchronised ∧
      ∀ stored ∈ db.message.rows, stored.rowid ≠ old.rowid → stored ∈ (change db old).message.rows)
    (hsync : db.Synchronised) (hrows : ∀ old ∈ rows, old ∈ db.message.rows) (hnodup : (rows.map Message.rowid).Nodup) :
    (rows.foldl change db).Synchronised := by
  induction rows generalizing db with
  | nil => exact hsync
  | cons old rest ih =>
    obtain ⟨hnext, hkept⟩ := hchange db old hsync (hrows old List.mem_cons_self)
    obtain ⟨hold, hrest⟩ := List.nodup_cons.mp hnodup
    refine ih hnext (fun stored hstored => ?_) hrest
    refine hkept stored (hrows stored (List.mem_cons_of_mem _ hstored)) fun hsame => hold ?_
    rw [← hsame]
    exact List.mem_map_of_mem hstored

theorem updateMessages (hsync : db.Synchronised) (chosen : Message → Bool) (change : Headers → Headers) :
    ((db.message.rows.filter chosen).foldl
      (fun db old => db.updateMessage old (change old.headers)) db).Synchronised := by
  refine hsync.foldl (fun db old hbefore hold => ⟨hbefore.updateMessage hold _, fun stored hstored hne => ?_⟩)
    (fun old hold => List.mem_of_mem_filter hold) (db.message.keys_nodup.sublist (List.filter_sublist.map _))
  exact List.mem_map.mpr ⟨stored, hstored, if_neg fun hmatch => hne hmatch.1⟩

theorem deleteMessages (hsync : db.Synchronised) (chosen : Message → Bool) :
    ((db.message.rows.filter chosen).foldl Database.deleteMessage db).Synchronised := by
  refine hsync.foldl (fun db old hbefore hold => ⟨hbefore.deleteMessage hold, fun stored hstored hne => ?_⟩)
    (fun old hold => List.mem_of_mem_filter hold) (db.message.keys_nodup.sublist (List.filter_sublist.map _))
  exact List.mem_filter.mpr ⟨hstored, by simpa using hne⟩

theorem deleteBodies (hsync : db.Synchronised) {rows : List Body} (hrows : ∀ old ∈ rows, old ∈ db.message_body.rows)
    (hnodup : (rows.map Body.key).Nodup) : (rows.foldl Database.deleteBody db).Synchronised := by
  induction rows generalizing db with
  | nil => exact hsync
  | cons old rest ih =>
    obtain ⟨hold, hrest⟩ := List.nodup_cons.mp hnodup
    refine ih (hsync.deleteBody (hrows old List.mem_cons_self)) (fun stored hstored => ?_) hrest
    have hne : stored.key ≠ old.key := by
      intro hsame
      rw [← hsame] at hold
      exact hold (List.mem_map_of_mem hstored)
    exact List.mem_filter.mpr ⟨hrows stored (List.mem_cons_of_mem _ hstored), by simpa using hne⟩

/-- Every statement keeps the index in step. -/
theorem step (hsync : db.Synchronised) {statement : Statement} (hstep : db.step statement = some after) :
    after.Synchronised := by
  cases statement with
  | insertMessage row => exact hsync.insertMessage hstep
  | upsertMessage row => exact hsync.upsertMessage hstep
  | updateMessages chosen change =>
    obtain rfl := Option.some.inj hstep
    exact hsync.updateMessages chosen change
  | deleteMessages chosen =>
    obtain rfl := Option.some.inj hstep
    exact hsync.deleteMessages fun old => chosen old.key
  | insertBody row => exact hsync.insertBody hstep
  | upsertBody row => exact hsync.upsertBody hstep
  | deleteBodies chosen =>
    obtain rfl := Option.some.inj hstep
    refine hsync.deleteBodies (fun old hold => List.mem_of_mem_filter hold) ?_
    exact db.message_body.keys_nodup.sublist (List.filter_sublist.map _)

end Database.Synchronised

theorem synchronised_of_reachable {db : Database}
    (hreach : fullTextSystem.Reachable TransitionSystem.unguarded db) : db.Synchronised := by
  refine hreach.invariant ?_ ?_
  · rintro start rfl
    exact holds_nil
  · intro before statement after hsync _ hstep
    exact Database.Synchronised.step hsync hstep

/-- After every sequence of writes each deletion sent to the index has carried what
    was indexed for its row, and the index holds one entry for each message, as the
    content view has it now. -/
theorem index_is_synchronous {db : Database}
    (hreach : fullTextSystem.Reachable TransitionSystem.unguarded db) :
    (∀ later earlier rowid values, db.commands = later ++ .delete rowid values :: earlier →
      indexed earlier rowid = [values]) ∧
      ∀ rowid, indexed db.commands rowid = (message_fts_content db.message db.message_body rowid).toList := by
  have hsync := synchronised_of_reachable hreach
  refine ⟨fun later earlier rowid values hcommands => ?_, hsync.indexed⟩
  have hexact := hsync.exact
  rw [hcommands] at hexact
  exact hexact.indexed_of_delete

/-- A header row of account a. -/
def headerRow (rowid : Int) (id : MessageId) (subject : String) : Message where
  rowid := rowid
  account_id := "a"
  id := id
  headers := { subject := some subject, from_name := none, from_email := none, preview := none }

/-- A body before its header, the header changed and the body replaced, a message
    deleted, then another under the same rowid. -/
def bodyFirst : List Statement :=
  upsert_body_tx ⟨"a", "m1", some "old text"⟩ ++ upsert_message_record_tx (headerRow 1 "m1" "first") ++
    upsert_message_record_tx (headerRow 2 "m1" "changed") ++ upsert_body_tx ⟨"a", "m1", some "new text"⟩ ++
    upsert_message_record_tx (headerRow 2 "m2" "second") ++ delete_message_tx "a" "m2" ++
    upsert_message_record_tx (headerRow 2 "m3" "third")

theorem index_is_synchronous_bodyFirst :
    ∃ db, fullTextSystem.Reachable TransitionSystem.unguarded db ∧
      (indexed db.commands 1).map (fun values => (values.subject, values.body)) =
        [(some "changed", some "new text")] ∧
      (indexed db.commands 2).map (fun values => (values.subject, values.body)) = [(some "third", none)] ∧
      ∀ later earlier rowid values, db.commands = later ++ .delete rowid values :: earlier →
        indexed earlier rowid = [values] := by
  have hshape : (TransitionSystem.runActions Database.step (fun _ _ => true) Database.empty bodyFirst).map (fun db =>
      ((indexed db.commands 1).map fun values => (values.subject, values.body),
        (indexed db.commands 2).map fun values => (values.subject, values.body))) =
      some ([(some "changed", some "new text")], [(some "third", none)]) := by
    decide
  obtain ⟨db, hrun, hpair⟩ := Option.map_eq_some_iff.mp hshape
  obtain ⟨hfirst, hsecond⟩ := Prod.mk.inj hpair
  have hreach : fullTextSystem.Reachable TransitionSystem.unguarded db :=
    TransitionSystem.reachable_of_runActions (fun _ _ _ => trivial) (.start rfl) hrun
  exact ⟨db, hreach, hfirst, hsecond, (index_is_synchronous hreach).1⟩

end posthaste.store.fullText
