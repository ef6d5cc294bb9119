import Mathlib.Algebra.Group.Int.Defs
import Mathlib.Data.List.DropRight
import Posthaste.Engine.Client
import Posthaste.Engine.History
import Posthaste.Library.Batches
import Posthaste.Library.Serde
import Posthaste.Store.Rows

open posthaste.model posthaste.store

namespace posthaste.engine

def EMAIL_CURSOR_KIND : String := "jmap-email"

def EMAIL_METADATA_VERSION : Int := 2

def emailCursor (server_state : String) : serde.Value :=
  .object [
    ("kind", .string EMAIL_CURSOR_KIND), ("metadataVersion", .number EMAIL_METADATA_VERSION),
    ("state", .string server_state)]

/-- The JSON text codec: a cursor's text reads back as the cursor. -/
structure JsonText where
  to_string : serde.Value → String
  from_str : String → Option serde.Value
  from_to : ∀ server_state, from_str (to_string (emailCursor server_state)) = some (emailCursor server_state)

def non_empty_state (state : String) : Option String := if state = "" then none else some state

def encode_email_cursor_state (json : JsonText) (server_state : String) : String :=
  json.to_string (emailCursor server_state)

def as_str : serde.Value → Option String
  | .string text => some text
  | _ => none

def as_u64 : serde.Value → Option Int
  | .number value => if 0 ≤ value ∧ value < 2 ^ 64 then some value else none
  | _ => none

def decode_email_cursor_state (json : JsonText) (state : String) : Option String := do
  let value ← json.from_str state
  let kind ← (value.get "kind").bind as_str
  let metadata_version ← (value.get "metadataVersion").bind as_u64
  if kind ≠ EMAIL_CURSOR_KIND ∨ metadata_version ≠ EMAIL_METADATA_VERSION then none
  else ((value.get "state").bind as_str).bind non_empty_state

/-- A recorded cursor resumes from the state it was recorded at. -/
theorem decode_encode (json : JsonText) (server_state : String) :
    decode_email_cursor_state json (encode_email_cursor_state json server_state) = non_empty_state server_state := by
  unfold decode_email_cursor_state encode_email_cursor_state
  rw [json.from_to]
  rfl

section PlainText

def cursorPrefix : List Char := "\x7b\"kind\":\"jmap-email\",\"metadataVersion\":2,\"state\":\"".toList

def cursorSuffix : List Char := "\"\x7d".toList

/-- The text of a cursor whose state needs no escapes. -/
def plainJson : JsonText where
  to_string value :=
    String.ofList (cursorPrefix ++ (((value.get "state").bind as_str).getD "").toList ++ cursorSuffix)
  from_str text :=
    some (emailCursor (String.ofList ((text.toList.drop cursorPrefix.length).rdrop cursorSuffix.length)))
  from_to server_state := by
    have hstate : (((emailCursor server_state).get "state").bind as_str).getD "" = server_state := rfl
    rw [hstate, String.toList_ofList, List.append_assoc, List.drop_left, List.rdrop_append_length, String.ofList_toList]

end PlainText

structure MessageSync where
  messages : List MessageRecord
  deleted_message_ids : List MessageId
  replace_all_messages : Bool
  cursor : SyncCursor

structure MailboxSync where
  mailboxes : List Mailbox
  deleted_mailbox_ids : List MailboxId
  replace_all_mailboxes : Bool
  cursor : SyncCursor

/-- What the pages of a delta add up to. -/
structure Delta (ρ : Type) where
  upsert : List ρ
  deleted : List String
  current_state : String

/-- Get the objects a chunk of ids at a time. -/
def get_chunks {ρ : Type} (methods : Methods ρ) : List (List String) → Fetch ρ (List ρ)
  | [] => pure []
  | chunk :: rest => do
    let response ← send_get methods chunk
    let later ← get_chunks methods rest
    return response.list ++ later

def get_changed_emails (methods : Methods MessageRecord) (fetch_ids : List String) : Fetch MessageRecord (List MessageRecord) :=
  get_chunks methods (fetch_ids.toChunks 100)

def get_changed_mailboxes (methods : Methods Mailbox) (fetch_ids : List String) : Fetch Mailbox (List Mailbox) :=
  get_chunks methods (if fetch_ids.isEmpty then [] else [fetch_ids])

/-- Follow the pages of changes, fetching what each created or updated. -/
def fetch_delta {ρ : Type} (methods : Methods ρ) (get_changed : List String → Fetch ρ (List ρ)) :
    Nat → Delta ρ → Fetch ρ (Delta ρ)
  | 0, _ => throw .running
  | fuel + 1, delta => do
    let changes ← send_changes methods delta.current_state 500
    let objects ← get_changed (changes.created ++ changes.updated)
    let delta := {
      upsert := delta.upsert ++ objects
      deleted := delta.deleted ++ changes.destroyed
      current_state := changes.new_state }
    if changes.has_more_changes then fetch_delta methods get_changed fuel delta else return delta

def Delta.begin (ρ : Type) (since_state : String) : Delta ρ :=
  { upsert := [], deleted := [], current_state := since_state }

def fetch_email_delta (json : JsonText) (methods : Methods MessageRecord) (fuel : Nat) (since_state : String) :
    Fetch MessageRecord MessageSync := do
  let delta ← fetch_delta methods (get_changed_emails methods) fuel (.begin MessageRecord since_state)
  return {
    messages := delta.upsert, deleted_message_ids := delta.deleted, replace_all_messages := false
    cursor := { object_type := .Message, state := encode_email_cursor_state json delta.current_state } }

def fetch_mailbox_delta (methods : Methods Mailbox) (fuel : Nat) (since_state : String) : Fetch Mailbox MailboxSync := do
  let delta ← fetch_delta methods (get_changed_mailboxes methods) fuel (.begin Mailbox since_state)
  return {
    mailboxes := delta.upsert, deleted_mailbox_ids := delta.deleted, replace_all_mailboxes := false
    cursor := { object_type := .Mailbox, state := delta.current_state } }

/-- Some page reports the object destroyed and no later page reports it created. -/
def removed (id : String) : List ChangesResponse → Bool
  | [] => false
  | page :: later => (page.destroyed.contains id && later.all fun next => !next.created.contains id) || removed id later

section Runs

variable {ρ : Type} {methods : Methods ρ} {session after : Session ρ}

/-- Chunked gets log only gets, and return what these were answered with. -/
theorem get_chunks_ok {chunks : List (List String)} {objects : List ρ}
    (hrun : (get_chunks methods chunks).run session = .ok objects after) :
    ∃ log, after.log = session.log ++ log ∧ changePages log = [] ∧ fetched log = objects := by
  induction chunks generalizing session objects with
  | nil =>
    cases hrun
    exact ⟨[], by simp, rfl, rfl⟩
  | cons chunk rest ih =>
    obtain ⟨response, middle, hget, hnext⟩ := effects.run_bind_eq_ok_iff.mp hrun
    obtain ⟨later, last, hlater, hdone⟩ := effects.run_bind_eq_ok_iff.mp hnext
    cases hdone
    obtain ⟨_, rfl⟩ := request_ok hget
    obtain ⟨log, hlog, hpages, hfetched⟩ := ih hlater
    refine ⟨.get session.sent chunk response :: log, ?_, hpages, ?_⟩
    · rw [hlog]
      simp
    · rw [← hfetched]
      rfl

/-- A delta returns everything its gets were answered with and everything its
    pages reported destroyed. -/
theorem fetch_delta_ok {get_changed : List String → Fetch ρ (List ρ)} {fuel : Nat} {before delta : Delta ρ}
    (hgets : ∀ {ids session objects after}, (get_changed ids).run session = .ok objects after →
      ∃ log, after.log = session.log ++ log ∧ changePages log = [] ∧ fetched log = objects)
    (hrun : (fetch_delta methods get_changed fuel before).run session = .ok delta after) :
    ∃ log, after.log = session.log ++ log ∧ delta.upsert = before.upsert ++ fetched log ∧
      delta.deleted = before.deleted ++ (changePages log).flatMap ChangesResponse.destroyed := by
  induction fuel generalizing session before with
  | zero => cases hrun
  | succ fuel ih =>
    obtain ⟨changes, asked, hchanges, hnext⟩ := effects.run_bind_eq_ok_iff.mp hrun
    obtain ⟨objects, got, hobjects, hrest⟩ := effects.run_bind_eq_ok_iff.mp hnext
    obtain ⟨_, rfl⟩ := request_ok hchanges
    obtain ⟨gets, hlog, hpages, hfetched⟩ := hgets hobjects
    simp only at hrest
    split_ifs at hrest with hmore
    · obtain ⟨rest, hafter, hupsert, hdeleted⟩ := ih hrest
      refine ⟨.changes session.sent before.current_state changes :: (gets ++ rest), ?_, ?_, ?_⟩
      · rw [hafter, hlog]
        simp
      · rw [hupsert, ← hfetched]
        simp [fetched]
      · rw [hdeleted]
        simp [changePages, hpages]
    · cases hrest
      refine ⟨.changes session.sent before.current_state changes :: gets, ?_, ?_, ?_⟩
      · rw [hlog]
        simp
      · rw [← hfetched]
        rfl
      · simp [changePages, hpages]

variable {fuel number : Nat} {since_state : String}

theorem fetch_email_delta_ok {json : JsonText} {methods : Methods MessageRecord} {sync : MessageSync}
    {after : Session MessageRecord}
    (hrun : (fetch_email_delta json methods fuel since_state).run (.begin MessageRecord number) = .ok sync after) :
    sync.messages = fetched after.log ∧
      sync.deleted_message_ids = (changePages after.log).flatMap ChangesResponse.destroyed := by
  obtain ⟨delta, last, hdelta, hdone⟩ := effects.run_bind_eq_ok_iff.mp hrun
  obtain ⟨log, hlog, hupsert, hdeleted⟩ := fetch_delta_ok (fun hgets => get_chunks_ok hgets) hdelta
  cases hdone
  rw [hlog]
  exact ⟨hupsert, hdeleted⟩

theorem fetch_mailbox_delta_ok {methods : Methods Mailbox} {sync : MailboxSync} {after : Session Mailbox}
    (hrun : (fetch_mailbox_delta methods fuel since_state).run (.begin Mailbox number) = .ok sync after) :
    sync.mailboxes = fetched after.log ∧
      sync.deleted_mailbox_ids = (changePages after.log).flatMap ChangesResponse.destroyed := by
  obtain ⟨delta, last, hdelta, hdone⟩ := effects.run_bind_eq_ok_iff.mp hrun
  obtain ⟨log, hlog, hupsert, hdeleted⟩ := fetch_delta_ok (fun hgets => get_chunks_ok hgets) hdelta
  cases hdone
  rw [hlog]
  exact ⟨hupsert, hdeleted⟩

end Runs

section Removals

theorem mem_destroyed_of_removed {id : String} {pages : List ChangesResponse} (hremoved : removed id pages = true) :
    id ∈ pages.flatMap ChangesResponse.destroyed := by
  induction pages with
  | nil => cases hremoved
  | cons page later ih =>
    rw [removed, Bool.or_eq_true, Bool.and_eq_true, List.contains_iff_mem] at hremoved
    rw [List.flatMap_cons, List.mem_append]
    obtain ⟨hhere, _⟩ | hlater := hremoved
    · exact Or.inl hhere
    · exact Or.inr (ih hlater)

/-- The batch has the fetched records and the reported removals of the sync. -/
structure MessageSync.CarriedBy (sync : MessageSync) (batch : SyncBatch) : Prop where
  messages : batch.messages = sync.messages
  deleted_message_ids : batch.deleted_message_ids = sync.deleted_message_ids

structure MailboxSync.CarriedBy (sync : MailboxSync) (batch : SyncBatch) : Prop where
  mailboxes : batch.mailboxes = sync.mailboxes
  deleted_mailbox_ids : batch.deleted_mailbox_ids = sync.deleted_mailbox_ids

/-- No email that the pages report destroyed for good is stored. -/
def EmailRemovalsWin (pages : List ChangesResponse) (stored : DatabaseStore) : Prop :=
  ∀ id, removed id pages = true → stored.message.lookup id = none

def MailboxRemovalsWin (pages : List ChangesResponse) (stored : DatabaseStore) : Prop :=
  ∀ id, removed id pages = true → ∀ mailbox ∈ stored.mailbox, mailbox.id ≠ id

/-- The server sent no object that the pages report destroyed for good. -/
def NoneRemoved {ρ : Type} [JmapObject ρ] (pages : List ChangesResponse) (objects : List ρ) : Prop :=
  ∀ object ∈ objects, removed (JmapObject.id object) pages = false

variable {store stored : DatabaseStore} {batch : SyncBatch}

/-- A deleted message is stored again exactly when the batch upserts it. -/
theorem lookup_deleted_eq_none_iff {id : MessageId} (hdeleted : id ∈ batch.deleted_message_ids)
    (happly : store.apply_sync_batch batch = .ok stored) :
    stored.message.lookup id = none ↔ ∀ record ∈ batch.messages, record.id ≠ id := by
  have hgone : (store.applyRemovals batch).message.lookup id = none := by
    unfold DatabaseStore.applyRemovals
    simp only
    rw [DatabaseStore.lookup_delete_messages_tx, if_pos]
    unfold DatabaseStore.batchDeletions
    simp only
    rw [← BTreeSet.mem_iff, BTreeSet.mem_from_iter]
    exact List.mem_append_left _ hdeleted
  rw [DatabaseStore.lookup_apply_sync_batch happly, hgone]
  obtain ⟨hsame, habsent⟩ | ⟨record, hmem, hid, row, hrow, _⟩ :=
    @rowAfter_cases batch.messages id none
  · exact ⟨fun _ => habsent, fun _ => hsame⟩
  · constructor
    · intro hnone
      rw [hrow] at hnone
      cases hnone
    · intro habsent
      exact absurd hid (habsent record hmem)

theorem mem_ids_upsertMailboxes {id : MailboxId} (mailboxes : List Mailbox) (store : DatabaseStore) :
    (∀ mailbox ∈ (mailboxes.foldl DatabaseStore.upsert_mailbox_tx store).mailbox, mailbox.id ≠ id) ↔
      (∀ mailbox ∈ store.mailbox, mailbox.id ≠ id) ∧ ∀ mailbox ∈ mailboxes, mailbox.id ≠ id := by
  induction mailboxes generalizing store with
  | nil => simp
  | cons first rest ih =>
    have hone : (∀ mailbox ∈ (store.upsert_mailbox_tx first).mailbox, mailbox.id ≠ id) ↔
        (∀ mailbox ∈ store.mailbox, mailbox.id ≠ id) ∧ first.id ≠ id := by
      unfold DatabaseStore.upsert_mailbox_tx
      split_ifs with hstored
      · obtain ⟨known, hknown, hsame⟩ := List.any_eq_true.mp hstored
        have hsame : known.id = first.id := by simpa using hsame
        constructor
        · intro habsent
          have hfirst : first.id ≠ id := habsent first (List.mem_map.mpr ⟨known, hknown, if_pos hsame⟩)
          refine ⟨fun mailbox hmem => ?_, hfirst⟩
          by_cases hid : mailbox.id = first.id
          · rw [hid]
            exact hfirst
          · exact habsent mailbox (List.mem_map.mpr ⟨mailbox, hmem, if_neg hid⟩)
        · rintro ⟨habsent, hfirst⟩ mailbox hmem
          obtain ⟨before, hbefore, rfl⟩ := List.mem_map.mp hmem
          split_ifs
          · exact hfirst
          · exact habsent before hbefore
      · simp [or_imp, forall_and]
    rw [List.foldl_cons, ih, hone, and_assoc, List.forall_mem_cons]

theorem mailbox_applyMessages {messages : List MessageRecord} {store after : DatabaseStore}
    (happly : DatabaseStore.applyMessages messages store = .ok after) : after.mailbox = store.mailbox := by
  induction messages generalizing store with
  | nil =>
    cases happly
    rfl
  | cons record rest ih =>
    unfold DatabaseStore.applyMessages DatabaseStore.apply_message_record_tx at happly
    split_ifs at happly
    · rw [ih happly]
      unfold DatabaseStore.write_through_draft_registry_on_message_upsert_tx
      cases record.draft_id <;> rfl
    · cases happly

theorem mailbox_upsertCursors (cursors : List SyncCursor) (store : DatabaseStore) :
    (cursors.foldl DatabaseStore.upsert_sync_cursor_tx store).mailbox = store.mailbox := by
  induction cursors generalizing store with
  | nil => rfl
  | cons first rest ih =>
    rw [List.foldl_cons, ih]
    unfold DatabaseStore.upsert_sync_cursor_tx
    cases first.object_type <;> rfl

/-- A deleted mailbox is stored again exactly when the batch upserts it. -/
theorem absent_deleted_iff {id : MailboxId} (hdeleted : id ∈ batch.deleted_mailbox_ids)
    (happly : store.apply_sync_batch batch = .ok stored) :
    (∀ mailbox ∈ stored.mailbox, mailbox.id ≠ id) ↔ ∀ mailbox ∈ batch.mailboxes, mailbox.id ≠ id := by
  have hgone : ∀ mailbox ∈ (store.applyRemovals batch).mailbox, mailbox.id ≠ id := by
    intro mailbox hmem hid
    unfold DatabaseStore.applyRemovals at hmem
    simp only at hmem
    rw [DatabaseStore.mailbox_delete_messages_tx, DatabaseStore.mailbox_departures,
      DatabaseStore.mailbox_delete_mailboxes_tx] at hmem
    refine of_decide_eq_true (List.mem_filter.mp hmem).2 ?_
    rw [hid]
    exact hdeleted
  unfold DatabaseStore.apply_sync_batch at happly
  obtain ⟨applied, happlied, hdone⟩ := effects.except_bind_eq_ok_iff.mp happly
  cases hdone
  rw [mailbox_upsertCursors, mailbox_applyMessages happlied, mem_ids_upsertMailboxes]
  exact ⟨fun habsent => habsent.2, fun habsent => ⟨hgone, habsent⟩⟩

section Withdrawn

/-- The chunk a streamed sync emits for a delta. -/
def MessageSync.chunk (sync : MessageSync) : SyncBatch :=
  { (default : SyncBatch) with messages := sync.messages, deleted_message_ids := sync.deleted_message_ids }

def MailboxSync.chunk (sync : MailboxSync) : SyncBatch :=
  { (default : SyncBatch) with mailboxes := sync.mailboxes, deleted_mailbox_ids := sync.deleted_mailbox_ids }

def plainEmail (id : MessageId) : MessageRecord := { (default : MessageRecord) with id := id }

/-- Two emails arrive, and the first is destroyed. -/
def withdrawnEmails : Nat → List MessageRecord
  | 0 => []
  | 1 => [plainEmail "m1"]
  | 2 => [plainEmail "m2", plainEmail "m1"]
  | _ => [plainEmail "m2"]

theorem withdrawnEmails_nodup (moment : Nat) : ((withdrawnEmails moment).map JmapObject.id).Nodup := by
  rcases moment with _ | _ | _ | moment
  · exact List.nodup_nil
  · exact List.nodup_singleton _
  · exact List.nodup_cons.mpr ⟨by decide, List.nodup_singleton _⟩
  · exact List.nodup_singleton _

/-- The first page of changes and its get come before the destruction. -/
def withdrawnMoment (number : Nat) : Nat := if number < 2 then 2 else 3

theorem withdrawnMoment_monotone : Monotone withdrawnMoment := by
  intro first second hle
  unfold withdrawnMoment
  split_ifs <;> omega

def withdrawnHistory : History MessageRecord :=
  .ofObjects withdrawnEmails withdrawnMoment withdrawnEmails_nodup withdrawnMoment_monotone

/-- The first page ends before the second arrival. -/
def withdrawnChoices : History.Choices where
  upto number := if number < 2 then 1 else 3
  cap _ := 5000
  totals := true

def withdrawnServer : Methods MessageRecord := withdrawnHistory.serve withdrawnChoices

def mailboxServer : Methods Mailbox where
  changes _ _ _ := .ok { created := ["inbox"], updated := [], destroyed := [], new_state := "s1", has_more_changes := false }
  get _ _ := .ok { list := [{ id := "inbox", role := some "inbox" }], state := "s1" }
  query _ _ := .error (.Parse "unexpected end of input")

end Withdrawn

/-- The removals of a delta win exactly when the server sent nothing that a page
    reports destroyed for good: the batch deletes first and upserts after. -/
theorem delta_removals_win_iff (json : JsonText) (emails : Methods MessageRecord) (mailboxes : Methods Mailbox)
    (fuel number : Nat) (since_state : String) {store stored : DatabaseStore} {batch : SyncBatch}
    (happly : store.apply_sync_batch batch = .ok stored) :
    (∀ (sync : MessageSync) (after : Session MessageRecord),
      (fetch_email_delta json emails fuel since_state).run (.begin MessageRecord number) = .ok sync after →
      sync.CarriedBy batch →
      (EmailRemovalsWin (changePages after.log) stored ↔ NoneRemoved (changePages after.log) (fetched after.log))) ∧
    ∀ (sync : MailboxSync) (after : Session Mailbox),
      (fetch_mailbox_delta mailboxes fuel since_state).run (.begin Mailbox number) = .ok sync after →
      sync.CarriedBy batch →
      (MailboxRemovalsWin (changePages after.log) stored ↔ NoneRemoved (changePages after.log) (fetched after.log)) := by
  constructor
  · intro sync after hrun hcarried
    obtain ⟨hmessages, hdeleted⟩ := fetch_email_delta_ok hrun
    have hlisted : ∀ {id}, removed id (changePages after.log) = true → id ∈ batch.deleted_message_ids := by
      intro id hremoved
      rw [hcarried.deleted_message_ids, hdeleted]
      exact mem_destroyed_of_removed hremoved
    constructor
    · intro hwin record hmem
      by_contra hremoved
      rw [Bool.not_eq_false] at hremoved
      refine (lookup_deleted_eq_none_iff (hlisted hremoved) happly).mp (hwin record.id hremoved) record ?_ rfl
      rw [hcarried.messages, hmessages]
      exact hmem
    · intro hnone id hremoved
      refine (lookup_deleted_eq_none_iff (hlisted hremoved) happly).mpr ?_
      intro record hmem hid
      rw [hcarried.messages, hmessages] at hmem
      have hfalse : removed record.id (changePages after.log) = false := hnone record hmem
      rw [hid, hremoved] at hfalse
      cases hfalse
  · intro sync after hrun hcarried
    obtain ⟨hmailboxes, hdeleted⟩ := fetch_mailbox_delta_ok hrun
    have hlisted : ∀ {id}, removed id (changePages after.log) = true → id ∈ batch.deleted_mailbox_ids := by
      intro id hremoved
      rw [hcarried.deleted_mailbox_ids, hdeleted]
      exact mem_destroyed_of_removed hremoved
    constructor
    · intro hwin mailbox hmem
      by_contra hremoved
      rw [Bool.not_eq_false] at hremoved
      refine (absent_deleted_iff (hlisted hremoved) happly).mp (hwin mailbox.id hremoved) mailbox ?_ rfl
      rw [hcarried.mailboxes, hmailboxes]
      exact hmem
    · intro hnone id hremoved
      refine (absent_deleted_iff (hlisted hremoved) happly).mpr ?_
      intro mailbox hmem hid
      rw [hcarried.mailboxes, hmailboxes] at hmem
      have hfalse : removed mailbox.id (changePages after.log) = false := hnone mailbox hmem
      rw [hid, hremoved] at hfalse
      cases hfalse

theorem delta_removals_win_arrived :
    (∃ sync after stored,
      (fetch_email_delta plainJson withdrawnServer 2 (History.unaryState 1)).run (.begin MessageRecord 2) = .ok sync after ∧
        DatabaseStore.empty.apply_sync_batch sync.chunk = .ok stored ∧
        NoneRemoved (changePages after.log) (fetched after.log) ∧ EmailRemovalsWin (changePages after.log) stored) ∧
      ∃ sync after stored,
        (fetch_mailbox_delta mailboxServer 1 "s0").run (.begin Mailbox 0) = .ok sync after ∧
          DatabaseStore.empty.apply_sync_batch sync.chunk = .ok stored ∧
          NoneRemoved (changePages after.log) (fetched after.log) ∧
          MailboxRemovalsWin (changePages after.log) stored := by
  constructor
  · have hruns : ∃ sync after stored,
        (fetch_email_delta plainJson withdrawnServer 2 (History.unaryState 1)).run (.begin MessageRecord 2) =
            .ok sync after ∧
          DatabaseStore.empty.apply_sync_batch sync.chunk = .ok stored ∧
          ∀ record ∈ fetched after.log, removed record.id (changePages after.log) = false :=
      ⟨_, _, _, rfl, rfl, by decide⟩
    obtain ⟨sync, after, stored, hrun, happly, hnone⟩ := hruns
    exact ⟨sync, after, stored, hrun, happly, hnone,
      ((delta_removals_win_iff plainJson withdrawnServer mailboxServer 2 2 (History.unaryState 1) happly).1
        sync after hrun ⟨rfl, rfl⟩).mpr hnone⟩
  · have hruns : ∃ sync after stored,
        (fetch_mailbox_delta mailboxServer 1 "s0").run (.begin Mailbox 0) = .ok sync after ∧
          DatabaseStore.empty.apply_sync_batch sync.chunk = .ok stored ∧
          ∀ mailbox ∈ fetched after.log, removed mailbox.id (changePages after.log) = false :=
      ⟨_, _, _, rfl, rfl, by decide⟩
    obtain ⟨sync, after, stored, hrun, happly, hnone⟩ := hruns
    exact ⟨sync, after, stored, hrun, happly, hnone,
      ((delta_removals_win_iff plainJson withdrawnServer mailboxServer 1 0 "s0" happly).2
        sync after hrun ⟨rfl, rfl⟩).mpr hnone⟩

/-- An email created on the first page and destroyed on the second stays in the
    store, and no changes since the recorded cursor ever report it. -/
theorem withdrawn_email_stays :
    withdrawnHistory.Conforms withdrawnServer ∧
      (∃ sync after stored,
        (fetch_email_delta plainJson withdrawnServer 2 (History.unaryState 0)).run (.begin MessageRecord 0) =
            .ok sync after ∧
          sync.cursor.state = encode_email_cursor_state plainJson (withdrawnHistory.state 3) ∧
          DatabaseStore.empty.apply_sync_batch sync.chunk = .ok stored ∧
          removed "m1" (changePages after.log) = true ∧ (stored.message.lookup "m1").isSome = true) ∧
      ∀ later, 3 ≤ later → ¬ withdrawnHistory.content.Reported 3 later "m1" := by
  refine ⟨withdrawnHistory.serve_conforms withdrawnChoices, ⟨_, _, _, rfl, rfl, rfl, ?_, ?_⟩, ?_⟩
  · decide
  · decide
  · intro later hlater hreported
    have hgone : ∀ moment, 3 ≤ moment → withdrawnHistory.content moment "m1" = none := by
      intro moment hmoment
      obtain ⟨past, rfl⟩ := Nat.exists_eq_add_of_le' hmoment
      rfl
    obtain hfirst | hlast := hreported.2
    · exact hfirst (hgone 3 le_rfl)
    · exact hlast (hgone later hlater)

end Removals

end posthaste.engine
