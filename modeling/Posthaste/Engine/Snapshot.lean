import Posthaste.Engine.Delta
import Posthaste.Engine.Listing

open posthaste.model posthaste.store

namespace posthaste.engine

/-- Where emitted chunks go. The sink of an accumulating fetch never fails. -/
abbrev ChunkSink := SyncBatch → Except GatewayError Unit

/-- The Email state of a get for no ids. -/
def fetch_email_state (methods : Methods MessageRecord) : Fetch MessageRecord String := do
  let response ← send_get methods []
  return response.state

/-- Fetch the listed emails a chunk at a time, and emit each page as it arrives. -/
def stream_chunks (methods : Methods MessageRecord) (sink : ChunkSink) : List (List String) → Fetch MessageRecord Unit
  | [] => pure ()
  | chunk :: rest => do
    let response ← send_get methods chunk
    emit sink { (default : SyncBatch) with messages := response.list }
    stream_chunks methods sink rest

/-- The full snapshot of the emails: its ids, whether they are complete, and its
    cursor, which stands at the state before the listing. -/
structure EmailSnapshot where
  remote_message_ids : List MessageId
  remote_ids_complete : Bool
  cursor : SyncCursor

def fetch_email_full_streamed (json : JsonText) (methods : Methods MessageRecord) (fuel : Nat) (sink : ChunkSink) :
    Fetch MessageRecord EmailSnapshot := do
  let state_before ← fetch_email_state methods
  let (email_ids, remote_ids_complete) ← fetch_all_remote_email_ids methods fuel
  stream_chunks methods sink (email_ids.toChunks 100)
  return {
    remote_message_ids := email_ids, remote_ids_complete
    cursor := { object_type := .Message, state := encode_email_cursor_state json state_before } }

/-- The chunks a run emitted after those already there. -/
def emittedSince {ρ : Type} (session after : Session ρ) : List SyncBatch := after.emitted.drop session.emitted.length

/-- The full snapshot as one batch: the sink collects the pages instead of passing them on. -/
def fetch_email_full (json : JsonText) (methods : Methods MessageRecord) (fuel : Nat) :
    Fetch MessageRecord MessageSync := fun session =>
  match (fetch_email_full_streamed json methods fuel fun _ => .ok ()).run session with
  | .ok snapshot after =>
    .ok {
      messages := (emittedSince session after).flatMap SyncBatch.messages, deleted_message_ids := []
      replace_all_messages := snapshot.remote_ids_complete, cursor := snapshot.cursor }
      { after with emitted := session.emitted }
  | .error halt after => .error halt { after with emitted := session.emitted }

def fetch_mailbox_full (methods : Methods Mailbox) (fuel : Nat) : Fetch Mailbox MailboxSync := do
  let (mailbox_ids, remote_ids_complete) ← fetch_all_remote_mailbox_ids methods fuel
  let response ← send_get methods mailbox_ids
  return {
    mailboxes := response.list, deleted_mailbox_ids := [], replace_all_mailboxes := remote_ids_complete
    cursor := { object_type := .Mailbox, state := response.state } }

/-- Where the server cannot calculate the changes, fall back to the full fetch. -/
def orElseFull {ρ α : Type} (delta full : Fetch ρ α) : Fetch ρ α := fun session =>
  match delta.run session with
  | .error (.failed .CannotCalculateChanges) after => full.run after
  | result => result

def fetch_email_sync (json : JsonText) (methods : Methods MessageRecord) (fuel : Nat) (since_state : Option String) :
    Fetch MessageRecord MessageSync :=
  match since_state.bind (decode_email_cursor_state json) with
  | some state => orElseFull (fetch_email_delta json methods fuel state) (fetch_email_full json methods fuel)
  | none => fetch_email_full json methods fuel

inductive StreamedEmailSync where
  | Delta (sync : MessageSync)
  | FullStreamed (snapshot : EmailSnapshot)

def fetch_email_sync_streamed (json : JsonText) (methods : Methods MessageRecord) (fuel : Nat)
    (since_state : Option String) (sink : ChunkSink) : Fetch MessageRecord StreamedEmailSync :=
  match since_state.bind (decode_email_cursor_state json) with
  | some state =>
    orElseFull (StreamedEmailSync.Delta <$> fetch_email_delta json methods fuel state)
      (StreamedEmailSync.FullStreamed <$> fetch_email_full_streamed json methods fuel sink)
  | none => StreamedEmailSync.FullStreamed <$> fetch_email_full_streamed json methods fuel sink

def fetch_mailbox_sync (methods : Methods Mailbox) (fuel : Nat) (since_state : Option String) :
    Fetch Mailbox MailboxSync :=
  match since_state.bind non_empty_state with
  | some state => orElseFull (fetch_mailbox_delta methods fuel state) (fetch_mailbox_full methods fuel)
  | none => fetch_mailbox_full methods fuel

/-- The stored cursor of one kind of object. -/
def cursorState (cursors : List SyncCursor) (object_type : SyncObject) : Option String :=
  (cursors.find? (·.object_type = object_type)).map SyncCursor.state

/-- The batch of a sync that was not streamed. -/
def syncBatch (mailbox_sync : MailboxSync) (email_sync : MessageSync) : SyncBatch where
  mailboxes := mailbox_sync.mailboxes
  messages := email_sync.messages
  deleted_imap_message_locations := []
  deleted_mailbox_ids := mailbox_sync.deleted_mailbox_ids
  deleted_message_ids := email_sync.deleted_message_ids
  absence_deleted_imap_message_locations := []
  absence_deleted_message_ids := []
  replace_all_mailboxes := mailbox_sync.replace_all_mailboxes
  replace_all_messages := email_sync.replace_all_messages
  cursors := [mailbox_sync.cursor, email_sync.cursor]

/-- What a streamed sync leaves for the reconciliation, if anything. -/
def reconciliationOf (mailbox_sync : MailboxSync) : StreamedEmailSync → Option SyncReconciliation
  | .Delta message_sync =>
    if mailbox_sync.replace_all_mailboxes then
      some {
        remote_message_ids := [], remote_mailbox_ids := mailbox_sync.mailboxes.map Mailbox.id
        prune_messages := false, prune_mailboxes := true
        cursors := [mailbox_sync.cursor, message_sync.cursor] }
    else none
  | .FullStreamed snapshot =>
    some {
      remote_message_ids := snapshot.remote_message_ids
      remote_mailbox_ids :=
        if mailbox_sync.replace_all_mailboxes then mailbox_sync.mailboxes.map Mailbox.id else []
      prune_messages := snapshot.remote_ids_complete
      prune_mailboxes := mailbox_sync.replace_all_mailboxes
      cursors := [mailbox_sync.cursor, snapshot.cursor] }

/-- A sync that is not streamed: mailboxes first, then emails. -/
def sync_account (json : JsonText) (mailboxes : Methods Mailbox) (emails : Methods MessageRecord) (fuel : Nat)
    (cursors : List SyncCursor) (number : Nat) : Except Halt SyncBatch :=
  match (fetch_mailbox_sync mailboxes fuel (cursorState cursors .Mailbox)).run (.begin Mailbox number) with
  | .error halt _ => .error halt
  | .ok mailbox_sync session =>
    match (fetch_email_sync json emails fuel (cursorState cursors .Message)).run (.begin MessageRecord session.sent) with
    | .error halt _ => .error halt
    | .ok email_sync _ => .ok (syncBatch mailbox_sync email_sync)

/-- The chunk of a mailbox sync. A full snapshot deletes nothing here. -/
def MailboxSync.upserts (sync : MailboxSync) : SyncBatch :=
  { (default : SyncBatch) with
    mailboxes := sync.mailboxes
    deleted_mailbox_ids := if sync.replace_all_mailboxes then [] else sync.deleted_mailbox_ids }

def emit_mailboxes (sink : ChunkSink) (sync : MailboxSync) : Fetch MessageRecord Unit :=
  if !sync.mailboxes.isEmpty || !sync.deleted_mailbox_ids.isEmpty then emit sink sync.upserts else pure ()

/-- A delta goes out as one chunk, with the cursors when nothing is left to reconcile. -/
def emit_delta (sink : ChunkSink) (mailbox_sync : MailboxSync) : StreamedEmailSync → Fetch MessageRecord Unit
  | .Delta sync =>
    emit sink { sync.chunk with
      cursors := if mailbox_sync.replace_all_mailboxes then [] else [mailbox_sync.cursor, sync.cursor] }
  | .FullStreamed _ => pure ()

/-- The part of a streamed sync after the mailboxes are fetched. -/
def stream_emails (json : JsonText) (methods : Methods MessageRecord) (fuel : Nat) (message_cursor : Option String)
    (sink : ChunkSink) (mailbox_sync : MailboxSync) : Fetch MessageRecord (Option SyncReconciliation) := do
  emit_mailboxes sink mailbox_sync
  let email ← fetch_email_sync_streamed json methods fuel message_cursor sink
  emit_delta sink mailbox_sync email
  return reconciliationOf mailbox_sync email

def sync_account_streamed (json : JsonText) (mailboxes : Methods Mailbox) (emails : Methods MessageRecord) (fuel : Nat)
    (cursors : List SyncCursor) (sink : ChunkSink) (number : Nat) : Except Halt (Option SyncReconciliation) :=
  match (fetch_mailbox_sync mailboxes fuel (cursorState cursors .Mailbox)).run (.begin Mailbox number) with
  | .error halt _ => .error halt
  | .ok mailbox_sync session =>
    match (stream_emails json emails fuel (cursorState cursors .Message) sink mailbox_sync).run
        (.begin MessageRecord session.sent) with
    | .error halt _ => .error halt
    | .ok reconciliation _ => .ok reconciliation

section Runs

theorem stream_chunks_ok {methods : Methods MessageRecord} {sink : ChunkSink} {chunks : List (List String)}
    {session after : Session MessageRecord} (hrun : (stream_chunks methods sink chunks).run session = .ok () after) :
    ∃ log emitted, Exchanged methods session after log ∧ queryPages log = [] ∧ requested log = chunks.flatten ∧
      after.emitted = session.emitted ++ emitted ∧ emitted.flatMap SyncBatch.messages = fetched log := by
  induction chunks generalizing session with
  | nil =>
    cases hrun
    exact ⟨[], [], .refl _ _, rfl, rfl, (List.append_nil _).symm, rfl⟩
  | cons chunk rest ih =>
    obtain ⟨response, asked, hget, hnext⟩ := effects.run_bind_eq_ok_iff.mp hrun
    obtain ⟨_, emitted, hemit, hrest⟩ := effects.run_bind_eq_ok_iff.mp hnext
    obtain ⟨_, hasked⟩ := request_ok hget
    have hexchange := send_get_ok hget
    have hemitted := emit_ok hemit
    obtain ⟨log, later, hlog, hpages, hrequested, hlater, hmessages⟩ := ih hrest
    have hmiddle : Exchanged methods asked emitted [] := by
      rw [hemitted]
      exact ⟨(List.append_nil _).symm, rfl, trivial⟩
    refine ⟨_, { (default : SyncBatch) with messages := response.list } :: later, hexchange.trans (hmiddle.trans hlog),
      hpages, ?_, ?_, ?_⟩
    · simp [requested, hrequested]
    · rw [hlater, hemitted, hasked]
      simp
    · rw [List.flatMap_cons, hmessages]
      rfl

/-- A full email fetch anchors its cursor, lists, and gets what it listed. -/
structure EmailFullRun (json : JsonText) (methods : Methods MessageRecord) (fuel : Nat) (session after : Session MessageRecord)
    (snapshot : EmailSnapshot) (pages gets : List (Exchange MessageRecord)) : Prop where
  run : ∃ anchor, Exchanged methods session after (.get session.sent [] anchor :: (pages ++ gets)) ∧
    snapshot.cursor = { object_type := .Message, state := encode_email_cursor_state json anchor.state }
  listed : ∃ before middle, session.sent < before.sent ∧ Exchanged methods before middle pages ∧
    (fetch_all_remote_email_ids methods fuel).run before =
      .ok (snapshot.remote_message_ids, snapshot.remote_ids_complete) middle
  walk : (snapshot.remote_message_ids, snapshot.remote_ids_complete) =
    Listing.begin.walk FULL_SNAPSHOT_EMAIL_QUERY_PAGE_SIZE true none (queryPages pages)
  pages_requested : requested pages = []
  gets_pages : queryPages gets = []
  gets_requested : requested gets = snapshot.remote_message_ids
  emitted : (emittedSince session after).flatMap SyncBatch.messages = fetched gets

theorem fetch_email_full_streamed_ok {json : JsonText} {methods : Methods MessageRecord} {fuel : Nat}
    {sink : ChunkSink} {session after : Session MessageRecord} {snapshot : EmailSnapshot}
    (hrun : (fetch_email_full_streamed json methods fuel sink).run session = .ok snapshot after) :
    ∃ pages gets, EmailFullRun json methods fuel session after snapshot pages gets := by
  obtain ⟨state, anchored, hstate, hnext⟩ := effects.run_bind_eq_ok_iff.mp hrun
  obtain ⟨listed, middle, hlisted, hrest⟩ := effects.run_bind_eq_ok_iff.mp hnext
  obtain ⟨_, last, hstream, hdone⟩ := effects.run_bind_eq_ok_iff.mp hrest
  obtain ⟨anchor, asked, hget, hstate⟩ := effects.run_bind_eq_ok_iff.mp hstate
  cases hstate
  cases hdone
  have hasked := send_get_ok hget
  have hkept : anchored.emitted = session.emitted := by rw [(request_ok hget).2]
  obtain ⟨pages, hpages, hnone, hemitted, hwalk⟩ := list_email_pages_ok hlisted
  obtain ⟨gets, chunks, hgets, hqueries, hrequested, hchunks, hmessages⟩ := stream_chunks_ok hstream
  refine ⟨pages, gets, ?_⟩
  constructor
  · exact ⟨anchor, hasked.trans (hpages.trans hgets), rfl⟩
  · refine ⟨anchored, middle, ?_, hpages, hlisted⟩
    rw [hasked.sent_eq]
    exact Nat.lt_succ_self _
  · exact hwalk
  · exact hnone
  · exact hqueries
  · rw [hrequested, List.flatten_toChunks]
  · unfold emittedSince
    rw [hchunks, hemitted, hkept, List.drop_left, hmessages]

/-- A full mailbox fetch lists, and then gets what it listed. -/
theorem fetch_mailbox_full_ok {methods : Methods Mailbox} {fuel : Nat} {session after : Session Mailbox} {sync : MailboxSync}
    (hrun : (fetch_mailbox_full methods fuel).run session = .ok sync after) :
    ∃ ids pages middle response,
      (fetch_all_remote_mailbox_ids methods fuel).run session = .ok (ids, sync.replace_all_mailboxes) middle ∧
      Exchanged methods session middle pages ∧ Exchanged methods middle after [.get middle.sent ids response] ∧
      requested pages = [] ∧
      (ids, sync.replace_all_mailboxes) =
        Listing.begin.walk FULL_SNAPSHOT_MAILBOX_QUERY_PAGE_SIZE false none (queryPages pages) ∧
      sync.mailboxes = response.list ∧ sync.cursor = { object_type := .Mailbox, state := response.state } := by
  obtain ⟨listed, middle, hlisted, hnext⟩ := effects.run_bind_eq_ok_iff.mp hrun
  obtain ⟨response, asked, hget, hdone⟩ := effects.run_bind_eq_ok_iff.mp hnext
  cases hdone
  obtain ⟨pages, hpages, hnone, _, hwalk⟩ := @list_mailbox_pages_ok _ _ _ _ _ _ _ none hlisted
  exact ⟨listed.1, pages, middle, response, hlisted, hpages, send_get_ok hget, hnone, hwalk, rfl, rfl⟩

end Runs

end posthaste.engine
