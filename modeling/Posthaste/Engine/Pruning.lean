import Posthaste.Engine.Snapshot

open posthaste.model posthaste.store

namespace posthaste.engine

/-- Some listing of the emails returned these ids as complete. -/
def EmailsListed (methods : Methods MessageRecord) (ids : List String) : Prop :=
  ∃ fuel session after, (fetch_all_remote_email_ids methods fuel).run session = .ok (ids, true) after

def MailboxesListed (methods : Methods Mailbox) (ids : List String) : Prop :=
  ∃ fuel session after, (fetch_all_remote_mailbox_ids methods fuel).run session = .ok (ids, true) after

section Fetches

variable {json : JsonText} {emails : Methods MessageRecord} {mailboxes : Methods Mailbox} {fuel : Nat}
  {email_history : History MessageRecord} {mailbox_history : History Mailbox}

theorem orElseFull_ok {ρ α : Type} {delta full : Fetch ρ α} {session after : Session ρ} {value : α}
    (hrun : (orElseFull delta full).run session = .ok value after) :
    delta.run session = .ok value after ∨ ∃ middle, full.run middle = .ok value after := by
  simp only [orElseFull, EStateM.run] at hrun
  cases hdelta : delta.run session with
  | ok found middle =>
    rw [show delta session = .ok found middle from hdelta] at hrun
    cases hrun
    exact Or.inl rfl
  | error halt middle =>
    rw [show delta session = .error halt middle from hdelta] at hrun
    cases halt with
    | running => cases hrun
    | failed error => cases error <;> first | exact Or.inr ⟨middle, hrun⟩ | cases hrun

theorem map_ok {ρ α β : Type} {fetch : Fetch ρ α} {change : α → β} {session after : Session ρ} {result : β}
    (hrun : (change <$> fetch).run session = .ok result after) :
    ∃ value, fetch.run session = .ok value after ∧ change value = result := by
  rw [map_eq_pure_bind] at hrun
  obtain ⟨value, middle, hfetch, hdone⟩ := effects.run_bind_eq_ok_iff.mp hrun
  cases hdone
  exact ⟨value, hfetch, rfl⟩

/-- What the gets of a conforming server's run send was asked for. -/
theorem id_mem_requested {ρ : Type} [JmapObject ρ] {history : History ρ} {methods : Methods ρ}
    (hconforms : history.Conforms methods) {number : Nat} {log : List (Exchange ρ)}
    (hlog : AnsweredFrom methods number log) {object : ρ} (hmem : object ∈ fetched log) :
    JmapObject.id object ∈ requested log := by
  obtain ⟨at_, ids, response, hget, hlisted⟩ := mem_fetched.mp hmem
  obtain ⟨found, ⟨rfl, hanswer⟩, _, _⟩ := hlog.number hget
  exact mem_requested.mpr ⟨at_, ids, response, hget, (((hconforms.get hanswer).2 object).mp hlisted).2⟩

theorem fetch_email_full_listed (hconforms : email_history.Conforms emails) {session after : Session MessageRecord}
    {sync : MessageSync} (hrun : (fetch_email_full json emails fuel).run session = .ok sync after)
    (hreplace : sync.replace_all_messages = true) :
    ∃ ids, EmailsListed emails ids ∧ ∀ record ∈ sync.messages, record.id ∈ ids := by
  simp only [fetch_email_full, EStateM.run] at hrun
  cases hfull : (fetch_email_full_streamed json emails fuel fun _ => .ok ()).run session with
  | error halt middle =>
    rw [show (fetch_email_full_streamed json emails fuel fun _ => .ok ()) session = .error halt middle from hfull] at hrun
    cases hrun
  | ok snapshot middle =>
    rw [show (fetch_email_full_streamed json emails fuel fun _ => .ok ()) session = .ok snapshot middle from hfull] at hrun
    cases hrun
    obtain ⟨pages, gets, hgot⟩ := fetch_email_full_streamed_ok hfull
    obtain ⟨before, last, _, _, hlisted⟩ := hgot.listed
    obtain ⟨anchor, hexchanged, _⟩ := hgot.run
    rw [show snapshot.remote_ids_complete = true from hreplace] at hlisted
    refine ⟨snapshot.remote_message_ids, ⟨fuel, before, last, hlisted⟩, ?_⟩
    intro record hmem
    have hfetched : record ∈ fetched (Exchange.get session.sent [] anchor :: (pages ++ gets)) := by
      rw [show (emittedSince session middle).flatMap SyncBatch.messages = fetched gets from hgot.emitted] at hmem
      simp [fetched, hmem]
    have hrequested : record.id ∈ requested (Exchange.get session.sent [] anchor :: (pages ++ gets)) :=
      id_mem_requested hconforms hexchanged.answered hfetched
    rw [requested, List.nil_append, requested_append, hgot.pages_requested, List.nil_append, hgot.gets_requested]
      at hrequested
    exact hrequested

theorem fetch_mailbox_full_listed (hconforms : mailbox_history.Conforms mailboxes) {session after : Session Mailbox}
    {sync : MailboxSync} (hrun : (fetch_mailbox_full mailboxes fuel).run session = .ok sync after)
    (hreplace : sync.replace_all_mailboxes = true) :
    ∃ ids, MailboxesListed mailboxes ids ∧ ∀ mailbox ∈ sync.mailboxes, mailbox.id ∈ ids := by
  obtain ⟨ids, pages, middle, response, hlisted, _, hget, _, _, hmailboxes, _⟩ := fetch_mailbox_full_ok hrun
  rw [hreplace] at hlisted
  refine ⟨ids, ⟨fuel, session, middle, hlisted⟩, ?_⟩
  intro mailbox hmem
  rw [hmailboxes] at hmem
  obtain ⟨_, hanswer⟩ := hget.answered.1
  exact (((hconforms.get hanswer).2 mailbox).mp hmem).2

theorem fetch_email_sync_listed (hconforms : email_history.Conforms emails) {since_state : Option String}
    {session after : Session MessageRecord} {sync : MessageSync}
    (hrun : (fetch_email_sync json emails fuel since_state).run session = .ok sync after)
    (hreplace : sync.replace_all_messages = true) :
    ∃ ids, EmailsListed emails ids ∧ ∀ record ∈ sync.messages, record.id ∈ ids := by
  unfold fetch_email_sync at hrun
  cases hstate : since_state.bind (decode_email_cursor_state json) with
  | none =>
    rw [hstate] at hrun
    exact fetch_email_full_listed hconforms hrun hreplace
  | some state =>
    rw [hstate] at hrun
    obtain hdelta | ⟨middle, hfull⟩ := orElseFull_ok hrun
    · obtain ⟨delta, last, _, hdone⟩ := effects.run_bind_eq_ok_iff.mp hdelta
      cases hdone
      cases hreplace
    · exact fetch_email_full_listed hconforms hfull hreplace

theorem fetch_mailbox_sync_listed (hconforms : mailbox_history.Conforms mailboxes) {since_state : Option String}
    {session after : Session Mailbox} {sync : MailboxSync}
    (hrun : (fetch_mailbox_sync mailboxes fuel since_state).run session = .ok sync after)
    (hreplace : sync.replace_all_mailboxes = true) :
    ∃ ids, MailboxesListed mailboxes ids ∧ ∀ mailbox ∈ sync.mailboxes, mailbox.id ∈ ids := by
  unfold fetch_mailbox_sync at hrun
  cases hstate : since_state.bind non_empty_state with
  | none =>
    rw [hstate] at hrun
    exact fetch_mailbox_full_listed hconforms hrun hreplace
  | some state =>
    rw [hstate] at hrun
    obtain hdelta | ⟨middle, hfull⟩ := orElseFull_ok hrun
    · obtain ⟨delta, last, _, hdone⟩ := effects.run_bind_eq_ok_iff.mp hdelta
      cases hdone
      cases hreplace
    · exact fetch_mailbox_full_listed hconforms hfull hreplace

/-- The messages of a full streamed sync are pruned by a listing that counted as complete. -/
theorem fetch_email_sync_streamed_listed {since_state : Option String} {sink : ChunkSink}
    {session after : Session MessageRecord} {snapshot : EmailSnapshot}
    (hrun : (fetch_email_sync_streamed json emails fuel since_state sink).run session =
      .ok (.FullStreamed snapshot) after) (hcomplete : snapshot.remote_ids_complete = true) :
    EmailsListed emails snapshot.remote_message_ids := by
  have hfull : ∀ {before : Session MessageRecord},
      (StreamedEmailSync.FullStreamed <$> fetch_email_full_streamed json emails fuel sink).run before =
        .ok (.FullStreamed snapshot) after → EmailsListed emails snapshot.remote_message_ids := by
    intro before hbefore
    obtain ⟨found, hfetch, hsame⟩ := map_ok hbefore
    cases hsame
    obtain ⟨pages, gets, hgot⟩ := fetch_email_full_streamed_ok hfetch
    obtain ⟨start, last, _, _, hlisted⟩ := hgot.listed
    rw [hcomplete] at hlisted
    exact ⟨fuel, start, last, hlisted⟩
  unfold fetch_email_sync_streamed at hrun
  cases hstate : since_state.bind (decode_email_cursor_state json) with
  | none =>
    rw [hstate] at hrun
    exact hfull hrun
  | some state =>
    rw [hstate] at hrun
    obtain hdelta | ⟨middle, hrest⟩ := orElseFull_ok hrun
    · obtain ⟨found, _, hsame⟩ := map_ok hdelta
      cases hsame
    · exact hfull hrest

end Fetches

section Syncs

variable {json : JsonText} {emails : Methods MessageRecord} {mailboxes : Methods Mailbox} {fuel number : Nat}
  {cursors : List SyncCursor} {email_history : History MessageRecord} {mailbox_history : History Mailbox}

/-- The absent locals a batch deletes are those of a listing that counted as complete. -/
structure BatchPrunes (emails : Methods MessageRecord) (mailboxes : Methods Mailbox) (batch : SyncBatch) : Prop where
  messages : batch.replace_all_messages = true →
    ∃ ids, EmailsListed emails ids ∧ ∀ record ∈ batch.messages, record.id ∈ ids
  mailboxes : batch.replace_all_mailboxes = true →
    ∃ ids, MailboxesListed mailboxes ids ∧ ∀ mailbox ∈ batch.mailboxes, mailbox.id ∈ ids

structure ReconciliationPrunes (emails : Methods MessageRecord) (mailboxes : Methods Mailbox)
    (reconciliation : SyncReconciliation) : Prop where
  messages : reconciliation.prune_messages = true → EmailsListed emails reconciliation.remote_message_ids
  mailboxes : reconciliation.prune_mailboxes = true →
    ∃ ids, MailboxesListed mailboxes ids ∧ ∀ id ∈ reconciliation.remote_mailbox_ids, id ∈ ids

theorem sync_account_prunes (hemails : email_history.Conforms emails) (hmailboxes : mailbox_history.Conforms mailboxes)
    {batch : SyncBatch} (hrun : sync_account json mailboxes emails fuel cursors number = .ok batch) :
    BatchPrunes emails mailboxes batch := by
  unfold sync_account at hrun
  cases hmailbox : (fetch_mailbox_sync mailboxes fuel (cursorState cursors .Mailbox)).run (.begin Mailbox number) with
  | error halt session =>
    rw [hmailbox] at hrun
    cases hrun
  | ok mailbox_sync session =>
    simp only [hmailbox] at hrun
    cases hemail : (fetch_email_sync json emails fuel (cursorState cursors .Message)).run
        (.begin MessageRecord session.sent) with
    | error halt last =>
      rw [hemail] at hrun
      cases hrun
    | ok email_sync last =>
      rw [hemail] at hrun
      cases hrun
      exact ⟨fetch_email_sync_listed hemails hemail, fetch_mailbox_sync_listed hmailboxes hmailbox⟩

theorem reconciliationOf_prunes {mailbox_sync : MailboxSync} {email : StreamedEmailSync}
    {reconciliation : SyncReconciliation} (hreconciles : reconciliationOf mailbox_sync email = some reconciliation)
    (hemail : ∀ snapshot, email = .FullStreamed snapshot → snapshot.remote_ids_complete = true →
      EmailsListed emails snapshot.remote_message_ids)
    (hmailbox : mailbox_sync.replace_all_mailboxes = true →
      ∃ ids, MailboxesListed mailboxes ids ∧ ∀ mailbox ∈ mailbox_sync.mailboxes, mailbox.id ∈ ids) :
    ReconciliationPrunes emails mailboxes reconciliation := by
  have hlisted : mailbox_sync.replace_all_mailboxes = true →
      ∃ ids, MailboxesListed mailboxes ids ∧ ∀ id ∈ mailbox_sync.mailboxes.map Mailbox.id, id ∈ ids := by
    intro hreplace
    obtain ⟨ids, hids, hmem⟩ := hmailbox hreplace
    refine ⟨ids, hids, ?_⟩
    intro id hid
    obtain ⟨mailbox, hfetched, rfl⟩ := List.mem_map.mp hid
    exact hmem mailbox hfetched
  cases email with
  | Delta sync =>
    simp only [reconciliationOf] at hreconciles
    split_ifs at hreconciles with hreplace
    cases hreconciles
    refine ⟨fun hprune => ?_, fun _ => hlisted hreplace⟩
    cases hprune
  | FullStreamed snapshot =>
    simp only [reconciliationOf] at hreconciles
    cases hreconciles
    refine ⟨hemail snapshot rfl, fun hreplace => ?_⟩
    simp only at hreplace ⊢
    rw [if_pos hreplace]
    exact hlisted hreplace

theorem sync_account_streamed_prunes (hmailboxes : mailbox_history.Conforms mailboxes) {sink : ChunkSink}
    {reconciliation : SyncReconciliation}
    (hrun : sync_account_streamed json mailboxes emails fuel cursors sink number = .ok (some reconciliation)) :
    ReconciliationPrunes emails mailboxes reconciliation := by
  unfold sync_account_streamed at hrun
  cases hmailbox : (fetch_mailbox_sync mailboxes fuel (cursorState cursors .Mailbox)).run (.begin Mailbox number) with
  | error halt session =>
    rw [hmailbox] at hrun
    cases hrun
  | ok mailbox_sync session =>
    simp only [hmailbox] at hrun
    cases hstream : (stream_emails json emails fuel (cursorState cursors .Message) sink mailbox_sync).run
        (.begin MessageRecord session.sent) with
    | error halt last =>
      rw [hstream] at hrun
      cases hrun
    | ok found last =>
      rw [hstream] at hrun
      cases hrun
      obtain ⟨_, emitted, _, hnext⟩ := effects.run_bind_eq_ok_iff.mp hstream
      obtain ⟨email, fetched, hemail, hrest⟩ := effects.run_bind_eq_ok_iff.mp hnext
      obtain ⟨_, chunk, _, hdone⟩ := effects.run_bind_eq_ok_iff.mp hrest
      have hreconciles : reconciliationOf mailbox_sync email = some reconciliation :=
        (EStateM.Result.ok.inj hdone).1
      refine reconciliationOf_prunes hreconciles ?_ (fetch_mailbox_sync_listed hmailboxes hmailbox)
      rintro snapshot rfl hcomplete
      exact fetch_email_sync_streamed_listed hemail hcomplete

end Syncs

section Shifted

/-- Four mailboxes, the first of which is destroyed. -/
def shiftedMailboxes (moment : Nat) : List Mailbox :=
  (if moment = 0 then ["a", "b", "c", "d"] else ["b", "c", "d"]).map fun id => { id, role := none }

theorem shiftedMailboxes_nodup (moment : Nat) : ((shiftedMailboxes moment).map JmapObject.id).Nodup := by
  unfold shiftedMailboxes
  split_ifs
  · decide
  · decide

def shiftedMoment (number : Nat) : Nat := if number = 0 then 0 else 1

theorem shiftedMoment_monotone : Monotone shiftedMoment := by
  intro first second hle
  unfold shiftedMoment
  split_ifs <;> omega

def shiftedHistory : History Mailbox :=
  .ofObjects shiftedMailboxes shiftedMoment shiftedMailboxes_nodup shiftedMoment_monotone

/-- The server caps every page at two ids. -/
def shiftedServer : Methods Mailbox := shiftedHistory.serve { upto := id, cap := fun _ => 2, totals := true }

def listedEmails : Nat → List MessageRecord := fun _ => [plainEmail "m3", plainEmail "m2", plainEmail "m1"]

theorem listedEmails_nodup (moment : Nat) : ((listedEmails moment).map JmapObject.id).Nodup := by
  show ["m3", "m2", "m1"].Nodup
  decide

def listedHistory : History MessageRecord := .ofObjects listedEmails (fun _ => 0) listedEmails_nodup monotone_const

def listedServer : Methods MessageRecord := listedHistory.serve { upto := id, cap := fun _ => 2, totals := false }

def shiftedPage (number : Nat) (position : Int) (ids : List String) (total : Nat) : Exchange Mailbox :=
  .query number { window := .position position, limit := 1000 } {
    ids, query_state := History.unaryState (shiftedMoment number), total := some total, limit := some 2 }

/-- The walk that the destruction falls into. -/
theorem run_shifted : (fetch_all_remote_mailbox_ids shiftedServer 2).run (.begin Mailbox 0) =
    .ok (["a", "b", "d"], true) {
      sent := 2, log := [shiftedPage 0 0 ["a", "b"] 4, shiftedPage 1 2 ["d"] 3], emitted := [] } := by
  have hfirst : (send_query shiftedServer { window := .position 0, limit := 1000 }).run (.begin Mailbox 0) =
      .ok { ids := ["a", "b"], query_state := History.unaryState 0, total := some 4, limit := some 2 }
        { sent := 1, log := [shiftedPage 0 0 ["a", "b"] 4], emitted := [] } := rfl
  rw [fetch_all_remote_mailbox_ids, run_list_mailbox_pages_next hfirst rfl (by decide) (by decide)]
  rfl

/-- The walk after it. -/
theorem run_settled : (fetch_all_remote_mailbox_ids shiftedServer 2).run (.begin Mailbox 1) =
    .ok (["b", "c", "d"], true) {
      sent := 3, log := [shiftedPage 1 0 ["b", "c"] 3, shiftedPage 2 2 ["d"] 3], emitted := [] } := by
  have hfirst : (send_query shiftedServer { window := .position 0, limit := 1000 }).run (.begin Mailbox 1) =
      .ok { ids := ["b", "c"], query_state := History.unaryState 1, total := some 3, limit := some 2 }
        { sent := 2, log := [shiftedPage 1 0 ["b", "c"] 3], emitted := [] } := rfl
  rw [fetch_all_remote_mailbox_ids, run_list_mailbox_pages_next hfirst rfl (by decide) (by decide)]
  rfl

def mailboxSnapshot (ids : List MailboxId) : MailboxSync where
  mailboxes := ids.map fun id => { id, role := none }
  deleted_mailbox_ids := []
  replace_all_mailboxes := true
  cursor := { object_type := .Mailbox, state := History.unaryState 1 }

theorem run_shifted_full : ∃ after,
    (fetch_mailbox_full shiftedServer 2).run (.begin Mailbox 0) = .ok (mailboxSnapshot ["b", "d"]) after := by
  rw [fetch_mailbox_full, effects.run_bind_of_ok run_shifted]
  exact ⟨_, rfl⟩

theorem run_settled_full : ∃ after, after.sent = 4 ∧
    (fetch_mailbox_full shiftedServer 2).run (.begin Mailbox 1) = .ok (mailboxSnapshot ["b", "c", "d"]) after := by
  rw [fetch_mailbox_full, effects.run_bind_of_ok run_settled]
  exact ⟨_, rfl, rfl⟩

end Shifted

end posthaste.engine
