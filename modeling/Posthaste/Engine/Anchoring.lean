import Posthaste.Engine.Pruning

open posthaste.model posthaste.store

namespace posthaste.engine

section Snapshots

variable {ρ : Type} [JmapObject ρ] (history : History ρ)

/-- The snapshot shows what the server holds under the id at a moment: the object
    itself, or, for an id the server has held up to the cursor, a removal. -/
def ReflectsAt (objects : List ρ) (pruned : Bool) (cursor moment : Nat) (id : String) : Prop :=
  (∀ object, history.content moment id = some object →
    object ∈ objects ∧ ∀ other ∈ objects, JmapObject.id other = id → other = object) ∧
  (history.content moment id = none →
    (∀ other ∈ objects, JmapObject.id other ≠ id) ∧
      (pruned = true ∨ ∀ earlier, earlier ≤ cursor → history.content earlier id = none))

/-- Whatever the snapshot does not show is reported by the changes since its cursor. -/
def Anchored (objects : List ρ) (pruned : Bool) (state : String) (later : Nat) : Prop :=
  ∀ cursor, history.state cursor = state → ∀ id,
    history.content.Reported cursor later id ∨ ReflectsAt history objects pruned cursor later id

/-- Every object that stays the same from the cursor on is listed, no fetched
    object comes and goes after the cursor, and removals are covered by a complete
    listing, if there are any. -/
structure Covered (objects : List ρ) (listed : List String) (pruned : Bool) (cursor later : Nat) : Prop where
  listed : ∀ id, ¬ history.content.Changed cursor later id → history.content later id ≠ none → id ∈ listed
  stays : ∀ object ∈ objects, history.content cursor (JmapObject.id object) = none →
    history.content later (JmapObject.id object) ≠ none
  removals : pruned = true ∨ ∀ id, history.content cursor id = none → history.content later id = none →
    ∀ earlier, earlier ≤ cursor → history.content earlier id = none

variable {history} {objects : List ρ} {listed : List String} {pruned : Bool} {cursor later : Nat}

/-- The gets between the cursor and this moment asked for what was listed and
    were answered from the history. -/
structure GotListed (history : History ρ) (objects : List ρ) (listed : List String) (cursor later : Nat) : Prop where
  sound : ∀ object ∈ objects, JmapObject.id object ∈ listed ∧
    ∃ moment, cursor ≤ moment ∧ moment ≤ later ∧ history.content moment (JmapObject.id object) = some object
  complete : ∀ id ∈ listed, ∃ moment, cursor ≤ moment ∧ moment ≤ later ∧
    ∀ object, history.content moment id = some object → object ∈ objects

/-- An object that has not changed since the cursor is shown exactly when it was listed. -/
theorem GotListed.shown_iff (hgot : GotListed history objects listed cursor later) {id : String} {object : ρ}
    (hle : cursor ≤ later) (hsame : ¬ history.content.Changed cursor later id)
    (hobject : history.content later id = some object) :
    (object ∈ objects ∧ ∀ other ∈ objects, JmapObject.id other = id → other = object) ↔ id ∈ listed := by
  have hstill : ∀ {moment}, cursor ≤ moment → moment ≤ later → history.content moment id = some object := by
    intro moment hfirst hlast
    rw [← hobject, ← Versioned.eq_of_unchanged hsame hfirst hlast, Versioned.eq_of_unchanged hsame hle le_rfl]
  have hid : JmapObject.id object = id := (history.content_eq_some_iff.mp hobject).2
  constructor
  · rintro ⟨hmem, _⟩
    rw [← hid]
    exact (hgot.sound object hmem).1
  · intro hlisted
    obtain ⟨moment, hfirst, hlast, hall⟩ := hgot.complete id hlisted
    refine ⟨hall object (hstill hfirst hlast), ?_⟩
    intro other hother hotherId
    obtain ⟨_, at_, hfirst, hlast, hcontent⟩ := hgot.sound other hother
    rw [hotherId, hstill hfirst hlast] at hcontent
    exact (Option.some_inj.mp hcontent).symm

theorem anchored_iff_covered (hgot : GotListed history objects listed cursor later) (hle : cursor ≤ later) :
    Anchored history objects pruned (history.state cursor) later ↔ Covered history objects listed pruned cursor later := by
  constructor
  · intro hanchored
    refine ⟨?_, ?_, ?_⟩
    · intro id hsame hsome
      obtain ⟨object, hobject⟩ := Option.ne_none_iff_exists'.mp hsome
      obtain hreported | hreflects := hanchored cursor rfl id
      · exact absurd hreported.1 hsame
      · exact (hgot.shown_iff hle hsame hobject).mp (hreflects.1 object hobject)
    · intro object hmem hbefore hafter
      obtain hreported | hreflects := hanchored cursor rfl (JmapObject.id object)
      · obtain hfirst | hlast := hreported.2
        · exact hfirst hbefore
        · exact hlast hafter
      · exact (hreflects.2 hafter).1 object hmem rfl
    · by_cases hpruned : pruned = true
      · exact Or.inl hpruned
      · refine Or.inr fun id hbefore hafter => ?_
        obtain hreported | hreflects := hanchored cursor rfl id
        · obtain hfirst | hlast := hreported.2
          · exact absurd hbefore hfirst
          · exact absurd hafter hlast
        · exact (hreflects.2 hafter).2.resolve_left hpruned
  · intro hcovered other hstate id
    rw [history.state_injective hstate]
    by_cases hreported : history.content.Reported cursor later id
    · exact Or.inl hreported
    · have hequal := Versioned.eq_of_not_reported hreported hle
      refine Or.inr ⟨fun object hobject => ?_, fun hnone => ⟨fun object hmem hid => ?_, ?_⟩⟩
      · have hsome : history.content later id ≠ none := by
          rw [hobject]
          exact Option.some_ne_none object
        have hsame := Versioned.not_changed_of_not_reported hreported hsome
        exact (hgot.shown_iff hle hsame hobject).mpr (hcovered.listed id hsame hsome)
      · refine hcovered.stays object hmem ?_ ?_
        · rw [hid, hequal, hnone]
        · rw [hid, hnone]
      · exact hcovered.removals.imp_right fun hall => hall id (hequal.trans hnone) hnone

/-- What the gets of an answered log asked for and were answered with. -/
theorem gotListed_of_answered {methods : Methods ρ} (hconforms : history.Conforms methods) {number : Nat}
    {log : List (Exchange ρ)} (hlog : AnsweredFrom methods number log)
    (hmoments : ∀ at_, number ≤ at_ → at_ < number + log.length →
      cursor ≤ history.moment at_ ∧ history.moment at_ ≤ later) :
    GotListed history (fetched log) (requested log) cursor later where
  sound := by
    intro object hmem
    refine ⟨id_mem_requested hconforms hlog hmem, ?_⟩
    obtain ⟨at_, ids, response, hget, hlisted⟩ := mem_fetched.mp hmem
    obtain ⟨found, ⟨rfl, hanswer⟩, hfirst, hlast⟩ := hlog.number hget
    obtain ⟨hcursor, hlater⟩ := hmoments at_ hfirst hlast
    refine ⟨history.moment at_, hcursor, hlater, history.content_eq_some_iff.mpr ⟨?_, rfl⟩⟩
    exact (((hconforms.get hanswer).2 object).mp hlisted).1
  complete := by
    intro id hmem
    obtain ⟨at_, ids, response, hget, hasked⟩ := mem_requested.mp hmem
    obtain ⟨found, ⟨rfl, hanswer⟩, hfirst, hlast⟩ := hlog.number hget
    obtain ⟨hcursor, hlater⟩ := hmoments at_ hfirst hlast
    refine ⟨history.moment at_, hcursor, hlater, fun object hobject => ?_⟩
    obtain ⟨hheld, hid⟩ := history.content_eq_some_iff.mp hobject
    rw [← hid] at hasked
    exact mem_fetched.mpr ⟨at_, ids, response, hget, ((hconforms.get hanswer).2 object).mpr ⟨hheld, hasked⟩⟩

/-- A log that asks for nothing fetches nothing. -/
theorem fetched_eq_nil {methods : Methods ρ} (hconforms : history.Conforms methods) {number : Nat}
    {log : List (Exchange ρ)} (hlog : AnsweredFrom methods number log) (hrequested : requested log = []) :
    fetched log = [] := by
  refine List.eq_nil_iff_forall_not_mem.mpr fun object hmem => ?_
  have hasked := id_mem_requested hconforms hlog hmem
  rw [hrequested] at hasked
  exact List.not_mem_nil hasked

end Snapshots

/-- The ids an email listing has from its pages, and whether they count as complete. -/
def emailPages (log : List (Exchange MessageRecord)) : List String × Bool :=
  Listing.begin.walk FULL_SNAPSHOT_EMAIL_QUERY_PAGE_SIZE true none (queryPages log)

def mailboxPages (log : List (Exchange Mailbox)) : List String × Bool :=
  Listing.begin.walk FULL_SNAPSHOT_MAILBOX_QUERY_PAGE_SIZE false none (queryPages log)

section Emails

variable {json : JsonText} {history : History MessageRecord} {methods : Methods MessageRecord} {fuel number : Nat}
  {sink : ChunkSink}

theorem emails_anchored_iff (hconforms : history.Conforms methods) {snapshot : EmailSnapshot}
    {after : Session MessageRecord}
    (hrun : (fetch_email_full_streamed json methods fuel sink).run (.begin MessageRecord number) = .ok snapshot after)
    {later : Nat} (hlater : history.moment (after.sent - 1) ≤ later) {since : String}
    (hresumes : decode_email_cursor_state json snapshot.cursor.state = some since) :
    Anchored history (after.emitted.flatMap SyncBatch.messages) snapshot.remote_ids_complete since later ↔
      Covered history (fetched after.log) (emailPages after.log).1 (emailPages after.log).2
        (history.moment number) later := by
  obtain ⟨pages, gets, hgot⟩ := fetch_email_full_streamed_ok hrun
  obtain ⟨anchor, hexchanged, hcursor⟩ := hgot.run
  have hsent : after.sent = number + (pages.length + gets.length + 1) := by
    rw [hexchanged.sent_eq, List.length_cons, List.length_append]
    rfl
  have hlog : after.log = .get number [] anchor :: (pages ++ gets) := hexchanged.log_eq
  have hanswered : AnsweredFrom methods number (.get number [] anchor :: (pages ++ gets)) := hexchanged.answered
  have hstate : since = history.state (history.moment number) := by
    rw [hcursor, decode_encode, non_empty_state] at hresumes
    split_ifs at hresumes
    rw [← Option.some_inj.mp hresumes]
    exact (hconforms.get hanswered.1.2).1
  have hpages : emailPages after.log = (snapshot.remote_message_ids, snapshot.remote_ids_complete) := by
    unfold emailPages
    rw [hlog, queryPages, queryPages_append, hgot.gets_pages, List.append_nil, ← hgot.walk]
  have hrequested : requested after.log = snapshot.remote_message_ids := by
    rw [hlog, requested, List.nil_append, requested_append, hgot.pages_requested, List.nil_append, hgot.gets_requested]
  have hmoments : ∀ at_, number ≤ at_ → at_ < number + (Exchange.get number [] anchor :: (pages ++ gets)).length →
      history.moment number ≤ history.moment at_ ∧ history.moment at_ ≤ later := by
    intro at_ hfirst hlast
    rw [List.length_cons, List.length_append] at hlast
    exact ⟨history.moment_monotone hfirst, (history.moment_monotone (by omega)).trans hlater⟩
  have hlisted := gotListed_of_answered hconforms hanswered hmoments
  rw [← hlog, hrequested] at hlisted
  have hfetched : after.emitted.flatMap SyncBatch.messages = fetched after.log := by
    have hbefore : AnsweredFrom methods number ((.get number [] anchor :: pages) ++ gets) := hanswered
    have hnothing : fetched (Exchange.get number [] anchor :: pages) = [] := by
      refine fetched_eq_nil hconforms hbefore.left_of_append ?_
      rw [requested, List.nil_append, hgot.pages_requested]
    have hemitted : after.emitted.flatMap SyncBatch.messages = fetched gets := hgot.emitted
    rw [hemitted, hlog, ← List.cons_append, fetched_append, hnothing, List.nil_append]
  rw [hfetched, hstate, hpages]
  exact anchored_iff_covered hlisted (history.moment_monotone (by omega) |>.trans hlater)

end Emails

section Mailboxes

variable {history : History Mailbox} {methods : Methods Mailbox} {fuel number : Nat}

theorem mailboxes_anchored_iff (hconforms : history.Conforms methods) {sync : MailboxSync} {after : Session Mailbox}
    (hrun : (fetch_mailbox_full methods fuel).run (.begin Mailbox number) = .ok sync after) {later : Nat}
    (hlater : history.moment (after.sent - 1) ≤ later) {since : String}
    (hresumes : non_empty_state sync.cursor.state = some since) :
    Anchored history sync.mailboxes sync.replace_all_mailboxes since later ↔
      Covered history (fetched after.log) (mailboxPages after.log).1 (mailboxPages after.log).2
        (history.moment (after.sent - 1)) later := by
  obtain ⟨ids, pages, middle, response, _, hpages, hget, hnone, hwalk, hmailboxes, hcursor⟩ := fetch_mailbox_full_ok hrun
  have hlog : after.log = pages ++ [.get middle.sent ids response] := by
    rw [hget.log_eq, hpages.log_eq]
    rfl
  have hlast : after.sent - 1 = middle.sent := by
    rw [hget.sent_eq]
    rfl
  have hstate : since = history.state (history.moment middle.sent) := by
    rw [hcursor, non_empty_state] at hresumes
    split_ifs at hresumes
    rw [← Option.some_inj.mp hresumes]
    exact (hconforms.get hget.answered.1.2).1
  have hfetched : fetched after.log = sync.mailboxes := by
    rw [hlog, fetched_append, fetched_eq_nil hconforms hpages.answered hnone, hmailboxes]
    simp [fetched]
  have hwalked : mailboxPages after.log = (ids, sync.replace_all_mailboxes) := by
    unfold mailboxPages
    rw [hlog, queryPages_append, hwalk]
    simp [queryPages]
  have hmoments : ∀ at_, middle.sent ≤ at_ → at_ < middle.sent + [Exchange.get middle.sent ids response].length →
      history.moment middle.sent ≤ history.moment at_ ∧ history.moment at_ ≤ later := by
    intro at_ hfirst hbound
    rw [List.length_singleton] at hbound
    have hsame : at_ = middle.sent := by omega
    rw [hsame]
    exact ⟨le_rfl, hlast ▸ hlater⟩
  have hlisted := gotListed_of_answered hconforms hget.answered hmoments
  have hgot : fetched [Exchange.get middle.sent ids response] = sync.mailboxes := by
    rw [hmailboxes]
    simp [fetched]
  have hasked : requested [Exchange.get middle.sent ids response] = ids := by simp [requested]
  rw [hgot, hasked] at hlisted
  rw [hfetched, hwalked, hlast, hstate]
  exact anchored_iff_covered hlisted (hlast ▸ hlater)

end Mailboxes

section Gap

/-- A mailbox arrives while the snapshot is taken. -/
def growingMailboxes (moment : Nat) : List Mailbox :=
  (if moment = 0 then ["inbox"] else ["archive", "inbox"]).map fun id => { id, role := none }

theorem growingMailboxes_nodup (moment : Nat) : ((growingMailboxes moment).map JmapObject.id).Nodup := by
  unfold growingMailboxes
  split_ifs
  · decide
  · decide

def growingHistory : History Mailbox :=
  .ofObjects growingMailboxes (fun number => min number 1) growingMailboxes_nodup fun _ _ hle => min_le_min_right 1 hle

def growingServer : Methods Mailbox := growingHistory.serve { upto := id, cap := fun _ => 5000, totals := true }

end Gap

end posthaste.engine
