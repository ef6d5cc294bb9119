import Posthaste.Library.Override
import Posthaste.Store.Projections

open posthaste.model

namespace posthaste.store

namespace ProjectedStore

section Writes

variable {account_id : AccountId} {store before middle after : ProjectedStore} {inputs later : ProjectionInputs}
  {record : MessageRecord} {message_id : MessageId}

/-- Every message row is linked to the conversation it names and to no other. -/
def Linked (store : ProjectedStore) : Prop :=
  ∀ row ∈ store.message.rows, ∀ conversation_id,
    ⟨conversation_id, row.account_id, row.id⟩ ∈ store.conversation_message ↔ row.conversation_id = some conversation_id

theorem linkedRows_eq (hlinked : store.Linked) (conversation_id : ConversationId) :
    store.linkedRows conversation_id =
      store.message.rows.filter fun row => row.conversation_id = some conversation_id := by
  unfold linkedRows
  refine List.filter_congr fun row hrow => ?_
  rw [decide_eq_decide]
  exact hlinked row hrow conversation_id

/-- What writes from one store to another leave to be refreshed. -/
structure Tracks (account_id : AccountId) (left : ThreadId → Prop) (before after : ProjectedStore)
    (inputs : ProjectionInputs) : Prop where
  thread_view : after.thread_view = before.thread_view
  conversation : after.conversation = before.conversation
  threads : ∀ other thread_id, after.threadRows other thread_id = before.threadRows other thread_id ∨
    other = account_id ∧ (thread_id ∈ inputs.threads ∨ left thread_id)
  conversations : ∀ conversation_id, after.linkedRows conversation_id = before.linkedRows conversation_id ∨
    conversation_id ∈ inputs.conversations
  linked : after.Linked

/-- The inputs collected so far are kept. -/
structure Grows (inputs later : ProjectionInputs) : Prop where
  threads : ∀ thread_id ∈ inputs.threads, thread_id ∈ later.threads
  conversations : ∀ conversation_id ∈ inputs.conversations, conversation_id ∈ later.conversations

theorem Grows.refl : Grows inputs inputs := ⟨fun _ hmem => hmem, fun _ hmem => hmem⟩

theorem Grows.trans {last : ProjectionInputs} (hfirst : Grows inputs later) (hsecond : Grows later last) :
    Grows inputs last :=
  ⟨fun _ hmem => hsecond.threads _ (hfirst.threads _ hmem),
    fun _ hmem => hsecond.conversations _ (hfirst.conversations _ hmem)⟩

theorem Tracks.refl {left : ThreadId → Prop} (hlinked : store.Linked) : Tracks account_id left store store inputs :=
  ⟨rfl, rfl, fun _ _ => .inl rfl, fun _ => .inl rfl, hlinked⟩

theorem Tracks.widen (left : ThreadId → Prop) (htracks : Tracks account_id (fun _ => False) before after inputs) :
    Tracks account_id left before after inputs :=
  { htracks with
    threads := fun other thread_id => (htracks.threads other thread_id).imp_right
      fun htouched => ⟨htouched.1, htouched.2.imp_right False.elim⟩ }

theorem Tracks.trans {left : ThreadId → Prop} (hfirst : Tracks account_id left before middle inputs)
    (hsecond : Tracks account_id left middle after later) (hgrows : Grows inputs later) :
    Tracks account_id left before after later := by
  refine ⟨hsecond.thread_view.trans hfirst.thread_view, hsecond.conversation.trans hfirst.conversation, ?_, ?_,
    hsecond.linked⟩
  · intro other thread_id
    obtain hsame | htouched := hsecond.threads other thread_id
    · obtain hbefore | ⟨haccount, htracked | hleft⟩ := hfirst.threads other thread_id
      · exact .inl (hsame.trans hbefore)
      · exact .inr ⟨haccount, .inl (hgrows.threads _ htracked)⟩
      · exact .inr ⟨haccount, .inr hleft⟩
    · exact .inr htouched
  · intro conversation_id
    obtain hsame | htouched := hsecond.conversations conversation_id
    · obtain hbefore | htracked := hfirst.conversations conversation_id
      · exact .inl (hsame.trans hbefore)
      · exact .inr (hgrows.conversations _ htracked)
    · exact .inr htouched

theorem delete_tracks (hlinked : store.Linked) :
    Tracks account_id (fun _ => False) store
      (store.delete_message_and_track_projection_inputs account_id inputs message_id).1
      (store.delete_message_and_track_projection_inputs account_id inputs message_id).2 := by
  have hrow : ∀ row ∈ store.message.rows, row.key = (account_id, message_id) →
      store.message.find (account_id, message_id) = some row :=
    fun row hrow hkey => Table.find_eq_some_iff.2 ⟨hrow, hkey⟩
  have hlinkedAfter : (store.delete_message_tx account_id message_id).Linked := by
    intro row hrow conversation_id
    obtain ⟨hmem, hkept⟩ := List.mem_filter.1 hrow
    have hother : ¬ (row.account_id = account_id ∧ row.id = message_id) := by
      rintro ⟨rfl, rfl⟩
      simp [ProjectedRow.key] at hkept
    rw [← hlinked row hmem conversation_id]
    exact ⟨fun hlink => List.mem_of_mem_filter hlink, fun hlink => List.mem_filter.2 ⟨hlink, decide_eq_true hother⟩⟩
  refine ⟨rfl, rfl, ?_, ?_, hlinkedAfter⟩
  · intro other thread_id
    by_cases htracked : ∃ row ∈ store.message.rows, row.key = (account_id, message_id) ∧ row.thread_id = thread_id
    · obtain ⟨row, hmem, hkey, rfl⟩ := htracked
      by_cases haccount : other = account_id
      · refine .inr ⟨haccount, .inl (List.mem_append_right _ ?_)⟩
        rw [hrow row hmem hkey]
        exact List.mem_singleton_self _
      · refine .inl (Table.filter_deleteIf fun stored hstored hstoredkey => ?_)
        have hsame : stored.account_id = account_id := congrArg Prod.fst hstoredkey
        simp [hsame, Ne.symm haccount]
    · refine .inl (Table.filter_deleteIf fun stored hstored hstoredkey => ?_)
      have hthread : ¬ stored.thread_id = thread_id := fun hsame => htracked ⟨stored, hstored, hstoredkey, hsame⟩
      simp [hthread]
  · intro conversation_id
    rw [linkedRows_eq hlinked]
    show (store.delete_message_tx account_id message_id).linkedRows conversation_id = _ ∨ _
    rw [linkedRows_eq hlinkedAfter]
    by_cases htracked : ∃ row ∈ store.message.rows, row.key = (account_id, message_id) ∧
        row.conversation_id = some conversation_id
    · obtain ⟨row, hmem, hkey, hconversation⟩ := htracked
      refine .inr (List.mem_append_right _ ?_)
      rw [hrow row hmem hkey, Option.bind_some, hconversation]
      exact List.mem_singleton_self _
    · refine .inl (Table.filter_deleteIf fun stored hstored hstoredkey => ?_)
      exact decide_eq_false fun hsame => htracked ⟨stored, hstored, hstoredkey, hsame⟩

theorem delete_grows : Grows inputs (store.delete_message_and_track_projection_inputs account_id inputs message_id).2 :=
  ⟨fun _ hmem => List.mem_append_left _ hmem, fun _ hmem => List.mem_append_left _ hmem⟩

theorem deleteMessages_tracks (message_ids : List MessageId) (hlinked : store.Linked) :
    Tracks account_id (fun _ => False) store (deleteMessages account_id message_ids store inputs).1
        (deleteMessages account_id message_ids store inputs).2 ∧
      Grows inputs (deleteMessages account_id message_ids store inputs).2 := by
  induction message_ids generalizing store inputs with
  | nil => exact ⟨.refl hlinked, .refl⟩
  | cons message_id rest ih =>
    have hfirst := @delete_tracks account_id store inputs message_id hlinked
    obtain ⟨hrest, hgrows⟩ := @ih _ (store.delete_message_and_track_projection_inputs account_id inputs message_id).2
      hfirst.linked
    exact ⟨hfirst.trans hrest hgrows, delete_grows.trans hgrows⟩

section Upserts

variable {sha256 : ByteArray → ByteArray} {left : ThreadId → Prop}

theorem linked_replace (hlinked : store.Linked) {row : ProjectedRow} {conversation_id : ConversationId}
    (hrow : row.conversation_id = some conversation_id) :
    (replace_message_conversation_tx row.account_id { store with message := store.message.put row } row.id
      conversation_id).Linked := by
  intro stored hstored other
  have hlinks : ∀ link, link ∈ store.conversation_message.filter
      (fun link => ¬ (link.account_id = row.account_id ∧ link.message_id = row.id)) ++
        [⟨conversation_id, row.account_id, row.id⟩] ↔
      link ∈ store.conversation_message ∧ ¬ (link.account_id = row.account_id ∧ link.message_id = row.id) ∨
        link = ⟨conversation_id, row.account_id, row.id⟩ := by
    intro link
    rw [List.mem_append, List.mem_filter, List.mem_singleton, decide_eq_true_eq]
  show _ ∈ _ ++ _ ↔ _
  rw [hlinks]
  obtain rfl | ⟨hmem, hkey⟩ := Table.mem_put.1 hstored
  · rw [hrow]
    constructor
    · rintro (⟨_, hother⟩ | hlink)
      · exact absurd ⟨rfl, rfl⟩ hother
      · exact congrArg some (congrArg ConversationLink.conversation_id hlink).symm
    · intro hsame
      rw [Option.some.inj hsame]
      exact .inr rfl
  · have hother : ¬ (stored.account_id = row.account_id ∧ stored.id = row.id) := fun hsame =>
      hkey (Prod.ext hsame.1 hsame.2)
    rw [← hlinked stored hmem other]
    constructor
    · rintro (⟨hlink, _⟩ | hlink)
      · exact hlink
      · exact absurd ⟨congrArg ConversationLink.account_id hlink, congrArg ConversationLink.message_id hlink⟩ hother
    · intro hlink
      exact .inl ⟨hlink, hother⟩

theorem upsert_tracks (hlinked : store.Linked)
    (hleft : ∀ row ∈ store.message.rows, row.key = (account_id, record.id) →
      row.thread_id ∈ inputs.threads ∨ left row.thread_id) :
    Tracks account_id left store (store.apply_message_record_tx sha256 account_id inputs record).1
      (store.apply_message_record_tx sha256 account_id inputs record).2 := by
  let conversation_id := conversation.assign_conversation_id_tx sha256 store.threadedRows account_id record
  have hlinkedAfter : (store.apply_message_record_tx sha256 account_id inputs record).1.Linked :=
    @linked_replace store hlinked (rowOf account_id record conversation_id) conversation_id rfl
  refine ⟨rfl, rfl, ?_, ?_, hlinkedAfter⟩
  · intro other thread_id
    by_cases haccount : other = account_id
    · by_cases hnew : record.source_thread_id = thread_id
      · exact .inr ⟨haccount, .inl (List.mem_append_right _ (List.mem_singleton.2 hnew.symm))⟩
      · by_cases hold : ∃ row ∈ store.message.rows, row.key = (account_id, record.id) ∧ row.thread_id = thread_id
        · obtain ⟨row, hmem, hkey, rfl⟩ := hold
          exact .inr ⟨haccount, (hleft row hmem hkey).imp_left (List.mem_append_left _)⟩
        · refine .inl (Table.filter_put ?_ fun stored hstored hkey => ?_)
          · simp [rowOf, hnew]
          · have hthread : ¬ stored.thread_id = thread_id := fun hsame => hold ⟨stored, hstored, hkey, hsame⟩
            simp [hthread]
    · refine .inl (Table.filter_put ?_ fun stored _ hkey => ?_)
      · simp [rowOf, Ne.symm haccount]
      · have hsame : stored.account_id = account_id := congrArg Prod.fst hkey
        simp [hsame, Ne.symm haccount]
  · intro other
    rw [linkedRows_eq hlinked, linkedRows_eq hlinkedAfter]
    by_cases hnew : conversation_id = other
    · refine .inr (List.mem_append_left _ (List.mem_append_right _ ?_))
      exact List.mem_singleton.2 hnew.symm
    · by_cases hold : ∃ row ∈ store.message.rows, row.key = (account_id, record.id) ∧ row.conversation_id = some other
      · obtain ⟨row, hmem, hkey, hconversation⟩ := hold
        refine .inr (List.mem_append_right _ ?_)
        rw [Table.find_eq_some_iff.2 ⟨hmem, hkey⟩, Option.bind_some, hconversation]
        exact List.mem_singleton_self _
      · refine .inl (Table.filter_put ?_ fun stored hstored hkey => ?_)
        · exact decide_eq_false fun hsame => hnew (Option.some.inj hsame)
        · exact decide_eq_false fun hsame => hold ⟨stored, hstored, hkey, hsame⟩

theorem upsert_grows : Grows inputs (store.apply_message_record_tx sha256 account_id inputs record).2 :=
  ⟨fun _ hmem => List.mem_append_left _ hmem,
    fun _ hmem => List.mem_append_left _ (List.mem_append_left _ hmem)⟩

theorem applyMessages_tracks (records : List MessageRecord) (hlinked : store.Linked)
    (hleft : ∀ record ∈ records, ∀ row ∈ store.message.rows, row.key = (account_id, record.id) →
      row.thread_id ∈ inputs.threads ∨ left row.thread_id) :
    Tracks account_id left store (applyMessages sha256 account_id records store inputs).1
        (applyMessages sha256 account_id records store inputs).2 ∧
      Grows inputs (applyMessages sha256 account_id records store inputs).2 := by
  induction records generalizing store inputs with
  | nil => exact ⟨.refl hlinked, .refl⟩
  | cons record rest ih =>
    have hfirst := @upsert_tracks account_id store inputs record sha256 left hlinked (hleft record List.mem_cons_self)
    have hgrows := @upsert_grows account_id store inputs record sha256
    have hleftRest : ∀ later ∈ rest,
        ∀ row ∈ (store.apply_message_record_tx sha256 account_id inputs record).1.message.rows,
          row.key = (account_id, later.id) →
            row.thread_id ∈ (store.apply_message_record_tx sha256 account_id inputs record).2.threads ∨
              left row.thread_id := by
      intro later hlater row hrow hkey
      obtain rfl | ⟨hmem, _⟩ := Table.mem_put.1 hrow
      · exact .inl (List.mem_append_right _ (List.mem_singleton_self _))
      · exact (hleft later (List.mem_cons_of_mem _ hlater) row hmem hkey).imp_left (hgrows.threads _)
    obtain ⟨hrest, hlater⟩ := ih hfirst.linked hleftRest
    exact ⟨hfirst.trans hrest hlater, hgrows.trans hlater⟩

/-- A batch leaves each of its messages in a thread it names for it. -/
theorem applyMessages_rows {records : List MessageRecord} {row : ProjectedRow}
    (hrow : row ∈ (applyMessages sha256 account_id records store inputs).1.message.rows) :
    (row ∈ store.message.rows ∧ ∀ record ∈ records, row.key ≠ (account_id, record.id)) ∨
      ∃ record ∈ records, row.key = (account_id, record.id) ∧ row.thread_id = record.source_thread_id := by
  induction records generalizing store inputs with
  | nil => exact .inl ⟨hrow, fun _ hmem => absurd hmem List.not_mem_nil⟩
  | cons record rest ih =>
    obtain ⟨hmem, hrest⟩ | ⟨later, hlater, hkey, hthread⟩ := ih hrow
    · obtain rfl | ⟨hstored, hkey⟩ := Table.mem_put.1 hmem
      · exact .inr ⟨record, List.mem_cons_self, rfl, rfl⟩
      · exact .inl ⟨hstored, List.forall_mem_cons.2 ⟨hkey, hrest⟩⟩
    · exact .inr ⟨later, List.mem_cons_of_mem _ hlater, hkey, hthread⟩

theorem applyMessages_threads (records : List MessageRecord) :
    (applyMessages sha256 account_id records store inputs).2.threads =
      inputs.threads ++ records.map MessageRecord.source_thread_id := by
  induction records generalizing store inputs with
  | nil => exact (List.append_nil _).symm
  | cons record rest ih => exact ih.trans (List.append_assoc _ _ _)

end Upserts

theorem deleteMessages_threads {message_ids : List MessageId} {thread_id : ThreadId} :
    thread_id ∈ (deleteMessages account_id message_ids store inputs).2.threads ↔
      thread_id ∈ inputs.threads ∨
        ∃ row ∈ store.message.rows, row.account_id = account_id ∧ row.id ∈ message_ids ∧ row.thread_id = thread_id := by
  induction message_ids generalizing store inputs with
  | nil => simp [deleteMessages]
  | cons message_id rest ih =>
    have hfound : thread_id ∈ ((store.message.find (account_id, message_id)).map ProjectedRow.thread_id).toList ↔
        ∃ row ∈ store.message.rows, row.key = (account_id, message_id) ∧ row.thread_id = thread_id := by
      rw [Option.mem_toList, Option.map_eq_some_iff]
      exact ⟨fun ⟨row, hrow, hthread⟩ => ⟨row, Table.mem_of_find hrow, Table.find_key hrow, hthread⟩,
        fun ⟨row, hrow, hkey, hthread⟩ => ⟨row, Table.find_eq_some_iff.2 ⟨hrow, hkey⟩, hthread⟩⟩
    show thread_id ∈ (deleteMessages account_id rest _ _).2.threads ↔ _
    rw [ih]
    show thread_id ∈ inputs.threads ++ _ ∨ _ ↔ _
    rw [List.mem_append, hfound]
    constructor
    · rintro ((hmem | ⟨row, hrow, hkey, hthread⟩) | ⟨row, hrow, haccount, hid, hthread⟩)
      · exact .inl hmem
      · refine .inr ⟨row, hrow, congrArg Prod.fst hkey, ?_, hthread⟩
        rw [show row.id = message_id from congrArg Prod.snd hkey]
        exact List.mem_cons_self
      · exact .inr ⟨row, List.mem_of_mem_filter hrow, haccount, List.mem_cons_of_mem _ hid, hthread⟩
    · rintro (hmem | ⟨row, hrow, haccount, hid, hthread⟩)
      · exact .inl (.inl hmem)
      · by_cases hkey : row.key = (account_id, message_id)
        · exact .inl (.inr ⟨row, hrow, hkey, hthread⟩)
        · refine .inr ⟨row, List.mem_filter.2 ⟨hrow, by simp [hkey]⟩, haccount, ?_, hthread⟩
          exact (List.mem_cons.1 hid).resolve_left fun hsame => hkey (Prod.ext haccount hsame)

/-- A deletion takes the rows of its messages and no others. -/
theorem deleteMessages_rows {message_ids : List MessageId} {row : ProjectedRow} :
    row ∈ (deleteMessages account_id message_ids store inputs).1.message.rows ↔
      row ∈ store.message.rows ∧ ¬ (row.account_id = account_id ∧ row.id ∈ message_ids) := by
  induction message_ids generalizing store inputs with
  | nil => simp [deleteMessages]
  | cons message_id rest ih =>
    show row ∈ (deleteMessages account_id rest _ _).1.message.rows ↔ _
    rw [ih]
    have hkey : row.key = (account_id, message_id) ↔ row.account_id = account_id ∧ row.id = message_id := Prod.ext_iff
    show (row ∈ List.filter _ _ ∧ _) ↔ _
    rw [List.mem_filter, List.mem_cons]
    simp only [Bool.not_eq_true', decide_eq_false_iff_not, and_true, hkey]
    tauto

end Writes

section Refresh

variable {account_id : AccountId} {store before after : ProjectedStore} {inputs : ProjectionInputs}
  {left : ThreadId → Prop}

/-- The listing a refresh would store for a thread. -/
def listed (store : ProjectedStore) (key : AccountId × ThreadId) : Option (List MessageId) :=
  let email_ids := store.threadListing key.1 key.2
  if email_ids.isEmpty then none else some email_ids

theorem listed_congr {key : AccountId × ThreadId}
    (hrows : after.threadRows key.1 key.2 = before.threadRows key.1 key.2) : after.listed key = before.listed key := by
  unfold listed threadListing
  rw [hrows]

def threadPlane : DerivedPlane ProjectedStore (AccountId × ThreadId) (Option (List MessageId)) where
  served := thread_view
  derived store key := some (store.listed key)

def conversationPlane : DerivedPlane ProjectedStore ConversationId (Option ConversationRow) where
  served := conversation
  derived store conversation_id := some (summarize (store.newestLinked conversation_id))

theorem refreshThreads_eq (threads : List ThreadId) :
    store.refreshThreads account_id threads = { store with
      thread_view := fun key =>
        if key.1 = account_id ∧ key.2 ∈ threads then store.listed key else store.thread_view key } := by
  induction threads generalizing store with
  | nil => simp [refreshThreads]
  | cons thread_id rest ih =>
    show refreshThreads account_id (store.refresh_thread_projection_tx account_id thread_id) rest = _
    rw [ih]
    congr 1
    funext ⟨other, queried⟩
    by_cases hkey : (other, queried) = (account_id, thread_id)
    · obtain ⟨rfl, rfl⟩ := Prod.ext_iff.1 hkey
      simp [refresh_thread_projection_tx, listed, threadListing, threadRows]
    · have hne : other = account_id → queried ≠ thread_id := fun haccount hthread =>
        hkey (Prod.ext haccount hthread)
      have hsame : (other = account_id ∧ queried ∈ rest) ↔ (other = account_id ∧ queried ∈ thread_id :: rest) :=
        and_congr_right fun haccount => (or_iff_right (hne haccount)).symm.trans List.mem_cons.symm
      simp only [hsame, refresh_thread_projection_tx, Function.update_of_ne hkey]
      rfl

theorem refreshConversations_eq (conversations : List ConversationId) :
    store.refreshConversations conversations = { store with
      conversation := fun conversation_id =>
        if conversation_id ∈ conversations then summarize (store.newestLinked conversation_id)
        else store.conversation conversation_id } := by
  induction conversations generalizing store with
  | nil => simp [refreshConversations]
  | cons conversation_id rest ih =>
    show refreshConversations (store.refresh_conversation_projection_tx conversation_id) rest = _
    rw [ih]
    congr 1
    funext queried
    by_cases hkey : queried = conversation_id
    · subst hkey
      rw [if_pos List.mem_cons_self]
      have hrefreshed : (store.refresh_conversation_projection_tx queried).conversation queried =
          summarize (store.newestLinked queried) := Function.update_self _ _ _
      rw [hrefreshed]
      exact ite_self _
    · simp only [List.mem_cons, or_iff_right hkey, refresh_conversation_projection_tx, Function.update_of_ne hkey]
      rfl

theorem refresh_eq :
    store.refresh account_id inputs = { store with
      thread_view := fun key =>
        if key.1 = account_id ∧ key.2 ∈ inputs.threads then store.listed key else store.thread_view key
      conversation := fun conversation_id =>
        if conversation_id ∈ inputs.conversations then summarize (store.newestLinked conversation_id)
        else store.conversation conversation_id } := by
  unfold refresh
  rw [refreshConversations_eq, refreshThreads_eq]
  simp only [← BTreeSet.mem_iff, BTreeSet.mem_from_iter]
  rfl

/-- Writes whose keys are all collected, then refreshed, keep the listings derived. -/
theorem refresh_threads_synced (htracks : Tracks account_id left before after inputs)
    (hsynced : threadPlane.Synced before) (hleft : ∀ thread_id, left thread_id → thread_id ∈ inputs.threads) :
    threadPlane.Synced (after.refresh account_id inputs) := by
  refine hsynced.step fun ⟨other, thread_id⟩ => ?_
  rw [refresh_eq]
  by_cases hcollected : other = account_id ∧ thread_id ∈ inputs.threads
  · refine .inr (congrArg some ?_)
    exact (if_pos hcollected).symm
  · have hrows : after.threadRows other thread_id = before.threadRows other thread_id := by
      obtain hsame | ⟨haccount, htracked | hgone⟩ := htracks.threads other thread_id
      · exact hsame
      · exact absurd ⟨haccount, htracked⟩ hcollected
      · exact absurd ⟨haccount, hleft thread_id hgone⟩ hcollected
    refine .inl ⟨(if_neg hcollected).trans (congrFun htracks.thread_view _), congrArg some ?_⟩
    exact @listed_congr before _ (other, thread_id) hrows

theorem refresh_conversations_synced (htracks : Tracks account_id left before after inputs)
    (hsynced : conversationPlane.Synced before) : conversationPlane.Synced (after.refresh account_id inputs) := by
  refine hsynced.step fun conversation_id => ?_
  rw [refresh_eq]
  by_cases hcollected : conversation_id ∈ inputs.conversations
  · refine .inr (congrArg some ?_)
    exact (if_pos hcollected).symm
  · have hrows : after.linkedRows conversation_id = before.linkedRows conversation_id :=
      (htracks.conversations conversation_id).resolve_right hcollected
    refine .inl ⟨(if_neg hcollected).trans (congrFun htracks.conversation _), congrArg some ?_⟩
    unfold newestLinked
    show summarize ((after.linkedRows _).mergeSort _) = _
    rw [hrows]

theorem refresh_linked (hlinked : store.Linked) : (store.refresh account_id inputs).Linked := by
  rw [refresh_eq]
  exact hlinked

end Refresh

end ProjectedStore

end posthaste.store
