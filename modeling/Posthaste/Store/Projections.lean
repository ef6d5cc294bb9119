import Mathlib.Data.Prod.Lex
import Mathlib.Data.String.Basic
import Posthaste.Library.Slice
import Posthaste.Store.Conversation
import Posthaste.Store.Sync

open posthaste.model

namespace posthaste.store

/-- The columns of a message row that the thread and conversation projections read, over all accounts. -/
structure ProjectedRow where
  account_id : AccountId
  id : MessageId
  thread_id : ThreadId
  conversation_id : Option ConversationId
  subject : Option String
  normalized_subject : Option String
  received_at : Timestamp
  is_read : Bool

def ProjectedRow.key (row : ProjectedRow) : AccountId × MessageId := (row.account_id, row.id)

/-- A row of `conversation_message`. -/
structure ConversationLink where
  conversation_id : ConversationId
  account_id : AccountId
  message_id : MessageId
  deriving DecidableEq

structure ConversationRow where
  subject : Option String
  normalized_subject : Option String
  latest_received_at : Timestamp
  latest_source_id : AccountId
  latest_message_id : MessageId
  message_count : Nat
  unread_count : Nat

structure ProjectedStore where
  message : Table ProjectedRow ProjectedRow.key
  conversation_message : List ConversationLink
  thread_view : AccountId × ThreadId → Option (List MessageId)
  conversation : ConversationId → Option ConversationRow

/-- The keys to refresh once a batch is in. -/
structure ProjectionInputs where
  threads : List ThreadId
  conversations : List ConversationId

namespace ProjectedStore

theorem length_trim (text : List Char) : (str.trim (String.ofList text)).toList.length ≤ text.length := by
  unfold str.trim str.trimEnd str.trimStart
  rw [String.toList_ofList, String.toList_ofList, List.length_reverse]
  have houter := (@List.dropWhile_sublist _ (text.dropWhile str.is_whitespace).reverse str.is_whitespace).length_le
  have hinner := (@List.dropWhile_sublist _ text str.is_whitespace).length_le
  rw [List.length_reverse] at houter
  exact houter.trans hinner

/-- A mark dropped leaves less. -/
theorem length_drop_mark {mark : List Char} {text : List Char} (hmark : 0 < mark.length)
    (hstarts : mark.isPrefixOf ((str.trim (String.ofList text)).toList.map Char.toLower) = true) :
    ((str.trim (String.ofList text)).toList.drop mark.length).length < text.length := by
  have hbound := (List.isPrefixOf_iff_prefix.1 hstarts).length_le
  have htrim := length_trim text
  rw [List.length_map] at hbound
  rw [List.length_drop]
  omega

/-- The leading reply and forward marks of a subject dropped. -/
def stripMarks (subject : List Char) : List Char :=
  let trimmed := (str.trim (String.ofList subject)).toList
  let lower := trimmed.map Char.toLower
  if _hreply : ['r', 'e', ':'].isPrefixOf lower then stripMarks (trimmed.drop 3)
  else if _hforward : ['f', 'w', 'd', ':'].isPrefixOf lower then stripMarks (trimmed.drop 4)
  else trimmed
termination_by subject.length
decreasing_by
  · exact @length_drop_mark ['r', 'e', ':'] subject (Nat.succ_pos 2) _hreply
  · exact @length_drop_mark ['f', 'w', 'd', ':'] subject (Nat.succ_pos 3) _hforward

def normalized_subject (value : Option String) : Option String :=
  value.bind fun value =>
    let normalized := stripMarks value.toList
    if normalized.isEmpty then none else some (String.ofList (normalized.map Char.toLower))

variable (sha256 : ByteArray → ByteArray) (account_id : AccountId) (store : ProjectedStore)

def threadRows (thread_id : ThreadId) : List ProjectedRow :=
  store.message.rows.filter fun row => row.account_id = account_id && row.thread_id = thread_id

/-- `ORDER BY received_at ASC` -/
def threadListing (thread_id : ThreadId) : List MessageId :=
  ((store.threadRows account_id thread_id).mergeSort fun first second => first.received_at ≤ second.received_at).map
    ProjectedRow.id

def refresh_thread_projection_tx (thread_id : ThreadId) : ProjectedStore :=
  let email_ids := store.threadListing account_id thread_id
  { store with
    thread_view := Function.update store.thread_view (account_id, thread_id)
      (if email_ids.isEmpty then none else some email_ids) }

def linkedRows (conversation_id : ConversationId) : List ProjectedRow :=
  store.message.rows.filter fun row => ⟨conversation_id, row.account_id, row.id⟩ ∈ store.conversation_message

/-- `ORDER BY received_at DESC, id DESC` -/
def newestLinked (conversation_id : ConversationId) : List ProjectedRow :=
  (store.linkedRows conversation_id).mergeSort fun first second =>
    toLex (second.received_at, second.id) ≤ toLex (first.received_at, first.id)

/-- The conversation row of the linked messages, newest first. -/
def summarize : List ProjectedRow → Option ConversationRow
  | [] => none
  | latest :: rest => some {
      subject := latest.subject <|> (latest :: rest).findSome? ProjectedRow.subject
      normalized_subject := latest.normalized_subject <|> (latest :: rest).findSome? ProjectedRow.normalized_subject
      latest_received_at := latest.received_at
      latest_source_id := latest.account_id
      latest_message_id := latest.id
      message_count := (latest :: rest).length
      unread_count := ((latest :: rest).filter fun row => !row.is_read).length }

def refresh_conversation_projection_tx (conversation_id : ConversationId) : ProjectedStore :=
  { store with
    conversation := Function.update store.conversation conversation_id (summarize (store.newestLinked conversation_id)) }

/-- The rows as the assignment of conversations reads them. -/
def threadedRows : ThreadedRows :=
  ⟨store.message.rows.map fun row => ⟨row.account_id, row.id, row.thread_id, row.conversation_id, row.received_at⟩, by
    rw [List.map_map]
    exact store.message.keys_nodup⟩

def replace_message_conversation_tx (message_id : MessageId) (conversation_id : ConversationId) : ProjectedStore :=
  { store with conversation_message :=
      store.conversation_message.filter (fun link => ¬ (link.account_id = account_id ∧ link.message_id = message_id)) ++
        [⟨conversation_id, account_id, message_id⟩] }

def rowOf (record : MessageRecord) (conversation_id : ConversationId) : ProjectedRow where
  account_id := account_id
  id := record.id
  thread_id := record.source_thread_id
  conversation_id := some conversation_id
  subject := record.subject
  normalized_subject := normalized_subject record.subject
  received_at := record.received_at
  is_read := "$seen" ∈ record.keywords

/-- The thread a message leaves is not among the keys. -/
def track_applied_message_projection_inputs (affected : ProjectionInputs) (record : MessageRecord)
    (conversation_id : ConversationId) (before : Option ConversationId) : ProjectionInputs where
  threads := affected.threads ++ [record.source_thread_id]
  conversations := affected.conversations ++ [conversation_id] ++ before.toList

def apply_message_record_tx (affected : ProjectionInputs) (record : MessageRecord) : ProjectedStore × ProjectionInputs :=
  let before := (store.message.find (account_id, record.id)).bind ProjectedRow.conversation_id
  let conversation_id := conversation.assign_conversation_id_tx sha256 store.threadedRows account_id record
  let upserted := { store with message := store.message.put (rowOf account_id record conversation_id) }
  (upserted.replace_message_conversation_tx account_id record.id conversation_id,
    track_applied_message_projection_inputs affected record conversation_id before)

def applyMessages : List MessageRecord → ProjectedStore → ProjectionInputs → ProjectedStore × ProjectionInputs
  | [], store, affected => (store, affected)
  | record :: rest, store, affected =>
    let applied := store.apply_message_record_tx sha256 account_id affected record
    applyMessages rest applied.1 applied.2

def delete_message_tx (message_id : MessageId) : ProjectedStore :=
  { store with
    message := store.message.deleteIf (account_id, message_id) fun _ => true
    conversation_message :=
      store.conversation_message.filter fun link => ¬ (link.account_id = account_id ∧ link.message_id = message_id) }

def delete_message_and_track_projection_inputs (affected : ProjectionInputs) (message_id : MessageId) :
    ProjectedStore × ProjectionInputs :=
  let found := store.message.find (account_id, message_id)
  (store.delete_message_tx account_id message_id,
    ⟨affected.threads ++ (found.map ProjectedRow.thread_id).toList,
      affected.conversations ++ (found.bind ProjectedRow.conversation_id).toList⟩)

def deleteMessages : List MessageId → ProjectedStore → ProjectionInputs → ProjectedStore × ProjectionInputs
  | [], store, affected => (store, affected)
  | message_id :: rest, store, affected =>
    let deleted := store.delete_message_and_track_projection_inputs account_id affected message_id
    deleteMessages rest deleted.1 deleted.2

def localIds : List MessageId :=
  (store.message.rows.filter fun row => row.account_id = account_id).map ProjectedRow.id

/-- The messages a prune by absence deletes: none when it would pass the floor. -/
def prunedMessages (remote_message_ids : List MessageId) : List MessageId :=
  let locals := store.localIds account_id
  let absent := (BTreeSet.from_iter (locals.filter (· ∉ remote_message_ids))).toList
  if locals.length > 0 && (remote_message_ids.isEmpty || over_floor absent.length locals.length) then [] else absent

def imap_absence_prune_allowed (absence_deleted_message_count : Nat) : Bool :=
  absence_deleted_message_count ≤ 1 || (store.localIds account_id).isEmpty ||
    !over_floor absence_deleted_message_count (store.localIds account_id).length

/-- The messages a batch deletes outright. -/
def batchDeletions (batch : SyncBatch) : List MessageId :=
  let absent := if store.imap_absence_prune_allowed account_id batch.absence_deleted_message_ids.length then
    batch.absence_deleted_message_ids else []
  (BTreeSet.from_iter (batch.deleted_message_ids ++ absent)).toList

/-- Every message a batch removes before it applies its own: first those it prunes. -/
def removals (batch : SyncBatch) : List MessageId :=
  let pruned := if batch.replace_all_messages then
    store.prunedMessages account_id (batch.messages.map MessageRecord.id) else []
  pruned ++ (deleteMessages account_id pruned store ⟨[], []⟩).1.batchDeletions account_id batch

def refreshThreads (threads : List ThreadId) : ProjectedStore :=
  threads.foldl (fun store thread_id => store.refresh_thread_projection_tx account_id thread_id) store

def refreshConversations (conversations : List ConversationId) : ProjectedStore :=
  conversations.foldl refresh_conversation_projection_tx store

/-- The projections of the collected keys, each once. -/
def refresh (affected : ProjectionInputs) : ProjectedStore :=
  (store.refreshThreads account_id (BTreeSet.from_iter affected.threads).toList).refreshConversations
    (BTreeSet.from_iter affected.conversations).toList

/-- One transaction: a batch with a membership or keyword listed twice is rolled back. -/
def apply_sync_batch (batch : SyncBatch) : Except StoreError ProjectedStore :=
  if ∀ record ∈ batch.messages, record.mailbox_ids.Nodup ∧ record.keywords.Nodup then
    let removed := deleteMessages account_id (store.removals account_id batch) store ⟨[], []⟩
    let applied := applyMessages sha256 account_id batch.messages removed.1 removed.2
    .ok (applied.1.refresh account_id applied.2)
  else .error (.Failure "UNIQUE constraint failed")

def reconcile_sync (reconciliation : SyncReconciliation) : ProjectedStore :=
  let pruned := if reconciliation.prune_messages then
    store.prunedMessages account_id reconciliation.remote_message_ids else []
  let removed := deleteMessages account_id pruned store ⟨[], []⟩
  removed.1.refresh account_id removed.2

/-- One turn of the loop: what is sliced off after a mark, `none` when no mark is left. -/
def stripMark (normalized : List Char) : Option (Except slice.Panic (List Char)) :=
  let lower := normalized.map Char.toLower
  if ['r', 'e', ':'].isPrefixOf lower then
    some (slice.slice_from (slice.size normalized - slice.size (lower.drop 3)) normalized)
  else if ['f', 'w', 'd', ':'].isPrefixOf lower then
    some (slice.slice_from (slice.size normalized - slice.size (lower.drop 4)) normalized)
  else none

/-- The loop, `none` when it is not done in so many turns. -/
def stripLoop : Nat → List Char → Option (Except slice.Panic (List Char))
  | 0, _ => none
  | turns + 1, normalized =>
    match stripMark normalized with
    | none => some (.ok normalized)
    | some (.error panic) => some (.error panic)
    | some (.ok rest) => stripLoop turns (str.trim (String.ofList rest)).toList

/-- `normalized_subject` as it slices, in so many turns. -/
def slicedSubject (turns : Nat) (value : Option String) : Option (Except slice.Panic (Option String)) :=
  match value with
  | none => some (.ok none)
  | some value =>
    (stripLoop turns (str.trim value).toList).map fun stripped => stripped.map fun normalized =>
      if normalized.isEmpty then none else some (String.ofList (normalized.map Char.toLower))

section Subject

variable {text : List Char}

/-- Lower case has the bytes of the text it is made of, so a slice by its sizes falls on a character boundary. -/
theorem slice_as_lower (count : Nat) :
    slice.slice_from (slice.size text - slice.size ((text.map Char.toLower).drop count)) text =
      .ok (text.drop count) := by
  have hback : slice.size ((text.map Char.toLower).drop count) = slice.size (text.drop count) := by
    rw [← List.map_drop, slice.size_toLower]
  have hsize : slice.size text = slice.size (text.take count) + slice.size (text.drop count) := by
    rw [← slice.size_append, List.take_append_drop]
  have hcut := @slice.cut_append (text.take count) (text.drop count)
  rw [List.take_append_drop] at hcut
  rw [hback, hsize, Nat.add_sub_cancel, slice.slice_from, hcut]

/-- A subject has as many turns as it needs if it has one more than characters. -/
theorem stripLoop_eq {turns : Nat} (hturns : text.length < turns) :
    stripLoop turns (str.trim (String.ofList text)).toList = some (.ok (stripMarks text)) := by
  induction turns generalizing text with
  | zero => omega
  | succ turns ih =>
    unfold stripLoop stripMark
    rw [stripMarks]
    dsimp only
    by_cases hreply : ['r', 'e', ':'].isPrefixOf ((str.trim (String.ofList text)).toList.map Char.toLower) = true
    · have hless := @length_drop_mark ['r', 'e', ':'] text (Nat.succ_pos 2) hreply
      rw [if_pos hreply, dif_pos hreply]
      rw [slice_as_lower]
      exact ih (hless.trans_le (by omega))
    · rw [if_neg hreply, dif_neg hreply]
      by_cases hforward : ['f', 'w', 'd', ':'].isPrefixOf ((str.trim (String.ofList text)).toList.map Char.toLower) = true
      · have hless := @length_drop_mark ['f', 'w', 'd', ':'] text (Nat.succ_pos 3) hforward
        rw [if_pos hforward, dif_pos hforward]
        rw [slice_as_lower]
        exact ih (hless.trans_le (by omega))
      · rw [if_neg hforward, dif_neg hforward]

/-- No mark is left at the start of a trimmed text. -/
structure Stripped (text : List Char) : Prop where
  trimmed : (str.trim (String.ofList text)).toList = text
  reply : ['r', 'e', ':'].isPrefixOf (text.map Char.toLower) = false
  forward : ['f', 'w', 'd', ':'].isPrefixOf (text.map Char.toLower) = false

theorem stripped_stripMarks (text : List Char) : Stripped (stripMarks text) := by
  fun_induction stripMarks text with
  | case1 text trimmed lower hreply ih => exact ih
  | case2 text trimmed lower hreply hforward ih => exact ih
  | case3 text trimmed lower hreply hforward =>
    refine ⟨?_, Bool.eq_false_iff.mpr hreply, Bool.eq_false_iff.mpr hforward⟩
    show (str.trim (String.ofList (str.trim (String.ofList text)).toList)).toList = (str.trim (String.ofList text)).toList
    rw [String.ofList_toList, str.trim_trim]

theorem Stripped.stripMarks_eq (hstripped : Stripped text) : stripMarks text = text := by
  rw [stripMarks, hstripped.trimmed, dif_neg (Bool.eq_false_iff.mp hstripped.reply), dif_neg (Bool.eq_false_iff.mp hstripped.forward)]

theorem Stripped.lower (hstripped : Stripped text) : Stripped (text.map Char.toLower) := by
  have hlower := str.map_toLower_toLower text
  refine ⟨?_, by rw [hlower]; exact hstripped.reply, by rw [hlower]; exact hstripped.forward⟩
  have htrim := str.trim_to_ascii_lowercase (String.ofList text)
  unfold str.to_ascii_lowercase at htrim
  rw [String.toList_ofList, hstripped.trimmed] at htrim
  rw [htrim, String.toList_ofList]

/-- A subject is normalised in finitely many turns without a slice inside a character, to a text that starts with no
    mark, and that is its own normal form. -/
theorem normalized_subject_total (value : Option String) :
    (∀ more, slicedSubject ((value.getD "").toList.length + 1 + more) value = some (.ok (normalized_subject value))) ∧
    (∀ result ∈ normalized_subject value,
      ¬ "re:".toList <+: (str.to_ascii_lowercase result).toList ∧ ¬ "fwd:".toList <+: (str.to_ascii_lowercase result).toList) ∧
    normalized_subject (normalized_subject value) = normalized_subject value := by
  cases value with
  | none => exact ⟨fun _ => rfl, fun _ hresult => absurd hresult (Option.not_mem_none _), rfl⟩
  | some subject =>
    have hstripped := stripped_stripMarks subject.toList
    refine ⟨fun more => ?_, fun result hresult => ?_, ?_⟩
    · have hloop := @stripLoop_eq subject.toList (subject.toList.length + 1 + more) (by omega)
      rw [String.ofList_toList] at hloop
      rw [slicedSubject, Option.getD_some, hloop]
      rfl
    · unfold normalized_subject at hresult
      rw [Option.bind_some] at hresult
      dsimp only at hresult
      by_cases hempty : (stripMarks subject.toList).isEmpty = true
      · rw [if_pos hempty] at hresult
        exact absurd hresult (Option.not_mem_none _)
      rw [if_neg hempty] at hresult
      obtain rfl := Option.mem_some_iff.mp hresult
      have hlower := hstripped.lower
      have hchars : (str.to_ascii_lowercase (String.ofList ((stripMarks subject.toList).map Char.toLower))).toList =
          ((stripMarks subject.toList).map Char.toLower).map Char.toLower := by
        rw [str.to_ascii_lowercase, String.toList_ofList, String.toList_ofList]
      rw [hchars, ← List.isPrefixOf_iff_prefix, ← List.isPrefixOf_iff_prefix]
      exact ⟨Bool.eq_false_iff.mp hlower.reply, Bool.eq_false_iff.mp hlower.forward⟩
    · unfold normalized_subject
      rw [Option.bind_some]
      dsimp only
      by_cases hempty : (stripMarks subject.toList).isEmpty = true
      · rw [if_pos hempty, Option.bind_none]
      · have hlower := hstripped.lower
        have hkept : ((stripMarks subject.toList).map Char.toLower).isEmpty = false := by
          rw [List.isEmpty_map]
          exact Bool.eq_false_iff.mpr hempty
        rw [if_neg hempty, Option.bind_some, String.toList_ofList, hlower.stripMarks_eq, hkept,
          if_neg Bool.false_ne_true, str.map_toLower_toLower]

end Subject

end ProjectedStore

end posthaste.store
