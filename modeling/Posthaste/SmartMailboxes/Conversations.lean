import Posthaste.Library.Str
import Posthaste.SmartMailboxes.Messages

open posthaste.model

namespace posthaste.store.smart_mailboxes

inductive ConversationSortField where
  | Date
  | From
  | Subject
  | Source
  | ThreadSize
  | Flagged
  | Attachment
  deriving DecidableEq

structure ConversationCursor where
  sort_value : String
  conversation_id : ConversationId

structure SourceMessageRef where
  source_id : AccountId
  message_id : MessageId

structure ConversationSummary where
  id : ConversationId
  subject : Option String
  preview : Option String
  from_name : Option String
  from_email : Option String
  latest_received_at : Timestamp
  unread_count : Int
  message_count : Int
  source_ids : List AccountId
  source_names : List String
  latest_message : SourceMessageRef
  latest_source_name : String
  has_attachment : Bool
  is_flagged : Bool

abbrev ConversationPage := Page ConversationSummary ConversationCursor

/-- `PARTITION BY filtered.conversation_id`: the rows beside this one. -/
def partitionOf (filtered : List EffectiveRow) (row : EffectiveRow) : List EffectiveRow :=
  filtered.filter fun other => other.conversation_id = row.conversation_id

/-- The partition `ORDER BY filtered.received_at DESC, filtered.id DESC`. -/
def newestFirst (filtered : List EffectiveRow) (row : EffectiveRow) : List EffectiveRow :=
  SortDirection.Desc.orderBy (fun other : EffectiveRow => toLex (other.received_at, other.id)) (partitionOf filtered row)

/-- A row of `ranked`: what the window functions add to a filtered row. -/
structure RankedRow where
  row : EffectiveRow
  account_name : String
  row_number : Nat
  message_count : Nat
  unread_count : Nat

/-- A row of `latest`, past the join on its conversation. -/
structure LatestRow where
  conversation_id : ConversationId
  ranked : RankedRow
  source_ids : String
  source_names : String

/-- Splits a `GROUP_CONCAT` at the unit separator. -/
def split_group_concat_strings (value : Option String) : List String :=
  ((value.getD "").splitOn "\x1f").filter fun part => !part.isEmpty

section Queries

variable (connection : Connection) (where_clause : EffectiveRow → Bool)

def rankedRow (row : EffectiveRow) : RankedRow where
  row := row
  account_name := connection.name row
  row_number := (newestFirst (connection.filtered where_clause) row).idxOf row + 1
  message_count := (partitionOf (connection.filtered where_clause) row).length
  unread_count := (partitionOf (connection.filtered where_clause) row).countP fun other => !other.is_read

/-- The sources of the row's conversation, each pair of account and name once. -/
def distinctSources (row : EffectiveRow) : List (AccountId × String) :=
  ((partitionOf (connection.filtered where_clause) row).map fun other =>
    (other.account_id, connection.name other)).eraseDups

/-- `WHERE ranked.row_number = 1`, joined to the sources of its conversation: a null joins none. -/
def latestRow (ranked : RankedRow) : Option LatestRow :=
  match ranked.row.conversation_id with
  | none => none
  | some conversation_id =>
    if ranked.row_number = 1 then
      some {
        conversation_id := conversation_id
        ranked := ranked
        source_ids := "\x1f".intercalate ((distinctSources connection where_clause ranked.row).map Prod.fst)
        source_names := "\x1f".intercalate ((distinctSources connection where_clause ranked.row).map Prod.snd) }
    else none

def latest : List LatestRow :=
  ((connection.filtered where_clause).map (rankedRow connection where_clause)).filterMap
    (latestRow connection where_clause)

def sort_key_expr (sort_field : ConversationSortField) (row : LatestRow) : SqlValue :=
  match sort_field with
  | .Date => .Text row.ranked.row.received_at
  | .From => .Text (lower ((row.ranked.row.from_name <|> row.ranked.row.from_email).getD ""))
  | .Subject => .Text (lower (row.ranked.row.subject.getD ""))
  | .Source => .Text (lower row.ranked.account_name)
  | .ThreadSize => .Integer row.ranked.message_count
  | .Flagged => .Integer row.ranked.row.is_flagged.toNat
  | .Attachment => .Integer row.ranked.row.has_attachment.toNat

def is_numeric_sort : ConversationSortField → Bool
  | .ThreadSize | .Flagged | .Attachment => true
  | _ => false

def cursor_sort_sql_value (sort_field : ConversationSortField) (raw : String) : Except StoreError SqlValue :=
  cursorSqlValue (is_numeric_sort sort_field) raw

def conversationSummary (row : LatestRow) : ConversationSummary where
  id := row.conversation_id
  subject := row.ranked.row.subject
  preview := row.ranked.row.preview
  from_name := row.ranked.row.from_name
  from_email := row.ranked.row.from_email
  latest_received_at := row.ranked.row.received_at
  unread_count := row.ranked.unread_count
  message_count := row.ranked.message_count
  source_ids := split_group_concat_strings (some row.source_ids)
  source_names := split_group_concat_strings (some row.source_names)
  latest_message := { source_id := row.ranked.row.account_id, message_id := row.ranked.row.id }
  latest_source_name := row.ranked.account_name
  has_attachment := row.ranked.row.has_attachment
  is_flagged := row.ranked.row.is_flagged

/-- The two columns a conversation page is ordered and cut by. -/
def conversationKey (sort_field : ConversationSortField) (row : LatestRow) : SqlValue ×ₗ ConversationId :=
  toLex (sort_key_expr sort_field row, row.conversation_id)

/-- `page_filter`: `sort_key {seek_op} ? OR (sort_key = ? AND conversation_id {seek_op} ?)`. -/
def conversation_page_filter (sort_field : ConversationSortField) (sort_direction : SortDirection) :
    Option ConversationCursor → Except StoreError (LatestRow → Bool)
  | none => .ok fun _ => true
  | some cursor => do
    let value ← cursor_sort_sql_value sort_field cursor.sort_value
    .ok fun row =>
      sort_direction.before value (sort_key_expr sort_field row) ∨
        sort_key_expr sort_field row = value ∧ sort_direction.before cursor.conversation_id row.conversation_id

def conversationCursorOf : ConversationSummary × SqlValue → ConversationCursor
  | (item, sort_key_value) => {
      sort_value := sql_value_to_cursor_string sort_key_value
      conversation_id := item.id }

def query_conversations (limit : Nat) (sort_field : ConversationSortField) (sort_direction : SortDirection)
    (cursor : Option ConversationCursor) : Except StoreError ConversationPage := do
  let page_limit := max limit 1
  let pageFilter ← conversation_page_filter sort_field sort_direction cursor
  let ordered := sort_direction.orderBy (conversationKey sort_field)
    ((latest connection where_clause).filter pageFilter)
  let items := (limited (asI64 ((page_limit + 1) % 2 ^ 64)) ordered).map fun row =>
    (conversationSummary row, sort_key_expr sort_field row)
  let has_more := page_limit < items.length
  let items := if has_more then items.take page_limit else items
  let next_cursor := if has_more then items.getLast?.map conversationCursorOf else none
  return { items := items.map Prod.fst, next_cursor := next_cursor }

/-- The same query with neither cursor nor limit. -/
def unpagedConversations (sort_field : ConversationSortField) (sort_direction : SortDirection) :
    List ConversationSummary :=
  (sort_direction.orderBy (conversationKey sort_field) (latest connection where_clause)).map conversationSummary

end Queries

section Covered

variable {connection : Connection} {where_clause : EffectiveRow → Bool} {sort_field : ConversationSortField}
  {sort_direction : SortDirection}

theorem mem_newestFirst {filtered : List EffectiveRow} {row other : EffectiveRow} :
    other ∈ newestFirst filtered row ↔ other ∈ filtered ∧ other.conversation_id = row.conversation_id := by
  rw [newestFirst, SortDirection.mem_orderBy, partitionOf, List.mem_filter, decide_eq_true_iff]

theorem newestFirst_congr {filtered : List EffectiveRow} {first second : EffectiveRow}
    (hsame : first.conversation_id = second.conversation_id) : newestFirst filtered first = newestFirst filtered second := by
  rw [newestFirst, newestFirst, partitionOf, partitionOf, hsame]

/-- The row numbered 1 heads its partition. -/
theorem row_number_eq_one_iff {row : EffectiveRow} (hrow : row ∈ connection.filtered where_clause) :
    (rankedRow connection where_clause row).row_number = 1 ↔
      (newestFirst (connection.filtered where_clause) row).head? = some row := by
  have hmem : row ∈ newestFirst (connection.filtered where_clause) row := mem_newestFirst.mpr ⟨hrow, rfl⟩
  rw [rankedRow]
  cases hlist : newestFirst (connection.filtered where_clause) row with
  | nil =>
    rw [hlist] at hmem
    cases hmem
  | cons first rest =>
    by_cases hfirst : first = row
    · simp [hfirst]
    · simp [hfirst]

theorem of_latestRow {ranked : RankedRow} {row : LatestRow}
    (hrow : latestRow connection where_clause ranked = some row) :
    ranked.row.conversation_id = some row.conversation_id ∧ ranked.row_number = 1 ∧ row.ranked = ranked := by
  cases hconversation : ranked.row.conversation_id with
  | none =>
    simp only [latestRow, hconversation] at hrow
    cases hrow
  | some conversation_id =>
    simp only [latestRow, hconversation, Option.ite_none_right_eq_some, Option.some.injEq] at hrow
    obtain ⟨hnumber, rfl⟩ := hrow
    exact ⟨rfl, hnumber, rfl⟩

theorem latestRow_of_newest {ranked : RankedRow} {conversation_id : ConversationId}
    (hconversation : ranked.row.conversation_id = some conversation_id) (hnumber : ranked.row_number = 1) :
    ∃ row, latestRow connection where_clause ranked = some row ∧ row.conversation_id = conversation_id := by
  simp only [latestRow, hconversation, if_pos hnumber]
  exact ⟨_, rfl, rfl⟩

/-- One conversation, one row. -/
theorem conversation_ids_nodup : ((latest connection where_clause).map LatestRow.conversation_id).Nodup := by
  have hrows : (connection.filtered where_clause).Nodup := keys_filtered_nodup.of_map _
  rw [List.Nodup, List.pairwise_map, latest, List.pairwise_filterMap, List.pairwise_map]
  refine hrows.imp_of_mem ?_
  intro first second hfirst hsecond hne row hrow other hother hsame
  obtain ⟨hconversation, hnumber, -⟩ := of_latestRow hrow
  obtain ⟨hotherConversation, hotherNumber, -⟩ := of_latestRow hother
  have hshared : first.conversation_id = second.conversation_id := by
    rw [rankedRow] at hconversation hotherConversation
    rw [hconversation, hotherConversation, hsame]
  have hhead := (row_number_eq_one_iff hfirst).mp hnumber
  have hotherHead := (row_number_eq_one_iff hsecond).mp hotherNumber
  rw [newestFirst_congr hshared, hotherHead, Option.some.injEq] at hhead
  exact hne hhead.symm

/-- The list has a row for exactly the conversations of the rows the rule keeps. -/
theorem mem_conversation_ids {conversation_id : ConversationId} :
    conversation_id ∈ (latest connection where_clause).map LatestRow.conversation_id ↔
      ∃ row ∈ connection.filtered where_clause, row.conversation_id = some conversation_id := by
  simp only [latest, List.mem_map, List.mem_filterMap]
  constructor
  · rintro ⟨row, ⟨ranked, ⟨message, hmessage, rfl⟩, hrow⟩, rfl⟩
    exact ⟨message, hmessage, (of_latestRow hrow).1⟩
  · rintro ⟨message, hmessage, hconversation⟩
    have hmem : message ∈ newestFirst (connection.filtered where_clause) message :=
      mem_newestFirst.mpr ⟨hmessage, rfl⟩
    obtain ⟨newest, rest, hlist⟩ := List.exists_cons_of_ne_nil (List.ne_nil_of_mem hmem)
    have hnewest : newest ∈ newestFirst (connection.filtered where_clause) message := by
      rw [hlist]
      exact List.mem_cons_self
    obtain ⟨hkept, hshared⟩ := mem_newestFirst.mp hnewest
    have hnumber : (rankedRow connection where_clause newest).row_number = 1 := by
      rw [row_number_eq_one_iff hkept, newestFirst_congr hshared, hlist, List.head?_cons]
    have hnewestRow : (rankedRow connection where_clause newest).row.conversation_id = some conversation_id :=
      hshared.trans hconversation
    obtain ⟨row, hrow, hid⟩ := latestRow_of_newest hnewestRow hnumber
    exact ⟨row, ⟨_, ⟨newest, hkept, rfl⟩, hrow⟩, hid⟩

theorem ranked_mem_latest {row : LatestRow} (hrow : row ∈ latest connection where_clause) :
    ∃ message, row.ranked = rankedRow connection where_clause message := by
  obtain ⟨ranked, hranked, hrow⟩ := List.mem_filterMap.mp hrow
  obtain ⟨message, -, rfl⟩ := List.mem_map.mp hranked
  exact ⟨message, (of_latestRow hrow).2.2⟩

def conversationCursorAfter (sort_field : ConversationSortField) (row : LatestRow) : ConversationCursor where
  sort_value := sql_value_to_cursor_string (sort_key_expr sort_field row)
  conversation_id := row.conversation_id

theorem message_count_lt (message : EffectiveRow) :
    (rankedRow connection where_clause message).message_count < 2 ^ 63 := by
  have hpartition : (partitionOf (connection.filtered where_clause) message).length ≤
      (connection.filtered where_clause).length := List.length_filter_le _ _
  have hfiltered : (connection.filtered where_clause).length ≤ connection.message_effective.rows.length :=
    List.length_filter_le _ _
  exact lt_of_le_of_lt (hpartition.trans hfiltered) connection.rows_fit

theorem cursor_sort_sql_value_conversationCursorAfter {row : LatestRow} (hrow : row ∈ latest connection where_clause) :
    cursor_sort_sql_value sort_field (conversationCursorAfter sort_field row).sort_value =
      .ok (sort_key_expr sort_field row) := by
  have hflag : ∀ flag : Bool, flag.toNat < 2 ^ 63 := by decide
  obtain ⟨message, hranked⟩ := ranked_mem_latest hrow
  cases sort_field with
  | ThreadSize => exact cursorSqlValue_Integer (hranked ▸ message_count_lt message)
  | Flagged => exact cursorSqlValue_Integer (hflag row.ranked.row.is_flagged)
  | Attachment => exact cursorSqlValue_Integer (hflag row.ranked.row.has_attachment)
  | Date | From | Subject | Source => exact cursorSqlValue_Text _

theorem conversation_page_filter_cursorAfter {cursor : Option LatestRow}
    (hcursor : ∀ last ∈ cursor, last ∈ latest connection where_clause) :
    conversation_page_filter sort_field sort_direction (cursor.map (conversationCursorAfter sort_field)) =
      .ok fun row => cursor.all fun last =>
        sort_direction.before (conversationKey sort_field last) (conversationKey sort_field row) := by
  cases cursor with
  | none => rfl
  | some last =>
    rw [Option.map_some, conversation_page_filter,
      cursor_sort_sql_value_conversationCursorAfter (hcursor last rfl), effects.except_bind_ok]
    congr 1
    funext row
    simp only [conversationKey, SortDirection.before_toLex, conversationCursorAfter, eq_comm, Option.all_some]

theorem query_conversations_eq {limit : Nat} (hpositive : 1 ≤ limit) (hfits : limit + 1 < 2 ^ 64)
    {cursor : Option LatestRow} (hcursor : ∀ last ∈ cursor, last ∈ latest connection where_clause) :
    query_conversations connection where_clause limit sort_field sort_direction
        (cursor.map (conversationCursorAfter sort_field)) =
      .ok (seek.cut conversationSummary (conversationCursorAfter sort_field) limit
        (sort_direction.rowsAfter (conversationKey sort_field) (latest connection where_clause) cursor)) := by
  have hmax : max limit 1 = limit := Nat.max_eq_left hpositive
  rw [query_conversations, conversation_page_filter_cursorAfter hcursor, effects.except_bind_ok]
  simp only [hmax]
  rw [← SortDirection.rowsAfter, ← cut_limited hfits]
  exact congrArg Except.ok (seek.truncate_eq_cut.trans seek.cut_map)

/-- The pages list every conversation that holds a kept message once, in order, whatever their size. -/
def ConversationsCovered (connection : Connection) (where_clause : EffectiveRow → Bool)
    (sort_field : ConversationSortField) (sort_direction : SortDirection) : Prop :=
  let items := unpagedConversations connection where_clause sort_field sort_direction
  (items.map ConversationSummary.id).Nodup ∧
    (∀ conversation_id, conversation_id ∈ items.map ConversationSummary.id ↔
      ∃ row ∈ connection.filtered where_clause, row.conversation_id = some conversation_id) ∧
    ∀ limit, 1 ≤ limit → limit + 1 < 2 ^ 64 → ∃ fuel,
      seek.follow (query_conversations connection where_clause limit sort_field sort_direction) fuel none =
        some (.ok items)

/-- Conversation ids are unique in the listing, so no tie is left to break. -/
theorem conversationsCovered : ConversationsCovered connection where_clause sort_field sort_direction := by
  have hperm : (sort_direction.orderBy (conversationKey sort_field) (latest connection where_clause)).Perm
      (latest connection where_clause) := SortDirection.perm_orderBy
  have hkeys : ((latest connection where_clause).map (conversationKey sort_field)).Nodup := by
    refine List.Nodup.of_map (fun key => (ofLex key).2) ?_
    rw [List.map_map]
    exact conversation_ids_nodup
  have hids : ((unpagedConversations connection where_clause sort_field sort_direction).map ConversationSummary.id).Perm
      ((latest connection where_clause).map LatestRow.conversation_id) := by
    rw [unpagedConversations, List.map_map]
    exact hperm.map LatestRow.conversation_id
  refine ⟨hids.nodup_iff.mpr conversation_ids_nodup, fun _ => hids.mem_iff.trans mem_conversation_ids, ?_⟩
  intro limit hpositive hfits
  exact SortDirection.follow_rowsAfter hpositive hperm (SortDirection.pairwise_orderBy hkeys) fun _ hcursor =>
    query_conversations_eq hpositive hfits hcursor

end Covered

/-- Account ids free of the separator and of what sorts below it are enough for ties to agree. -/
theorem tiesAgree_of_printable {connection : Connection} {where_clause : EffectiveRow → Bool}
    {sort_field : MessageSortField}
    (hprintable : ∀ row ∈ connection.filtered where_clause, ∀ c ∈ row.account_id.toList, '\x1f' < c) :
    TiesAgree connection where_clause sort_field := by
  intro first _ second hsecond _ hkey
  have hcases : first.account_id < second.account_id ∨ first.account_id = second.account_id ∧ first.id < second.id :=
    Prod.Lex.toLex_lt_toLex.mp hkey
  rw [tie_key, tie_key, String.lt_iff_toList_lt]
  simp only [String.toList_append, List.append_assoc]
  rcases hcases with haccount | ⟨haccount, hid⟩
  · exact str.separated_lt (hprintable second hsecond) (String.lt_iff_toList_lt.mp haccount) _ _
  · rw [haccount]
    exact List.append_left_lt (List.append_left_lt (String.lt_iff_toList_lt.mp hid))

/-- For any rule, sort field and direction: the pages of both lists cover exactly once, in the unpaged
    order, exactly when every kept row has a conversation and ties agree. -/
theorem pages_cover_iff (connection : Connection) (where_clause : EffectiveRow → Bool)
    (message_field : MessageSortField) (conversation_field : ConversationSortField) (sort_direction : SortDirection) :
    (MessagesCovered connection where_clause message_field sort_direction ∧
        ConversationsCovered connection where_clause conversation_field sort_direction) ↔
      Summarizable connection where_clause ∧ TiesAgree connection where_clause message_field := by
  rw [messagesCovered_iff]
  constructor
  · rintro ⟨hmessages, -⟩
    exact hmessages
  · intro hmessages
    exact ⟨hmessages, conversationsCovered⟩

/-- A message of one of the two stores below. -/
def datedRow (account_id : AccountId) (id : MessageId) : EffectiveRow where
  account_id := account_id
  id := id
  thread_id := "t1"
  conversation_id := some "conv-1"
  subject := none
  from_name := none
  from_email := none
  to_ := []
  preview := none
  received_at := "2024-01-01T00:00:00Z"
  has_attachment := false
  is_read := false
  is_flagged := false

/-- Accounts `a` and `a\u{1}`, whose tie keys sort the other way round. -/
def reordered : Connection where
  message_effective := ⟨[datedRow "a" "m1", datedRow "a\x01" "m1"], by decide⟩
  source_projection := fun _ => none
  rows_fit := by decide

/-- Accounts `a` and `a\u{1f}b`, with two messages that share one tie key. -/
def tied : Connection where
  message_effective := ⟨[datedRow "a" "b\x1fc", datedRow "a\x1fb" "c"], by decide⟩
  source_projection := fun _ => none
  rows_fit := by decide

theorem pages_reorder_and_lose_messages :
    ¬ MessagesCovered reordered (fun _ => true) .Date .Asc ∧ ¬ MessagesCovered tied (fun _ => true) .Date .Asc ∧
      (seek.follow (query_message_page tied (fun _ => true) 1 .Date .Asc) 2 none).map
        (·.map (·.map MessageSummaryRow.key)) = some (.ok [("a", "b\x1fc")]) := by
  refine ⟨?_, ?_, ?_⟩
  · rw [messagesCovered_iff]
    rintro ⟨-, hties⟩
    have htie := hties (datedRow "a" "m1") (by decide) (datedRow "a\x01" "m1") (by decide) (by decide) (by decide)
    exact absurd htie (by decide)
  · rw [messagesCovered_iff]
    rintro ⟨-, hties⟩
    have htie := hties (datedRow "a" "b\x1fc") (by decide) (datedRow "a\x1fb" "c") (by decide) (by decide) (by decide)
    exact absurd htie (by decide)
  · decide

end posthaste.store.smart_mailboxes
