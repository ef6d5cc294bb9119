import Posthaste.DomainModel.Records
import Posthaste.Library.Effects
import Posthaste.Library.Seek
import Posthaste.SmartMailboxes.Sql
import Posthaste.Store.Conversation

open posthaste.model

namespace posthaste.store.smart_mailboxes

/-- The columns of `message_effective` that the list queries read. -/
structure EffectiveRow where
  account_id : AccountId
  id : MessageId
  thread_id : ThreadId
  conversation_id : Option ConversationId
  subject : Option String
  from_name : Option String
  from_email : Option String
  to_ : List Recipient
  preview : Option String
  received_at : Timestamp
  has_attachment : Bool
  is_read : Bool
  is_flagged : Bool
  deriving DecidableEq

def EffectiveRow.key (row : EffectiveRow) : AccountId × MessageId := (row.account_id, row.id)

/-- The view's rows in scan order and the names of the sources. SQLite counts rows in an `i64`. -/
structure Connection where
  message_effective : Table EffectiveRow EffectiveRow.key
  source_projection : AccountId → Option String
  rows_fit : message_effective.rows.length < 2 ^ 63

/-- `COALESCE(a.name, m.account_id)`. -/
def Connection.name (connection : Connection) (row : EffectiveRow) : String :=
  (connection.source_projection row.account_id).getD row.account_id

/-- The rows the `WHERE` clause keeps. -/
def Connection.filtered (connection : Connection) (where_clause : EffectiveRow → Bool) : List EffectiveRow :=
  connection.message_effective.rows.filter where_clause

inductive MessageSortField where
  | Date
  | From
  | Subject
  | Source
  | Flagged
  | Attachment
  deriving DecidableEq

structure MessageCursor where
  sort_value : String
  source_id : AccountId
  message_id : MessageId

/-- A message of a page, before its mailboxes and keywords are looked up row by row. -/
structure MessageSummaryRow where
  id : MessageId
  source_id : AccountId
  source_name : String
  source_thread_id : ThreadId
  conversation_id : ConversationId
  subject : Option String
  from_name : Option String
  from_email : Option String
  to_ : List Recipient
  preview : Option String
  received_at : Timestamp
  has_attachment : Bool
  is_read : Bool
  is_flagged : Bool
  deriving DecidableEq

def MessageSummaryRow.key (row : MessageSummaryRow) : AccountId × MessageId := (row.source_id, row.id)

abbrev MessagePage := Page MessageSummaryRow MessageCursor

def message_sort_key_expr (connection : Connection) (sort_field : MessageSortField) (row : EffectiveRow) : SqlValue :=
  match sort_field with
  | .Date => .Text row.received_at
  | .From => .Text (lower ((row.from_name <|> row.from_email).getD ""))
  | .Subject => .Text (lower (row.subject.getD ""))
  | .Source => .Text (lower (connection.name row))
  | .Flagged => .Integer row.is_flagged.toNat
  | .Attachment => .Integer row.has_attachment.toNat

/-- `account_id || char(31) || id`. -/
def tie_key (row : EffectiveRow) : String := row.account_id ++ "\x1f" ++ row.id

def is_numeric_message_sort : MessageSortField → Bool
  | .Flagged | .Attachment => true
  | _ => false

def message_cursor_sort_sql_value (sort_field : MessageSortField) (raw : String) : Except StoreError SqlValue :=
  cursorSqlValue (is_numeric_message_sort sort_field) raw

def message_cursor_tie_key (cursor : MessageCursor) : String := cursor.source_id ++ "\x1f" ++ cursor.message_id

def EffectiveRow.summary (connection : Connection) (row : EffectiveRow) (conversation_id : ConversationId) :
    MessageSummaryRow where
  id := row.id
  source_id := row.account_id
  source_name := connection.name row
  source_thread_id := row.thread_id
  conversation_id := conversation_id
  subject := row.subject
  from_name := row.from_name
  from_email := row.from_email
  to_ := row.to_
  preview := row.preview
  received_at := row.received_at
  has_attachment := row.has_attachment
  is_read := row.is_read
  is_flagged := row.is_flagged

/-- `conversation_id` is the one nullable column read into a plain string. -/
def row_to_message_summary_row (connection : Connection) (row : EffectiveRow) : Except StoreError MessageSummaryRow :=
  match row.conversation_id with
  | none => .error (.Failure "Invalid column type Null at index: 4, name: conversation_id")
  | some conversation_id => .ok (row.summary connection conversation_id)

/-- A row of the page query: the summary and the sort key beside it. -/
def readRow (connection : Connection) (sort_field : MessageSortField) (row : EffectiveRow) :
    Except StoreError (MessageSummaryRow × SqlValue) := do
  let summary ← row_to_message_summary_row connection row
  return (summary, message_sort_key_expr connection sort_field row)

def cursorOf : MessageSummaryRow × SqlValue → MessageCursor
  | (row, sort_key_value) => {
      sort_value := sql_value_to_cursor_string sort_key_value
      source_id := row.source_id
      message_id := row.id }

section Queries

variable (connection : Connection) (where_clause : EffectiveRow → Bool)

/-- The two columns a page is ordered and cut by. -/
def seekKey (sort_field : MessageSortField) (row : EffectiveRow) : SqlValue ×ₗ String :=
  toLex (message_sort_key_expr connection sort_field row, tie_key row)

/-- `page_filter`: `sort_key {seek_op} ? OR (sort_key = ? AND tie_key {seek_op} ?)`. -/
def page_filter (sort_field : MessageSortField) (sort_direction : SortDirection) :
    Option MessageCursor → Except StoreError (EffectiveRow → Bool)
  | none => .ok fun _ => true
  | some cursor => do
    let value ← message_cursor_sort_sql_value sort_field cursor.sort_value
    .ok fun row =>
      let sort_key := message_sort_key_expr connection sort_field row
      sort_direction.before value sort_key ∨
        sort_key = value ∧ sort_direction.before (message_cursor_tie_key cursor) (tie_key row)

def query_message_page (limit : Nat) (sort_field : MessageSortField) (sort_direction : SortDirection)
    (cursor : Option MessageCursor) : Except StoreError MessagePage := do
  let page_limit := max limit 1
  let pageFilter ← page_filter connection sort_field sort_direction cursor
  let ordered := sort_direction.orderBy (seekKey connection sort_field)
    ((connection.filtered where_clause).filter pageFilter)
  let rows ← (limited (asI64 ((page_limit + 1) % 2 ^ 64)) ordered).mapM (readRow connection sort_field)
  let has_more := page_limit < rows.length
  let rows := if has_more then rows.take page_limit else rows
  let next_cursor := if has_more then rows.getLast?.map cursorOf else none
  return { items := rows.map Prod.fst, next_cursor := next_cursor }

/-- The columns of the unpaged query's `ORDER BY`. -/
def sortedKey (sort_field : MessageSortField) (row : EffectiveRow) : SqlValue ×ₗ AccountId ×ₗ MessageId :=
  toLex (message_sort_key_expr connection sort_field row, toLex (row.account_id, row.id))

def query_messages_by_rule_sorted (sort_field : MessageSortField) (sort_direction : SortDirection) :
    Except StoreError (List MessageSummaryRow) :=
  (sort_direction.orderBy (sortedKey connection sort_field) (connection.filtered where_clause)).mapM
    (row_to_message_summary_row connection)

end Queries

/-- What the cursor after a row holds. -/
def cursorAfter (connection : Connection) (sort_field : MessageSortField) (row : EffectiveRow) : MessageCursor where
  sort_value := sql_value_to_cursor_string (message_sort_key_expr connection sort_field row)
  source_id := row.account_id
  message_id := row.id

/-- The summary of a row that has a conversation. -/
def summarized (connection : Connection) (row : EffectiveRow) : MessageSummaryRow :=
  row.summary connection (row.conversation_id.getD "")

section Served

variable {connection : Connection} {where_clause : EffectiveRow → Bool} {sort_field : MessageSortField}
  {sort_direction : SortDirection}

theorem row_to_message_summary_row_of_isSome {row : EffectiveRow} (hsome : row.conversation_id.isSome) :
    row_to_message_summary_row connection row = .ok (summarized connection row) := by
  obtain ⟨conversation_id, hrow⟩ := Option.isSome_iff_exists.mp hsome
  simp only [row_to_message_summary_row, summarized, hrow, Option.getD_some]

theorem isSome_of_row_to_message_summary_row {row : EffectiveRow} {summary : MessageSummaryRow}
    (hok : row_to_message_summary_row connection row = .ok summary) : row.conversation_id.isSome := by
  cases hrow : row.conversation_id with
  | none =>
    simp only [row_to_message_summary_row, hrow] at hok
    cases hok
  | some _ => rfl

/-- A cursor's sort value is bound back as the sort key it was printed from. -/
theorem message_cursor_sort_sql_value_cursorAfter (row : EffectiveRow) :
    message_cursor_sort_sql_value sort_field (cursorAfter connection sort_field row).sort_value =
      .ok (message_sort_key_expr connection sort_field row) := by
  have hflag : ∀ flag : Bool, flag.toNat < 2 ^ 63 := by decide
  cases sort_field with
  | Flagged => exact cursorSqlValue_Integer (hflag row.is_flagged)
  | Attachment => exact cursorSqlValue_Integer (hflag row.has_attachment)
  | Date | From | Subject | Source => exact cursorSqlValue_Text _

/-- The cursor after a row cuts by the key the row had where it was read. -/
theorem page_filter_at (cursor : Option (Connection × EffectiveRow)) :
    page_filter connection sort_field sort_direction
        (cursor.map fun last => cursorAfter last.1 sort_field last.2) =
      .ok fun row => cursor.all fun last =>
        sort_direction.before (seekKey last.1 sort_field last.2) (seekKey connection sort_field row) := by
  cases cursor with
  | none => rfl
  | some last =>
    rw [Option.map_some, page_filter, message_cursor_sort_sql_value_cursorAfter, effects.except_bind_ok]
    congr 1
    funext row
    rw [Option.all_some, decide_eq_decide]
    simp only [seekKey, SortDirection.before_toLex, tie_key, message_cursor_tie_key, cursorAfter, eq_comm]

theorem page_filter_cursorAfter (cursor : Option EffectiveRow) :
    page_filter connection sort_field sort_direction (cursor.map (cursorAfter connection sort_field)) =
      .ok fun row => cursor.all fun last =>
        sort_direction.before (seekKey connection sort_field last) (seekKey connection sort_field row) := by
  have hfilter := @page_filter_at connection sort_field sort_direction (cursor.map (connection, ·))
  rw [Option.map_map] at hfilter
  refine hfilter.trans ?_
  simp only [Option.all_map]

/-- A page is the first `limit` of the rows its cursor keeps, in order. -/
theorem query_message_page_filtered {limit : Nat} (hpositive : 1 ≤ limit) (hfits : limit + 1 < 2 ^ 64)
    (hsome : ∀ row ∈ connection.filtered where_clause, row.conversation_id.isSome) {cursor : Option MessageCursor}
    {kept : EffectiveRow → Bool} (hcursor : page_filter connection sort_field sort_direction cursor = .ok kept) :
    query_message_page connection where_clause limit sort_field sort_direction cursor =
      .ok (seek.cut (summarized connection) (cursorAfter connection sort_field) limit
        (sort_direction.orderBy (seekKey connection sort_field) ((connection.filtered where_clause).filter kept))) := by
  have hmax : max limit 1 = limit := Nat.max_eq_left hpositive
  have hread : ∀ row ∈ limited (asI64 ((limit + 1) % 2 ^ 64)) (sort_direction.orderBy
      (seekKey connection sort_field) ((connection.filtered where_clause).filter kept)),
      readRow connection sort_field row =
        .ok (summarized connection row, message_sort_key_expr connection sort_field row) := by
    intro row hrow
    have hmem := List.mem_of_mem_filter (SortDirection.mem_orderBy.mp (mem_of_mem_limited hrow))
    rw [readRow, row_to_message_summary_row_of_isSome (hsome row hmem), effects.except_bind_ok]
    rfl
  rw [query_message_page, hcursor, effects.except_bind_ok]
  simp only [hmax]
  rw [effects.except_mapM_of_ok hread, effects.except_bind_ok, ← cut_limited hfits]
  exact congrArg Except.ok (seek.truncate_eq_cut.trans seek.cut_map)

/-- Whatever the cursor keeps, a page is the first `limit` of those rows in order. -/
theorem query_message_page_eq {limit : Nat} (hpositive : 1 ≤ limit) (hfits : limit + 1 < 2 ^ 64)
    (hsome : ∀ row ∈ connection.filtered where_clause, row.conversation_id.isSome) (cursor : Option EffectiveRow) :
    query_message_page connection where_clause limit sort_field sort_direction
        (cursor.map (cursorAfter connection sort_field)) =
      .ok (seek.cut (summarized connection) (cursorAfter connection sort_field) limit
        (sort_direction.rowsAfter (seekKey connection sort_field) (connection.filtered where_clause) cursor)) :=
  query_message_page_filtered hpositive hfits hsome (page_filter_cursorAfter cursor)

/-- The same of rows named with the state they were read from, for a cursor from another state. -/
theorem query_message_page_at {limit : Nat} (hpositive : 1 ≤ limit) (hfits : limit + 1 < 2 ^ 64)
    (hsome : ∀ row ∈ connection.filtered where_clause, row.conversation_id.isSome)
    (cursor : Option (Connection × EffectiveRow)) :
    query_message_page connection where_clause limit sort_field sort_direction
        (cursor.map fun last => cursorAfter last.1 sort_field last.2) =
      .ok (seek.cut (fun row => summarized row.1 row.2) (fun row => cursorAfter row.1 sort_field row.2) limit
        (sort_direction.rowsAfter (fun row => seekKey row.1 sort_field row.2)
          ((connection.filtered where_clause).map (connection, ·)) cursor)) := by
  rw [query_message_page_filtered hpositive hfits hsome (page_filter_at cursor), SortDirection.rowsAfter,
    List.filter_map, SortDirection.orderBy_map, seek.cut_map]
  rfl

/-- Every row the rule keeps can be read: it has a conversation. -/
def Summarizable (connection : Connection) (where_clause : EffectiveRow → Bool) : Prop :=
  ∀ row ∈ connection.filtered where_clause, row.conversation_id.isSome

/-- Rows that sort alike are told apart by their tie keys, in the order of account and id. -/
def TiesAgree (connection : Connection) (where_clause : EffectiveRow → Bool) (sort_field : MessageSortField) : Prop :=
  ∀ first ∈ connection.filtered where_clause, ∀ second ∈ connection.filtered where_clause,
    message_sort_key_expr connection sort_field first = message_sort_key_expr connection sort_field second →
    toLex first.key < toLex second.key → tie_key first < tie_key second

theorem keys_filtered_nodup : ((connection.filtered where_clause).map EffectiveRow.key).Nodup :=
  connection.message_effective.keys_nodup.sublist (List.filter_sublist.map _)

theorem pairwise_sortedKey :
    (sort_direction.orderBy (sortedKey connection sort_field) (connection.filtered where_clause)).Pairwise
      fun first second => sort_direction.before (sortedKey connection sort_field first)
        (sortedKey connection sort_field second) := by
  refine SortDirection.pairwise_orderBy ?_
  have hkeys : ((connection.filtered where_clause).map EffectiveRow.key).Nodup := keys_filtered_nodup
  refine List.Nodup.of_map (fun key => ofLex (ofLex key).2) ?_
  rw [List.map_map]
  exact hkeys

theorem query_messages_by_rule_sorted_of_summarizable (hsome : Summarizable connection where_clause) :
    query_messages_by_rule_sorted connection where_clause sort_field sort_direction =
      .ok ((sort_direction.orderBy (sortedKey connection sort_field) (connection.filtered where_clause)).map
        (summarized connection)) := by
  refine effects.except_mapM_of_ok ?_
  intro row hrow
  exact row_to_message_summary_row_of_isSome (hsome row (SortDirection.mem_orderBy.mp hrow))

theorem summarizable_of_sorted {items : List MessageSummaryRow}
    (hitems : query_messages_by_rule_sorted connection where_clause sort_field sort_direction = .ok items) :
    Summarizable connection where_clause := by
  intro row hrow
  obtain ⟨summary, hread⟩ := effects.ok_of_except_mapM hitems row (SortDirection.mem_orderBy.mpr hrow)
  exact isSome_of_row_to_message_summary_row hread

/-- Where ties agree, the unpaged order is also strict by the columns pages are cut by. -/
theorem pairwise_seekKey (hties : TiesAgree connection where_clause sort_field) :
    (sort_direction.orderBy (sortedKey connection sort_field) (connection.filtered where_clause)).Pairwise
      fun first second => sort_direction.before (seekKey connection sort_field first)
        (seekKey connection sort_field second) := by
  refine pairwise_sortedKey.imp_of_mem ?_
  intro first second hfirst hsecond hbefore
  rw [SortDirection.mem_orderBy] at hfirst hsecond
  rw [sortedKey, sortedKey, SortDirection.before_toLex] at hbefore
  rw [seekKey, seekKey, SortDirection.before_toLex]
  rcases hbefore with hsort | ⟨hsame, hkey⟩
  · exact Or.inl hsort
  · refine Or.inr ⟨hsame, ?_⟩
    cases sort_direction with
    | Asc => exact hties first hfirst second hsecond hsame hkey
    | Desc => exact hties second hsecond first hfirst hsame.symm hkey

/-- The pages list every message the rule keeps once, in the unpaged order, whatever their size. -/
def MessagesCovered (connection : Connection) (where_clause : EffectiveRow → Bool) (sort_field : MessageSortField)
    (sort_direction : SortDirection) : Prop :=
  ∃ items, query_messages_by_rule_sorted connection where_clause sort_field sort_direction = .ok items ∧
    (items.map MessageSummaryRow.key).Perm ((connection.filtered where_clause).map EffectiveRow.key) ∧
    ∀ limit, 1 ≤ limit → limit + 1 < 2 ^ 64 → ∃ fuel,
      seek.follow (query_message_page connection where_clause limit sort_field sort_direction) fuel none =
        some (.ok items)

theorem messagesCovered_of_tiesAgree (hsome : Summarizable connection where_clause)
    (hties : TiesAgree connection where_clause sort_field) :
    MessagesCovered connection where_clause sort_field sort_direction := by
  have hsorted : (sort_direction.orderBy (sortedKey connection sort_field) (connection.filtered where_clause)).Pairwise
      _ := pairwise_seekKey hties
  have hperm : (sort_direction.orderBy (sortedKey connection sort_field) (connection.filtered where_clause)).Perm
      (connection.filtered where_clause) := SortDirection.perm_orderBy
  refine ⟨_, query_messages_by_rule_sorted_of_summarizable hsome, ?_, ?_⟩
  · rw [List.map_map]
    exact hperm.map EffectiveRow.key
  · intro limit hpositive hfits
    exact SortDirection.follow_rowsAfter hpositive hperm hsorted fun cursor _ =>
      query_message_page_eq hpositive hfits hsome cursor

theorem summarized_inj {first second : EffectiveRow} (hfirst : first ∈ connection.filtered where_clause)
    (hsecond : second ∈ connection.filtered where_clause)
    (hsame : summarized connection first = summarized connection second) : first = second :=
  List.inj_on_of_nodup_map keys_filtered_nodup hfirst hsecond (congrArg MessageSummaryRow.key hsame)

/-- Pages of one row show a tie the unpaged order breaks only when the tie keys break it alike. -/
theorem tiesAgree_of_messagesCovered (hcovered : MessagesCovered connection where_clause sort_field sort_direction) :
    TiesAgree connection where_clause sort_field := by
  obtain ⟨items, hitems, -, hpages⟩ := hcovered
  have hsome := summarizable_of_sorted hitems
  obtain ⟨fuel, hfollow⟩ := hpages 1 (le_refl 1) (by decide)
  obtain ⟨listed, hlisted, hmem, hseek⟩ :=
    SortDirection.listed_of_rowsAfter (fun cursor _ => query_message_page_eq (le_refl 1) (by decide) hsome cursor) hfollow
  rw [query_messages_by_rule_sorted_of_summarizable hsome, Except.ok.injEq, hlisted] at hitems
  have hsorted : (sort_direction.orderBy (sortedKey connection sort_field) (connection.filtered where_clause)).Pairwise
      _ := pairwise_sortedKey
  have hsame := seek.eq_of_map_eq (fun first hfirst second hsecond =>
    summarized_inj (SortDirection.mem_orderBy.mp hfirst) (hmem second hsecond)) hitems
  rw [hsame] at hsorted
  intro first hfirst second hsecond hsort hkey
  have hmember : ∀ row ∈ connection.filtered where_clause, row ∈ listed := by
    intro row hrow
    rw [← hsame]
    exact SortDirection.mem_orderBy.mpr hrow
  have hlt : sortedKey connection sort_field first < sortedKey connection sort_field second :=
    Prod.Lex.toLex_lt_toLex.mpr (Or.inr ⟨hsort, hkey⟩)
  have htie := SortDirection.lt_of_lt_of_pairwise hsorted hseek (hmember first hfirst) (hmember second hsecond) hlt
  rw [seekKey, seekKey, hsort, Prod.Lex.toLex_lt_toLex] at htie
  exact (htie.resolve_left (lt_irrefl _)).2

theorem messagesCovered_iff :
    MessagesCovered connection where_clause sort_field sort_direction ↔
      Summarizable connection where_clause ∧ TiesAgree connection where_clause sort_field := by
  constructor
  · intro hcovered
    have hties := tiesAgree_of_messagesCovered hcovered
    obtain ⟨items, hitems, -⟩ := hcovered
    exact ⟨summarizable_of_sorted hitems, hties⟩
  · rintro ⟨hsome, hties⟩
    exact messagesCovered_of_tiesAgree hsome hties

end Served

end posthaste.store.smart_mailboxes
