import Posthaste.Imap.MessageIds
import Posthaste.SmartMailboxes.Messages

open posthaste.imap (split_once_append strip_prefix strip_prefix_append colon_not_mem_repr)
open posthaste.model
open posthaste.store.smart_mailboxes

namespace posthaste.client.mail_list

inductive ApiFailure where
  | malformed (message : String)
  /-- `decode_json` refused the body; the text is the JSON library's. -/
  | undecodable
  | service (error : StoreError)

structure MailSort where
  field : MessageSortField := .Date
  descending : Bool := true

def MailSort.direction (sort : MailSort) : SortDirection := if sort.descending then .Desc else .Asc

/-- A decoded query, its filters apart. -/
structure MailListQuery where
  sort : Option MailSort
  limit : Option UInt32
  cursor : Option String

abbrev MailListResult := Page MessageSummaryRow String

def DEFAULT_LIST_LIMIT : Nat := 50

def MAX_LIST_LIMIT : Nat := 200

section Codec

/-- `text.parse::<usize>()`, a number past the machine's being past any text's length too. -/
def parse_usize : List Char → Option Nat
  | '+' :: digits => parse_digits digits
  | digits => parse_digits digits

/-- `{sort_len}:{sort_value}:{source_len}:{source_id}:{message_id}`, lengths in bytes. -/
def encode_message_cursor (cursor : MessageCursor) : String :=
  String.ofList ((slice.size cursor.sort_value.toList).repr.toList ++ ':' :: (cursor.sort_value.toList ++ ':' ::
    ((slice.size cursor.source_id.toList).repr.toList ++ ':' :: (cursor.source_id.toList ++ ':' ::
      cursor.message_id.toList))))

/-- The length comes from the client: it has to leave some text and fall between characters. -/
def split_at (value_len : Nat) (remainder : List Char) : Option (List Char × List Char) :=
  if slice.size remainder ≤ value_len then none else slice.cut value_len remainder

def take_prefixed (value : List Char) : Option (List Char × List Char) := do
  let ( len_prefix, remainder) ← slice.split_once ':' value
  let value_len ← parse_usize len_prefix
  let (prefixed, remainder) ← split_at value_len remainder
  let remainder ← strip_prefix [':'] remainder
  return (prefixed, remainder)

def parse_message_cursor (cursor : String) : Except ApiFailure MessageCursor :=
  let parsed := do
    let (sort_value, remainder) ← take_prefixed cursor.toList
    let (source_id, message_id) ← take_prefixed remainder
    if source_id.isEmpty || message_id.isEmpty then none
    else some {
      sort_value := String.ofList sort_value
      source_id := String.ofList source_id
      message_id := String.ofList message_id }
  match parsed with
  | some cursor => .ok cursor
  | none => .error (.malformed "malformed mail-list cursor")

end Codec

section Window

variable (where_clause : EffectiveRow → Bool)

def parse_cursor : Option String → Except ApiFailure (Option MessageCursor)
  | some cursor => (parse_message_cursor cursor).map some
  | none => .ok none

/-- `where_clause` is the rule that the query's filters compile to. -/
def evaluate_mail_list (connection : Connection) (query : MailListQuery) : Except ApiFailure MailListResult := do
  let limit := min (max ((query.limit.map UInt32.toNat).getD DEFAULT_LIST_LIMIT) 1) MAX_LIST_LIMIT
  let cursor ← parse_cursor query.cursor
  let sort := query.sort.getD {}
  let page ← (query_message_page connection where_clause limit sort.field sort.direction cursor).mapError .service
  return { items := page.items, next_cursor := page.next_cursor.map encode_message_cursor }

/-- A request of the list at one state of the store. -/
def fetchQuery (sort : Option MailSort) (connection : Connection) (limit : Nat) (cursor : Option String) :
    Except ApiFailure MailListResult :=
  if hfits : limit < 2 ^ 32 then
    evaluate_mail_list where_clause connection { sort, limit := some (UInt32.ofNatLT limit hfits), cursor }
  else .error .undecodable

/-- The window over a mail list, each request at the next of the store's states. `none` is out of states. -/
def fetchMailListWindow (sort : Option MailSort) (windowSize : Nat) (connections : List Connection) :
    Option (Except ApiFailure MailListResult) :=
  seek.window (fetchQuery where_clause sort) windowSize connections [] none

end Window

section Codec

variable {text rest : List Char}

theorem parse_usize_repr (n : Nat) : parse_usize n.repr.toList = some n := by
  have hparsed := parse_digits_repr n
  unfold parse_usize
  split
  · next digits hraw =>
    have hplus : '+' ∈ n.repr.toList := by
      rw [hraw]
      exact List.mem_cons_self
    exact absurd (isDigit_of_mem_repr hplus) (by decide)
  · exact hparsed

theorem take_prefixed_append :
    take_prefixed ((slice.size text).repr.toList ++ ':' :: (text ++ ':' :: rest)) = some (text, rest) := by
  have hpositive : 0 < slice.size (':' :: rest) := by
    rw [slice.size_cons]
    exact Nat.add_pos_left (Char.utf8Size_pos ':') _
  have hlonger : ¬ slice.size (text ++ ':' :: rest) ≤ slice.size text := by
    rw [slice.size_append]
    omega
  have hsplit : split_at (slice.size text) (text ++ ':' :: rest) = some (text, ':' :: rest) := by
    rw [split_at, if_neg hlonger, slice.cut_append]
  have hstripped : strip_prefix [':'] (':' :: rest) = some rest := strip_prefix_append [':'] rest
  simp only [take_prefixed, split_once_append (colon_not_mem_repr _), parse_usize_repr, hsplit, hstripped,
    Option.bind_eq_bind, Option.bind_some]
  rfl

/-- A cursor parses back exactly when it names a message of an account. -/
theorem parse_message_cursor_encode (cursor : MessageCursor) :
    parse_message_cursor (encode_message_cursor cursor) =
      if cursor.source_id = "" ∨ cursor.message_id = "" then .error (.malformed "malformed mail-list cursor")
      else .ok cursor := by
  simp only [parse_message_cursor, encode_message_cursor, String.toList_ofList, take_prefixed_append,
    Option.bind_eq_bind, Option.bind_some, String.ofList_toList, Bool.or_eq_true, List.isEmpty_iff,
    String.toList_eq_nil_iff]
  split_ifs
  · rfl
  · rfl

end Codec

section Window

variable {where_clause : EffectiveRow → Bool} {sort : Option MailSort} {windowSize : Nat}

/-- The messages a list shows have a conversation and ids, and the columns pages are cut by tell them apart. -/
structure Listable (where_clause : EffectiveRow → Bool) (sort : MailSort) (connection : Connection) : Prop where
  summarizable : Summarizable connection where_clause
  named : ∀ row ∈ connection.filtered where_clause, row.account_id ≠ "" ∧ row.id ≠ ""
  apart : ((connection.filtered where_clause).map (seekKey connection sort.field)).Nodup

/-- The cursor of a page that ends at the row. -/
def cursorAt (sort : MailSort) (row : Connection × EffectiveRow) : String :=
  encode_message_cursor (cursorAfter row.1 sort.field row.2)

theorem parse_message_cursor_cursorAt {sort : MailSort} {row : Connection × EffectiveRow}
    (hnamed : row.2.account_id ≠ "" ∧ row.2.id ≠ "") :
    parse_message_cursor (cursorAt sort row) = .ok (cursorAfter row.1 sort.field row.2) := by
  rw [cursorAt, parse_message_cursor_encode, if_neg]
  exact not_or.mpr hnamed

/-- A request finds the rows past the cursor, in order, up to the cap. -/
theorem fetchQuery_eq {connection : Connection} (hlistable : Listable where_clause (sort.getD {}) connection)
    {limit : Nat} (hpositive : 0 < limit) (hfits : limit < 2 ^ 32) (cursor : Option (Connection × EffectiveRow))
    (hnamed : ∀ last ∈ cursor, last.2.account_id ≠ "" ∧ last.2.id ≠ "") :
    fetchQuery where_clause sort connection limit (cursor.map (cursorAt (sort.getD {}))) =
      .ok (seek.cut (fun row => summarized row.1 row.2) (cursorAt (sort.getD {})) (min limit MAX_LIST_LIMIT)
        ((sort.getD {}).direction.rowsAfter (fun row => seekKey row.1 (sort.getD {}).field row.2)
          ((connection.filtered where_clause).map (connection, ·)) cursor)) := by
  have hclamped : min (max limit 1) MAX_LIST_LIMIT = min limit MAX_LIST_LIMIT := by
    rw [Nat.max_eq_left hpositive]
  have hcapped : min limit MAX_LIST_LIMIT + 1 < 2 ^ 64 := by
    have hcap : min limit MAX_LIST_LIMIT ≤ 200 := Nat.min_le_right _ _
    omega
  have hlimit : 1 ≤ min limit MAX_LIST_LIMIT := le_min hpositive (by decide)
  have hparsed : parse_cursor (cursor.map (cursorAt (sort.getD {}))) =
      .ok (cursor.map fun last => cursorAfter last.1 (sort.getD {}).field last.2) := by
    cases cursor with
    | none => rfl
    | some last =>
      simp only [Option.map_some, parse_cursor, parse_message_cursor_cursorAt (hnamed last rfl)]
      rfl
  rw [fetchQuery, dif_pos hfits, evaluate_mail_list]
  simp only [Option.map_some, UInt32.toNat_ofNatLT, Option.getD_some, hclamped]
  rw [hparsed, effects.except_bind_ok, query_message_page_at hlimit hcapped hlistable.summarizable]
  exact congrArg Except.ok seek.cut_encoded

theorem keys_apart {connection : Connection} (hlistable : Listable where_clause (sort.getD {}) connection) :
    (((connection.filtered where_clause).map (connection, ·)).map fun row : Connection × EffectiveRow =>
      seekKey row.1 (sort.getD {}).field row.2).Nodup := by
  rw [List.map_map]
  exact hlistable.apart

theorem named_of_mem {connection : Connection} (hlistable : Listable where_clause (sort.getD {}) connection)
    {row : Connection × EffectiveRow} (hrow : row ∈ (connection.filtered where_clause).map (connection, ·)) :
    row.2.account_id ≠ "" ∧ row.2.id ≠ "" := by
  obtain ⟨plain, hplain, rfl⟩ := List.mem_map.mp hrow
  exact hlistable.named plain hplain

def listedRow (id : MessageId) (received_at : Timestamp) : EffectiveRow where
  account_id := "a"
  id := id
  thread_id := "t1"
  conversation_id := some "conv-1"
  subject := none
  from_name := none
  from_email := none
  to_ := []
  preview := none
  received_at := received_at
  has_attachment := false
  is_read := false
  is_flagged := false

def listed : Connection where
  message_effective := ⟨[listedRow "m1" "2024-01-01T00:00:00Z", listedRow "m2" "2024-01-02T00:00:00Z"], by decide⟩
  source_projection := fun _ => none
  rows_fit := by decide

/-- Another message arrived. -/
def listedLater : Connection where
  message_effective := ⟨[listedRow "m1" "2024-01-01T00:00:00Z", listedRow "m2" "2024-01-02T00:00:00Z",
    listedRow "m3" "2024-01-03T00:00:00Z"], by decide⟩
  source_projection := fun _ => none
  rows_fit := by decide

theorem listable_listed : Listable (fun _ => true) {} listed :=
  ⟨by unfold Summarizable; decide, by decide, by decide⟩

theorem listable_listedLater : Listable (fun _ => true) {} listedLater :=
  ⟨by unfold Summarizable; decide, by decide, by decide⟩

end Window

end posthaste.client.mail_list
