import Posthaste.DomainModel.Records
import Posthaste.Library.Str
import Posthaste.Library.Table
import Posthaste.Library.Transition

open posthaste.model

namespace posthaste.store

abbrev AccountId := String

abbrev ConversationId := String

/-- The columns of a message row that decide its conversation, over all accounts. -/
structure ThreadedRow where
  account_id : AccountId
  id : MessageId
  thread_id : ThreadId
  conversation_id : Option ConversationId
  received_at : Timestamp

def ThreadedRow.key (row : ThreadedRow) : AccountId × MessageId := (row.account_id, row.id)

abbrev ThreadedRows := Table ThreadedRow ThreadedRow.key

namespace conversation

variable (sha256 : ByteArray → ByteArray)

def generate_conversation_id (account_id : AccountId) (message : MessageRecord) : ConversationId :=
  "conv-" ++ str.hex_encode (sha256 (account_id.toUTF8 ++ message.source_thread_id.toUTF8)).data.toList

/-- The row received last. -/
def latest : List ThreadedRow → Option ThreadedRow
  | [] => none
  | row :: rest =>
    match latest rest with
    | none => some row
    | some other => if row.received_at < other.received_at then some other else some row

/-- The conversation of the thread's latest row, or a new one. -/
def assign_conversation_id_tx (rows : ThreadedRows) (account_id : AccountId) (message : MessageRecord) : ConversationId :=
  let held := rows.rows.filter fun row =>
    row.account_id = account_id && row.thread_id = message.source_thread_id && row.conversation_id.isSome
  match (latest held).bind ThreadedRow.conversation_id with
  | some conversation_id => conversation_id
  | none => generate_conversation_id sha256 account_id message

/-- Insert the row, or overwrite the columns of the one stored. -/
def upsert_message_record_tx (rows : ThreadedRows) (account_id : AccountId) (message : MessageRecord)
    (conversation_id : ConversationId) : ThreadedRows :=
  (rows.updateIf (account_id, message.id) (fun _ => true)
    (fun row => { row with
      thread_id := message.source_thread_id
      conversation_id := some conversation_id
      received_at := message.received_at })
    fun _ => rfl).insertOrIgnore {
      account_id := account_id
      id := message.id
      thread_id := message.source_thread_id
      conversation_id := some conversation_id
      received_at := message.received_at }

def apply_message_record_tx (rows : ThreadedRows) (account_id : AccountId) (message : MessageRecord) : ThreadedRows :=
  upsert_message_record_tx rows account_id message (assign_conversation_id_tx sha256 rows account_id message)

def delete_message_tx (rows : ThreadedRows) (account_id : AccountId) (message_id : MessageId) : ThreadedRows :=
  rows.deleteIf (account_id, message_id) fun _ => true

inductive Action where
  | apply (account_id : AccountId) (message : MessageRecord)
  | delete (account_id : AccountId) (message_id : MessageId)

def step (rows : ThreadedRows) : Action → ThreadedRows
  | .apply account_id message => apply_message_record_tx sha256 rows account_id message
  | .delete account_id message_id => delete_message_tx rows account_id message_id

/-- Messages applied and deleted in any order, over any accounts. -/
def system : TransitionSystem ThreadedRows Action where
  start rows := rows = Table.empty
  step rows action after := after = step sha256 rows action

/-- Conversations are exactly the threads of each account. -/
def Partitioned (rows : ThreadedRows) : Prop :=
  ∀ first ∈ rows.rows, ∀ second ∈ rows.rows,
    first.conversation_id = second.conversation_id ↔
      first.account_id = second.account_id ∧ first.thread_id = second.thread_id

/-- No two accounts have threads whose ids follow the account ids to one text. -/
def Unambiguous (rows : ThreadedRows) : Prop :=
  ∀ first ∈ rows.rows, ∀ second ∈ rows.rows,
    first.account_id ++ first.thread_id = second.account_id ++ second.thread_id →
      first.account_id = second.account_id

/-- Every row carries the conversation its own account and thread hash to. -/
def Derived (rows : ThreadedRows) : Prop :=
  ∀ row ∈ rows.rows, row.conversation_id =
    some ("conv-" ++ str.hex_encode (sha256 (row.account_id ++ row.thread_id).toUTF8).data.toList)

section Steps

variable {sha256} {rows : ThreadedRows} {account_id : AccountId} {message : MessageRecord}

theorem latest_mem {row : ThreadedRow} {held : List ThreadedRow} (hlatest : latest held = some row) : row ∈ held := by
  induction held generalizing row with
  | nil => cases hlatest
  | cons first rest ih =>
    rw [latest] at hlatest
    cases hrest : latest rest with
    | none =>
      rw [hrest] at hlatest
      cases hlatest
      exact List.mem_cons_self
    | some other =>
      rw [hrest] at hlatest
      simp only at hlatest
      split_ifs at hlatest with hlater
      · cases hlatest
        exact List.mem_cons_of_mem _ (ih hrest)
      · cases hlatest
        exact List.mem_cons_self

theorem generated_eq : generate_conversation_id sha256 account_id message =
    "conv-" ++ str.hex_encode (sha256 (account_id ++ message.source_thread_id).toUTF8).data.toList := by
  unfold generate_conversation_id
  rw [String.toUTF8_eq_toByteArray, String.toUTF8_eq_toByteArray, String.toUTF8_eq_toByteArray,
    String.toByteArray_append]

/-- A thread that has a conversation keeps it, and it is the generated one anyway. -/
theorem assigned_eq (hderived : Derived sha256 rows) : assign_conversation_id_tx sha256 rows account_id message =
    generate_conversation_id sha256 account_id message := by
  unfold assign_conversation_id_tx
  simp only
  cases hfound : (latest (rows.rows.filter fun row => row.account_id = account_id &&
      row.thread_id = message.source_thread_id && row.conversation_id.isSome)).bind ThreadedRow.conversation_id with
  | none => rfl
  | some conversation_id =>
    obtain ⟨row, hlatest, hconversation⟩ := Option.bind_eq_some_iff.mp hfound
    obtain ⟨hmem, hthread⟩ := List.mem_filter.mp (latest_mem hlatest)
    have hsame : row.account_id = account_id ∧ row.thread_id = message.source_thread_id := by
      simp only [Bool.and_eq_true, decide_eq_true_eq] at hthread
      exact hthread.1
    have hrow := hderived row hmem
    rw [hconversation, hsame.1, hsame.2, Option.some.injEq] at hrow
    rw [generated_eq]
    exact hrow

theorem mem_upsert {conversation_id : ConversationId} {row : ThreadedRow}
    (hmem : row ∈ (upsert_message_record_tx rows account_id message conversation_id).rows) :
    row ∈ rows.rows ∨ row.account_id = account_id ∧ row.thread_id = message.source_thread_id ∧
      row.conversation_id = some conversation_id := by
  unfold upsert_message_record_tx Table.insertOrIgnore at hmem
  have hupdated : ∀ row ∈ (rows.updateIf (account_id, message.id) (fun _ => true)
      (fun row => { row with
        thread_id := message.source_thread_id
        conversation_id := some conversation_id
        received_at := message.received_at })
      fun _ => rfl).rows, row ∈ rows.rows ∨ row.account_id = account_id ∧ row.thread_id = message.source_thread_id ∧
        row.conversation_id = some conversation_id := by
    intro row hrow
    obtain ⟨stored, hstored, rfl⟩ := List.mem_map.mp hrow
    split_ifs with hkey
    · have haccount : stored.account_id = account_id := congrArg Prod.fst hkey.1
      exact Or.inr ⟨haccount, rfl, rfl⟩
    · exact Or.inl hstored
  split_ifs at hmem with hpresent
  · exact hupdated row hmem
  · obtain hstored | hnew := List.mem_append.mp hmem
    · exact hupdated row hstored
    · rw [List.mem_singleton.mp hnew]
      exact Or.inr ⟨rfl, rfl, rfl⟩

theorem derived_step (action : Action) (hderived : Derived sha256 rows) : Derived sha256 (step sha256 rows action) := by
  cases action with
  | apply account_id message =>
    intro row hmem
    obtain hstored | ⟨haccount, hthread, hconversation⟩ := mem_upsert hmem
    · exact hderived row hstored
    · rw [hconversation, assigned_eq hderived, generated_eq, haccount, hthread]
  | delete account_id message_id =>
    intro row hmem
    exact hderived row (List.mem_of_mem_filter hmem)

end Steps

section Runs

variable {sha256} {rows : ThreadedRows}

theorem derived_reachable (hreach : (system sha256).Reachable TransitionSystem.unguarded rows) : Derived sha256 rows := by
  refine hreach.invariant ?_ ?_
  · intro start hstart row hmem
    rw [show start = Table.empty from hstart] at hmem
    cases hmem
  · intro before action after hderived _ hstep
    rw [show after = _ from hstep]
    exact derived_step action hderived

theorem conversation_eq_iff (hsha256 : Function.Injective sha256) (hderived : Derived sha256 rows)
    {first second : ThreadedRow} (hfirst : first ∈ rows.rows) (hsecond : second ∈ rows.rows) :
    first.conversation_id = second.conversation_id ↔
      first.account_id ++ first.thread_id = second.account_id ++ second.thread_id := by
  rw [hderived first hfirst, hderived second hsecond, Option.some.injEq, String.append_right_inj]
  constructor
  · intro hsame
    have hbytes : (sha256 (first.account_id ++ first.thread_id).toUTF8).data.toList =
        (sha256 (second.account_id ++ second.thread_id).toUTF8).data.toList := str.hex_encode_injective hsame
    have hhash := hsha256 (ByteArray.ext (Array.toList_inj.mp hbytes))
    rw [String.toUTF8_eq_toByteArray, String.toUTF8_eq_toByteArray] at hhash
    exact String.toByteArray_inj.mp hhash
  · intro hsame
    rw [hsame]

/-- Conversations partition the stored messages by account and thread exactly
    when no account id followed by a thread id reads as another account's. -/
theorem partitioned_iff_unambiguous (hsha256 : Function.Injective sha256)
    (hreach : (system sha256).Reachable TransitionSystem.unguarded rows) : Partitioned rows ↔ Unambiguous rows := by
  have hderived := derived_reachable hreach
  constructor
  · intro hpartitioned first hfirst second hsecond hjoined
    exact ((hpartitioned first hfirst second hsecond).mp
      ((conversation_eq_iff hsha256 hderived hfirst hsecond).mpr hjoined)).1
  · intro hunambiguous first hfirst second hsecond
    rw [conversation_eq_iff hsha256 hderived hfirst hsecond]
    constructor
    · intro hjoined
      have haccount := hunambiguous first hfirst second hsecond hjoined
      rw [haccount] at hjoined
      exact ⟨haccount, (String.append_right_inj _).mp hjoined⟩
    · rintro ⟨haccount, hthread⟩
      rw [haccount, hthread]

/-- An injective digest that agrees with SHA-256 on "abc". -/
def digest (bytes : ByteArray) : ByteArray :=
  if bytes.data = "abc".toUTF8.data then
    ⟨#[0xba, 0x78, 0x16, 0xbf, 0x8f, 0x01, 0xcf, 0xea, 0x41, 0x41, 0x40, 0xde, 0x5d, 0xae, 0x22, 0x23,
      0xb0, 0x03, 0x61, 0xa3, 0x96, 0x17, 0x7a, 0x9c, 0xb4, 0x10, 0xff, 0x61, 0xf2, 0x00, 0x15, 0xad]⟩
  else ⟨#[0, 0, 0, 0, 0, 0, 0, 0, 0, 0, 0, 0, 0, 0, 0, 0, 0, 0, 0, 0, 0, 0, 0, 0, 0, 0, 0, 0, 0, 0, 0, 0, 0] ++ bytes.data⟩

theorem digest_injective : Function.Injective digest := by
  intro first second hsame
  have hdata := congrArg ByteArray.data hsame
  have hsize := congrArg Array.size hdata
  unfold digest at hdata hsize
  split_ifs at hdata hsize with hfirst hsecond hsecond
  · exact ByteArray.ext (hfirst.trans hsecond.symm)
  · simp only [Array.size_append, List.size_toArray, List.length_cons, List.length_nil] at hsize
    omega
  · simp only [Array.size_append, List.size_toArray, List.length_cons, List.length_nil] at hsize
    omega
  · exact ByteArray.ext (Array.append_right_inj _ |>.mp hdata)

def threaded (id : MessageId) (thread_id : ThreadId) : MessageRecord :=
  { (default : MessageRecord) with id, source_thread_id := thread_id }

/-- One message of account a, in thread bc. -/
def oneAccount : ThreadedRows := step digest Table.empty (.apply "a" (threaded "m1" "bc"))

/-- And one of account ab, in thread c. -/
def twoAccounts : ThreadedRows := step digest oneAccount (.apply "ab" (threaded "m2" "c"))

theorem reachable_oneAccount : (system digest).Reachable TransitionSystem.unguarded oneAccount :=
  .next (.start rfl) trivial rfl

theorem reachable_twoAccounts : (system digest).Reachable TransitionSystem.unguarded twoAccounts :=
  .next reachable_oneAccount trivial rfl

theorem oneAccount_partitioned_iff : Partitioned oneAccount ↔ Unambiguous oneAccount :=
  partitioned_iff_unambiguous digest_injective reachable_oneAccount

/-- Two accounts share a conversation when their ids run together with the thread ids. -/
theorem accounts_share_conversation :
    ¬ ∀ sha256, Function.Injective sha256 → ∀ rows, (system sha256).Reachable TransitionSystem.unguarded rows →
      Partitioned rows := by
  intro hpartitioned
  have hrows := hpartitioned digest digest_injective twoAccounts reachable_twoAccounts
  have hfirst : (⟨"a", "m1", "bc", some (generate_conversation_id digest "a" (threaded "m1" "bc")), ""⟩ : ThreadedRow) ∈
      twoAccounts.rows := List.mem_cons_self
  have hsecond : (⟨"ab", "m2", "c", some (generate_conversation_id digest "ab" (threaded "m2" "c")), ""⟩ : ThreadedRow) ∈
      twoAccounts.rows := List.mem_cons_of_mem _ List.mem_cons_self
  have hsame := (conversation_eq_iff digest_injective (derived_reachable reachable_twoAccounts) hfirst hsecond).mpr rfl
  have haccount := ((hrows _ hfirst _ hsecond).mp hsame).1
  revert haccount
  decide

end Runs

end conversation

end posthaste.store
