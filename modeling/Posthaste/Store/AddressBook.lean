import Mathlib.Algebra.BigOperators.Group.Finset.Piecewise
import Mathlib.Algebra.Order.BigOperators.Group.Finset
import Posthaste.Library.Ascii
import Posthaste.Library.Tally
import Posthaste.Store.Conversation

open posthaste.model

namespace posthaste.store.addressBook

/-- Whom a row of the book is about: an account and a normalized address. -/
abbrev Address := AccountId × String

local instance : LawfulBEq Address := Prod.instLawfulBEq

/-- A row of `address_book`. -/
structure AddressBookRow where
  account_id : AccountId
  normalized_email : String
  email : String
  name : Option String
  frequency : Nat
  last_seen_at : Timestamp

def AddressBookRow.key (row : AddressBookRow) : Address := (row.account_id, row.normalized_email)

abbrev AddressBook := Table AddressBookRow AddressBookRow.key

/-- The columns of a message row that name correspondents. -/
structure CorrespondenceRow where
  account_id : AccountId
  id : MessageId
  from_name : Option String
  from_email : Option String
  to_json : List Recipient
  received_at : Timestamp

def CorrespondenceRow.key (row : CorrespondenceRow) : AccountId × MessageId := (row.account_id, row.id)

/-- The tables that address-book maintenance reads and writes. -/
structure Tables where
  message : Table CorrespondenceRow CorrespondenceRow.key
  address_book : AddressBook

def is_cacheable_sender_email (email : String) : Bool :=
  if email.toList.isEmpty || email.toList.contains '*' || email.toList.any str.is_whitespace then false
  else
    match email.toList.splitOn '@' with
    | [localPart, domain] => !localPart.isEmpty && !domain.isEmpty
    | _ => false

def clean_display_name (name : Option String) : Option String := name.bind str.nonBlank

/-- `MAX` of two texts, in the binary collation. -/
def latest (first second : Timestamp) : Timestamp := if first < second then second else first

section Ingest

/-- `ON CONFLICT`: one use more, seen now. -/
def upsertUse (book : AddressBook) (address : Address) (email : String) (name : Option String) (seen_at : Timestamp) :
    AddressBook :=
  match book.find address with
  | none => book.put ⟨address.1, address.2, email, name, 1, seen_at⟩
  | some row => book.put
      ⟨address.1, address.2, email, name <|> row.name, row.frequency + 1, latest row.last_seen_at seen_at⟩

def upsert_address_tx (book : AddressBook) (account_id : AccountId) (email : String) (name : Option String)
    (seen_at : Timestamp) : AddressBook :=
  let email := str.trim email
  if is_cacheable_sender_email email then
    upsertUse book (account_id, str.to_ascii_lowercase email) email (clean_display_name name) seen_at
  else book

/-- The addresses of this message that were seen already, and the book so far. -/
structure Harvest where
  seen : List String
  book : AddressBook

/-- One correspondent of the message, unless its address was seen. -/
def Harvest.harvest (account_id : AccountId) (received_at : Timestamp) (state : Harvest)
    (correspondent : Recipient) : Harvest :=
  let trimmed := str.trim correspondent.email
  if trimmed = "" then state
  else
    let normalized := str.to_ascii_lowercase trimmed
    if normalized ∈ state.seen then state
    else {
      seen := normalized :: state.seen
      book := upsert_address_tx state.book account_id trimmed correspondent.name received_at }

/-- The sender, if there is one, then the recipients. -/
def correspondents (from_name from_email : Option String) (recipients : List Recipient) : List Recipient :=
  (from_email.map fun email => { name := from_name, email }).toList ++ recipients

def harvest_addresses_tx (book : AddressBook) (account_id : AccountId) (from_name from_email : Option String)
    (recipients : List Recipient) (received_at : Timestamp) : AddressBook :=
  ((correspondents from_name from_email recipients).foldl (Harvest.harvest account_id received_at) ⟨[], book⟩).book

/-- A message that is new to the store adds its correspondents; the row is written either way. -/
def apply_message_record_tx (tables : Tables) (account_id : AccountId) (message : MessageRecord) : Tables where
  message := tables.message.put
    ⟨account_id, message.id, message.from_name, message.from_email, message.to_, message.received_at⟩
  address_book :=
    if (tables.message.find (account_id, message.id)).isSome then tables.address_book
    else harvest_addresses_tx tables.address_book account_id message.from_name message.from_email message.to_
      message.received_at

end Ingest

section Backfill

/-- A row the read pass streams. -/
structure Occurrence where
  account_id : AccountId
  email : String
  name : Option String
  received_at : Timestamp

/-- `TRIM(email) <> ''`, which strips spaces alone. -/
def nonEmptyTrimmed (email : String) : Bool := email.toList.any (· ≠ ' ')

def senderOccurrences (row : CorrespondenceRow) : List Occurrence :=
  ((row.from_email.filter nonEmptyTrimmed).map fun email => ⟨row.account_id, email, row.from_name, row.received_at⟩).toList

def recipientOccurrences (row : CorrespondenceRow) : List Occurrence :=
  (row.to_json.filter fun recipient => nonEmptyTrimmed recipient.email).map fun recipient =>
    ⟨row.account_id, recipient.email, recipient.name, row.received_at⟩

/-- `SELECT … FROM message UNION ALL SELECT … FROM message, json_each(to_json)`. -/
def occurrences (rows : List CorrespondenceRow) : List Occurrence :=
  rows.flatMap senderOccurrences ++ rows.flatMap recipientOccurrences

structure AddressBookCandidate where
  account_id : AccountId
  normalized_email : String
  email : String
  name : Option String
  frequency : Nat
  last_seen_at : Timestamp
  name_seen_at : Timestamp

def AddressBookCandidate.key (candidate : AddressBookCandidate) : Address :=
  (candidate.account_id, candidate.normalized_email)

/-- The map of the candidates; the order in which they come out of it is no matter, their keys being distinct. -/
abbrev Candidates := Table AddressBookCandidate AddressBookCandidate.key

/-- One more occurrence of a candidate. -/
def AddressBookCandidate.occurred (candidate : AddressBookCandidate) (name : Option String) (received_at : Timestamp) :
    AddressBookCandidate :=
  let counted := { candidate with
    frequency := candidate.frequency + 1
    last_seen_at := latest candidate.last_seen_at received_at }
  match name with
  | none => counted
  | some name =>
    if candidate.name.isNone ∨ ¬ received_at < candidate.name_seen_at then
      { counted with name := some name, name_seen_at := received_at }
    else counted

/-- Count one row of the read pass. -/
def aggregate (candidates : Candidates) (occurrence : Occurrence) : Candidates :=
  let email := str.trim occurrence.email
  if is_cacheable_sender_email email then
    let normalized_email := str.to_ascii_lowercase email
    let candidate := (candidates.find (occurrence.account_id, normalized_email)).getD
      ⟨occurrence.account_id, normalized_email, email, none, 0, "", ""⟩
    candidates.put (candidate.occurred (clean_display_name occurrence.name) occurrence.received_at)
  else candidates

def collect_address_book_candidates (message : Table CorrespondenceRow CorrespondenceRow.key) : Candidates :=
  (occurrences message.rows).foldl aggregate Table.empty

/-- `ON CONFLICT`: the larger count, the later sighting. -/
def upsertCandidate (book : AddressBook) (candidate : AddressBookCandidate) : AddressBook :=
  match book.find candidate.key with
  | none => book.put ⟨candidate.account_id, candidate.normalized_email, candidate.email, candidate.name,
      candidate.frequency, candidate.last_seen_at⟩
  | some row => book.put ⟨candidate.account_id, candidate.normalized_email, candidate.email,
      candidate.name <|> row.name, max row.frequency candidate.frequency, latest row.last_seen_at candidate.last_seen_at⟩

def backfill_address_book (tables : Tables) : Tables :=
  { tables with
    address_book := (collect_address_book_candidates tables.message).rows.foldl upsertCandidate tables.address_book }

end Backfill

/-- How often the book counts a correspondent. -/
def Tables.useCount (tables : Tables) (address : Address) : Nat :=
  tables.address_book.tally AddressBookRow.frequency address

/-- A message as it is ingested into an account. -/
structure Ingested where
  account_id : AccountId
  message : MessageRecord

def Ingested.key (ingested : Ingested) : AccountId × MessageId := (ingested.account_id, ingested.message.id)

/-- The tables after a sequence of messages. -/
def ingest (sequence : List Ingested) : Tables :=
  sequence.foldl (fun tables ingested => apply_message_record_tx tables ingested.account_id ingested.message)
    ⟨Table.empty, Table.empty⟩

/-- The address an email is counted under, if it is cacheable. -/
def addressOf (account_id : AccountId) (email : String) : Option Address :=
  if is_cacheable_sender_email (str.trim email) then some (account_id, str.to_ascii_lowercase (str.trim email)) else none

/-- The addresses of a list of correspondents, with repeats. -/
def addresses (account_id : AccountId) (listed : List Recipient) : List Address :=
  listed.filterMap fun correspondent => addressOf account_id correspondent.email

/-- Every address a message names, as often as it names it. -/
def Ingested.addresses (ingested : Ingested) : List Address :=
  addressBook.addresses ingested.account_id
    (correspondents ingested.message.from_name ingested.message.from_email ingested.message.to_)

/-- The messages of a sequence, each once however often it is applied. -/
def keys (sequence : List Ingested) : Finset (AccountId × MessageId) := (sequence.map Ingested.key).toFinset

/-- The message as it was first ingested. -/
def firstVersion (sequence : List Ingested) (key : AccountId × MessageId) : Option Ingested :=
  sequence.find? fun ingested => ingested.key = key

/-- The message as it was last applied. -/
def lastVersion (sequence : List Ingested) (key : AccountId × MessageId) : Option Ingested :=
  sequence.reverse.find? fun ingested => ingested.key = key

/-- The messages whose first version names an address. -/
def messagesNaming (sequence : List Ingested) (address : Address) : Nat :=
  ((keys sequence).filter fun key => address ∈ (firstVersion sequence key).elim [] Ingested.addresses).card

/-- The places in which last versions name an address. -/
def placesNaming (sequence : List Ingested) (address : Address) : Nat :=
  ∑ key ∈ keys sequence, ((lastVersion sequence key).elim [] Ingested.addresses).count address

section Cacheable

variable {account_id : AccountId} {email : String} {address : Address}

theorem addressOf_eq_some_iff : addressOf account_id email = some address ↔
    is_cacheable_sender_email (str.trim email) = true ∧
      address = (account_id, str.to_ascii_lowercase (str.trim email)) := by
  unfold addressOf
  split_ifs with hcacheable
  · rw [Option.some.injEq]
    exact ⟨fun hsame => ⟨hcacheable, hsame.symm⟩, fun hboth => hboth.2.symm⟩
  · exact ⟨fun hsome => (by cases hsome), fun hboth => absurd hboth.1 hcacheable⟩

/-- Whether an email is cacheable does not depend on its case. -/
theorem is_cacheable_to_ascii_lowercase (email : String) :
    is_cacheable_sender_email (str.to_ascii_lowercase email) = is_cacheable_sender_email email := by
  have hempty : (email.toList.map Char.toLower).isEmpty = email.toList.isEmpty := by
    cases email.toList <;> rfl
  have hwild : (email.toList.map Char.toLower).contains '*' = email.toList.contains '*' := by
    rw [List.contains_eq_any_beq, List.contains_eq_any_beq, List.any_map]
    refine congrArg _ (funext fun c => ?_)
    rw [Function.comp_apply, Bool.beq_comm, str.beq_toLower (by decide) (by decide), Bool.beq_comm]
  have hspace : (email.toList.map Char.toLower).any str.is_whitespace = email.toList.any str.is_whitespace := by
    rw [List.any_map]
    exact congrArg _ (funext str.is_whitespace_toLower)
  have hparts : (email.toList.map Char.toLower).splitOn '@' =
      (email.toList.splitOn '@').map (List.map Char.toLower) :=
    str.splitOnP_map (str.beq_toLower (by decide) (by decide)) email.toList
  unfold is_cacheable_sender_email str.to_ascii_lowercase
  rw [String.toList_ofList, hempty, hwild, hspace, hparts]
  rcases email.toList.splitOn '@' with _ | ⟨localPart, _ | ⟨domain, _ | ⟨third, rest⟩⟩⟩
  · rfl
  · rfl
  · simp only [List.map_cons, List.map_nil, List.isEmpty_map]
  · rfl

theorem addressOf_blank (hblank : str.trim email = "") : addressOf account_id email = none := by
  rw [addressOf, hblank]
  rfl

/-- An email of which `TRIM` leaves nothing is not cacheable. -/
theorem nonEmptyTrimmed_of_addressOf (hsome : addressOf account_id email = some address) :
    nonEmptyTrimmed email = true := by
  by_contra hspaces
  have hall : ∀ c ∈ email.toList, str.is_whitespace c = true := by
    intro c hc
    have hspace : c = ' ' := by
      by_contra hother
      exact hspaces (List.any_eq_true.mpr ⟨c, hc, by simpa using hother⟩)
    rw [hspace]
    rfl
  have hblank : str.trim email = "" := by
    rw [str.trim, str.trimStart, List.dropWhile_eq_nil_iff.mpr hall]
    rfl
  rw [addressOf_blank hblank] at hsome
  cases hsome

end Cacheable

section Counting

variable {account_id : AccountId}

theorem tally_upsertUse (book : AddressBook) (address : Address) (email : String) (name : Option String)
    (seen_at : Timestamp) (query : Address) :
    (upsertUse book address email name seen_at).tally AddressBookRow.frequency query =
      book.tally AddressBookRow.frequency query + if query = address then 1 else 0 := by
  unfold upsertUse
  cases hfind : book.find address with
  | none =>
    rw [Table.tally_put]
    show (if query = address then 1 else _) = _
    split_ifs with hquery
    · rw [hquery, Table.tally, hfind]
      rfl
    · rfl
  | some row =>
    rw [Table.tally_put]
    show (if query = address then row.frequency + 1 else _) = _
    split_ifs with hquery
    · rw [hquery, Table.tally, hfind]
      rfl
    · rfl

/-- An upsert counts one use of the address, when the email is cacheable. -/
theorem tally_upsert_address_tx (book : AddressBook) (email : String) (name : Option String) (seen_at : Timestamp)
    (query : Address) :
    (upsert_address_tx book account_id email name seen_at).tally AddressBookRow.frequency query =
      book.tally AddressBookRow.frequency query + if addressOf account_id email = some query then 1 else 0 := by
  unfold upsert_address_tx
  dsimp only
  by_cases hcacheable : is_cacheable_sender_email (str.trim email) = true
  · rw [if_pos hcacheable, tally_upsertUse, addressOf, if_pos hcacheable]
    simp only [Option.some.injEq, eq_comm]
  · rw [if_neg hcacheable, addressOf, if_neg hcacheable, if_neg (by simp)]
    rfl

/-- A later correspondent of the message has a new address only if the earlier email has another one. -/
theorem addressOf_of_normalized {email : String} {listed : List Recipient} {query : Address}
    (hmem : query ∈ addresses account_id listed) (hsame : str.to_ascii_lowercase (str.trim email) = query.2) :
    addressOf account_id email = some query := by
  obtain ⟨correspondent, _, haddress⟩ := List.mem_filterMap.mp hmem
  obtain ⟨hcacheable, rfl⟩ := addressOf_eq_some_iff.mp haddress
  refine addressOf_eq_some_iff.mpr ⟨?_, by rw [hsame]⟩
  rw [← is_cacheable_to_ascii_lowercase, hsame, is_cacheable_to_ascii_lowercase]
  exact hcacheable

/-- A harvest counts each address of the message once, unless it was seen before. -/
theorem tally_harvest (received_at : Timestamp) (listed : List Recipient) (state : Harvest) (query : Address) :
    (listed.foldl (Harvest.harvest account_id received_at) state).book.tally AddressBookRow.frequency query =
      state.book.tally AddressBookRow.frequency query +
        if query.2 ∉ state.seen ∧ query ∈ addresses account_id listed then 1 else 0 := by
  induction listed generalizing state with
  | nil => simp [addresses]
  | cons correspondent rest ih =>
    rw [List.foldl_cons, ih]
    unfold Harvest.harvest
    dsimp only
    have hcons : query ∈ addresses account_id (correspondent :: rest) ↔
        addressOf account_id correspondent.email = some query ∨ query ∈ addresses account_id rest := by
      unfold addresses
      rw [List.mem_filterMap, List.mem_filterMap, List.exists_mem_cons_iff]
    by_cases hblank : str.trim correspondent.email = ""
    · rw [if_pos hblank]
      simp only [hcons, addressOf_blank hblank, reduceCtorEq, false_or]
    rw [if_neg hblank]
    by_cases hseen : str.to_ascii_lowercase (str.trim correspondent.email) ∈ state.seen
    · rw [if_pos hseen]
      by_cases haddress : addressOf account_id correspondent.email = some query
      · have hquery : query.2 ∈ state.seen := by
          obtain ⟨_, rfl⟩ := addressOf_eq_some_iff.mp haddress
          exact hseen
        rw [if_neg fun hboth => hboth.1 hquery, if_neg fun hboth => hboth.1 hquery]
      · simp only [hcons, haddress, false_or]
    · rw [if_neg hseen]
      dsimp only
      have htrim : addressOf account_id (str.trim correspondent.email) = addressOf account_id correspondent.email := by
        rw [addressOf, addressOf, str.trim_trim]
      rw [tally_upsert_address_tx, htrim]
      by_cases haddress : addressOf account_id correspondent.email = some query
      · have hquery : query.2 = str.to_ascii_lowercase (str.trim correspondent.email) := by
          obtain ⟨_, rfl⟩ := addressOf_eq_some_iff.mp haddress
          rfl
        rw [if_pos haddress, if_neg fun hboth => hboth.1 (hquery ▸ List.mem_cons_self),
          if_pos ⟨fun hmem => hseen (hquery ▸ hmem), hcons.mpr (.inl haddress)⟩]
      · have hiff : (query.2 ∉ str.to_ascii_lowercase (str.trim correspondent.email) :: state.seen ∧
            query ∈ addresses account_id rest) ↔
              query.2 ∉ state.seen ∧ query ∈ addresses account_id (correspondent :: rest) := by
          rw [List.mem_cons, not_or, hcons]
          constructor
          · rintro ⟨⟨_, hunseen⟩, hrest⟩
            exact ⟨hunseen, .inr hrest⟩
          · rintro ⟨hunseen, hnow | hrest⟩
            · exact absurd hnow haddress
            · exact ⟨⟨fun hsame => haddress (addressOf_of_normalized hrest hsame.symm), hunseen⟩, hrest⟩
        rw [if_neg haddress, Nat.add_zero]
        simp only [hiff]

/-- One more occurrence: the count rises by one, the key stays. -/
theorem AddressBookCandidate.frequency_key_occurred (candidate : AddressBookCandidate) (name : Option String)
    (received_at : Timestamp) :
    (candidate.occurred name received_at).frequency = candidate.frequency + 1 ∧
      (candidate.occurred name received_at).key = candidate.key := by
  unfold AddressBookCandidate.occurred
  cases name with
  | none => exact ⟨rfl, rfl⟩
  | some name =>
    dsimp only
    split_ifs <;> exact ⟨rfl, rfl⟩

/-- The read pass counts every occurrence. -/
theorem tally_aggregate (candidates : Candidates) (occurrence : Occurrence) (query : Address) :
    (aggregate candidates occurrence).tally AddressBookCandidate.frequency query =
      candidates.tally AddressBookCandidate.frequency query +
        if addressOf occurrence.account_id occurrence.email = some query then 1 else 0 := by
  unfold aggregate
  dsimp only
  by_cases hcacheable : is_cacheable_sender_email (str.trim occurrence.email) = true
  · rw [if_pos hcacheable, Table.tally_put, addressOf, if_pos hcacheable]
    rw [(AddressBookCandidate.frequency_key_occurred ..).1, (AddressBookCandidate.frequency_key_occurred ..).2]
    cases hfind : candidates.find (occurrence.account_id, str.to_ascii_lowercase (str.trim occurrence.email)) with
    | none =>
      show (if query = (occurrence.account_id, str.to_ascii_lowercase (str.trim occurrence.email)) then 0 + 1 else _) = _
      simp only [Option.some.injEq, eq_comm]
      split_ifs with hquery
      · rw [hquery, Table.tally, hfind]
        rfl
      · rfl
    | some candidate =>
      rw [Option.getD_some, Table.find_key hfind]
      simp only [Option.some.injEq, eq_comm]
      split_ifs with hquery
      · rw [hquery, Table.tally, hfind]
        rfl
      · rfl
  · rw [if_neg hcacheable, addressOf, if_neg hcacheable, if_neg (by simp)]
    rfl

end Counting

section ReadPass

def CorrespondenceRow.addresses (row : CorrespondenceRow) : List Address :=
  addressBook.addresses row.account_id (correspondents row.from_name row.from_email row.to_json)

def Occurrence.address (occurrence : Occurrence) : Option Address := addressOf occurrence.account_id occurrence.email

/-- What `TRIM` filters out would not be cacheable. -/
theorem address_of_nonEmptyTrimmed (account_id : AccountId) (email : String) :
    (if nonEmptyTrimmed email = true then addressOf account_id email else none) = addressOf account_id email := by
  split_ifs with hkept
  · rfl
  · cases haddress : addressOf account_id email with
    | none => rfl
    | some address => exact absurd (nonEmptyTrimmed_of_addressOf haddress) hkept

theorem addresses_senderOccurrences (row : CorrespondenceRow) : (senderOccurrences row).filterMap Occurrence.address =
    addresses row.account_id (correspondents row.from_name row.from_email []) := by
  unfold senderOccurrences correspondents
  cases row.from_email with
  | none => rfl
  | some email =>
    by_cases hkept : nonEmptyTrimmed email = true
    · simp only [Option.filter_some, hkept, if_true, Option.map_some, Option.toList_some, List.append_nil, addresses,
        List.filterMap_cons, List.filterMap_nil, Occurrence.address]
    · have hnone : addressOf row.account_id email = none := by
        rw [← address_of_nonEmptyTrimmed, if_neg hkept]
      simp only [Option.filter_some, hkept, Bool.false_eq_true, if_false, Option.map_none, Option.toList_none, Option.map_some,
        Option.toList_some, List.append_nil, addresses, List.filterMap_cons, List.filterMap_nil, hnone]

theorem addresses_recipientOccurrences (row : CorrespondenceRow) :
    (recipientOccurrences row).filterMap Occurrence.address = addresses row.account_id row.to_json := by
  unfold recipientOccurrences addresses
  rw [List.filterMap_map, List.filterMap_filter]
  refine List.filterMap_congr fun recipient _ => ?_
  simp only [Function.comp_apply, Occurrence.address, address_of_nonEmptyTrimmed]

/-- The read pass streams every address of every row, as often as the row names it. -/
theorem count_occurrences (rows : List CorrespondenceRow) (query : Address) :
    ((occurrences rows).filterMap Occurrence.address).count query =
      (rows.map fun row => row.addresses.count query).sum := by
  have hrow : ∀ row : CorrespondenceRow, row.addresses.count query =
      ((senderOccurrences row).filterMap Occurrence.address).count query +
        ((recipientOccurrences row).filterMap Occurrence.address).count query := by
    intro row
    rw [addresses_senderOccurrences, addresses_recipientOccurrences, ← List.count_append]
    unfold CorrespondenceRow.addresses addresses correspondents
    rw [List.append_nil, ← List.filterMap_append]
  simp only [hrow]
  rw [List.sum_map_add]
  unfold occurrences
  rw [List.filterMap_append, List.count_append, List.filterMap_flatMap, List.filterMap_flatMap, List.count_flatMap,
    List.count_flatMap]
  rfl

theorem tally_collect (message : Table CorrespondenceRow CorrespondenceRow.key) (query : Address) :
    (collect_address_book_candidates message).tally AddressBookCandidate.frequency query =
      (message.rows.map fun row => row.addresses.count query).sum := by
  rw [← count_occurrences]
  unfold collect_address_book_candidates
  have hfold : ∀ (listed : List Occurrence) (candidates : Candidates),
      (listed.foldl aggregate candidates).tally AddressBookCandidate.frequency query =
        candidates.tally AddressBookCandidate.frequency query + (listed.filterMap Occurrence.address).count query := by
    intro listed
    induction listed with
    | nil => exact fun _ => rfl
    | cons occurrence rest ih =>
      intro candidates
      rw [List.foldl_cons, ih, tally_aggregate, List.filterMap_cons, Nat.add_assoc]
      refine congrArg (candidates.tally AddressBookCandidate.frequency query + ·) ?_
      show (if occurrence.address = some query then 1 else 0) + _ = _
      cases occurrence.address with
      | none => simp only [reduceCtorEq, if_false, Nat.zero_add]
      | some address =>
        simp only [List.count_cons, Option.some.injEq, beq_iff_eq, Nat.add_comm]
  rw [hfold, Table.tally_empty, Nat.zero_add]

/-- The backfill raises each count to the number of occurrences, and lowers none. -/
theorem useCount_backfill (tables : Tables) (query : Address) : (backfill_address_book tables).useCount query =
    max (tables.useCount query) ((tables.message.rows.map fun row => row.addresses.count query).sum) := by
  rw [← tally_collect]
  refine Table.tally_foldl_merge Nat.max_zero (fun book candidate query => ?_) tables.address_book
    (collect_address_book_candidates tables.message) query
  unfold upsertCandidate
  cases hfind : book.find candidate.key with
  | none =>
    rw [Table.tally_put]
    show (if query = candidate.key then candidate.frequency else _) = _
    split_ifs with hquery
    · rw [hquery, Table.tally, hfind]
      exact (Nat.zero_max _).symm
    · rfl
  | some row =>
    rw [Table.tally_put]
    show (if query = candidate.key then max row.frequency candidate.frequency else _) = _
    split_ifs with hquery
    · rw [hquery, Table.tally, hfind]
      rfl
    · rfl

end ReadPass

section Run

variable {sequence : List Ingested} {key : AccountId × MessageId}

def rowOf (ingested : Ingested) : CorrespondenceRow :=
  ⟨ingested.account_id, ingested.message.id, ingested.message.from_name, ingested.message.from_email,
    ingested.message.to_, ingested.message.received_at⟩

theorem ingest_concat (sequence : List Ingested) (ingested : Ingested) : ingest (sequence ++ [ingested]) =
    apply_message_record_tx (ingest sequence) ingested.account_id ingested.message := by
  unfold ingest
  rw [List.foldl_append]
  rfl

theorem lastVersion_concat (ingested : Ingested) : lastVersion (sequence ++ [ingested]) key =
    if ingested.key = key then some ingested else lastVersion sequence key := by
  unfold lastVersion
  rw [List.reverse_append, List.reverse_singleton, List.singleton_append, List.find?_cons]
  by_cases hkey : ingested.key = key
  · simp only [hkey, decide_true, if_true]
  · simp only [hkey, decide_false, if_false]

/-- The table holds each message as it was last applied. -/
theorem find_ingest (sequence : List Ingested) (key : AccountId × MessageId) :
    (ingest sequence).message.find key = (lastVersion sequence key).map rowOf := by
  induction sequence using List.reverseRecOn with
  | nil => rfl
  | append_singleton sequence ingested ih =>
    rw [ingest_concat, lastVersion_concat]
    show ((ingest sequence).message.put (rowOf ingested)).find key = _
    by_cases hkey : ingested.key = key
    · rw [if_pos hkey, ← hkey]
      exact Table.find_put_self _ (rowOf ingested)
    · rw [if_neg hkey, ← ih]
      exact Table.find_put_ne fun hsame => hkey hsame.symm

theorem mem_keys_iff : key ∈ keys sequence ↔ ((ingest sequence).message.find key).isSome = true := by
  rw [find_ingest, Option.isSome_map, lastVersion, List.find?_isSome, keys, List.mem_toFinset, List.mem_map]
  simp only [List.mem_reverse, decide_eq_true_eq]

theorem keys_concat (ingested : Ingested) : keys (sequence ++ [ingested]) = insert ingested.key (keys sequence) := by
  ext query
  simp only [keys, List.map_append, List.map_cons, List.map_nil, List.mem_toFinset, List.mem_append, List.mem_singleton,
    Finset.mem_insert]
  exact or_comm

theorem firstVersion_concat_of_mem (ingested : Ingested) (hkey : key ∈ keys sequence) :
    firstVersion (sequence ++ [ingested]) key = firstVersion sequence key := by
  have hfound : (firstVersion sequence key).isSome = true := by
    rw [firstVersion, List.find?_isSome]
    obtain ⟨stored, hstored, rfl⟩ := List.mem_map.mp (List.mem_toFinset.mp hkey)
    exact ⟨stored, hstored, decide_eq_true rfl⟩
  obtain ⟨found, hfound⟩ := Option.isSome_iff_exists.mp hfound
  unfold firstVersion at hfound ⊢
  rw [List.find?_append, hfound]
  rfl

theorem firstVersion_concat_of_fresh {ingested : Ingested} (hfresh : ingested.key ∉ keys sequence) :
    firstVersion (sequence ++ [ingested]) ingested.key = some ingested := by
  have hnone : sequence.find? (fun stored => stored.key = ingested.key) = none := by
    refine List.find?_eq_none.mpr fun stored hstored hsame => hfresh ?_
    rw [← of_decide_eq_true hsame]
    exact List.mem_toFinset.mpr (List.mem_map_of_mem hstored)
  unfold firstVersion
  rw [List.find?_append, hnone, List.find?_singleton, if_pos (decide_eq_true rfl)]
  rfl

/-- A message that was there before adds nothing, a new one adds its addresses once each. -/
theorem messagesNaming_concat (ingested : Ingested) (address : Address) :
    messagesNaming (sequence ++ [ingested]) address = messagesNaming sequence address +
      if ingested.key ∉ keys sequence ∧ address ∈ ingested.addresses then 1 else 0 := by
  have hsame : ∀ key ∈ keys sequence, (address ∈ (firstVersion (sequence ++ [ingested]) key).elim [] Ingested.addresses ↔
      address ∈ (firstVersion sequence key).elim [] Ingested.addresses) := by
    intro key hkey
    rw [firstVersion_concat_of_mem ingested hkey]
  unfold messagesNaming
  rw [keys_concat]
  by_cases hkey : ingested.key ∈ keys sequence
  · rw [Finset.insert_eq_of_mem hkey, Finset.filter_congr hsame, if_neg fun hboth => hboth.1 hkey]
    rfl
  · have hnotin : ingested.key ∉ (keys sequence).filter fun key =>
        address ∈ (firstVersion sequence key).elim [] Ingested.addresses :=
      fun hmem => hkey (Finset.mem_filter.mp hmem).1
    rw [Finset.filter_insert, Finset.filter_congr hsame, firstVersion_concat_of_fresh hkey]
    by_cases haddress : address ∈ ingested.addresses
    · simp only [Option.elim_some, hkey, haddress, not_false_eq_true, true_and, if_true]
      exact Finset.card_insert_of_notMem hnotin
    · simp only [Option.elim_some, haddress, and_false, if_false, Nat.add_zero]

/-- Ingest counts the messages whose first version names the address. -/
theorem useCount_ingest (sequence : List Ingested) (address : Address) :
    (ingest sequence).useCount address = messagesNaming sequence address := by
  induction sequence using List.reverseRecOn with
  | nil => rfl
  | append_singleton sequence ingested ih =>
    rw [ingest_concat, messagesNaming_concat, ← ih]
    unfold Tables.useCount apply_message_record_tx
    dsimp only
    by_cases hkey : ingested.key ∈ keys sequence
    · have hpresent : ((ingest sequence).message.find (ingested.account_id, ingested.message.id)).isSome = true :=
        mem_keys_iff.mp hkey
      rw [if_pos hpresent, if_neg fun hboth => hboth.1 hkey]
      rfl
    · have hmissing : ¬ ((ingest sequence).message.find (ingested.account_id, ingested.message.id)).isSome = true :=
        fun hpresent => hkey (mem_keys_iff.mpr hpresent)
      rw [if_neg hmissing, harvest_addresses_tx, tally_harvest]
      simp only [List.not_mem_nil, not_false_eq_true, true_and, hkey]
      rfl

/-- The stored rows name an address in as many places as the last versions do. -/
theorem sum_ingest (sequence : List Ingested) (address : Address) :
    ((ingest sequence).message.rows.map fun row => row.addresses.count address).sum = placesNaming sequence address := by
  have hkeys : ((ingest sequence).message.rows.map CorrespondenceRow.key).toFinset = keys sequence := by
    ext key
    rw [List.mem_toFinset, Table.mem_keys_iff, mem_keys_iff]
  rw [Table.sum_rows, hkeys]
  refine Finset.sum_congr rfl fun key _ => ?_
  rw [Table.tally, find_ingest]
  cases lastVersion sequence key <;> rfl

/-- The backfill changes no count exactly when no address stands in more places of the messages,
    as they were last applied, than there are messages whose first version names it. -/
theorem backfill_agrees_iff (sequence : List Ingested) :
    (∀ address, (backfill_address_book (ingest sequence)).useCount address = (ingest sequence).useCount address) ↔
      ∀ address, placesNaming sequence address ≤ messagesNaming sequence address := by
  refine forall_congr' fun address => ?_
  rw [useCount_backfill, sum_ingest, useCount_ingest]
  exact max_eq_left_iff

/-- A note to self. -/
def noteToSelf : Ingested := ⟨"acct", { (default : MessageRecord) with
  id := "m1", from_email := some "me@x", to_ := [⟨none, "Me@x"⟩] }⟩

/-- A message from and to one address: ingest counts it once, the backfill twice. -/
theorem note_to_self_is_counted_twice : ¬ ∀ (sequence : List Ingested) (address : Address),
    (backfill_address_book (ingest sequence)).useCount address = (ingest sequence).useCount address := by
  intro hclaim
  have hself := hclaim [noteToSelf] ("acct", "me@x")
  revert hself
  decide

/-- Re-applied messages name the addresses they named. -/
def Unedited (sequence : List Ingested) : Prop :=
  ∀ first ∈ sequence, ∀ second ∈ sequence, first.key = second.key → first.addresses = second.addresses

theorem versions_of_mem (hunedited : Unedited sequence) {ingested : Ingested} (hmem : ingested ∈ sequence) :
    (firstVersion sequence ingested.key).elim [] Ingested.addresses = ingested.addresses ∧
      (lastVersion sequence ingested.key).elim [] Ingested.addresses = ingested.addresses := by
  have hversion : ∀ listed : List Ingested, (∀ stored, stored ∈ listed ↔ stored ∈ sequence) →
      (listed.find? fun stored => stored.key = ingested.key).elim [] Ingested.addresses = ingested.addresses := by
    intro listed hsame
    cases hfind : listed.find? fun stored => stored.key = ingested.key with
    | none => exact absurd (decide_eq_true rfl) (List.find?_eq_none.mp hfind ingested ((hsame ingested).mpr hmem))
    | some found =>
      have hkey : found.key = ingested.key := by simpa using List.find?_some hfind
      exact hunedited found ((hsame found).mp (List.mem_of_find?_eq_some hfind)) ingested hmem hkey
  exact ⟨hversion sequence fun _ => Iff.rfl, hversion sequence.reverse fun _ => List.mem_reverse⟩

/-- Where re-applied messages keep their addresses, the counts agree when no message names one twice, and only then. -/
theorem places_le_messages_iff (hunedited : Unedited sequence) :
    (∀ address, placesNaming sequence address ≤ messagesNaming sequence address) ↔
      ∀ ingested ∈ sequence, ingested.addresses.Nodup := by
  have hversions : ∀ key ∈ keys sequence, ∃ ingested ∈ sequence, ingested.key = key ∧
      (firstVersion sequence key).elim [] Ingested.addresses = ingested.addresses ∧
      (lastVersion sequence key).elim [] Ingested.addresses = ingested.addresses := by
    intro key hkey
    obtain ⟨ingested, hmem, rfl⟩ := List.mem_map.mp (List.mem_toFinset.mp hkey)
    exact ⟨ingested, hmem, rfl, versions_of_mem hunedited hmem⟩
  have hterm : ∀ address, ∀ key ∈ keys sequence,
      (if address ∈ (firstVersion sequence key).elim [] Ingested.addresses then 1 else 0) ≤
        ((lastVersion sequence key).elim [] Ingested.addresses).count address := by
    intro address key hkey
    obtain ⟨ingested, _, _, hfirst, hlast⟩ := hversions key hkey
    rw [hfirst, hlast]
    split_ifs with hnamed
    · exact List.count_pos_iff.mpr hnamed
    · exact Nat.zero_le _
  constructor
  · intro hfew ingested hmem
    refine List.nodup_iff_count_le_one.mpr fun address => ?_
    have hsum : ∑ key ∈ keys sequence, (if address ∈ (firstVersion sequence key).elim [] Ingested.addresses then 1 else 0) =
        placesNaming sequence address := by
      refine Nat.le_antisymm (Finset.sum_le_sum (hterm address)) ?_
      rw [← Finset.card_filter]
      exact hfew address
    have hequal := (Finset.sum_eq_sum_iff_of_le (hterm address)).mp hsum ingested.key
      (List.mem_toFinset.mpr (List.mem_map_of_mem hmem))
    obtain ⟨hfirst, hlast⟩ := versions_of_mem hunedited hmem
    rw [hfirst, hlast] at hequal
    rw [← hequal]
    split_ifs <;> omega
  · intro hnodup address
    unfold messagesNaming placesNaming
    rw [Finset.card_filter]
    refine Finset.sum_le_sum fun key hkey => ?_
    obtain ⟨ingested, hmem, _, hfirst, hlast⟩ := hversions key hkey
    rw [hfirst, hlast]
    split_ifs with hnamed
    · exact List.nodup_iff_count_le_one.mp (hnodup ingested hmem) address
    · exact Nat.le_of_eq (List.count_eq_zero.mpr hnamed)

end Run

end posthaste.store.addressBook
