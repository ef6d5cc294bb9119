import Mathlib.Data.List.Dedup
import Posthaste.Service.Automation
import Posthaste.SmartMailboxes.RuleLocality

open posthaste.model posthaste.store

namespace posthaste.service

open posthaste.store.smart_mailboxes (Agree Archive Faithful Functions QueriedRow SortDirection asI64 compileNode
  compileNodes compile_mail_query_condition compile_mail_query_group compile_mail_query_rule conditionMeans
  condition_decides keywordsOf limited mailboxIds ruleSelects select select_cons tie_key)

/-- What automation queries read beside the store: the account, the functions and the failures of the
    database, and the columns and tables no mutation of a message writes. -/
structure Reading where
  account_id : AccountId
  functions : Functions
  sql_error : String
  source_projection : AccountId → Option String
  conversation_id : MessageId → Option ConversationId
  mailbox_name : MailboxId → String
  message_fts : String → List (AccountId × MessageId)

/-- A message as the effective views show it. -/
structure ServedMessage where
  row : QueriedRow
  mailbox_ids : List MailboxId
  keywords : List String
  deriving DecidableEq

/-- The ids with a base row or an overlay entry. -/
def storedIds (store : DatabaseStore) : List MessageId := (store.message.keys ++ store.message_overlay.keys).dedup

namespace Reading

variable (reading : Reading) (store : DatabaseStore)

/-- An overlay row has the conversation of its base row, or its own id for one. -/
def conversation (id : MessageId) : Option ConversationId :=
  match store.message_overlay.lookup id with
  | some (.row _) => some ((reading.conversation_id id).getD id)
  | _ => reading.conversation_id id

/-- The row of `message_effective`; the two flags are kept beside the keywords. -/
def queried (id : MessageId) (row : MessageRow) : QueriedRow where
  account_id := reading.account_id
  id := id
  thread_id := row.source_thread_id
  conversation_id := reading.conversation store id
  subject := row.subject
  from_name := row.from_name
  from_email := row.from_email
  to_ := row.to_
  preview := row.preview
  received_at := row.received_at
  has_attachment := row.has_attachment
  is_read := "$seen" ∈ row.keywords.toList
  is_flagged := "$flagged" ∈ row.keywords.toList
  size := row.size

def served (id : MessageId) : Option ServedMessage :=
  (store.effective id).map fun row =>
    { row := reading.queried store id row
      mailbox_ids := row.mailbox_ids.toList
      keywords := row.keywords.toList }

def message_effective : List QueriedRow := (storedIds store).filterMap fun id => (reading.served store id).map (·.row)

/-- The tables beside `message_effective`. -/
def archive : Archive where
  source_projection := reading.source_projection
  message_mailbox_effective := (storedIds store).flatMap fun id =>
    ((reading.served store id).elim [] (·.mailbox_ids)).map fun mailbox_id => (reading.account_id, id, mailbox_id)
  mailbox := store.mailbox.map fun mailbox =>
    { account_id := reading.account_id
      id := mailbox.id
      name := reading.mailbox_name mailbox.id
      role := mailbox.role }
  message_keyword_effective := (storedIds store).flatMap fun id =>
    ((reading.served store id).elim [] (·.keywords)).map fun keyword => (reading.account_id, id, keyword)
  message_fts := reading.message_fts

/-- `conversation_id` is the one nullable column read into a plain string. -/
def row_to_message_summary_row (row : QueriedRow) : Except StoreError QueriedRow :=
  match row.conversation_id with
  | none => .error (.Failure "Invalid column type Null at index: 4, name: conversation_id")
  | some _ => .ok row

/-- The first page of a rule's messages, oldest first. -/
def query_message_page_by_rule (rule : MailQueryRule) (limit : Nat) : Except StoreError (List MessageSummary) := do
  let fragment ← compile_mail_query_rule reading.functions (reading.archive store) rule
  match select fragment (reading.message_effective store) with
  | none => .error (.Failure reading.sql_error)
  | some filtered => do
    let page_limit := max limit 1
    let ordered := SortDirection.Asc.orderBy
      (fun row => toLex (row.received_at, tie_key row.toEffectiveRow)) filtered
    let rows ← (limited (asI64 ((page_limit + 1) % 2 ^ 64)) ordered).mapM row_to_message_summary_row
    let rows := if page_limit < rows.length then rows.take page_limit else rows
    return rows.map (hydrate_message_summary (reading.archive store))

/-- A message matches a rule together with the precondition of one of its actions. -/
def selects (rule : AutomationRule) (action : AutomationAction) (id : MessageId) : Bool :=
  (reading.served store id).any fun message =>
    ruleSelects reading.functions (reading.archive store) (automation_query_rule reading.account_id rule action [])
      message.row

end Reading

section Served

variable {reading : Reading} {store after : DatabaseStore} {id other : MessageId} {message : ServedMessage}

theorem id_of_served (hserved : reading.served store id = some message) :
    message.row.account_id = reading.account_id ∧ message.row.id = id := by
  obtain ⟨row, -, rfl⟩ := Option.map_eq_some_iff.mp hserved
  exact ⟨rfl, rfl⟩

theorem mem_storedIds (hserved : reading.served store id = some message) : id ∈ storedIds store := by
  obtain ⟨row, hrow, -⟩ := Option.map_eq_some_iff.mp hserved
  rw [storedIds, List.mem_dedup, List.mem_append]
  unfold DatabaseStore.effective at hrow
  cases hentry : store.message_overlay.lookup id with
  | some entry => exact Or.inr (AList.mem_keys.mp (AList.lookup_isSome.mp (by rw [hentry]; rfl)))
  | none =>
    simp only [hentry] at hrow
    exact Or.inl (AList.mem_keys.mp (AList.lookup_isSome.mp (by rw [hrow]; rfl)))

/-- A message is served alike where its base row and its overlay entry are the same. -/
theorem served_congr (hbase : after.message.lookup id = store.message.lookup id)
    (hoverlay : after.message_overlay.lookup id = store.message_overlay.lookup id) :
    reading.served after id = reading.served store id := by
  unfold Reading.served Reading.queried Reading.conversation DatabaseStore.effective
  rw [hbase, hoverlay]

theorem mem_message_effective {row : QueriedRow} :
    row ∈ reading.message_effective store ↔ ∃ id message, reading.served store id = some message ∧ message.row = row := by
  unfold Reading.message_effective
  rw [List.mem_filterMap]
  constructor
  · rintro ⟨id, -, hrow⟩
    obtain ⟨message, hmessage, rfl⟩ := Option.map_eq_some_iff.mp hrow
    exact ⟨id, message, hmessage, rfl⟩
  · rintro ⟨id, message, hmessage, rfl⟩
    exact ⟨id, mem_storedIds hmessage, by rw [hmessage]; rfl⟩

/-- What a side table holds of one message. -/
private theorem values_of_message {ids : List MessageId} {values : MessageId → List String} (hnodup : ids.Nodup)
    (hid : id ∈ ids) (account_id : AccountId) :
    ((ids.flatMap fun id => (values id).map fun value => (account_id, id, value)).filter
        fun entry => entry.1 = account_id ∧ entry.2.1 = id).map (·.2.2) = values id := by
  have hown : ∀ other, (((values other).map fun value => (account_id, other, value)).filter
      fun entry => entry.1 = account_id ∧ entry.2.1 = id).map (·.2.2) = if other = id then values id else [] := by
    intro other
    by_cases hsame : other = id
    · subst hsame
      simp [List.filter_map, Function.comp_def]
    · simp [List.filter_map, Function.comp_def, hsame]
  rw [List.filter_flatMap, List.map_flatMap]
  simp only [hown]
  induction ids with
  | nil => cases hid
  | cons first rest ih =>
    obtain ⟨hfirst, hrest⟩ := List.nodup_cons.mp hnodup
    rw [List.flatMap_cons]
    rcases List.mem_cons.mp hid with rfl | hlater
    · have hnone : rest.flatMap (fun other => if other = id then values id else []) = [] := by
        refine List.flatMap_eq_nil_iff.mpr fun other hother => if_neg ?_
        rintro rfl
        exact hfirst hother
      rw [if_pos rfl, hnone, List.append_nil]
    · have hne : first ≠ id := by
        rintro rfl
        exact hfirst hlater
      rw [if_neg hne, List.nil_append]
      exact ih hrest hlater

theorem mailboxIds_archive (hserved : reading.served store id = some message) :
    mailboxIds (reading.archive store) message.row = message.mailbox_ids := by
  obtain ⟨haccount, hid⟩ := id_of_served hserved
  rw [mailboxIds, haccount, hid]
  refine (values_of_message (List.nodup_dedup _) (mem_storedIds hserved) reading.account_id).trans ?_
  rw [hserved]
  rfl

theorem keywordsOf_archive (hserved : reading.served store id = some message) :
    keywordsOf (reading.archive store) message.row = message.keywords := by
  obtain ⟨haccount, hid⟩ := id_of_served hserved
  rw [keywordsOf, haccount, hid]
  refine (values_of_message (List.nodup_dedup _) (mem_storedIds hserved) reading.account_id).trans ?_
  rw [hserved]
  rfl

theorem agree_of_served (hserved : reading.served store id = some message)
    (hafter : reading.served after id = some message) (hmailbox : after.mailbox = store.mailbox) :
    Agree message.row (reading.archive store) (reading.archive after) where
  source_projection := by simp only [Reading.archive]
  mailbox := by simp only [Reading.archive, hmailbox]
  message_fts := by simp only [Reading.archive]
  mailboxIds := by rw [mailboxIds_archive hserved, mailboxIds_archive hafter]
  keywordsOf := by rw [keywordsOf_archive hserved, keywordsOf_archive hafter]

/-- A message that is served alike matches alike: what happens to other messages is not read. -/
theorem selects_congr (hserved : reading.served after id = reading.served store id)
    (hmailbox : after.mailbox = store.mailbox) (rule : AutomationRule) (action : AutomationAction) :
    reading.selects after rule action id = reading.selects store rule action id := by
  unfold Reading.selects
  rw [hserved]
  cases hmessage : reading.served store id with
  | none => rw [Option.any_none, Option.any_none]
  | some message =>
    have hagree := agree_of_served hmessage (hserved.trans hmessage) hmailbox
    rw [Option.any_some, Option.any_some, hagree.ruleSelects_eq]

end Served

section Pages

variable {reading : Reading} {store : DatabaseStore} {rule : MailQueryRule} {limit : Nat} {items : List MessageSummary}

/-- A statement that runs selects the rows the rule selects. -/
theorem select_eq_filter {functions : Functions} {archive : Archive} {fragment : smart_mailboxes.Fragment}
    {messages filtered : List QueriedRow} (hcompile : compile_mail_query_rule functions archive rule = .ok fragment)
    (hselect : select fragment messages = some filtered) :
    filtered = messages.filter (ruleSelects functions archive rule) := by
  have htest : ∀ message, ruleSelects functions archive rule message =
      decide (fragment.1.run message.scope fragment.2 = some (some true)) := by
    intro message
    simp only [ruleSelects, hcompile]
  induction messages generalizing filtered with
  | nil =>
    obtain rfl := Option.some.inj hselect
    rfl
  | cons message messages ih =>
    obtain ⟨truth, rest, hrun, hrest, rfl⟩ := select_cons.mp hselect
    rw [List.filter_cons, htest, hrun, ← ih hrest]
    simp only [Option.some.injEq, decide_eq_true_eq]

theorem rows_of_mapM {rows read : List QueriedRow}
    (hread : rows.mapM Reading.row_to_message_summary_row = .ok read) : read = rows := by
  induction rows generalizing read with
  | nil =>
    obtain rfl := Except.ok.inj hread
    rfl
  | cons row rows ih =>
    rw [List.mapM_cons] at hread
    obtain ⟨first, hfirst, hrest⟩ := effects.except_bind_eq_ok_iff.mp hread
    obtain ⟨others, hothers, hok⟩ := effects.except_bind_eq_ok_iff.mp hrest
    obtain rfl := Except.ok.inj hok
    rw [ih hothers]
    unfold Reading.row_to_message_summary_row at hfirst
    cases hconversation : row.conversation_id with
    | none => simp [hconversation] at hfirst
    | some conversation_id =>
      simp only [hconversation, Except.ok.injEq] at hfirst
      rw [hfirst]

/-- A page holds rows the rule selects, no more than asked for, and all of them when it is not full. -/
theorem page_of_query (hpositive : 1 ≤ limit) (hfits : limit + 1 < 2 ^ 64)
    (hquery : reading.query_message_page_by_rule store rule limit = .ok items) :
    ∃ rows : List QueriedRow, items = rows.map (hydrate_message_summary (reading.archive store)) ∧
      rows.Sublist (SortDirection.Asc.orderBy (fun row => toLex (row.received_at, tie_key row.toEffectiveRow))
        ((reading.message_effective store).filter
          (ruleSelects reading.functions (reading.archive store) rule))) ∧
      rows.length ≤ limit ∧
      (rows.length < limit → ∀ row ∈ reading.message_effective store,
        ruleSelects reading.functions (reading.archive store) rule row = true → row ∈ rows) := by
  unfold Reading.query_message_page_by_rule at hquery
  obtain ⟨fragment, hcompile, hquery⟩ := effects.except_bind_eq_ok_iff.mp hquery
  cases hselect : select fragment (reading.message_effective store) with
  | none => simp [hselect] at hquery
  | some filtered =>
    simp only [hselect] at hquery
    obtain ⟨read, hread, hok⟩ := effects.except_bind_eq_ok_iff.mp hquery
    obtain rfl := Except.ok.inj hok
    have hmax : max limit 1 = limit := Nat.max_eq_left hpositive
    rw [hmax] at hread ⊢
    rw [rows_of_mapM hread, select_eq_filter hcompile hselect]
    set ordered := SortDirection.Asc.orderBy (fun row => toLex (row.received_at, tie_key row.toEffectiveRow))
      ((reading.message_effective store).filter (ruleSelects reading.functions (reading.archive store) rule))
      with hordered
    -- However the limit is bound, the page is the first `limit` rows.
    have htake : (if limit < (limited (asI64 ((limit + 1) % 2 ^ 64)) ordered).length
        then (limited (asI64 ((limit + 1) % 2 ^ 64)) ordered).take limit
        else limited (asI64 ((limit + 1) % 2 ^ 64)) ordered) = ordered.take limit := by
      rcases smart_mailboxes.limited_asI64 hfits ordered with hcut | hall
      · rw [hcut, List.length_take, List.take_take, Nat.min_eq_left (by omega : limit ≤ limit + 1)]
        split_ifs with hmore
        · rfl
        · rw [List.take_of_length_le (by omega), List.take_of_length_le (by omega)]
      · rw [hall]
        split_ifs with hmore
        · rfl
        · rw [List.take_of_length_le (by omega)]
    refine ⟨ordered.take limit, by rw [htake], List.take_sublist limit ordered, List.length_take_le _ _, ?_⟩
    intro hshort row hrow hselects
    rw [List.length_take] at hshort
    rw [List.take_of_length_le (by omega), hordered, SortDirection.mem_orderBy]
    exact List.mem_filter.mpr ⟨hrow, hselects⟩

end Pages

section Asked

variable {functions : Functions} {archive : Archive} {row : QueriedRow} {rule : AutomationRule}
  {action : AutomationAction} {account_id : AccountId}

/-- A row that an action's query selects is one its precondition asks for. -/
theorem asked_of_ruleSelects
    (hselects : ruleSelects functions archive (automation_query_rule account_id rule action []) row = true) :
    Asked archive row action := by
  rw [← @conditionMeans_precondition functions]
  unfold ruleSelects at hselects
  cases hcompiled : compile_mail_query_rule functions archive (automation_query_rule account_id rule action []) with
  | error error => simp [hcompiled] at hselects
  | ok fragment =>
    simp only [hcompiled, decide_eq_true_eq] at hselects
    obtain ⟨precondition, hprecondition⟩ : ∃ precondition,
        compile_mail_query_condition functions archive (preconditionOf action) = .ok precondition :=
      precondition_compiles action
    have hnode : compileNode functions archive (.Condition (preconditionOf action)) = .ok precondition := hprecondition
    have hfaithful : Faithful functions archive (preconditionOf action) row := precondition_faithful action
    have hdecides := condition_decides hfaithful hprecondition
    rw [compile_mail_query_rule, automation_query_rule, automation_action_precondition_eq,
      compile_mail_query_group] at hcompiled
    obtain ⟨parts, hparts, hjoined⟩ := effects.except_bind_eq_ok_iff.mp hcompiled
    simp only [List.isEmpty_nil, if_true, List.append_nil, Option.toList_some, List.cons_append, List.nil_append,
      compileNodes, hnode] at hparts
    obtain ⟨source, -, hrest⟩ := effects.except_bind_eq_ok_iff.mp hparts
    obtain ⟨later, hlater, hok⟩ := effects.except_bind_eq_ok_iff.mp hrest
    obtain rfl := Except.ok.inj hok
    obtain ⟨own, -, hlast⟩ := effects.except_bind_eq_ok_iff.mp hlater
    obtain rfl := Except.ok.inj hlast
    obtain rfl := Except.ok.inj hjoined
    have htrue := sql.Predicate.Yields.true_of_and hdecides hselects
    simpa using htrue

theorem served_of_selects {reading : Reading} {store : DatabaseStore} {id : MessageId}
    (hselects : reading.selects store rule action id = true) :
    ∃ message, reading.served store id = some message ∧
      ruleSelects reading.functions (reading.archive store) (automation_query_rule reading.account_id rule action [])
        message.row = true := by
  obtain ⟨message, hserved, hselected⟩ := Option.any_eq_true _ _ |>.mp hselects
  exact ⟨message, hserved, hselected⟩

/-- What an action's precondition asks of a served message. -/
def AskedOf (message : ServedMessage) : AutomationAction → Prop
  | .ApplyTag tag => tag ∉ message.keywords
  | .RemoveTag tag => tag ∈ message.keywords
  | .MarkRead => "$seen" ∉ message.keywords
  | .MarkUnread => "$seen" ∈ message.keywords
  | .Flag => "$flagged" ∉ message.keywords
  | .Unflag => "$flagged" ∈ message.keywords
  | .MoveToMailbox mailbox_id => mailbox_id ∉ message.mailbox_ids

theorem flags_of_served {reading : Reading} {store : DatabaseStore} {id : MessageId} {message : ServedMessage}
    (hserved : reading.served store id = some message) :
    (message.row.is_read = true ↔ "$seen" ∈ message.keywords) ∧
      (message.row.is_flagged = true ↔ "$flagged" ∈ message.keywords) := by
  obtain ⟨row, -, rfl⟩ := Option.map_eq_some_iff.mp hserved
  exact ⟨decide_eq_true_iff, decide_eq_true_iff⟩

theorem askedOf_of_selects {reading : Reading} {store : DatabaseStore} {id : MessageId} {message : ServedMessage}
    (hselects : reading.selects store rule action id = true) (hserved : reading.served store id = some message) :
    AskedOf message action := by
  obtain ⟨found, hfound, hselected⟩ := served_of_selects hselects
  rw [hserved, Option.some.injEq] at hfound
  subst hfound
  have hasked := asked_of_ruleSelects hselected
  obtain ⟨hread, hflagged⟩ := flags_of_served hserved
  cases action with
  | ApplyTag tag | RemoveTag tag =>
    unfold Asked at hasked
    rwa [keywordsOf_archive hserved] at hasked
  | MarkRead =>
    have hunread : message.row.is_read = false := hasked
    show "$seen" ∉ message.keywords
    rw [← hread, hunread]
    exact Bool.false_ne_true
  | MarkUnread => exact hread.mp hasked
  | Flag =>
    have hunflagged : message.row.is_flagged = false := hasked
    show "$flagged" ∉ message.keywords
    rw [← hflagged, hunflagged]
    exact Bool.false_ne_true
  | Unflag => exact hflagged.mp hasked
  | MoveToMailbox mailbox_id =>
    unfold Asked at hasked
    rwa [mailboxIds_archive hserved] at hasked

/-- Every message a page lists has something queued for it. -/
theorem mutation_of_asked (hasked : Asked archive row action) :
    (automation_mutation (hydrate_message_summary archive row) action).isSome := by
  rw [automation_mutation_isSome]
  cases action with
  | MoveToMailbox mailbox_id => exact fun hfiled => hasked hfiled.2
  | ApplyTag _ | RemoveTag _ | MarkRead | MarkUnread | Flag | Unflag => exact hasked

end Asked

end posthaste.service
