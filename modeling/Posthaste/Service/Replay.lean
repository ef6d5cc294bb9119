import Posthaste.Library.Effects
import Posthaste.Service.MessageQueries
import Posthaste.Store.Overlay

open posthaste.model posthaste.replica posthaste.store

namespace posthaste.service

/-- The role a visible row plays for an entity-intent operation. -/
inductive EntityFoldRole where
  | DraftKey
  | SendRow
  | SendConsumedDraft
  deriving DecidableEq

/-- How an operation addresses one visible row. -/
inductive OpRowRole where
  | Assertion
  | Entity (role : EntityFoldRole)
  deriving DecidableEq

section Synthesis

def PREVIEW_CHARS : Nat := 180

def previewOf (body : String) : Option String :=
  let preview := str.take (str.trim body) PREVIEW_CHARS
  if preview = "" then none else some preview

def senderDomain (sender : Option Recipient) : String :=
  match (sender.bind fun recipient => str.rsplit_once_tail recipient.email '@').filter (· ≠ "") with
  | some domain => domain
  | none => "posthaste.local"

/-- The derived visible row of a send: the provisional Sent row. -/
def synthesize_sent_record (request : SendMessageRequest) (operation : Operation)
    (sent_mailbox : Option MailboxId) (row_id : MessageId) : MessageRecord where
  id := row_id
  source_thread_id := row_id
  remote_blob_id := none
  subject := str.nonBlank request.subject
  from_name := request.from_.bind Recipient.name
  from_email := request.from_.map Recipient.email
  to_ := request.to_
  cc := request.cc
  bcc := request.bcc
  reply_to := []
  preview := previewOf request.body
  received_at := operation.updated_at
  has_attachment := !request.attachments.isEmpty
  size := request.body.utf8ByteSize
  mailbox_ids := sent_mailbox.toList
  keywords := ["$seen"]
  body_html := none
  body_text := none
  raw_mime := none
  rfc_message_id := some s!"{send_identity_token operation.id}@{senderDomain request.from_}"
  in_reply_to := request.in_reply_to
  references := (request.references.map str.split_whitespace).getD []
  draft_id := none
  list_unsubscribe := none

/-- The derived visible row of a draft save, and of a held send's draft form. -/
def synthesize_draft_record (prior : Option MessageRecord) (request : SendMessageRequest) (operation : Operation)
    (drafts_mailbox : Option MailboxId) (live_id : MessageId) (stable_key : String) : MessageRecord where
  id := live_id
  source_thread_id := (prior.map MessageRecord.source_thread_id).getD live_id
  remote_blob_id := none
  subject := str.nonBlank request.subject
  from_name := request.from_.bind Recipient.name
  from_email := request.from_.map Recipient.email
  to_ := request.to_
  cc := request.cc
  bcc := request.bcc
  reply_to := []
  preview := previewOf request.body
  received_at := operation.updated_at
  has_attachment := !request.attachments.isEmpty
  size := request.body.utf8ByteSize
  mailbox_ids := (drafts_mailbox.map ([·]) <|> prior.map MessageRecord.mailbox_ids).getD []
  keywords := ["$draft", "$seen"]
  body_html := none
  body_text := none
  raw_mime := none
  rfc_message_id := none
  in_reply_to := request.in_reply_to
  references := (request.references.map str.split_whitespace).getD []
  draft_id := some stable_key
  list_unsubscribe := none

end Synthesis

/-- The operations whose effects the replay folds: a failed or parked intent is
    speculation that lost, a failed or parked content operation keeps its row. -/
def is_replayable (operation : Operation) : Bool :=
  match operation.state with
  | .Pending | .Inflight | .Applied => true
  | .Failed | .DispatchUncertain => operation.kind.is_content_op

def to_store : ServiceError → StoreError
  | .Store error => error
  | other => .Failure (toString other)

/-- The draft key a send consumes, when its payload decodes to one. -/
def consumedKey (operation : Operation) : Option String :=
  match intent_fold_effect operation with
  | .ok (.SendEffects (some key) _) => some key
  | _ => none

/-- The rows one operation addresses, with the role each plays in the fold. -/
def op_row_touches_with (operation : Operation) (resolve : String → Option String) :
    List (MessageId × OpRowRole) :=
  match operation.entity.kind with
  | .Message =>
    if operation.kind = .Send then
      (operation.entity.id, .Entity .SendRow) ::
        match consumedKey operation with
        | some key =>
          let consumed_live := (resolve key).getD key
          if consumed_live ≠ operation.entity.id then [(consumed_live, .Entity .SendConsumedDraft)] else []
        | none => []
    else if operation.kind.is_state_assertion then [(operation.entity.id, .Assertion)]
    else []
  | .Draft => [((resolve operation.entity.id).getD operation.entity.id, .Entity .DraftKey)]

/-- A queued send that was never dispatched and still has a hold or a date. -/
def send_is_held (operation : Operation) : Bool :=
  operation.state == .Pending && operation.attempts == 0 &&
    (operation.send_at.isSome || operation.hold_until_mono.isSome)

/-- The fold's accumulator over the entity operations of a row. -/
structure EntityFold where
  state : Option MessageRecord
  discarded_by_draft_op : Bool
  deriving DecidableEq

def foldEntityOp (snapshot : DeriveSnapshot) (message_id : MessageId) (fold : EntityFold)
    (operation : Operation) (role : EntityFoldRole) : Except ServiceError EntityFold := do
  match ← intent_fold_effect operation, role with
  | .UpsertDraft request, .DraftKey =>
    return {
      state := some (synthesize_draft_record fold.state request operation snapshot.drafts_mailbox message_id
        operation.entity.id)
      discarded_by_draft_op := false }
  | .TombstoneDraft, .DraftKey => return { state := none, discarded_by_draft_op := true }
  | .SendEffects _ request, .SendRow =>
    if send_is_held operation then return fold
    else return {
      state := some (synthesize_sent_record request operation snapshot.sent_mailbox message_id)
      discarded_by_draft_op := false }
  | .SendEffects consumes_draft_key request, .SendConsumedDraft =>
    if send_is_held operation then return {
      state := some (synthesize_draft_record fold.state request operation snapshot.drafts_mailbox message_id
        (consumes_draft_key.getD ""))
      discarded_by_draft_op := false }
    else return { state := none, discarded_by_draft_op := true }
  | _, _ => return fold

def foldEntityOps (snapshot : DeriveSnapshot) (message_id : MessageId) (fold : EntityFold) :
    List (Operation × EntityFoldRole) → Except ServiceError EntityFold
  | [] => return fold
  | (operation, role) :: rest => do
    let fold ← foldEntityOp snapshot message_id fold operation role
    foldEntityOps snapshot message_id fold rest

/-- The log's replayable touches of one row, in log order. -/
def rowTouches (snapshot : DeriveSnapshot) (message_id : MessageId) : List (Operation × OpRowRole) :=
  (snapshot.ops.filter is_replayable).flatMap fun operation =>
    ((op_row_touches_with operation snapshot.draft_keys.lookup).filter (·.1 = message_id)).map
      fun touch => (operation, touch.2)

def messageOps (touches : List (Operation × OpRowRole)) : List Operation :=
  touches.filterMap fun touch =>
    match touch.2 with
    | .Assertion => some touch.1
    | .Entity _ => none

def entityOps (touches : List (Operation × OpRowRole)) : List (Operation × EntityFoldRole) :=
  touches.filterMap fun touch =>
    match touch.2 with
    | .Assertion => none
    | .Entity role => some (touch.1, role)

/-- The pure fold of one visible row over the snapshot. -/
def fold_overlay_row (snapshot : DeriveSnapshot) (message_id : MessageId) :
    Except StoreError OverlayMutation :=
  let touches := rowTouches snapshot message_id
  let message_ops := messageOps touches
  let entity_ops := entityOps touches
  if message_ops.isEmpty && entity_ops.isEmpty then
    match snapshot.overlay with
    | some none => if snapshot.base.isSome then .ok .Keep else .ok .Remove
    | some (some _) => .ok .Remove
    | none => .ok .Keep
  else
    match foldEntityOps snapshot message_id { state := snapshot.base, discarded_by_draft_op := false } entity_ops with
    | .error error => .error (to_store error)
    | .ok { state := some record, .. } =>
      match project_record record message_ops with
      | .error error => .error (to_store error)
      | .ok (some folded) => .ok (.Upsert folded)
      | .ok none => .ok .Tombstone
    | .ok { state := none, discarded_by_draft_op := true } =>
      if snapshot.base.isSome then .ok .Tombstone else .ok .Remove
    | .ok { state := none, discarded_by_draft_op := false } =>
      if message_ops.any (·.kind = .Destroy) then .ok .Tombstone
      else if snapshot.overlay.isSome then .ok .Remove
      else .ok .Keep

section Touches

/-- Whether the replay folds the operation as an assertion on the message. -/
def assertsOn (message_id : MessageId) (operation : Operation) : Bool :=
  is_replayable operation && operation.entity = ⟨.Message, message_id⟩ && operation.kind.is_state_assertion

/-- A send addresses its own row and its consumed draft's, never as an assertion. -/
theorem role_of_send_touch {operation : Operation} {resolve : String → Option String}
    {touch : MessageId × OpRowRole} (hkind : operation.kind = .Send)
    (hmem : touch ∈ op_row_touches_with operation resolve) : ∃ role, touch.2 = .Entity role := by
  unfold op_row_touches_with at hmem
  cases hentity : operation.entity.kind with
  | Draft =>
    simp only [hentity, List.mem_singleton] at hmem
    exact ⟨_, congrArg Prod.snd hmem⟩
  | Message =>
    simp only [hentity, hkind, if_true, List.mem_cons] at hmem
    rcases hmem with rfl | hmem
    · exact ⟨_, rfl⟩
    · cases hkey : consumedKey operation with
      | none => simp [hkey] at hmem
      | some key =>
        simp only [hkey] at hmem
        split_ifs at hmem with hlive
        · rw [List.mem_singleton.mp hmem]
          exact ⟨_, rfl⟩
        · cases hmem

private theorem assertionTouches (operation : Operation) (resolve : String → Option String)
    (message_id : MessageId) :
    (((op_row_touches_with operation resolve).filter (·.1 = message_id)).map fun touch => (operation, touch.2)).filterMap
        (fun touch => match touch.2 with
          | .Assertion => some touch.1
          | .Entity _ => none) =
      if operation.entity = ⟨.Message, message_id⟩ ∧ operation.kind.is_state_assertion then [operation] else [] := by
  by_cases hsend : operation.kind = .Send
  · rw [if_neg (by simp [hsend, OperationKind.is_state_assertion])]
    refine List.filterMap_eq_nil_iff.mpr ?_
    intro touch htouch
    obtain ⟨inner, hinner, rfl⟩ := List.mem_map.mp htouch
    obtain ⟨role, hrole⟩ := role_of_send_touch hsend (List.mem_of_mem_filter hinner)
    simp [hrole]
  obtain ⟨id, ⟨entityKind, entityId⟩, kind⟩ := operation
  cases entityKind with
  | Draft => by_cases hrow : (resolve entityId).getD entityId = message_id <;> simp [op_row_touches_with, hrow]
  | Message =>
    cases kind with
    | Send => exact absurd rfl hsend
    | SetKeywords | ReplaceMailboxes | Destroy =>
      by_cases hrow : entityId = message_id <;> simp [op_row_touches_with, OperationKind.is_state_assertion, hrow]
    | DraftCreate | DraftUpdate | DraftDelete => simp [op_row_touches_with, OperationKind.is_state_assertion]

/-- The assertions of a row are the log's replayable assertions on its message. -/
theorem messageOps_rowTouches (snapshot : DeriveSnapshot) (message_id : MessageId) :
    messageOps (rowTouches snapshot message_id) = snapshot.ops.filter (assertsOn message_id) := by
  unfold messageOps rowTouches
  induction snapshot.ops with
  | nil => rfl
  | cons operation rest ih =>
    cases hreplayable : is_replayable operation with
    | false => simp [hreplayable, assertsOn, ih]
    | true =>
      simp only [List.filter_cons, hreplayable, if_true, List.flatMap_cons, List.filterMap_append, ih,
        assertionTouches, assertsOn, Bool.true_and]
      split_ifs <;> simp_all

end Touches

end posthaste.service
