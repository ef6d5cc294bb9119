import Posthaste.DomainModel.Records

open serde

namespace posthaste.model

abbrev OperationId := String

inductive OperationKind where
  | SetKeywords
  | ReplaceMailboxes
  | Destroy
  | DraftCreate
  | DraftUpdate
  | DraftDelete
  | Send
  deriving DecidableEq, Repr

/-- Lifecycle state of an operation within the outbox. -/
inductive OperationState where
  | Pending
  | Inflight
  | Applied
  | Failed
  | DispatchUncertain
  deriving DecidableEq, Repr

def OperationState.is_terminal : OperationState → Bool
  | .Failed | .DispatchUncertain => true
  | _ => false

def OperationState.is_flushable : OperationState → Bool
  | .Pending | .Inflight => true
  | _ => false

/-- The declared lifecycle transitions. -/
def OperationState.can_transition_to (self next : OperationState) : Bool :=
  match self, next with
  | .Pending, .Inflight => true
  | .Inflight, .Applied => true
  | .Inflight, .Failed => true
  | .Inflight, .Pending => true
  | .Inflight, .DispatchUncertain => true
  | .Failed, .Pending => true
  | .DispatchUncertain, .Pending => true
  | _, _ => self == next

def OperationKind.is_state_assertion : OperationKind → Bool
  | .SetKeywords | .ReplaceMailboxes | .Destroy => true
  | _ => false

def OperationKind.is_draft_save : OperationKind → Bool
  | .DraftCreate | .DraftUpdate => true
  | _ => false

def OperationKind.CONTENT_KINDS : List OperationKind := [.DraftCreate, .DraftUpdate, .Send]

def OperationKind.is_content_op (self : OperationKind) : Bool :=
  OperationKind.CONTENT_KINDS.contains self

def OperationKind.debug : OperationKind → String
  | .SetKeywords => "SetKeywords"
  | .ReplaceMailboxes => "ReplaceMailboxes"
  | .Destroy => "Destroy"
  | .DraftCreate => "DraftCreate"
  | .DraftUpdate => "DraftUpdate"
  | .DraftDelete => "DraftDelete"
  | .Send => "Send"

inductive OperationEntityKind where
  | Message
  | Draft
  deriving DecidableEq, Repr

/-- The entity an operation targets. -/
structure OperationEntity where
  kind : OperationEntityKind
  id : String
  deriving DecidableEq, Repr

/-- A single local-first command, as the outbox persists it. -/
structure Operation where
  id : OperationId
  entity : OperationEntity
  kind : OperationKind
  payload : Value
  payload_version : Int
  state : OperationState
  attempts : UInt32
  last_error : Option String
  send_at : Option String
  hold_until_mono : Option Int
  created_at : Timestamp
  updated_at : Timestamp

/-- The typed intent behind an operation's kind and payload. -/
inductive MailIntent where
  | SetKeywords (command : SetKeywordsCommand)
  | ReplaceMailboxes (command : ReplaceMailboxesCommand)
  | Destroy
  | SaveDraft (create : Bool) (request : SendMessageRequest)
  | DiscardDraft (idempotent_redelivery : Bool)
  | Send (request : SendMessageRequest)
  deriving DecidableEq

def MailIntent.decode {α : Type} [Deserialize α] (kind : OperationKind) (payload : Value)
    (intent : α → MailIntent) : Except String MailIntent :=
  match from_value payload with
  | .ok command => .ok (intent command)
  | .error error => .error s!"invalid {kind.debug} payload: {error}"

/-- The one decode boundary: kind, envelope version and payload to typed intent. -/
def MailIntent.from_parts (kind : OperationKind) (version : Int) (payload : Value) : Except String MailIntent :=
  if version ≠ 1 then
    .error s!"unknown outbox payload envelope version {version} for {kind.debug}"
  else
    match kind with
    | .SetKeywords => decode kind payload MailIntent.SetKeywords
    | .ReplaceMailboxes => decode kind payload MailIntent.ReplaceMailboxes
    | .Destroy => .ok .Destroy
    | .DraftCreate => decode kind payload (MailIntent.SaveDraft true)
    | .DraftUpdate => decode kind payload (MailIntent.SaveDraft false)
    | .DraftDelete => .ok (.DiscardDraft (((payload.get "idempotentRedelivery").bind Value.as_bool).getD false))
    | .Send => decode kind payload MailIntent.Send

def MailIntent.kind : MailIntent → OperationKind
  | .SetKeywords _ => .SetKeywords
  | .ReplaceMailboxes _ => .ReplaceMailboxes
  | .Destroy => .Destroy
  | .SaveDraft true _ => .DraftCreate
  | .SaveDraft false _ => .DraftUpdate
  | .DiscardDraft _ => .DraftDelete
  | .Send _ => .Send

def Operation.intent (self : Operation) : Except String MailIntent :=
  MailIntent.from_parts self.kind self.payload_version self.payload

private theorem MailIntent.kind_of_decode {α : Type} [Deserialize α] {kind : OperationKind} {payload : Value}
    {intent : α → MailIntent} {decoded : MailIntent}
    (hdecode : MailIntent.decode kind payload intent = .ok decoded) : ∃ command, decoded = intent command := by
  unfold MailIntent.decode at hdecode
  cases hvalue : (from_value payload : Except Error α) with
  | error error => simp [hvalue] at hdecode
  | ok command =>
    simp only [hvalue, Except.ok.injEq] at hdecode
    exact ⟨command, hdecode.symm⟩

/-- Decoding keeps the persistence kind. -/
theorem MailIntent.kind_of_from_parts {kind : OperationKind} {version : Int} {payload : Value}
    {intent : MailIntent} (hparts : MailIntent.from_parts kind version payload = .ok intent) :
    intent.kind = kind := by
  unfold MailIntent.from_parts at hparts
  split_ifs at hparts with hversion
  cases kind with
  | SetKeywords | ReplaceMailboxes | DraftCreate | DraftUpdate | Send =>
    obtain ⟨command, rfl⟩ := MailIntent.kind_of_decode hparts
    rfl
  | Destroy | DraftDelete =>
    cases hparts
    rfl

/-- Only the envelope version decides a Destroy's or a draft removal's decode:
    neither carries a payload that can be malformed. -/
theorem MailIntent.from_parts_isOk_of_version {kind : OperationKind} {version : Int} {payload : Value}
    (hversion : version = 1) (hkind : kind = .Destroy ∨ kind = .DraftDelete) :
    ∃ intent, MailIntent.from_parts kind version payload = .ok intent := by
  rcases hkind with rfl | rfl <;> simp [MailIntent.from_parts, hversion]

/-- The transport-shared identity token of a send. -/
def send_identity_token (operation_id : String) : String :=
  "phsend-" ++ String.ofList
    (operation_id.toList.filter fun c => c.isAlphanum || c == '-' || c == '_')

/-- The `Message-ID` prefix a send's provider copy carries in any domain. -/
def send_identity_prefix (operation_id : String) : String :=
  send_identity_token operation_id ++ "@"

def SEND_ENTITY_ID_PREFIX : String := "send-"

/-- Whether the id names the overlay-only Sent row of an unadopted send. -/
def is_provisional_sent_id (id : String) : Bool :=
  SEND_ENTITY_ID_PREFIX.toList.isPrefixOf id.toList

end posthaste.model
