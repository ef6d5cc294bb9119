import Posthaste.DomainModel.Outbox
import Posthaste.Service.Send

open serde posthaste.model posthaste.store

namespace posthaste.service

/-- How a push failure routes the operation. -/
inductive FlushDisposition where
  | Transient
  | Permanent
  | Uncertain
  | Defer
  deriving DecidableEq

structure FlushError where
  disposition : FlushDisposition
  message : String
  deriving DecidableEq

def FlushError.permanent (message : String) : FlushError := { disposition := .Permanent, message }

/-- The typed retryability verdict of a gateway failure. -/
def classify_gateway_error : GatewayError → FlushError
  | .Network message => { disposition := .Transient, message }
  | .Unavailable message => { disposition := .Transient, message }
  | .Auth => { disposition := .Transient, message := "authentication required" }
  | .DispatchUncertain message => { disposition := .Uncertain, message }
  | .StateMismatch => { disposition := .Permanent, message := "provider state diverged" }
  | .CannotCalculateChanges => { disposition := .Permanent, message := "cannot calculate changes" }
  | .Rejected message => { disposition := .Permanent, message }
  | .Corruption message => { disposition := .Permanent, message }
  | .Internal message => { disposition := .Permanent, message }
  | .MutationRejected _ reason => { disposition := .Permanent, message := reason }
  | .MailboxNotEmpty count => { disposition := .Permanent, message := s!"mailbox is not empty ({count} messages)" }

/-- Only the service defers an operation; no gateway failure does. -/
theorem classify_gateway_error_ne_defer (error : GatewayError) :
    (classify_gateway_error error).disposition ≠ .Defer := by
  cases error <;> simp [classify_gateway_error]

/-- After this many consecutive transient failures an operation no longer halts the drain. -/
def TRANSIENT_STOP_THRESHOLD : UInt32 := 3

def failureState : FlushDisposition → OperationState
  | .Transient | .Defer => .Pending
  | .Uncertain => .DispatchUncertain
  | .Permanent => .Failed

def failureAttempts (operation : Operation) : FlushDisposition → UInt32
  | .Defer => operation.attempts
  | _ => operation.attempts + 1

/-- Whether the drain stops on this failure. -/
def stopsDrain (operation : Operation) : FlushDisposition → Bool
  | .Transient => operation.attempts + 1 < TRANSIENT_STOP_THRESHOLD
  | .Uncertain => true
  | .Permanent | .Defer => false

/-- A send read as inflight was interrupted by an earlier pass. -/
def interruptedSend (operation : Operation) : Bool :=
  operation.kind = .Send && operation.state = .Inflight

/-- An accepted message mutation: what the provider reads back, and the sync position it returned. -/
structure MutationOutcome where
  message : Option MessageReadback
  cursor : Option SyncCursor

/-- The provider's mail gateway, as the push of an operation calls it. -/
structure MailGateway where
  save_draft : SendMessageRequest → Option MessageId → Bool → OperationId → Except GatewayError MessageId
  delete_draft : MessageId → Bool → Except GatewayError Unit
  send_message : SendMessageRequest → Option MessageId → OperationId → Except GatewayError Unit
  set_keywords : MessageId → SetKeywordsCommand → Except GatewayError MutationOutcome
  replace_mailboxes : MessageId → List MailboxId → Except GatewayError MutationOutcome
  destroy_message : MessageId → Except GatewayError MutationOutcome

/-- The result of pushing one operation to the provider. -/
inductive Pushed where
  | Entity (assigned_entity_id destroyed_entity_id : Option String) (cursor : Option SyncCursor)
  | Message (readback : Option MessageReadback) (rejected : Option String) (cursor : Option SyncCursor)
      (retargeted_to : Option MessageId)
  | NoOp

/-- Accepted and rejected mutations settle in one path; a transport error is a flush error. -/
def message_pushed (result : Except GatewayError MutationOutcome) (retargeted_to : Option MessageId) :
    Except FlushError Pushed :=
  match result with
  | .ok outcome => .ok (.Message outcome.message none outcome.cursor retargeted_to)
  | .error (.MutationRejected readback reason) => .ok (.Message (some readback) (some reason) none retargeted_to)
  | .error transport => .error (classify_gateway_error transport)

/-- The id a state assertion targets. On a provisional Sent row it waits for the
    adoption alias, or has nothing to assert once the send is terminal or gone. -/
def resolve_assertion_target (store : DatabaseStore) (operation : Operation) :
    Except FlushError (Option (MessageId × Option MessageId)) :=
  let entity_id := operation.entity.id
  if !is_provisional_sent_id entity_id then .ok (some (entity_id, none))
  else
    match store.resolve_send_alias entity_id with
    | some adopted => .ok (some (adopted, some entity_id))
    | none =>
      match store.outbox.find_operation_by_entity_id entity_id .Send with
      | some send_op =>
        if !send_op.state.is_terminal then
          .error {
            disposition := .Defer
            message := "state assertion on a provisional send-<id> deferred: send not yet adopted" }
        else .ok none
      | none => .ok none

/-- The typed miss `none` means the draft was confirmed destroyed. -/
def resolve_draft_flush_target (store : DatabaseStore) (draft_key : String) : Option String :=
  store.resolve_draft_entity draft_key

def gatewayFailure {α : Type} (result : Except GatewayError α) : Except FlushError α :=
  match result with
  | .ok value => .ok value
  | .error error => .error (classify_gateway_error error)

def pushAssertion (store : DatabaseStore) (operation : Operation)
    (mutate : MessageId → Except GatewayError MutationOutcome) : Except FlushError Pushed := do
  match ← resolve_assertion_target store operation with
  | some (target, retargeted_to) => message_pushed (mutate target) retargeted_to
  | none => return .NoOp

/-- The provider copy a draft save replaces: none on a create, the live id on an update. -/
def replaceTarget (store : DatabaseStore) (operation : Operation) (create : Bool) : Option MessageId :=
  if create then none else resolve_draft_flush_target store operation.entity.id

/-- Push a single operation to the provider. -/
def push_operation (gateway : MailGateway) (store : DatabaseStore) (operation : Operation) :
    Except FlushError Pushed :=
  match operation.intent with
  | .error error => .error (.permanent error)
  | .ok (.SaveDraft create request) => do
    let idempotent_redelivery := !create && operation.attempts > 0
    let new_id ← gatewayFailure
      (gateway.save_draft request (replaceTarget store operation create) idempotent_redelivery operation.id)
    return .Entity (some new_id) none none
  | .ok (.DiscardDraft idempotent_redelivery) =>
    match resolve_draft_flush_target store operation.entity.id with
    | none => .ok (.Entity none (some operation.entity.id) none)
    | some target => do
      gatewayFailure (gateway.delete_draft target idempotent_redelivery)
      return .Entity none (some target) none
  | .ok (.Send request) => do
    let consume := (composeKey request).bind (resolve_draft_flush_target store)
    gatewayFailure (gateway.send_message request consume operation.id)
    return .Entity none none none
  | .ok (.SetKeywords command) => pushAssertion store operation fun target => gateway.set_keywords target command
  | .ok (.ReplaceMailboxes command) =>
    pushAssertion store operation fun target => gateway.replace_mailboxes target command.mailbox_ids
  | .ok .Destroy => pushAssertion store operation gateway.destroy_message

end posthaste.service
