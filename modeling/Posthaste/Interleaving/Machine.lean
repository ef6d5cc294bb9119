import Posthaste.Library.Transition
import Posthaste.Service.Push
import Posthaste.Service.Queue

open serde posthaste.model posthaste.store posthaste.service

namespace posthaste.interleaving

/-- What the push of one operation came back with. -/
inductive Reply where
  | accepted (watermark : Option String)
  | readback
  | noop
  | failed (error : GatewayError)
  | deferred (message : String)

/-- The outbox write a push result leads to. -/
inductive Settlement where
  | settled (watermark : Option String)
  | removed
  | failure (error : FlushError)

/-- How the flusher routes a reply, by the operation's intent. An operation that
    does not decode never reaches the gateway and fails for good. -/
def settlementOf (operation : Operation) (reply : Reply) : Option Settlement :=
  match operation.intent with
  | .error message => some (.failure (.permanent message))
  | .ok (.Send _) | .ok (.SaveDraft _ _) =>
    match reply with
    | .accepted watermark => some (.settled watermark)
    | .failed error => some (.failure (classify_gateway_error error))
    | _ => none
  | .ok (.DiscardDraft _) =>
    match reply with
    | .accepted _ => some .removed
    | .failed error => some (.failure (classify_gateway_error error))
    | _ => none
  | .ok (.SetKeywords _) | .ok (.ReplaceMailboxes _) | .ok .Destroy =>
    match reply with
    | .accepted watermark => some (.settled watermark)
    | .readback | .noop => some .removed
    | .failed error => some (.failure (classify_gateway_error error))
    | .deferred message => some (.failure { disposition := .Defer, message })

/-- Whether a push hands the operation's content to the gateway. -/
def handsOver (operation : Operation) : Bool :=
  match operation.intent with
  | .ok (.Send _) | .ok (.SaveDraft _ _) => true
  | _ => false

/-- Where the account's flush pass stands, with what it has read and not yet written. -/
inductive Flusher where
  | idle
  | draining (queue : List OperationId)
  | fetched (operation : Operation) (queue : List OperationId)
  | claimed (operation : Operation) (queue : List OperationId)
  | pushed (operation : Operation) (queue : List OperationId)

/-- The operation the pass has read and acts on. -/
def Flusher.held : Flusher → Option Operation
  | .fetched operation _ | .claimed operation _ | .pushed operation _ => some operation
  | .idle | .draining _ => none

/-- A `retry_operation` call that has passed its check and not yet written. -/
structure RetryCall where
  id : OperationId
  attempts : UInt32

/-- What happened, for the statements about runs. -/
inductive Event where
  | enqueued (id : OperationId)
  | swapped (id : OperationId) (payload : Value)
  | claimed (id : OperationId)
  | handed (operation : Operation)
  | transientFailure (id : OperationId)
  | settled (operation : Operation)
  | retried (id : OperationId)
  | removed (id : OperationId)

/-- One account's outbox, its flush pass, the retry calls between their read and
    their write, and the events so far, newest first. -/
structure Machine where
  outbox : OutboxTable
  flusher : Flusher
  retries : List RetryCall
  history : List Event

inductive Action where
  | enqueue (operation : Operation)
  | discard (id : OperationId)
  | swap (id : OperationId) (payload : Value) (now : Timestamp)
  | retryRead (id : OperationId)
  | retryWrite (index : Nat) (now : Timestamp)
  | passBegin (wall_now : String) (mono_now : Int)
  | passRead
  | passPark (now : Timestamp)
  | passClaim (now : Timestamp)
  | passPush
  | passSettle (reply : Reply) (settled_at_mono : Int) (now : Timestamp)
  | abandon
  | restart

namespace Machine

/-- What is stored under each id. -/
def rows (machine : Machine) : OperationId → Option Operation := machine.outbox.get_operation

def isNew (machine : Machine) (id : OperationId) : Bool :=
  machine.history.all fun
    | .enqueued other => other ≠ id
    | _ => true

/-- A queued operation enters the log. Ids are minted once. -/
def enqueue (machine : Machine) (operation : Operation) : Option Machine :=
  if machine.isNew operation.id ∧ operation.state = .Pending ∧ operation.attempts = 0 then
    some { machine with
      outbox := machine.outbox.enqueue_operation operation
      history := .enqueued operation.id :: machine.history }
  else none

/-- The racing statement of `discard_operation`. -/
def discard (machine : Machine) (id : OperationId) : Machine :=
  let (removed, outbox) := machine.outbox.remove_operation_unless_inflight id
  { machine with outbox, history := if removed then .removed id :: machine.history else machine.history }

/-- The racing statement of `save_draft`, on a draft save its list read found. -/
def swap (machine : Machine) (id : OperationId) (payload : Value) (now : Timestamp) : Option Machine :=
  if (machine.outbox.get_operation id).all fun operation => operation.kind.is_draft_save then
    let (replaced, outbox) := machine.outbox.replace_operation_payload id payload now
    some { machine with outbox, history := if replaced then .swapped id payload :: machine.history else machine.history }
  else none

/-- The read and the check of `retry_operation`. -/
def retryRead (machine : Machine) (id : OperationId) : Option Machine :=
  match machine.outbox.get_operation id with
  | some operation =>
    if operation.state = .Failed ∨ operation.state = .DispatchUncertain then
      some { machine with retries := machine.retries ++ [{ id, attempts := operation.attempts }] }
    else none
  | none => none

/-- The write of `retry_operation`, on whatever the row holds by then. -/
def retryWrite (machine : Machine) (index : Nat) (now : Timestamp) : Option Machine :=
  match machine.retries[index]? with
  | some call =>
    some { machine with
      outbox := machine.outbox.update_operation_state call.id .Pending call.attempts none now
      retries := machine.retries.eraseIdx index
      history := .retried call.id :: machine.history }
  | none => none

def passBegin (machine : Machine) (wall_now : String) (mono_now : Int) : Option Machine :=
  match machine.flusher with
  | .idle =>
    some { machine with
      flusher := .draining ((machine.outbox.list_flushable_operations wall_now mono_now).map Operation.id) }
  | _ => none

/-- Re-fetch the next operation, and skip it when it is gone or settled. -/
def passRead (machine : Machine) : Option Machine :=
  match machine.flusher with
  | .draining [] => some { machine with flusher := .idle }
  | .draining (id :: queue) =>
    match machine.outbox.get_operation id with
    | some operation =>
      if operation.state.is_flushable then some { machine with flusher := .fetched operation queue }
      else some { machine with flusher := .draining queue }
    | none => some { machine with flusher := .draining queue }
  | _ => none

def passPark (machine : Machine) (now : Timestamp) : Option Machine :=
  match machine.flusher with
  | .fetched operation queue =>
    if interruptedSend operation then
      some { machine with
        outbox := machine.outbox.update_operation_state operation.id .DispatchUncertain operation.attempts
          (some "send interrupted mid-flush; delivery uncertain") now
        flusher := .draining queue }
    else none
  | _ => none

def passClaim (machine : Machine) (now : Timestamp) : Option Machine :=
  match machine.flusher with
  | .fetched operation queue =>
    if interruptedSend operation then none
    else
      let (won, outbox) := machine.outbox.claim_operation_for_flush operation.id now
      if won then
        some { machine with
          outbox
          flusher := .claimed operation queue
          history := .claimed operation.id :: machine.history }
      else some { machine with outbox, flusher := .draining queue }
  | _ => none

/-- The push of the operation as it was read, before the claim. -/
def passPush (machine : Machine) : Option Machine :=
  match machine.flusher with
  | .claimed operation queue =>
    some { machine with
      flusher := .pushed operation queue
      history := if handsOver operation then .handed operation :: machine.history else machine.history }
  | _ => none

def passSettle (machine : Machine) (reply : Reply) (settled_at_mono : Int) (now : Timestamp) : Option Machine :=
  match machine.flusher with
  | .pushed operation queue =>
    match settlementOf operation reply with
    | some (.settled watermark) =>
      some { machine with
        outbox := machine.outbox.mark_operation_settled operation.id settled_at_mono watermark now
        flusher := .draining queue
        history := .settled operation :: machine.history }
    | some .removed =>
      some { machine with outbox := machine.outbox.remove_operation operation.id, flusher := .draining queue }
    | some (.failure error) =>
      some { machine with
        outbox := machine.outbox.update_operation_state operation.id (failureState error.disposition)
          (failureAttempts operation error.disposition) (some error.message) now
        flusher := if stopsDrain operation error.disposition then .idle else .draining queue
        history :=
          if error.disposition = .Transient then .transientFailure operation.id :: machine.history
          else machine.history }
    | none => none
  | _ => none

def step (machine : Machine) : Action → Option Machine
  | .enqueue operation => machine.enqueue operation
  | .discard id => some (machine.discard id)
  | .swap id payload now => machine.swap id payload now
  | .retryRead id => machine.retryRead id
  | .retryWrite index now => machine.retryWrite index now
  | .passBegin wall_now mono_now => machine.passBegin wall_now mono_now
  | .passRead => machine.passRead
  | .passPark now => machine.passPark now
  | .passClaim now => machine.passClaim now
  | .passPush => machine.passPush
  | .passSettle reply settled_at_mono now => machine.passSettle reply settled_at_mono now
  | .abandon => some { machine with flusher := .idle }
  | .restart => some { machine with flusher := .idle, retries := [] }

/-- A fresh store with nothing under way. -/
def initial : Machine where
  outbox := Table.empty
  flusher := .idle
  retries := []
  history := []

end Machine

/-- One account's flush passes, one after another, against concurrent calls. -/
def flushSystem : TransitionSystem Machine Action :=
  TransitionSystem.ofFunction (· = Machine.initial) Machine.step

end posthaste.interleaving
