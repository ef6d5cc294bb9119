import Posthaste.DomainModel.Commands
import Posthaste.Library.Str
import Posthaste.Library.Transition
import Posthaste.Store.Outbox

open serde posthaste.model posthaste.store

namespace posthaste.commands

/-- A command, as far as its replay is told apart. -/
inductive Command where
  | Send (request : SendMessageRequest)
  | other (intent : String)

def Command.isSend : Command → Bool
  | .Send _ => true
  | .other _ => false

structure CommandEnvelope where
  id : String
  command : Command

/-- Where a request stands: before its cell's lock, in the durable lookup, in
    `apply_command` before its write commits, or after. -/
inductive Phase where
  | waiting
  | looking
  | applying
  | applied
  deriving DecidableEq

structure Request where
  task : Nat
  envelope : CommandEnvelope
  phase : Phase

def Request.id (request : Request) : String := request.envelope.id

structure OutcomeCell where
  id : String
  outcome : Option Nat

/-- A write of some other part of the process to a stored operation. -/
inductive OutboxWrite where
  | enqueue_operation (operation : Operation)
  | claim_operation_for_flush (id : OperationId) (now : Timestamp)
  | update_operation_state (id : OperationId) (state : OperationState) (attempts : UInt32) (last_error : Option String)
      (now : Timestamp)
  | mark_operation_settled (id : OperationId) (settled_at_mono : Int) (watermark : Option String) (now : Timestamp)
  /-- Settlement, adoption and truncation. -/
  | remove_operation (id : OperationId)
  /-- The user's discard. -/
  | remove_operation_unless_inflight (id : OperationId)

def OutboxWrite.apply (outbox : OutboxTable) : OutboxWrite → OutboxTable
  | .enqueue_operation operation => outbox.enqueue_operation operation
  | .claim_operation_for_flush id now => (outbox.claim_operation_for_flush id now).2
  | .update_operation_state id state attempts last_error now =>
    outbox.update_operation_state id state attempts last_error now
  | .mark_operation_settled id settled_at_mono watermark now =>
    outbox.mark_operation_settled id settled_at_mono watermark now
  | .remove_operation id => outbox.remove_operation id
  | .remove_operation_unless_inflight id => (outbox.remove_operation_unless_inflight id).2

/-- The outcome cells and the requests of one run, over the stored operations.
    An id names its cell: every request of an id in flight holds the same one. -/
structure ApiState where
  command_outcomes : Table OutcomeCell OutcomeCell.id
  requests : Table Request Request.task
  outbox : OutboxTable
  generation : Nat
  /-- The ids of the sends whose rows were inserted, ever. -/
  enqueued : List String
  /-- The ids of the other commands that took effect in this run. -/
  applied : List String

inductive ApiStep where
  | arrive (task : Nat) (envelope : CommandEnvelope)
  | lock (task : Nat)
  | lookup (task : Nat)
  | commit (task : Nat) (operation : Operation)
  | finish (task : Nat)
  /-- The request failed, or its future was dropped. -/
  | gone (task : Nat)
  | publish
  | outbox (write : OutboxWrite)
  | restart

def COMMAND_OUTCOME_CAP : Nat := 4096

namespace ApiState

variable (state : ApiState)

def empty : ApiState := ⟨.empty, .empty, .empty, 0, [], []⟩

/-- Another holder of the cell than the map. -/
def inFlight (id : String) : Bool := state.requests.rows.any fun request => request.id == id

def command_outcome_cell (id : String) : Table OutcomeCell OutcomeCell.id :=
  let outcomes :=
    if state.command_outcomes.rows.length ≥ COMMAND_OUTCOME_CAP && (state.command_outcomes.find id).isNone then
      state.command_outcomes.retain fun cell => state.inFlight cell.id
    else state.command_outcomes
  outcomes.insertOrIgnore ⟨id, none⟩

def outcome (id : String) : Option Nat := (state.command_outcomes.find id).bind OutcomeCell.outcome

def recorded (id : String) (generation : Nat) : Table OutcomeCell OutcomeCell.id :=
  state.command_outcomes.updateIf id (fun _ => true) (fun cell => { cell with outcome := some generation }) fun _ => rfl

def without (task : Nat) : Table Request Request.task := state.requests.retain fun request => request.task ≠ task

/-- The cell's lock is held by a request that is past waiting. -/
def locked (id : String) : Bool :=
  state.requests.rows.any fun request => request.id == id && request.phase != .waiting

/-- The request of the task, when it stands in the phase. -/
def standing (task : Nat) (phase : Phase) : Option Request :=
  (state.requests.find task).filter fun request => request.phase == phase

def arrive (task : Nat) (envelope : CommandEnvelope) : Option ApiState :=
  if (state.requests.find task).isSome then none
  else if str.trim envelope.id = "" then some state
  else some { state with
    command_outcomes := state.command_outcome_cell envelope.id
    requests := state.requests.put ⟨task, envelope, .waiting⟩ }

def advance (request : Request) (phase : Phase) : ApiState :=
  { state with requests := state.requests.put { request with phase } }

/-- A recorded outcome answers; a send without one goes to the outbox first. -/
def lock (request : Request) : Option ApiState :=
  if state.locked request.id then none
  else match state.outcome request.id with
    | some _ => some { state with requests := state.without request.task }
    | none => some (state.advance request (if request.envelope.command.isSend then .looking else .applying))

def replay_durable_outcome (request : Request) : ApiState :=
  match state.outbox.get_operation request.id with
  | some _ => { state with
      command_outcomes := state.recorded request.id state.generation
      requests := state.without request.task }
  | none => state.advance request .applying

/-- The write of `apply_command`: a send enqueues its operation under the command's id. -/
def commit (request : Request) (operation : Operation) : Option ApiState :=
  let applied := { state.advance request .applied with generation := state.generation + 1 }
  match request.envelope.command with
  | .Send _ =>
    if operation.id = request.id ∧ operation.kind = .Send then
      some { applied with
        outbox := state.outbox.enqueue_operation operation
        enqueued := if (state.outbox.get_operation request.id).isSome then state.enqueued
          else request.id :: state.enqueued }
    else none
  | .other _ => some { applied with applied := request.id :: state.applied }

def step : ApiStep → Option ApiState
  | .arrive task envelope => state.arrive task envelope
  | .lock task => (state.standing task .waiting).bind state.lock
  | .lookup task => (state.standing task .looking).map state.replay_durable_outcome
  | .commit task operation => (state.standing task .applying).bind fun request => state.commit request operation
  | .finish task => (state.standing task .applied).map fun request => { state with
      command_outcomes := state.recorded request.id state.generation
      requests := state.without task }
  | .gone task => some { state with requests := state.without task }
  | .publish => some { state with generation := state.generation + 1 }
  | .outbox write => some { state with outbox := write.apply state.outbox }
  | .restart => some { empty with outbox := state.outbox, enqueued := state.enqueued }

/-- Every run of the process, and of the processes after it, over one store. -/
def commandRuns : TransitionSystem ApiState ApiStep := .ofFunction (· = empty) step

end ApiState

end posthaste.commands
