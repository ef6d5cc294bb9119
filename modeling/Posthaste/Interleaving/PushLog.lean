import Posthaste.Interleaving.Machine
import Posthaste.Library.Drain
import Posthaste.Library.Str

open serde posthaste.model posthaste.store posthaste.service

namespace posthaste.interleaving

/-- The entities an operation is about: its own, and the draft that a send consumes. -/
def subjects (operation : Operation) : List OperationEntity :=
  match operation.intent with
  | .ok (.Send request) => operation.entity :: (request.draft_id.bind str.nonBlank).toList.map (⟨.Draft, ·⟩)
  | _ => [operation.entity]

def shares (first second : Operation) : Bool := (subjects first).any fun entity => entity ∈ subjects second

/-- A push that has been made, and whether it was settled as applied. -/
structure Push where
  operation : Operation
  applied : Bool

/-- A push the gateway took, or one that found nothing to do. A rejection that came with
    the readback counts as well. -/
def settledAsApplied (operation : Operation) (reply : Reply) : Bool :=
  match settlementOf operation reply with
  | some (.settled _) | some .removed => true
  | _ => false

/-- The operation that is with the gateway. -/
def Flusher.withGateway : Flusher → Option Operation
  | .pushed operation _ => some operation
  | _ => none

/-- The list the pass still has to work off. -/
def Flusher.queue : Flusher → List OperationId
  | .idle => []
  | .draining queue | .fetched _ queue | .claimed _ queue | .pushed _ queue => queue

/-- The machine with the operations queued so far, oldest first, and the pushes so far, newest first. -/
structure PushLog where
  machine : Machine
  queued : List Operation
  pushes : List Push

/-- The machine's actions, and the unguarded delete of coalescing, of an enqueue whose optimistic
    fold failed and of truncation. -/
inductive LogAction where
  | machine (action : Action)
  | remove (id : OperationId)

namespace PushLog

def initial : PushLog where
  machine := .initial
  queued := []
  pushes := []

/-- The pushes once the reply to the newest one is in. -/
def marked (applied : Bool) : List Push → List Push
  | newest :: earlier => { newest with applied } :: earlier
  | [] => []

def record (log : PushLog) (after : Machine) : Action → PushLog
  | .enqueue operation => { log with machine := after, queued := log.queued ++ [operation] }
  | .passPush =>
    { log with
      machine := after
      pushes := (after.flusher.withGateway.toList.map fun operation => { operation, applied := false }) ++ log.pushes }
  | .passSettle reply _ _ =>
    { log with
      machine := after
      pushes := marked (log.machine.flusher.withGateway.any (settledAsApplied · reply)) log.pushes }
  | _ => { log with machine := after }

def step (log : PushLog) : LogAction → Option PushLog
  | .machine action => (log.machine.step action).map fun after => log.record after action
  | .remove id =>
    some { log with machine := { log.machine with outbox := log.machine.outbox.remove_operation id } }

/-- The operations pushed and settled as applied, in the order in which they were handed over. -/
def applied (log : PushLog) : List Operation := (log.pushes.reverse.filter Push.applied).map Push.operation

/-- The place of an operation in the order in which operations were queued. -/
def turn (log : PushLog) (operation : Operation) : Nat := (log.queued.map Operation.id).idxOf operation.id

/-- On every entity, what took effect was handed over in the order in which it was queued. -/
def InOrder (log : PushLog) : Prop :=
  ∀ entity, (log.applied.filter fun operation => entity ∈ subjects operation).Pairwise fun first second =>
    log.turn first < log.turn second

/-- An operation not yet due stands before a listed operation on one of its entities. -/
def holdsBack (log : PushLog) (wall_now : String) (mono_now : Int) : Bool :=
  log.machine.outbox.operations.any fun held =>
    held.state.is_flushable && !(held.send_at.all (· ≤ wall_now) && held.hold_until_mono.all (· ≤ mono_now)) &&
      (log.machine.outbox.list_flushable_operations wall_now mono_now).any fun later =>
        shares held later && log.turn held < log.turn later

/-- The pass goes on past an operation that it puts back, and has another on one of its entities to come. -/
def leavesBehind (log : PushLog) (reply : Reply) : Bool :=
  match log.machine.flusher with
  | .pushed operation queue =>
    match settlementOf operation reply with
    | some (.failure error) =>
      failureState error.disposition == .Pending && !stopsDrain operation error.disposition &&
        queue.any fun id =>
          (log.machine.rows id).any fun later => later.state.is_flushable && shares operation later
    | _ => false
  | _ => false

/-- The user does not retry. -/
def unretried (_ : PushLog) : LogAction → Bool
  | .machine (.retryRead _) | .machine (.retryWrite _ _) => false
  | _ => true

/-- The user does not retry, and no operation is passed over with a later one on its entities due. -/
def passesOverNone (log : PushLog) : LogAction → Bool
  | .machine (.retryRead _) | .machine (.retryWrite _ _) => false
  | .machine (.passBegin wall_now mono_now) => !log.holdsBack wall_now mono_now
  | .machine (.passSettle reply _ _) => !log.leavesBehind reply
  | _ => true

end PushLog

/-- The flush passes with what was queued and what was pushed. -/
def logSystem : TransitionSystem PushLog LogAction :=
  TransitionSystem.ofFunction (· = PushLog.initial) PushLog.step

end posthaste.interleaving
