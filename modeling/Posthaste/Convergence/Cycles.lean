import Posthaste.Library.Transition
import Posthaste.Service.SyncWrites

open serde posthaste.model posthaste.store posthaste.service

namespace posthaste.convergence

/-- The start-time rule: the cycle started after the operation settled. -/
def startedAfter (cycle_started_mono : Int) (settled_at_mono : Option Int) : Bool :=
  settled_at_mono.getD 0 < cycle_started_mono

/-- The cursor rule: the stored Message cursor is the operation's watermark. -/
def watermarkReached (message_cursor : Option String) (settled : SettledOperation) : Bool :=
  match settled.watermark, message_cursor with
  | some watermark, some cursor => watermark == cursor
  | _, _ => false

/-- Truncation retires by the two rules. -/
theorem absorbed_eq (cycle_started_mono : Int) (message_cursor : Option String) (settled : SettledOperation) :
    absorbed cycle_started_mono message_cursor settled =
      (startedAfter cycle_started_mono settled.settled_at_mono || watermarkReached message_cursor settled) := rfl

/-- Where a sync cycle stands. Flush passes and the pull come first, with at most
    one claimed operation at a time; then the truncation, one retirement at a time. -/
inductive Stage where
  | pulling (held : Option OperationId)
  | pulled
  | listed (settled : List SettledOperation)
  | truncating (message_cursor : Option String) (settled : List SettledOperation)
  | retiring (message_cursor : Option String) (entry : SettledOperation) (touched : List MessageId)
      (rest : List SettledOperation)
  | left

/-- One sync cycle of the account: its entry stamp, whether its pull came to an
    end, and what its own flush settled. -/
structure Cycle where
  cycle_started_mono : Int
  stage : Stage
  completed : Bool
  settled : List OperationId

/-- That an operation settled, and when. -/
structure Settlement where
  id : OperationId
  settled_at_mono : Int

/-- One account within one process: its store, the monotonic clock, the cycles
    entered so far, which may overlap, and the settlements so far. -/
structure Process where
  store : DatabaseStore
  clock : Int
  cycles : List Cycle
  settlements : List Settlement

inductive CycleAction where
  | claim (id : OperationId) (now : Timestamp)
  | settle (watermark : Option String) (now : Timestamp)
  | release
  | pull (write : Write)
  | complete
  | listSettled
  | readCursor
  | next
  | retire
  | leave

inductive Action where
  | tick (now : Int)
  | write (write : Write)
  | enter
  | cycle (index : Nat) (action : CycleAction)

/-- The operation the cycle's flush has claimed and not yet released. -/
def Cycle.held (cycle : Cycle) : Option OperationId :=
  match cycle.stage with
  | .pulling held => held
  | _ => none

/-- What the cycle's truncation is still to retire by its start alone. -/
def Cycle.byStart (cycle : Cycle) : List SettledOperation :=
  match cycle.stage with
  | .listed settled => settled.filter fun entry => startedAfter cycle.cycle_started_mono entry.settled_at_mono
  | .truncating message_cursor settled => settled.filter fun entry =>
    startedAfter cycle.cycle_started_mono entry.settled_at_mono && !watermarkReached message_cursor entry
  | .retiring message_cursor entry _ rest => (entry :: rest).filter fun entry =>
    startedAfter cycle.cycle_started_mono entry.settled_at_mono && !watermarkReached message_cursor entry
  | _ => []

namespace Process

def put (process : Process) (index : Nat) (store : DatabaseStore) (cycle : Cycle) : Process :=
  { process with store, cycles := process.cycles.set index cycle }

/-- Claim one operation for the cycle's flush, when none is held. -/
def claim (process : Process) (index : Nat) (cycle : Cycle) (id : OperationId) (now : Timestamp) : Option Process :=
  match cycle.stage with
  | .pulling none =>
    if process.store.outbox.matchesState id OperationState.is_flushable then
      some (process.put index (Write.apply process.store (.claim id now)) { cycle with stage := .pulling (some id) })
    else none
  | _ => none

/-- The operation is marked settled at this moment. A row that is gone settles nothing. -/
def settled (process : Process) (index : Nat) (cycle : Cycle) (id : OperationId) (watermark : Option String)
    (now : Timestamp) : Process :=
  let store := Write.apply process.store (.settle id process.clock watermark now)
  if (process.store.outbox.get_operation id).isSome then
    { process.put index store { cycle with settled := id :: cycle.settled } with
      settlements := ⟨id, process.clock⟩ :: process.settlements }
  else process.put index store cycle

/-- The push of the held operation was accepted. -/
def settle (process : Process) (index : Nat) (cycle : Cycle) (watermark : Option String) (now : Timestamp) :
    Option Process :=
  cycle.held.map fun id => process.settled index cycle id watermark now

def release (process : Process) (index : Nat) (cycle : Cycle) : Option Process :=
  cycle.held.map fun _ => process.put index process.store { cycle with stage := .pulling none }

/-- A base write of the pull, or of the readback of a push. -/
def pull (process : Process) (index : Nat) (cycle : Cycle) (write : Write) : Option Process :=
  match cycle.stage with
  | .pulling _ =>
    if write.pulling then some (process.put index (Write.apply process.store write) cycle) else none
  | _ => none

def complete (process : Process) (index : Nat) (cycle : Cycle) : Option Process :=
  match cycle.stage with
  | .pulling none => some (process.put index process.store { cycle with stage := .pulled, completed := true })
  | _ => none

def listSettled (process : Process) (index : Nat) (cycle : Cycle) : Option Process :=
  match cycle.stage with
  | .pulled =>
    some (process.put index process.store { cycle with stage := .listed process.store.outbox.list_settled_operations })
  | _ => none

def readCursor (process : Process) (index : Nat) (cycle : Cycle) : Option Process :=
  match cycle.stage with
  | .listed settled =>
    some (process.put index process.store { cycle with stage := .truncating process.store.message_cursor settled })
  | _ => none

/-- Pass over the next listed operation, or read the rows it touches when it is to be retired. -/
def next (process : Process) (index : Nat) (cycle : Cycle) : Option Process :=
  match cycle.stage with
  | .truncating message_cursor (entry :: rest) =>
    if absorbed cycle.cycle_started_mono message_cursor entry then
      some (process.put index process.store { cycle with
        stage := .retiring message_cursor entry (touchedRows process.store entry.operation) rest })
    else some (process.put index process.store { cycle with stage := .truncating message_cursor rest })
  | _ => none

/-- The retirement of one operation. When its transaction fails, the cycle ends there. -/
def retire (process : Process) (index : Nat) (cycle : Cycle) : Option Process :=
  match cycle.stage with
  | .retiring message_cursor entry touched rest =>
    match (retire_operation entry.operation.id touched).run process.store with
    | .ok _ after => some (process.put index after { cycle with stage := .truncating message_cursor rest })
    | .error _ after => some (process.put index after { cycle with stage := .left })
  | _ => none

def cycleStep (process : Process) (index : Nat) (cycle : Cycle) : CycleAction → Option Process
  | .claim id now => process.claim index cycle id now
  | .settle watermark now => process.settle index cycle watermark now
  | .release => process.release index cycle
  | .pull write => process.pull index cycle write
  | .complete => process.complete index cycle
  | .listSettled => process.listSettled index cycle
  | .readCursor => process.readCursor index cycle
  | .next => process.next index cycle
  | .retire => process.retire index cycle
  | .leave => some (process.put index process.store { cycle with stage := .left })

def step (process : Process) : Action → Option Process
  | .tick now => if process.clock ≤ now then some { process with clock := now } else none
  | .write write =>
    if write.beside then some { process with store := Write.apply process.store write } else none
  | .enter =>
    some { process with
      cycles := process.cycles ++
        [{ cycle_started_mono := process.clock, stage := .pulling none, completed := false, settled := [] }] }
  | .cycle index action =>
    match process.cycles[index]? with
    | some cycle => process.cycleStep index cycle action
    | none => none

/-- A process begins on whatever store the last one left. -/
def Begins (process : Process) : Prop := process.cycles = [] ∧ process.settlements = []

end Process

/-- The account's sync cycles against each other and against every other call. -/
def processSystem : TransitionSystem Process Action := TransitionSystem.ofFunction Process.Begins Process.step

end posthaste.convergence
