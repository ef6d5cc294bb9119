import Posthaste.Supervisor.Runtimes
import Posthaste.Supervisor.SyncTriggers

namespace posthaste.supervisor

def U64_MAX : Nat := 18446744073709551615

inductive AccountStatus where
  | ready
  | syncing
  | degraded
  | authError
  | offline
  | disabled
  deriving DecidableEq

inductive PushStatus where
  | connected
  | reconnecting
  | unsupported
  | disabled
  deriving DecidableEq

inductive SyncProgressStage where
  | connecting
  | discovering
  | planning
  | fetching
  | storing
  | waiting
  deriving DecidableEq

structure SyncProgress where
  sync_id : String
  trigger : SyncTrigger
  started_at : String
  stage : SyncProgressStage
  detail : String
  mailbox_name : Option String
  mailbox_index : Option Nat
  mailbox_count : Option Nat
  message_count : Option Nat
  total_count : Option Nat
  deriving DecidableEq

/-- What a gateway reports: the connecting stage is the supervisor's own. -/
abbrev GatewayProgress := { progress : SyncProgress // progress.stage ≠ .connecting }

structure AccountRuntimeOverview where
  status : AccountStatus
  push : PushStatus
  last_sync_at : Option String
  last_sync_error : Option String
  last_sync_error_code : Option String
  sync_progress : Option SyncProgress
  deriving DecidableEq

def AccountRuntimeOverview.new (status : AccountStatus) (push : PushStatus) : AccountRuntimeOverview :=
  ⟨status, push, none, none, none, none⟩

/-- A failed sync, as far as its status tells the errors apart, with what it presents. -/
inductive SyncFault where
  | auth
  | network
  | unavailable
  | secret
  | other
  deriving DecidableEq

def SyncFault.status : SyncFault → AccountStatus
  | .auth => .authError
  | .network | .unavailable | .secret => .offline
  | .other => .degraded

/-- The updates of the overview, each under the name of what makes it. -/
inductive StatusWrite where
  | set_runtime_overview (overview : AccountRuntimeOverview)
  | set_sync_progress (progress : SyncProgress)
  | mark_sync_success (now : Option String)
  | mark_sync_failure (fault : SyncFault) (message code : String)
  | set_push_status (push : PushStatus)
  | mark_push_terminal (transport reason : String) (poll_secs : Nat)
  | mark_account_faulted (attempt : Nat) (reason : String)
  | mark_account_halted (reason : String)
  | mark_arm_timeout (arm budget : String)

/-- The push status a fault leaves behind. -/
def PushStatus.faulted : PushStatus → PushStatus
  | .unsupported => .unsupported
  | .disabled => .disabled
  | _ => .reconnecting

/-- The closure of an update, or `none` where it declines. -/
def StatusWrite.update (current : AccountRuntimeOverview) : StatusWrite → Option AccountRuntimeOverview
  | .set_runtime_overview overview => some overview
  | .set_sync_progress progress =>
    if progress.stage ≠ .connecting ∧ current.status ≠ .syncing then none
    else some { current with sync_progress := some progress, status := .syncing }
  | .mark_sync_success now => some {
      status := .ready
      push := if current.push = .disabled then .reconnecting else current.push
      last_sync_at := now
      last_sync_error := none
      last_sync_error_code := none
      sync_progress := none }
  | .mark_sync_failure fault message code => some { current with
      status := fault.status
      push := current.push.faulted
      last_sync_error := some message
      last_sync_error_code := some code
      sync_progress := none }
  | .set_push_status push => if current.push = push then none else some { current with push }
  | .mark_push_terminal transport reason poll_secs =>
    if current.push = .unsupported then none
    else some { current with
      push := .unsupported
      last_sync_error := some s!"push unavailable via {transport}: {reason}; polling every {poll_secs}s instead"
      last_sync_error_code := some "push_terminal" }
  | .mark_account_faulted attempt reason => some { current with
      status := .degraded
      push := current.push.faulted
      last_sync_error := some s!"account runtime fault (restart {attempt}/{WATCHDOG_MAX_RESTARTS}): {reason}"
      last_sync_error_code := some "runtime_fault"
      sync_progress := none }
  | .mark_account_halted reason => some { current with
      status := .offline
      push := .disabled
      last_sync_error := some s!"account runtime halted after {WATCHDOG_MAX_RESTARTS} failed restarts: {reason}"
      last_sync_error_code := some "runtime_halted"
      sync_progress := none }
  | .mark_arm_timeout arm budget => some { current with
      status := .degraded
      last_sync_error :=
        some ("supervisor arm '" ++ arm ++ "' exceeded its " ++ budget ++ " budget (provider/store call hung)")
      last_sync_error_code := some "arm_timeout"
      sync_progress := none }

/-- Where a runtime task stands. A cycle's token is kept until it settles, also by
    a task that ended within it; a task that ended by a fault waits for its watchdog. -/
inductive TaskPhase where
  | spawned
  | starting
  | waiting
  | connecting (cycle : Nat) (checked : Option SyncProgress)
  | running (cycle : Nat) (reporting : Bool)
  | expired (cycle : Option Nat)
  | invalidated (cycle : Option Nat)
  | faulted (cycle : Option Nat)
  | reported (cycle : Option Nat)
  | ended (cycle : Option Nat)

/-- The unsettled cycle of the task. -/
def TaskPhase.cycle : TaskPhase → Option Nat
  | .spawned | .starting | .waiting => none
  | .connecting cycle _ | .running cycle _ => some cycle
  | .expired cycle | .invalidated cycle | .faulted cycle | .reported cycle | .ended cycle => cycle

structure RuntimeTask where
  generation : Option Nat
  phase : TaskPhase

/-- The forwarder of one cycle's progress: what its channel holds, and the update
    that has passed its guards and waits for the overviews. -/
structure Forwarder where
  task : Nat
  generation : Nat
  cycle : Nat
  queue : List GatewayProgress
  checked : Option GatewayProgress

inductive Standing where
  | live
  | disabled
  | removed
  deriving DecidableEq

/-- The status of one account, with every task and forwarder that ever wrote to it. -/
structure AccountStatuses where
  runtime_generation : Option Nat
  sync_cycle : Option Nat
  overview : Option AccountRuntimeOverview
  tasks : List RuntimeTask
  forwarders : List Forwarder
  /-- What the last of the account's calls made of it, and the disabling and
      removing calls that have yet to write the overview. -/
  standing : Standing
  ending : List Standing
  /-- The tokens of the cycles that have settled. -/
  settled : List Nat

inductive StatusStep where
  /-- `start_account` spawns the first incarnation. -/
  | start_account
  /-- The watchdog spawns the next incarnation. -/
  | respawn (task : Nat)
  | next_runtime_generation (task : Nat)
  | initialise (task : Nat)
  | next_sync_cycle (task : Nat)
  /-- The guards of the connecting progress, then its update. -/
  | check_connecting (task : Nat) (sync_id : String) (trigger : SyncTrigger) (started_at : String)
  | set_connecting (task : Nat)
  | sync_progress_reporter (task : Nat)
  | report (forwarder : Nat) (progress : GatewayProgress)
  /-- The forwarder receives an update and passes its guards, or drops it. -/
  | check_progress (forwarder : Nat)
  | set_progress (forwarder : Nat)
  | mark_sync_success (task : Nat) (now : Option String)
  | mark_sync_failure (task : Nat) (fault : SyncFault) (message code : String)
  | set_push_status (task : Nat) (push : PushStatus)
  | mark_push_terminal (task : Nat) (transport reason : String) (poll_secs : Nat)
  | timeout (task : Nat)
  | invalidate_sync_cycle (task : Nat)
  | mark_arm_timeout (task : Nat) (arm budget : String)
  /-- The task ends; a panic or an unexpected exit is the watchdog's to report. -/
  | ended (task : Nat) (faults : Bool)
  | mark_account_faulted (task : Nat) (attempt : Nat) (reason : String)
  | mark_account_halted (task : Nat) (reason : String)
  /-- A disabling start and a removal: each advances the generation first. -/
  | disable
  | set_disabled
  | remove
  | remove_overview

namespace AccountStatuses

variable (state : AccountStatuses)

def new : AccountStatuses := ⟨none, none, none, [], [], .removed, [], []⟩

def status : Option AccountStatus := state.overview.map (·.status)

/-- Whether the task still runs the cycle, and so holds the sender of its progress. -/
def runs (task cycle : Nat) : Bool :=
  match state.tasks[task]? with
  | some ⟨_, .running current _⟩ => current = cycle
  | _ => false

def cycleOf (task : Nat) : Option Nat := state.tasks[task]?.bind (·.phase.cycle)

/-- The next value of a counter, saturating. -/
def advanced (counter : Option Nat) : Nat := min (counter.getD 0 + 1) U64_MAX

/-- No update holds the generations for reading. -/
def unlocked : Bool :=
  (state.tasks.all fun task => match task.phase with
    | .connecting _ (some _) => false
    | _ => true) &&
  state.forwarders.all fun forwarder => forwarder.checked.isNone

def setTask (id : Nat) (task : RuntimeTask) : AccountStatuses := { state with tasks := state.tasks.set id task }

def setForwarder (id : Nat) (forwarder : Forwarder) : AccountStatuses :=
  { state with forwarders := state.forwarders.set id forwarder }

/-- The closure of an update whose guards hold, under the overviews lock. -/
def commit (write : StatusWrite) : AccountStatuses :=
  match write.update (state.overview.getD (.new .offline .disabled)) with
  | some overview => { state with overview := some overview }
  | none => state

/-- An update without a cycle token: the generations stay locked until it is through. -/
def update_runtime_overview (generation : Option Nat) (write : StatusWrite) : AccountStatuses :=
  match generation with
  | none => state.commit write
  | some expected => if state.runtime_generation = some expected then state.commit write else state

def guards (generation cycle : Nat) : Bool :=
  state.runtime_generation = some generation && state.sync_cycle.getD 0 = cycle

/-- The cycle settles with its update, and its token is given up. -/
def settle (id generation : Nat) (cycle : Option Nat) (write : StatusWrite) : AccountStatuses :=
  let written := state.update_runtime_overview (some generation) write
  { written.setTask id ⟨some generation, .waiting⟩ with settled := cycle.toList ++ state.settled }

def connecting (sync_id : String) (trigger : SyncTrigger) (started_at : String) : SyncProgress :=
  ⟨sync_id, trigger, started_at, .connecting, "Connecting account", none, none, none, none, none⟩

/-- An arm's future is dropped with all it was about to write. -/
def dropped : TaskPhase → Option TaskPhase
  | .waiting => some (.expired none)
  | .connecting cycle _ | .running cycle _ => some (.expired (some cycle))
  | _ => none

def writesPush : TaskPhase → Bool
  | .waiting | .running _ _ => true
  | _ => false

def endedAs (faults : Bool) : TaskPhase → Option TaskPhase
  | .faulted _ | .reported _ | .ended _ => none
  | phase => some (if faults then .faulted phase.cycle else .ended phase.cycle)

def step (action : StatusStep) : Option AccountStatuses :=
  match action with
  | .start_account => some { state with tasks := state.tasks ++ [⟨none, .spawned⟩], standing := .live }
  | .respawn id =>
    match state.tasks[id]? with
    | some ⟨generation, .reported cycle⟩ =>
      let ended := state.setTask id ⟨generation, .ended cycle⟩
      some { ended with tasks := ended.tasks ++ [⟨none, .spawned⟩] }
    | _ => none
  | .next_runtime_generation id =>
    match state.tasks[id]? with
    | some ⟨_, .spawned⟩ =>
      if state.unlocked then
        some { state.setTask id ⟨some (advanced state.runtime_generation), .starting⟩ with
          runtime_generation := some (advanced state.runtime_generation) }
      else none
    | _ => none
  | .initialise id =>
    match state.tasks[id]? with
    | some ⟨some generation, .starting⟩ =>
      let written := state.update_runtime_overview (some generation) (.set_runtime_overview (.new .offline .reconnecting))
      some (written.setTask id ⟨some generation, .waiting⟩)
    | _ => none
  | .next_sync_cycle id =>
    match state.tasks[id]? with
    | some ⟨some generation, .waiting⟩ =>
      some { state.setTask id ⟨some generation, .connecting (advanced state.sync_cycle) none⟩ with
        sync_cycle := some (advanced state.sync_cycle) }
    | _ => none
  | .check_connecting id sync_id trigger started_at =>
    match state.tasks[id]? with
    | some ⟨some generation, .connecting cycle none⟩ =>
      if state.guards generation cycle then
        some (state.setTask id ⟨some generation, .connecting cycle (some (connecting sync_id trigger started_at))⟩)
      else some (state.setTask id ⟨some generation, .running cycle false⟩)
    | _ => none
  | .set_connecting id =>
    match state.tasks[id]? with
    | some ⟨some generation, .connecting cycle (some progress)⟩ =>
      some ((state.commit (.set_sync_progress progress)).setTask id ⟨some generation, .running cycle false⟩)
    | _ => none
  | .sync_progress_reporter id =>
    match state.tasks[id]? with
    | some ⟨some generation, .running cycle false⟩ =>
      some { state.setTask id ⟨some generation, .running cycle true⟩ with
        forwarders := state.forwarders ++ [⟨id, generation, cycle, [], none⟩] }
    | _ => none
  | .report id progress =>
    match state.forwarders[id]? with
    | some forwarder =>
      if state.runs forwarder.task forwarder.cycle then
        some (state.setForwarder id { forwarder with queue := forwarder.queue ++ [progress] })
      else none
    | none => none
  | .check_progress id =>
    match state.forwarders[id]? with
    | some ⟨task, generation, cycle, progress :: rest, none⟩ =>
      let checked := if state.guards generation cycle then some progress else none
      some (state.setForwarder id ⟨task, generation, cycle, rest, checked⟩)
    | _ => none
  | .set_progress id =>
    match state.forwarders[id]? with
    | some ⟨task, generation, cycle, queue, some progress⟩ =>
      some ((state.commit (.set_sync_progress progress)).setForwarder id ⟨task, generation, cycle, queue, none⟩)
    | _ => none
  | .mark_sync_success id now =>
    match state.tasks[id]? with
    | some ⟨some generation, .running cycle _⟩ => some (state.settle id generation (some cycle) (.mark_sync_success now))
    | _ => none
  | .mark_sync_failure id fault message code =>
    match state.tasks[id]? with
    | some ⟨some generation, .running cycle _⟩ =>
      some (state.settle id generation (some cycle) (.mark_sync_failure fault message code))
    | _ => none
  | .set_push_status id push =>
    match state.tasks[id]? with
    | some ⟨some generation, phase⟩ =>
      if writesPush phase then some (state.update_runtime_overview (some generation) (.set_push_status push)) else none
    | _ => none
  | .mark_push_terminal id transport reason poll_secs =>
    match state.tasks[id]? with
    | some ⟨some generation, phase⟩ =>
      if writesPush phase then
        some (state.update_runtime_overview (some generation) (.mark_push_terminal transport reason poll_secs))
      else none
    | _ => none
  | .timeout id =>
    match state.tasks[id]? with
    | some ⟨generation, phase⟩ => (dropped phase).map fun expired => state.setTask id ⟨generation, expired⟩
    | none => none
  | .invalidate_sync_cycle id =>
    match state.tasks[id]? with
    | some ⟨generation, .expired cycle⟩ => some { state.setTask id ⟨generation, .invalidated cycle⟩ with
        sync_cycle := some (advanced state.sync_cycle) }
    | _ => none
  | .mark_arm_timeout id arm budget =>
    match state.tasks[id]? with
    | some ⟨some generation, .invalidated cycle⟩ =>
      some (state.settle id generation cycle (.mark_arm_timeout arm budget))
    | _ => none
  | .ended id faults =>
    match state.tasks[id]? with
    | some ⟨generation, phase⟩ => (endedAs faults phase).map fun ended => state.setTask id ⟨generation, ended⟩
    | none => none
  | .mark_account_faulted id attempt reason =>
    match state.tasks[id]? with
    | some ⟨generation, .faulted cycle⟩ =>
      some ((state.update_runtime_overview none (.mark_account_faulted attempt reason)).setTask id
        ⟨generation, .reported cycle⟩)
    | _ => none
  | .mark_account_halted id reason =>
    match state.tasks[id]? with
    | some ⟨generation, .faulted cycle⟩ =>
      some ((state.update_runtime_overview none (.mark_account_halted reason)).setTask id ⟨generation, .ended cycle⟩)
    | _ => none
  | .disable =>
    if state.unlocked then
      some { state with
        runtime_generation := some (advanced state.runtime_generation)
        standing := .disabled
        ending := .disabled :: state.ending }
    else none
  | .set_disabled =>
    if .disabled ∈ state.ending then
      some { state.update_runtime_overview none (.set_runtime_overview (.new .disabled .disabled)) with
        ending := state.ending.erase .disabled }
    else none
  | .remove =>
    if state.unlocked then
      some { state with
        runtime_generation := some (advanced state.runtime_generation)
        standing := .removed
        ending := .removed :: state.ending }
    else none
  | .remove_overview =>
    if .removed ∈ state.ending then
      some { state with overview := none, ending := state.ending.erase .removed }
    else none

/-- Every interleaving of the account's tasks, forwarders, watchdogs and calls. -/
def statuses : TransitionSystem AccountStatuses StatusStep := .ofFunction (· = new) step

end AccountStatuses

end posthaste.supervisor
