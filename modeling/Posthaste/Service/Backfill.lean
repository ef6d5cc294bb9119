import Posthaste.Service.EffectiveMail
import Posthaste.Service.SyncOps

open posthaste.model posthaste.store

namespace posthaste.service

open MailService

/-- What one observation of the provider reads: the gateway, what its sync returns, the clocks and
    the ids the sweep mints. -/
structure Observation where
  gateway : MailGateway
  sync : Except GatewayError SyncBatch
  cycle_started_mono : Int
  wall_now : String
  mono_now : Int
  now : Timestamp
  mint : String → Minted

/-- Flush pending operations, pull the provider's state into base, and sweep. -/
def flush_and_observe (observation : Observation) : MailService Unit := do
  flush_account observation.gateway observation.wall_now observation.mono_now observation.now
  let batch ← fallible (observation.sync.mapError .Gateway)
  applyBatch batch
  sweep_message_overlay observation.cycle_started_mono observation.mint

/-- A mutation a batch queued, in place of its one event: the rule and action, the message, the
    pairs the batch had been through, and the store it left. -/
structure Queued where
  asked : List (AutomationRule × AutomationAction)
  rule : AutomationRule
  action : AutomationAction
  message_id : MessageId
  after : DatabaseStore

/-- The counters of a batch under way. -/
structure BatchState where
  remaining : Nat
  has_more : Bool
  asked : List (AutomationRule × AutomationAction)
  queued : List Queued

/-- Lifecycle state of a backfill job. -/
inductive AutomationBackfillJobStatus where
  | Pending
  | Completed
  deriving DecidableEq

structure AutomationBackfillJob where
  rule_fingerprint : String
  status : AutomationBackfillJobStatus
  attempts : Int
  last_error : Option String
  updated_at : Timestamp
  deriving DecidableEq

/-- The account's store with its backfill jobs. -/
structure BackfillService where
  store : DatabaseStore
  automation_backfill_job : AList fun _ : String => AutomationBackfillJob

structure AutomationBackfillBatchOutcome where
  ran : Bool
  queued : List Queued
  has_more : Bool

/-- What the batches of one account share: how mail is read, the ids minted for what they queue, the
    account's source if it has one and whether it is enabled, the settings, and how rules are printed. -/
structure Backfill where
  reading : Reading
  mint : DatabaseStore → Minted
  source : Option Bool
  automation_rules : List AutomationRule
  to_string : List AutomationRule → Except String String
  batch_size : Nat

namespace Backfill

variable (backfill : Backfill)

/-- The rules a backfill applies. -/
def eligible : List AutomationRule := backfill.automation_rules.filter fun rule => rule.enabled && rule.backfill

/-- Queue the action for each message of the page, as long as the batch has room. -/
def applyPage (rule : AutomationRule) (action : AutomationAction) :
    List MessageSummary → BatchState → MailService BatchState
  | [], state => return state
  | message :: rest, state => do
    let minted ← read backfill.mint
    apply_automation_action message action minted
    let after ← read id
    let state :=
      if (automation_mutation message action).isSome then
        { state with
          remaining := state.remaining - 1
          queued := state.queued ++ [⟨state.asked, rule, action, message.id, after⟩] }
      else state
    if state.remaining = 0 then return { state with has_more := true }
    else applyPage rule action rest state

/-- Ask for the messages one action has something to do for, and queue it for them. -/
def applyAction (rule : AutomationRule) (action : AutomationAction) (state : BatchState) : MailService BatchState := do
  let page ← read fun store => backfill.reading.query_message_page_by_rule store
    (automation_query_rule backfill.reading.account_id rule action []) state.remaining
  let items ← fallible (page.mapError .Store)
  let state ← backfill.applyPage rule action items
    { state with has_more := state.has_more || items.length == state.remaining }
  return { state with asked := state.asked ++ [(rule, action)] }

def applyActions (rule : AutomationRule) : List AutomationAction → BatchState → MailService BatchState
  | [], state => return state
  | action :: rest, state =>
    if state.remaining = 0 then return { state with has_more := true }
    else do
      let state ← backfill.applyAction rule action state
      applyActions rule rest state

def applyRules : List AutomationRule → BatchState → MailService BatchState
  | [], state => return state
  | rule :: rest, state =>
    if state.remaining = 0 then return { state with has_more := true }
    else do
      let state ← backfill.applyActions rule rule.actions state
      applyRules rest state

/-- The candidate scan of a batch. -/
def scan : MailService BatchState :=
  backfill.applyRules backfill.eligible { remaining := backfill.batch_size, has_more := false, asked := [], queued := [] }

/-- Apply one bounded batch of the rules to existing local mail: what it queued and whether it may
    have left something. -/
def backfill_automation_rules_batch_with_settings (observation : Observation) : MailService (List Queued × Bool) := do
  if backfill.automation_rules.isEmpty || backfill.batch_size == 0 then return ([], false)
  else
    let state ← backfill.scan
    -- The batch must see its own progress in the projection before the next one asks again.
    flush_and_observe observation
    return (state.queued, state.has_more)

def automation_backfill_fingerprint : Except ServiceError (Option String) :=
  if backfill.eligible.isEmpty then .ok none
  else
    match backfill.to_string backfill.eligible with
    | .ok rule_fingerprint => .ok (some rule_fingerprint)
    | .error error => .error (.Store (.Failure s!"failed to fingerprint automation rules: {error}"))

end Backfill

namespace BackfillService

variable (service : BackfillService) (rule_fingerprint : String) (now : Timestamp)

/-- `INSERT OR IGNORE`: a job that is there stays as it is. -/
def ensure_automation_backfill_job : BackfillService :=
  match service.automation_backfill_job.lookup rule_fingerprint with
  | some _ => service
  | none =>
    { service with
      automation_backfill_job := service.automation_backfill_job.insert rule_fingerprint
        { rule_fingerprint, status := .Pending, attempts := 0, last_error := none, updated_at := now } }

/-- `UPDATE … WHERE rule_fingerprint = ?`. -/
def updateJob (change : AutomationBackfillJob → AutomationBackfillJob) : BackfillService :=
  match service.automation_backfill_job.lookup rule_fingerprint with
  | some job =>
    { service with automation_backfill_job := service.automation_backfill_job.insert rule_fingerprint (change job) }
  | none => service

def complete_automation_backfill_job : BackfillService :=
  service.updateJob rule_fingerprint fun job =>
    { job with status := .Completed, last_error := none, updated_at := now }

def record_automation_backfill_failure (error : String) : BackfillService :=
  service.updateJob rule_fingerprint fun job =>
    { job with status := .Pending, attempts := job.attempts + 1, last_error := some error, updated_at := now }

/-- The job's status, `none` when it is not there. -/
def status : Option AutomationBackfillJobStatus :=
  (service.automation_backfill_job.lookup rule_fingerprint).map AutomationBackfillJob.status

end BackfillService

def notRun : AutomationBackfillBatchOutcome := { ran := false, queued := [], has_more := false }

namespace Backfill

variable (backfill : Backfill)

/-- One batch of a pending job, and the bookkeeping of how it ended. -/
def runJob (observation : Observation) (rule_fingerprint : String) (service : BackfillService) :
    Except ServiceError AutomationBackfillBatchOutcome × BackfillService :=
  match (backfill.backfill_automation_rules_batch_with_settings observation).run service.store with
  | .ok (queued, has_more) store =>
    let service := { service with store := store }
    (.ok { ran := true, queued, has_more },
      if has_more then service else service.complete_automation_backfill_job rule_fingerprint observation.now)
  | .error error store =>
    (.error error,
      { service with store := store }.record_automation_backfill_failure rule_fingerprint observation.now
        (toString error))

/-- Process one durable backfill batch. A completed job suppresses repeated scans for the same rules. -/
def process_automation_backfill_job_batch (observation : Observation) (service : BackfillService) :
    Except ServiceError AutomationBackfillBatchOutcome × BackfillService :=
  if backfill.batch_size = 0 then (.ok notRun, service)
  else if backfill.source ≠ some true then (.ok notRun, service)
  else
    match backfill.automation_backfill_fingerprint with
    | .error error => (.error error, service)
    | .ok none => (.ok notRun, service)
    | .ok (some rule_fingerprint) =>
      let service := service.ensure_automation_backfill_job rule_fingerprint observation.now
      if service.status rule_fingerprint ≠ some .Pending then (.ok notRun, service)
      else backfill.runJob observation rule_fingerprint service

end Backfill

end posthaste.service
