import Mathlib.Algebra.Group.Nat.Defs
import Posthaste.DomainModel.Records
import Posthaste.Library.Transition

open posthaste.model

namespace posthaste.imap

inductive ImapAdapterError where
  | MissingTransport
  | MissingSmtpTransport
  | MissingUsername
  | MissingSmtpSenderEmail
  | MissingSecret
  | Auth (message : String)
  | Client (message : String)
  | InvalidMailboxName (name : String)
  | MissingSelectData (what : String)
  | UidValidityMismatch (mailbox_name : String) (expected actual : Nat)
  | MissingFetchData (what : String)
  | InvalidUidSequence (sequence : String)
  | InvalidModSeq (modseq : Nat)
  | InvalidKeywordFlag (keyword reason : String)
  | MissingMessageLocation (mailbox : String)
  | InvalidBlobId (blob_id : String)
  | ParseMessageHeaders
  | ParseMessageBody
  | MissingAttachment (message_id : String) (attachment_index : Nat)
  | InvalidSmtpAddress (address reason : String)
  | BuildSmtpMessage (message : String)
  | Smtp (message : String)
  | SmtpDispatchUncertain (message : String)
  | Timeout (operation : String)
  deriving DecidableEq

instance : ToString ImapAdapterError where
  toString
    | .MissingTransport => "missing IMAP transport settings"
    | .MissingSmtpTransport => "missing SMTP transport settings"
    | .MissingUsername => "missing IMAP username"
    | .MissingSmtpSenderEmail =>
      "missing concrete SMTP sender email; configure email_patterns with an address"
    | .MissingSecret => "missing IMAP secret"
    | .Auth message => s!"IMAP authentication error: {message}"
    | .Client message => s!"IMAP client error: {message}"
    | .InvalidMailboxName name => s!"invalid IMAP mailbox name: {name}"
    | .MissingSelectData what => s!"IMAP SELECT/EXAMINE response missing {what}"
    | .UidValidityMismatch mailbox_name expected actual =>
      s!"IMAP UIDVALIDITY changed for {mailbox_name}: expected {expected}, got {actual}"
    | .MissingFetchData what => s!"IMAP FETCH response missing {what}"
    | .InvalidUidSequence sequence => s!"invalid IMAP UID sequence set: {sequence}"
    | .InvalidModSeq modseq => s!"invalid IMAP MODSEQ: {modseq}"
    | .InvalidKeywordFlag keyword reason => s!"invalid IMAP keyword flag {keyword}: {reason}"
    | .MissingMessageLocation mailbox => s!"missing IMAP message location for mailbox {mailbox}"
    | .InvalidBlobId blob_id => s!"invalid IMAP blob id: {blob_id}"
    | .ParseMessageHeaders => "could not parse RFC 5322 message headers"
    | .ParseMessageBody => "could not parse RFC 5322 message body"
    | .MissingAttachment message_id attachment_index =>
      s!"IMAP attachment {attachment_index} is missing from message {message_id}"
    | .InvalidSmtpAddress address reason => s!"invalid SMTP email address {address}: {reason}"
    | .BuildSmtpMessage message => s!"could not build SMTP message: {message}"
    | .Smtp message => s!"SMTP transport error: {message}"
    | .SmtpDispatchUncertain message => s!"SMTP send dispatch uncertain: {message}"
    | .Timeout operation => s!"IMAP {operation} did not complete within the deadline"

def imap_error_to_gateway : ImapAdapterError → GatewayError
  | .UidValidityMismatch .. => .StateMismatch
  | .Auth _ => .Auth
  | .Timeout operation => .Network s!"{operation} timed out"
  | .Client message => .Network message
  | .Smtp message => .Network message
  | .SmtpDispatchUncertain message => .DispatchUncertain message
  | error => .Rejected (toString error)

def imap_error_is_connection_fatal : ImapAdapterError → Bool
  | .Timeout _ => true
  | .Client _ => true
  | .Auth _ => true
  | _ => false

def gateway_error_is_connection_fatal : GatewayError → Bool
  | .Network _ => true
  | .Auth => true
  | _ => false

/-- A protocol command, as far as it moves the selected mailbox. -/
inductive SessionCommand where
  | select (mailbox_name : String)
  | examine (mailbox_name : String)
  | idle
  | other (line : String)
  deriving DecidableEq

def SessionCommand.selects : SessionCommand → Option String
  | .select mailbox_name => some mailbox_name
  | .examine mailbox_name => some mailbox_name
  | _ => none

/-- The protocol state of a connection: the commands whose tagged reply has not
    been read, and the mailbox the server has selected. -/
structure ImapClient where
  outstanding : List SessionCommand
  selected : Option String

/-- A connection that has just authenticated. -/
def ImapClient.connected : ImapClient := ⟨[], none⟩

def ImapClient.send (client : ImapClient) (command : SessionCommand) : ImapClient :=
  { client with outstanding := client.outstanding ++ [command] }

def ImapClient.receive (client : ImapClient) (command : SessionCommand) (accepted : Bool) : ImapClient where
  outstanding := client.outstanding.erase command
  selected :=
    match command.selects with
    | none => client.selected
    | some mailbox_name => if accepted then some mailbox_name else none

/-- What awaiting a command comes to: a tagged reply, a broken stream, or the deadline. -/
inductive Outcome (ρ : Type) where
  | replied (reply : ρ)
  | refused (error : String)
  | broken (error : String)
  | elapsed

variable {ρ ε : Type}

/-- The connection after the wait: only a tagged reply takes the command off it. -/
def Outcome.settle (client : ImapClient) (command : SessionCommand) : Outcome ρ → ImapClient
  | .replied _ => client.receive command true
  | .refused _ => client.receive command false
  | .broken _ => client
  | .elapsed => client

def with_deadline (operation : String) : Outcome ρ → Except ImapAdapterError ρ
  | .replied reply => .ok reply
  | .refused error => .error (.Client error)
  | .broken error => .error (.Client error)
  | .elapsed => .error (.Timeout operation)

/-- What an operation does with its lease: each command is awaited under the
    deadline and a failed one is returned at once. -/
inductive Operation (ρ ε : Type) where
  | done (result : Except ε Unit)
  | command (operation : String) (issued : SessionCommand) (next : ρ → Operation ρ ε)

def Operation.pending : Operation ρ ε → Option SessionCommand
  | .done _ => none
  | .command _ issued _ => some issued

def Operation.resume (map_err : ImapAdapterError → ε) (outcome : Outcome ρ) : Operation ρ ε → Operation ρ ε
  | .done result => .done result
  | .command operation _ next =>
    match with_deadline operation outcome with
    | .ok reply => next reply
    | .error error => .done (.error (map_err error))

def Operation.failsWith (fatal : ε → Bool) : Operation ρ ε → Bool
  | .done (.error error) => fatal error
  | _ => false

/-- A lease with the rest of its operation, by the way it is finished. -/
inductive SessionLease (ρ : Type) where
  | finish (operation : Operation ρ ImapAdapterError)
  | finish_gateway (operation : Operation ρ GatewayError)

namespace SessionLease

def pending : SessionLease ρ → Option SessionCommand
  | .finish operation => operation.pending
  | .finish_gateway operation => operation.pending

def resume (outcome : Outcome ρ) : SessionLease ρ → SessionLease ρ
  | .finish operation => .finish (operation.resume id outcome)
  | .finish_gateway operation => .finish_gateway (operation.resume imap_error_to_gateway outcome)

/-- The result the lease is finished with is fatal to the connection. -/
def fatal : SessionLease ρ → Bool
  | .finish operation => operation.failsWith imap_error_is_connection_fatal
  | .finish_gateway operation => operation.failsWith gateway_error_is_connection_fatal

end SessionLease

structure SessionSlot where
  client : Option ImapClient
  dirty : Bool
  epoch : BitVec 64
  idle_examined_at_epoch : Option (BitVec 64)
  consecutive_connect_failures : Nat
  next_connect_at : Option Nat

namespace SessionSlot

def empty : SessionSlot := ⟨none, false, 0, none, 0, none⟩

def drop_session (slot : SessionSlot) : SessionSlot :=
  { slot with client := none, idle_examined_at_epoch := none }

def sweep_dirty (slot : SessionSlot) : SessionSlot :=
  if slot.dirty then { slot.drop_session with dirty := false } else slot

/-- The reconnect backoff has not run out. -/
def backingOff (slot : SessionSlot) (now : Nat) : Bool := slot.next_connect_at.any fun at_ => now < at_

def connect_into_ok (slot : SessionSlot) : SessionSlot where
  client := some .connected
  dirty := false
  epoch := slot.epoch + 1
  idle_examined_at_epoch := none
  consecutive_connect_failures := 0
  next_connect_at := none

/-- The delay is drawn from the jittered schedule. -/
def connect_into_err (slot : SessionSlot) (now delay : Nat) : SessionSlot :=
  { slot with
    consecutive_connect_failures := min (slot.consecutive_connect_failures + 1) (2 ^ 32 - 1)
    next_connect_at := some (now + delay) }

/-- The end of `acquire`: the slot is marked for as long as the lease lives. -/
def checkOut (slot : SessionSlot) : SessionSlot := { slot with dirty := true, epoch := slot.epoch + 1 }

def send (slot : SessionSlot) (command : SessionCommand) : SessionSlot :=
  { slot with client := slot.client.map (·.send command) }

def settle (slot : SessionSlot) (command : SessionCommand) (outcome : Outcome ρ) : SessionSlot :=
  { slot with client := slot.client.map fun client => outcome.settle client command }

/-- `finish` and `finish_gateway` -/
def finish (slot : SessionSlot) (lease : SessionLease ρ) : SessionSlot :=
  let finished := { slot with dirty := false }
  if lease.fatal then finished.drop_session else finished

end SessionSlot

/-- Who holds the mutex, and where that future stands. -/
inductive Holder (ρ : Type) where
  | free
  /-- In `connect_into`, for a lease or else for IDLE. -/
  | connecting (lease : Option (SessionLease ρ))
  /-- `acquire` has returned the lease. -/
  | granted (lease : SessionLease ρ)
  /-- The operation runs, between commands or awaiting its next. -/
  | running (lease : SessionLease ρ) (awaiting : Bool)
  /-- `idle_wait` has a connection to hold. -/
  | held
  | examining
  | idling

/-- The slot behind its mutex. The permit of `recall` is left out: a recall
    drives the same IDLE to its tagged reply. -/
structure ImapSessionManager (ρ : Type) where
  slot : SessionSlot
  holder : Holder ρ
  /-- Times the epoch moved since IDLE last examined its mailbox, which the code does not count. -/
  moved : Nat

inductive SessionStep (ρ : Type) where
  /-- An `acquire` of some task is given the mutex. -/
  | acquire (lease : SessionLease ρ) (now : Nat)
  /-- The IDLE task is given the mutex, `slept` once it has slept out a backoff. -/
  | idle_wait (now : Nat) (slept : Bool)
  | connect_ok
  | connect_err (now delay : Nat)
  | run
  | settle (outcome : Outcome ρ)
  | finish
  | idle_hold
  /-- `idle` returns: a refused IDLE cannot be told from activity. -/
  | idle_end (outcome : Outcome Unit)
  /-- The holder's future is dropped at the await it stands at. -/
  | dropped

namespace ImapSessionManager

def new : ImapSessionManager ρ := ⟨.empty, .free, 0⟩

/-- Over a connection, `acquire` returns the lease. -/
def grant (manager : ImapSessionManager ρ) (lease : SessionLease ρ) : ImapSessionManager ρ :=
  ⟨manager.slot.checkOut, .granted lease, manager.moved + 1⟩

/-- Over a connection, `idle_wait` begins its hold. -/
def hold (manager : ImapSessionManager ρ) : ImapSessionManager ρ :=
  ⟨{ manager.slot with dirty := true }, .held, manager.moved⟩

def acquire (manager : ImapSessionManager ρ) (lease : SessionLease ρ) (now : Nat) : ImapSessionManager ρ :=
  let swept := { manager with slot := manager.slot.sweep_dirty }
  if swept.slot.client.isNone then
    if swept.slot.backingOff now then swept else { swept with holder := .connecting (some lease) }
  else swept.grant lease

def idle_wait (manager : ImapSessionManager ρ) (now : Nat) (slept : Bool) : ImapSessionManager ρ :=
  let swept := { manager with slot := manager.slot.sweep_dirty }
  if swept.slot.client.isNone then
    if !slept && swept.slot.backingOff now then swept else { swept with holder := .connecting none }
  else swept.hold

def connect_ok (manager : ImapSessionManager ρ) : Option (SessionLease ρ) → ImapSessionManager ρ
  | some lease => grant ⟨manager.slot.connect_into_ok, manager.holder, manager.moved + 1⟩ lease
  | none => hold ⟨manager.slot.connect_into_ok, manager.holder, manager.moved + 1⟩

/-- Send the next command of the lease's operation. -/
def run (manager : ImapSessionManager ρ) (lease : SessionLease ρ) : Option (ImapSessionManager ρ) :=
  lease.pending.map fun command => { manager with slot := manager.slot.send command, holder := .running lease true }

def settle (manager : ImapSessionManager ρ) (lease : SessionLease ρ) (outcome : Outcome ρ) :
    Option (ImapSessionManager ρ) :=
  lease.pending.map fun command => { manager with
    slot := manager.slot.settle command outcome
    holder := .running (lease.resume outcome) false }

def finish (manager : ImapSessionManager ρ) (lease : SessionLease ρ) : Option (ImapSessionManager ρ) :=
  if lease.pending.isSome then none else some { manager with slot := manager.slot.finish lease, holder := .free }

def enqueue_idle (manager : ImapSessionManager ρ) : ImapSessionManager ρ :=
  { manager with slot := manager.slot.send .idle, holder := .idling }

/-- EXAMINE first when the epoch says that the selection may have moved. -/
def idle_hold (manager : ImapSessionManager ρ) (mailbox_name : String) : ImapSessionManager ρ :=
  if manager.slot.idle_examined_at_epoch ≠ some manager.slot.epoch then
    { manager with slot := manager.slot.send (.examine mailbox_name), holder := .examining }
  else manager.enqueue_idle

/-- A failed hold gives up the connection. -/
def holdFailed (manager : ImapSessionManager ρ) : ImapSessionManager ρ :=
  { manager with slot := { manager.slot.drop_session with dirty := false }, holder := .free }

def examined (manager : ImapSessionManager ρ) (mailbox_name : String) (outcome : Outcome ρ) : ImapSessionManager ρ :=
  let settled := { manager with slot := manager.slot.settle (.examine mailbox_name) outcome }
  match with_deadline "examine" outcome with
  | .ok _ =>
    enqueue_idle
      ⟨{ settled.slot with idle_examined_at_epoch := some settled.slot.epoch }, settled.holder, 0⟩
  | .error _ => settled.holdFailed

def idleEnded (manager : ImapSessionManager ρ) (outcome : Outcome Unit) : ImapSessionManager ρ :=
  let settled := { manager with slot := manager.slot.settle .idle outcome }
  match outcome with
  | .replied _ | .refused _ => { settled with slot := { settled.slot with dirty := false }, holder := .free }
  | .broken _ | .elapsed => settled.holdFailed

def step (mailbox_name : String) (manager : ImapSessionManager ρ) (action : SessionStep ρ) :
    Option (ImapSessionManager ρ) :=
  match manager.holder, action with
  | .free, .acquire lease now => some (manager.acquire lease now)
  | .free, .idle_wait now slept => some (manager.idle_wait now slept)
  | .connecting lease, .connect_ok => some (manager.connect_ok lease)
  | .connecting _, .connect_err now delay =>
    some { manager with slot := manager.slot.connect_into_err now delay, holder := .free }
  | .granted lease, .run => manager.run lease
  | .granted lease, .finish => manager.finish lease
  | .running lease false, .run => manager.run lease
  | .running lease false, .finish => manager.finish lease
  | .running lease true, .settle outcome => manager.settle lease outcome
  | .held, .idle_hold => some (manager.idle_hold mailbox_name)
  | .examining, .settle outcome => some (manager.examined mailbox_name outcome)
  | .idling, .idle_end outcome => some (manager.idleEnded outcome)
  | .free, .dropped => none
  | _, .dropped => some { manager with holder := .free }
  | _, _ => none

/-- The runs of a manager whose IDLE task watches the mailbox. -/
def sessions (mailbox_name : String) : TransitionSystem (ImapSessionManager ρ) (SessionStep ρ) :=
  .ofFunction (· = new) (step mailbox_name)

end ImapSessionManager

end posthaste.imap
