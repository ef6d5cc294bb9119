import Mathlib.Algebra.Group.Nat.Defs
import Mathlib.Data.Prod.Lex
import Posthaste.DomainModel.Commands
import Posthaste.Library.Serde
import Posthaste.Library.Transition

open serde posthaste.model

namespace posthaste.client.event_stream

/-- What the stream reads of a logged event. -/
structure DomainEvent where
  topic : String
  account_id : String
  mailbox_id : Option MailboxId
  message_id : Option MessageId
  payload : Value

structure DomainEventPayload where
  kind : String
  account_id : String
  message_id : Option MessageId
  mailbox_id : Option MailboxId
  payload : Option Value

def event_payload (event : DomainEvent) : DomainEventPayload where
  kind := event.topic
  account_id := event.account_id
  message_id := event.message_id
  mailbox_id := event.mailbox_id
  payload := match event.payload with
    | .null => none
    | payload => some payload

/-- The first message of a stream carries the run id. -/
structure EventMessage where
  generation : Nat
  run_id : Option String
  event : Option DomainEventPayload

/-- The bus of one launch. `sent` is all it fanned out, each event with the
    generation its batch was published at; the ring keeps the last `capacity`. -/
structure EventBus where
  capacity : Nat
  run_id : String
  generation : Nat
  sent : List (DomainEvent × Nat)

namespace EventBus

def new (capacity : Nat) (run_id : String) : EventBus := ⟨capacity, run_id, 0, []⟩

variable (bus : EventBus)

def bump : EventBus := { bus with generation := bus.generation + 1 }

def send (event : DomainEvent × Nat) : EventBus := { bus with sent := bus.sent ++ [event] }

def heartbeat : EventMessage := ⟨bus.generation, none, none⟩

end EventBus

inductive Received where
  | event (event : DomainEvent)
  | lagged

/-- What a receiver at a position gets, and its position after; `none` while
    there is nothing. One that has fallen behind the ring is told so, and goes on
    at the oldest event kept. -/
def EventBus.recv (bus : EventBus) (position : Nat) : Option (Received × Nat) :=
  if position + bus.capacity < bus.sent.length then some (.lagged, bus.sent.length - bus.capacity)
  else (bus.sent[position]?).map fun sent => (.event sent.1, position + 1)

/-- Where `handle_events` stands. -/
inductive Phase where
  | greeting
  | waiting
  | gathering (batch : List DomainEvent)
  | flushing (generation : Nat) (batch : List DomainEvent)

/-- The body of one stream, with its receiver. -/
structure StreamTask where
  phase : Phase
  position : Nat

/-- One step of `handle_events` and the message it yields, if any. `elapsed` is
    whether the sleep of the `select!` it stands at ends first. -/
def StreamTask.poll (bus : EventBus) (task : StreamTask) (elapsed : Bool) :
    Option (StreamTask × Option EventMessage) :=
  match task.phase with
  | .greeting => some ({ task with phase := .waiting }, some ⟨bus.generation, some bus.run_id, none⟩)
  | .waiting =>
    if elapsed then some (task, some bus.heartbeat)
    else (bus.recv task.position).map fun received =>
      match received.1 with
      | .event event => (⟨.gathering [event], received.2⟩, none)
      | .lagged => (⟨.waiting, received.2⟩, some bus.heartbeat)
  | .gathering batch =>
    if elapsed then some ({ task with phase := .flushing bus.generation batch }, none)
    else (bus.recv task.position).map fun received =>
      match received.1 with
      | .event event => (⟨.gathering (batch ++ [event]), received.2⟩, none)
      | .lagged => (⟨.flushing bus.generation batch, received.2⟩, none)
  | .flushing _ [] => some ({ task with phase := .waiting }, none)
  | .flushing generation (event :: batch) =>
    some ({ task with phase := .flushing generation batch }, some ⟨generation, none, some (event_payload event)⟩)

inductive ConnectionStatus where
  | connected
  | reconnecting
  | stale
  deriving DecidableEq

/-- The stream machine. An open source is known by its number. -/
structure EventStream where
  reconnectDelayMs : Nat
  source : Option Nat
  sources : Nat
  reconnectTimer : Option Nat
  consecutiveFailures : Nat
  closed : Bool
  latestGeneration : Nat
  runId : Option String
  status : ConnectionStatus
  generation : Nat

def EventStream.new (reconnectDelayMs : Nat) : EventStream :=
  ⟨reconnectDelayMs, none, 0, none, 0, false, 0, none, .reconnecting, 0⟩

/-- The variables of `useStreamInvalidation`. -/
structure StreamInvalidation where
  timer : Bool
  last : ConnectionStatus

/-- A window: the stream, its bridge to the mirror once it is mounted, how often
    the mirror was invalidated, and what the prompt listeners were called with. -/
structure Client where
  stream : EventStream
  bridge : Option StreamInvalidation
  invalidations : Nat
  prompts : List (DomainEventPayload × Nat)

namespace Client

variable (client : Client)

def invalidateQueries : Client := { client with invalidations := client.invalidations + 1 }

/-- The debounce timer is cleared, or has just fired. -/
def invalidateAll : Client :=
  let client : Client := { client with bridge := client.bridge.map fun bridge => { bridge with timer := false } }
  client.invalidateQueries

/-- The bridge hears of a generation. -/
def onGeneration : Client := { client with bridge := client.bridge.map fun bridge => { bridge with timer := true } }

/-- The bridge hears of a status. -/
def onConnection : Client :=
  match client.bridge with
  | none => client
  | some bridge =>
    let client :=
      if client.stream.status = .connected ∧ bridge.last ≠ .connected then client.invalidateAll else client
    { client with bridge := client.bridge.map fun bridge => { bridge with last := client.stream.status } }

def setStatus (next : ConnectionStatus) : Client :=
  if client.stream.status = next then client
  else { client with stream := { client.stream with status := next } }.onConnection

def connect : Client :=
  if client.stream.source.isSome || client.stream.closed then client
  else { client with
    stream := { client.stream with source := some client.stream.sources, sources := client.stream.sources + 1 } }

def onopen : Client :=
  { client with stream := { client.stream with consecutiveFailures := 0 } }.setStatus .connected

def onerror (es : Nat) : Client :=
  if client.stream.source ≠ some es then client
  else
    let failures := client.stream.consecutiveFailures + 1
    let client := { client with stream := { client.stream with source := none, consecutiveFailures := failures } }
    let client := client.setStatus (if 2 ≤ failures then .stale else .reconnecting)
    let delay := client.stream.reconnectDelayMs * min (2 ^ (failures - 1)) 16
    { client with stream := { client.stream with reconnectTimer := some delay } }

/-- The timer of `onerror` fires. -/
def onReconnectTimer : Client :=
  { client with stream := { client.stream with reconnectTimer := none } }.connect

def close : Client :=
  { client with stream := { client.stream with closed := true, reconnectTimer := none, source := none } }

def dispatchGeneration (generation : Nat) : Client :=
  { client with stream := { client.stream with generation } }.onGeneration

def observeStreamGeneration (generation : Nat) (runId : Option String) : Client :=
  let rotated := runId.isSome && client.stream.runId.isSome && decide (runId ≠ client.stream.runId)
  let client :=
    if runId.isSome then { client with stream := { client.stream with runId } } else client
  if rotated then
    { client with stream := { client.stream with latestGeneration := generation } }.dispatchGeneration generation
  else if client.stream.latestGeneration < generation then
    { client with stream := { client.stream with latestGeneration := generation } }.dispatchGeneration generation
  else client

def dispatchDomainEvent (payload : DomainEventPayload) (generation : Nat) : Client :=
  { client with prompts := client.prompts ++ [(payload, generation)] }

def handleMessage (msg : EventMessage) : Client :=
  let client := client.observeStreamGeneration msg.generation msg.run_id
  match msg.event with
  | some event => client.dispatchDomainEvent event msg.generation
  | none => client

def observeGeneration (generation : Nat) : Client :=
  if client.stream.latestGeneration < generation then
    { client with stream := { client.stream with latestGeneration := generation } }
  else client

/-- The reply to a command comes in. No other task runs before the mirror is
    invalidated. -/
def runCommand (accepted : Nat) : Client := (client.observeGeneration accepted).invalidateQueries

/-- The mirror is mounted and subscribes. -/
def mount : Client := { client with bridge := some ⟨false, client.stream.status⟩ }

end Client

/-- A source the backend serves: the task while its launch lives, what is on the
    wire, what the client heard on it, and how much was sent when it subscribed. -/
structure Connection where
  source : Nat
  launch : Nat
  task : Option StreamTask
  opened : Bool
  channel : List EventMessage
  heard : List EventMessage
  subscribed : Nat

/-- The backend in its present launch and one window. `publishers` have yet to
    send their events, `replies` are on their way, each with the launch that gave
    it. For the record: how far the backend was when the mirror was last
    invalidated, and which launch minted the newest generation the stream holds. -/
structure System where
  launch : Nat
  bus : EventBus
  publishers : List (List (DomainEvent × Nat))
  replies : List (Nat × Nat)
  connection : Option Connection
  window : Client
  invalidated : Nat ×ₗ Nat
  minted : Option Nat

inductive Action where
  | publish (events : List DomainEvent)
  | bump
  | send (publisher : Nat)
  | restart
  | command (generation : Nat)
  | reply (reply : Nat)
  | accept
  | poll (elapsed : Bool)
  | opened
  | deliver
  | fail
  | reconnect
  | debounce
  | mount
  | close

namespace System

variable (run_id : Nat → String) (system : System)

/-- How far the backend is. -/
def position : Nat ×ₗ Nat := toLex (system.launch, system.bus.generation)

/-- The client goes on; an invalidation is dated. -/
def goOn (client : Client) : System :=
  { system with
    window := client
    invalidated :=
      if client.invalidations = system.window.invalidations then system.invalidated else system.position }

/-- Whether the stream takes over the generation of a message. -/
def takes (stream : EventStream) (msg : EventMessage) : Bool :=
  (msg.run_id.isSome && stream.runId.isSome && decide (msg.run_id ≠ stream.runId)) ||
    decide (stream.latestGeneration < msg.generation)

def step : Action → Option System
  | .publish events =>
    if events.isEmpty then some system
    else some { system with
      bus := system.bus.bump
      publishers := system.publishers ++ [events.map (·, system.bus.bump.generation)] }
  | .bump => some { system with bus := system.bus.bump }
  | .send publisher =>
    match system.publishers[publisher]? with
    | some (event :: events) =>
      some { system with bus := system.bus.send event, publishers := system.publishers.set publisher events }
    | _ => none
  | .restart => some { system with
      launch := system.launch + 1
      bus := .new system.bus.capacity (run_id (system.launch + 1))
      publishers := []
      connection := system.connection.map fun connection => { connection with task := none } }
  -- an outcome kept for its command id may be old
  | .command generation =>
    if generation ≤ system.bus.generation then
      some { system with replies := system.replies ++ [(system.launch, generation)] }
    else none
  | .reply reply =>
    system.replies[reply]?.map fun accepted =>
      { system.goOn (system.window.runCommand accepted.2) with
        replies := system.replies.eraseIdx reply
        minted := if system.window.stream.latestGeneration < accepted.2 then some accepted.1 else system.minted }
  | .accept =>
    match system.window.stream.source, system.connection with
    | some source, none => some { system with
        connection := some ⟨source, system.launch, some ⟨.greeting, system.bus.sent.length⟩, false, [], [],
          system.bus.sent.length⟩ }
    | _, _ => none
  | .poll elapsed => do
    let connection ← system.connection
    let task ← connection.task
    let polled ← task.poll system.bus elapsed
    some { system with connection := some { connection with
      task := some polled.1
      channel := connection.channel ++ polled.2.toList } }
  | .opened => do
    let connection ← system.connection
    if connection.opened then none
    else some { system.goOn system.window.onopen with connection := some { connection with opened := true } }
  | .deliver => do
    let connection ← system.connection
    match connection.opened, connection.channel with
    | true, msg :: channel =>
      some { system.goOn (system.window.handleMessage msg) with
        connection := some { connection with channel, heard := connection.heard ++ [msg] }
        minted := if takes system.window.stream msg then some connection.launch else system.minted }
    | _, _ => none
  -- refused, broken off or dead: what is on the wire is lost
  | .fail =>
    system.window.stream.source.map fun source =>
      { system.goOn (system.window.onerror source) with connection := none }
  | .reconnect =>
    if system.window.stream.reconnectTimer.isSome then some (system.goOn system.window.onReconnectTimer) else none
  | .debounce =>
    match system.window.bridge with
    | some ⟨true, _⟩ => some (system.goOn system.window.invalidateAll)
    | _ => none
  -- a new mirror holds nothing
  | .mount =>
    match system.window.bridge with
    | none => some { system.goOn system.window.mount with invalidated := system.position }
    | some _ => none
  | .close => some { system.goOn system.window.close with connection := none }

end System

/-- A window is opened at a backend as it may be. -/
def Opens (capacity : Nat) (run_id : Nat → String) (system : System) : Prop :=
  system.bus.capacity = capacity ∧ system.bus.run_id = run_id system.launch ∧
    (∀ event ∈ system.bus.sent, event.2 ≤ system.bus.generation) ∧
    (∀ publisher ∈ system.publishers, ∀ event ∈ publisher, event.2 ≤ system.bus.generation) ∧
    system.replies = [] ∧ system.connection = none ∧ system.invalidated = system.position ∧ system.minted = none ∧
    ∃ delay, system.window = Client.connect ⟨.new delay, none, 0, []⟩

abbrev live (capacity : Nat) (run_id : Nat → String) : TransitionSystem System Action :=
  .ofFunction (Opens capacity run_id) (System.step run_id)

section Window

variable {client : Client} {generation : Nat} {run_id : Option String} {msg : EventMessage}

/-- What the bridge does with a status is beside the stream and the prompts. -/
theorem onConnection_stream : client.onConnection.stream = client.stream := by
  unfold Client.onConnection
  cases client.bridge with
  | none => rfl
  | some bridge =>
    simp only
    split_ifs <;> rfl

theorem onConnection_prompts : client.onConnection.prompts = client.prompts := by
  unfold Client.onConnection
  cases client.bridge with
  | none => rfl
  | some bridge =>
    simp only
    split_ifs <;> rfl

/-- A bridge that knows the status it is told of invalidates nothing; one that hears
    of a connection invalidates everything. -/
theorem onConnection_cases (client : Client) :
    (client.onConnection.bridge = none ∧ client.bridge = none) ∨
      ∃ bridge, client.bridge = some bridge ∧
        ((client.stream.status = .connected ∧ bridge.last ≠ .connected ∧
            client.onConnection.bridge = some ⟨false, client.stream.status⟩ ∧
            client.onConnection.invalidations = client.invalidations + 1) ∨
          (¬(client.stream.status = .connected ∧ bridge.last ≠ .connected) ∧
            client.onConnection.bridge = some ⟨bridge.timer, client.stream.status⟩ ∧
            client.onConnection.invalidations = client.invalidations)) := by
  unfold Client.onConnection
  cases hbridge : client.bridge with
  | none => exact .inl ⟨hbridge, rfl⟩
  | some bridge =>
    refine .inr ⟨bridge, rfl, ?_⟩
    simp only
    split_ifs with hconnected
    · refine .inl ⟨hconnected.1, hconnected.2, ?_, rfl⟩
      show Option.map _ (Option.map _ client.bridge) = _
      rw [hbridge]
      rfl
    · refine .inr ⟨hconnected, ?_, rfl⟩
      show Option.map _ client.bridge = _
      rw [hbridge]
      rfl

theorem setStatus_stream (next : ConnectionStatus) :
    (client.setStatus next).stream = { client.stream with status := next } := by
  unfold Client.setStatus
  split_ifs with hsame
  · rw [← hsame]
  · exact onConnection_stream

theorem setStatus_prompts (next : ConnectionStatus) : (client.setStatus next).prompts = client.prompts := by
  unfold Client.setStatus
  split_ifs
  · rfl
  · exact onConnection_prompts

/-- The prompt a message carries. -/
def EventMessage.prompt (msg : EventMessage) : List (DomainEventPayload × Nat) :=
  (msg.event.map (·, msg.generation)).toList

theorem observeStreamGeneration_eq :
    client.observeStreamGeneration msg.generation msg.run_id =
      if System.takes client.stream msg then
        Client.dispatchGeneration { client with stream := { client.stream with
          runId := msg.run_id.or client.stream.runId, latestGeneration := msg.generation } } msg.generation
      else { client with stream := { client.stream with runId := msg.run_id.or client.stream.runId } } := by
  unfold Client.observeStreamGeneration System.takes
  cases msg.run_id with
  | none =>
    simp only [Option.isSome_none, Bool.false_and, Bool.false_eq_true, if_false, Bool.false_or, decide_eq_true_eq,
      Option.none_or]
  | some run_id =>
    simp only [Option.isSome_some, Bool.true_and, if_true, Option.some_or]
    by_cases hrotated : (client.stream.runId.isSome && decide (some run_id ≠ client.stream.runId)) = true
    · rw [if_pos hrotated, hrotated, Bool.true_or, if_pos rfl]
    · rw [if_neg hrotated, Bool.not_eq_true _ |>.mp hrotated, Bool.false_or]
      simp only [decide_eq_true_eq]

theorem handleMessage_taken (htakes : System.takes client.stream msg = true) :
    client.handleMessage msg =
      { stream := { client.stream with
          runId := msg.run_id.or client.stream.runId
          latestGeneration := msg.generation
          generation := msg.generation }
        bridge := client.bridge.map fun bridge => { bridge with timer := true }
        invalidations := client.invalidations
        prompts := client.prompts ++ msg.prompt } := by
  unfold Client.handleMessage EventMessage.prompt
  rw [observeStreamGeneration_eq, if_pos htakes]
  cases msg.event with
  | none => simp [Client.dispatchGeneration, Client.onGeneration]
  | some event => rfl

theorem handleMessage_known (htakes : ¬System.takes client.stream msg = true) :
    client.handleMessage msg =
      { client with
        stream := { client.stream with runId := msg.run_id.or client.stream.runId }
        prompts := client.prompts ++ msg.prompt } := by
  unfold Client.handleMessage EventMessage.prompt
  rw [observeStreamGeneration_eq, if_neg htakes]
  cases msg.event with
  | none => simp
  | some event => rfl

end Window

section Moves

variable (run_id : Nat → String) (system : System)

/-- What a step can do. -/
inductive Moves : Action → System → Prop where
  | idle : Moves (.publish []) system
  | publish {events : List DomainEvent} : Moves (.publish events) { system with
      bus := system.bus.bump
      publishers := system.publishers ++ [events.map (·, system.bus.generation + 1)] }
  | bump : Moves .bump { system with bus := system.bus.bump }
  | send {publisher : Nat} {event : DomainEvent × Nat} {events : List (DomainEvent × Nat)}
      (hpublisher : system.publishers[publisher]? = some (event :: events)) : Moves (.send publisher) { system with
        bus := system.bus.send event
        publishers := system.publishers.set publisher events }
  | restart : Moves .restart { system with
      launch := system.launch + 1
      bus := .new system.bus.capacity (run_id (system.launch + 1))
      publishers := []
      connection := system.connection.map fun connection => { connection with task := none } }
  | command {generation : Nat} (hpast : generation ≤ system.bus.generation) : Moves (.command generation) { system with
      replies := system.replies ++ [(system.launch, generation)] }
  | reply {reply : Nat} {accepted : Nat × Nat} (hreply : system.replies[reply]? = some accepted) :
      Moves (.reply reply) { system.goOn (system.window.runCommand accepted.2) with
        replies := system.replies.eraseIdx reply
        minted := if system.window.stream.latestGeneration < accepted.2 then some accepted.1 else system.minted }
  | accept {source : Nat} (hsource : system.window.stream.source = some source) (hnone : system.connection = none) :
      Moves .accept { system with connection := some ⟨source, system.launch,
        some ⟨.greeting, system.bus.sent.length⟩, false, [], [], system.bus.sent.length⟩ }
  | poll {connection : Connection} {task after : StreamTask} {yielded : Option EventMessage} {elapsed : Bool}
      (hconnection : system.connection = some connection) (htask : connection.task = some task)
      (hpoll : task.poll system.bus elapsed = some (after, yielded)) : Moves (.poll elapsed) { system with
        connection := some { connection with
          task := some after
          channel := connection.channel ++ yielded.toList } }
  | opened {connection : Connection} (hconnection : system.connection = some connection)
      (hopened : connection.opened = false) :
      Moves .opened { system.goOn system.window.onopen with connection := some { connection with opened := true } }
  | deliver {connection : Connection} {msg : EventMessage} {channel : List EventMessage}
      (hconnection : system.connection = some connection) (hopened : connection.opened = true)
      (hchannel : connection.channel = msg :: channel) :
      Moves .deliver { system.goOn (system.window.handleMessage msg) with
        connection := some { connection with channel, heard := connection.heard ++ [msg] }
        minted := if System.takes system.window.stream msg then some connection.launch else system.minted }
  | fail {source : Nat} (hsource : system.window.stream.source = some source) :
      Moves .fail { system.goOn (system.window.onerror source) with connection := none }
  | reconnect (htimer : system.window.stream.reconnectTimer.isSome) :
      Moves .reconnect (system.goOn system.window.onReconnectTimer)
  | debounce {last : ConnectionStatus} (hbridge : system.window.bridge = some ⟨true, last⟩) :
      Moves .debounce (system.goOn system.window.invalidateAll)
  | mount (hbridge : system.window.bridge = none) :
      Moves .mount { system.goOn system.window.mount with invalidated := system.position }
  | close : Moves .close { system.goOn system.window.close with connection := none }

variable {run_id system} {after : System} {action : Action}

theorem moves_of_step (hstep : system.step run_id action = some after) : Moves run_id system action after := by
  cases action with
  | publish events =>
    cases events with
    | nil =>
      cases hstep
      exact .idle
    | cons event events =>
      cases hstep
      exact .publish
  | bump =>
    cases hstep
    exact .bump
  | send publisher =>
    simp only [System.step] at hstep
    split at hstep
    · cases hstep
      exact .send ‹_›
    · cases hstep
  | restart =>
    cases hstep
    exact .restart
  | command generation =>
    simp only [System.step] at hstep
    split_ifs at hstep with hpast
    cases hstep
    exact .command hpast
  | reply reply =>
    obtain ⟨accepted, hreply, rfl⟩ := Option.map_eq_some_iff.mp hstep
    exact .reply hreply
  | accept =>
    simp only [System.step] at hstep
    split at hstep
    · cases hstep
      exact .accept ‹_› ‹_›
    · cases hstep
  | poll elapsed =>
    obtain ⟨connection, hconnection, hstep⟩ := Option.bind_eq_some_iff.mp hstep
    obtain ⟨task, htask, hstep⟩ := Option.bind_eq_some_iff.mp hstep
    obtain ⟨polled, hpoll, hstep⟩ := Option.bind_eq_some_iff.mp hstep
    cases hstep
    exact .poll hconnection htask hpoll
  | opened =>
    obtain ⟨connection, hconnection, hstep⟩ := Option.bind_eq_some_iff.mp hstep
    split_ifs at hstep with hopened
    cases hstep
    exact .opened hconnection (Bool.not_eq_true _ |>.mp hopened)
  | deliver =>
    obtain ⟨connection, hconnection, hstep⟩ := Option.bind_eq_some_iff.mp hstep
    split at hstep
    · cases hstep
      exact .deliver hconnection ‹_› ‹_›
    · cases hstep
  | fail =>
    obtain ⟨source, hsource, rfl⟩ := Option.map_eq_some_iff.mp hstep
    exact .fail hsource
  | reconnect =>
    simp only [System.step] at hstep
    split_ifs at hstep with htimer
    cases hstep
    exact .reconnect htimer
  | debounce =>
    simp only [System.step] at hstep
    split at hstep
    · cases hstep
      exact .debounce ‹_›
    · cases hstep
  | mount =>
    simp only [System.step] at hstep
    split at hstep
    · cases hstep
      exact .mount ‹_›
    · cases hstep
  | close =>
    cases hstep
    exact .close

end Moves

section Polls

variable (bus : EventBus)

/-- What one step of `handle_events` can do. -/
inductive Polls : StreamTask → StreamTask → Option EventMessage → Prop where
  | greet {position : Nat} :
      Polls ⟨.greeting, position⟩ ⟨.waiting, position⟩ (some ⟨bus.generation, some bus.run_id, none⟩)
  | beat {position : Nat} : Polls ⟨.waiting, position⟩ ⟨.waiting, position⟩ (some bus.heartbeat)
  | first {position : Nat} {sent : DomainEvent × Nat} (hkept : bus.sent.length ≤ position + bus.capacity)
      (hsent : bus.sent[position]? = some sent) :
      Polls ⟨.waiting, position⟩ ⟨.gathering [sent.1], position + 1⟩ none
  | lag {position : Nat} (hlag : position + bus.capacity < bus.sent.length) :
      Polls ⟨.waiting, position⟩ ⟨.waiting, bus.sent.length - bus.capacity⟩ (some bus.heartbeat)
  | more {position : Nat} {batch : List DomainEvent} {sent : DomainEvent × Nat}
      (hkept : bus.sent.length ≤ position + bus.capacity) (hsent : bus.sent[position]? = some sent) :
      Polls ⟨.gathering batch, position⟩ ⟨.gathering (batch ++ [sent.1]), position + 1⟩ none
  | gathered {position : Nat} {batch : List DomainEvent} :
      Polls ⟨.gathering batch, position⟩ ⟨.flushing bus.generation batch, position⟩ none
  | cut {position : Nat} {batch : List DomainEvent} (hlag : position + bus.capacity < bus.sent.length) :
      Polls ⟨.gathering batch, position⟩ ⟨.flushing bus.generation batch, bus.sent.length - bus.capacity⟩ none
  | flushed {position generation : Nat} : Polls ⟨.flushing generation [], position⟩ ⟨.waiting, position⟩ none
  | flush {position generation : Nat} {event : DomainEvent} {batch : List DomainEvent} :
      Polls ⟨.flushing generation (event :: batch), position⟩ ⟨.flushing generation batch, position⟩
        (some ⟨generation, none, some (event_payload event)⟩)

variable {bus} {position after : Nat} {received : Received}

theorem recv_cases (hrecv : bus.recv position = some (received, after)) :
    (position + bus.capacity < bus.sent.length ∧ received = .lagged ∧ after = bus.sent.length - bus.capacity) ∨
      (bus.sent.length ≤ position + bus.capacity ∧
        ∃ sent, bus.sent[position]? = some sent ∧ received = .event sent.1 ∧ after = position + 1) := by
  unfold EventBus.recv at hrecv
  split_ifs at hrecv with hlag
  · cases hrecv
    exact .inl ⟨hlag, rfl, rfl⟩
  · obtain ⟨sent, hsent, heq⟩ := Option.map_eq_some_iff.mp hrecv
    cases heq
    exact .inr ⟨by omega, sent, hsent, rfl, rfl⟩

theorem polls_of_poll {task next : StreamTask} {elapsed : Bool} {yielded : Option EventMessage}
    (hpoll : task.poll bus elapsed = some (next, yielded)) : Polls bus task next yielded := by
  obtain ⟨phase, position⟩ := task
  cases phase with
  | greeting =>
    cases hpoll
    exact .greet
  | waiting =>
    simp only [StreamTask.poll] at hpoll
    split_ifs at hpoll
    · cases hpoll
      exact .beat
    · obtain ⟨⟨received, after⟩, hrecv, heq⟩ := Option.map_eq_some_iff.mp hpoll
      obtain ⟨hlag, rfl, rfl⟩ | ⟨hkept, sent, hsent, rfl, rfl⟩ := recv_cases hrecv
      · cases heq
        exact .lag hlag
      · cases heq
        exact .first hkept hsent
  | gathering batch =>
    simp only [StreamTask.poll] at hpoll
    split_ifs at hpoll
    · cases hpoll
      exact .gathered
    · obtain ⟨⟨received, after⟩, hrecv, heq⟩ := Option.map_eq_some_iff.mp hpoll
      obtain ⟨hlag, rfl, rfl⟩ | ⟨hkept, sent, hsent, rfl, rfl⟩ := recv_cases hrecv
      · cases heq
        exact .cut hlag
      · cases heq
        exact .more hkept hsent
  | flushing generation batch =>
    cases batch with
    | nil =>
      cases hpoll
      exact .flushed
    | cons event batch =>
      cases hpoll
      exact .flush

/-- Only the first step of a stream names the launch. -/
theorem Polls.names {task next : StreamTask} {msg : EventMessage} (hpolls : Polls bus task next (some msg)) :
    (task.phase = .greeting ∧ msg.run_id = some bus.run_id) ∨ (task.phase ≠ .greeting ∧ msg.run_id = none) := by
  cases hpolls with
  | greet => exact .inl ⟨rfl, rfl⟩
  | beat => exact .inr ⟨Phase.noConfusion, rfl⟩
  | lag hlag => exact .inr ⟨Phase.noConfusion, rfl⟩
  | flush => exact .inr ⟨Phase.noConfusion, rfl⟩

/-- The generation a batch is stamped with. -/
def StreamTask.Stamped (bound : Nat) (task : StreamTask) : Prop :=
  ∀ generation batch, task.phase = .flushing generation batch → generation ≤ bound

theorem Polls.stamped {task next : StreamTask} {yielded : Option EventMessage} (hpolls : Polls bus task next yielded)
    (hstamped : task.Stamped bus.generation) :
    next.Stamped bus.generation ∧ ∀ msg, yielded = some msg → msg.generation ≤ bus.generation := by
  unfold StreamTask.Stamped at hstamped ⊢
  cases hpolls with
  | greet => simp
  | beat => simp [EventBus.heartbeat]
  | first hkept hsent => simp
  | lag hlag => simp [EventBus.heartbeat]
  | more hkept hsent => simp
  | gathered => simp
  | cut hlag => simp
  | flushed => simp
  | flush =>
    have hbound := hstamped _ _ rfl
    simpa using hbound

end Polls

end posthaste.client.event_stream
