import Posthaste.Client.EventStream

open posthaste.model TransitionSystem

namespace posthaste.client.event_stream

section Told

variable {run_id : Nat → String} {system after : System} {action : Action} {before client : Client}

/-- Nothing new for the mirror, or the mirror is invalidated. -/
def Quiet (before client : Client) : Prop :=
  client.stream.latestGeneration = before.stream.latestGeneration ∧
    ∀ bridge, client.bridge = some bridge → bridge.timer = false →
      client.invalidations ≠ before.invalidations ∨ ∃ bridge, before.bridge = some bridge ∧ bridge.timer = false

theorem quiet_setStatus (client : Client) (next : ConnectionStatus) : Quiet client (client.setStatus next) := by
  refine ⟨by rw [setStatus_stream], fun bridge hbridge hidle => ?_⟩
  unfold Client.setStatus at hbridge ⊢
  split_ifs at hbridge ⊢ with hsame
  · exact .inr ⟨bridge, hbridge, hidle⟩
  · obtain ⟨hnone, _⟩ | ⟨known, hknown, ⟨_, _, _, hcount⟩ | ⟨_, hafter, _⟩⟩ :=
      onConnection_cases { client with stream := { client.stream with status := next } }
    · rw [hnone] at hbridge
      cases hbridge
    · refine .inl ?_
      rw [hcount]
      exact Nat.succ_ne_self _
    · rw [hafter] at hbridge
      cases hbridge
      exact .inr ⟨known, hknown, hidle⟩

theorem quiet_onopen : Quiet client client.onopen :=
  quiet_setStatus { client with stream := { client.stream with consecutiveFailures := 0 } } .connected

theorem quiet_onerror (source : Nat) : Quiet client (client.onerror source) := by
  unfold Client.onerror
  split_ifs with hother
  · exact ⟨rfl, fun bridge hbridge hidle => .inr ⟨bridge, hbridge, hidle⟩⟩
  · exact quiet_setStatus { client with stream := { client.stream with
      source := none, consecutiveFailures := client.stream.consecutiveFailures + 1 } } _

theorem quiet_onReconnectTimer : Quiet client client.onReconnectTimer := by
  unfold Client.onReconnectTimer Client.connect
  split_ifs <;> exact ⟨rfl, fun bridge hbridge hidle => .inr ⟨bridge, hbridge, hidle⟩⟩

/-- What the parties hold is not past the backend, and what the stream took over
    has reached the mirror or waits for the timer. -/
structure Told (system : System) : Prop where
  behind : system.invalidated ≤ system.position
  unminted : system.minted = none → system.window.stream.latestGeneration = 0
  minted : ∀ launch, system.minted = some launch →
    toLex (launch, system.window.stream.latestGeneration) ≤ system.position
  covered : ∀ bridge, system.window.bridge = some bridge → bridge.timer = false →
    ∀ launch, system.minted = some launch →
      toLex (launch, system.window.stream.latestGeneration) ≤ system.invalidated
  replies : ∀ reply ∈ system.replies, toLex reply ≤ system.position

theorem Told.kept (htold : Told system) (hposition : system.position ≤ after.position)
    (hreplies : ∀ reply ∈ after.replies, toLex reply ≤ after.position)
    (hinvalidated : after.invalidated = system.invalidated ∨ after.invalidated = after.position)
    (hminted : after.minted = system.minted)
    (hlatest : after.window.stream.latestGeneration = system.window.stream.latestGeneration)
    (hbridge : ∀ bridge, after.window.bridge = some bridge → bridge.timer = false →
      after.invalidated = after.position ∨ ∃ bridge, system.window.bridge = some bridge ∧ bridge.timer = false) :
    Told after where
  behind := by
    obtain hsame | hnow := hinvalidated
    · exact hsame ▸ htold.behind.trans hposition
    · exact hnow.le
  unminted hnone := by rw [hlatest, htold.unminted (hminted ▸ hnone)]
  minted launch hlaunch := by
    rw [hlatest]
    exact (htold.minted launch (hminted ▸ hlaunch)).trans hposition
  covered bridge hsome hidle launch hlaunch := by
    rw [hlatest]
    obtain hnow | ⟨known, hknown, htimer⟩ := hbridge bridge hsome hidle
    · exact hnow ▸ (htold.minted launch (hminted ▸ hlaunch)).trans hposition
    · have hcovered := htold.covered known hknown htimer launch (hminted ▸ hlaunch)
      obtain hsame | hnow := hinvalidated
      · exact hsame ▸ hcovered
      · exact hnow ▸ hcovered.trans (htold.behind.trans hposition)
  replies := hreplies

/-- The stream takes over a generation the backend has reached. -/
theorem Told.taken (htold : Told system) {launch : Nat} (hposition : system.position ≤ after.position)
    (hreplies : ∀ reply ∈ after.replies, toLex reply ≤ after.position)
    (hinvalidated : after.invalidated = system.invalidated ∨ after.invalidated = after.position)
    (hminted : after.minted = some launch)
    (hreached : toLex (launch, after.window.stream.latestGeneration) ≤ after.position)
    (hbridge : ∀ bridge, after.window.bridge = some bridge → bridge.timer = false → after.invalidated = after.position) :
    Told after where
  behind := by
    obtain hsame | hnow := hinvalidated
    · exact hsame ▸ htold.behind.trans hposition
    · exact hnow.le
  unminted hnone := absurd (hminted.symm.trans hnone) (Option.some_ne_none _)
  minted other hother := by
    cases hminted.symm.trans hother
    exact hreached
  covered bridge hsome hidle other hother := by
    cases hminted.symm.trans hother
    exact hbridge bridge hsome hidle ▸ hreached
  replies := hreplies

theorem goOn_invalidated : (system.goOn client).invalidated = system.invalidated ∨
    (system.goOn client).invalidated = system.position := by
  unfold System.goOn
  simp only
  split_ifs
  · exact .inl rfl
  · exact .inr rfl

theorem goOn_invalidated_of_ne (hcount : client.invalidations ≠ system.window.invalidations) :
    (system.goOn client).invalidated = system.position := if_neg hcount

theorem Told.goOn (htold : Told system) (hquiet : Quiet system.window client) (hwindow : after.window = client)
    (hposition : after.position = system.position) (hreplies : after.replies = system.replies)
    (hinvalidated : after.invalidated = (system.goOn client).invalidated) (hminted : after.minted = system.minted) :
    Told after := by
  refine htold.kept hposition.ge (by rw [hreplies, hposition]; exact htold.replies) ?_ hminted
    (by rw [hwindow, hquiet.1]) fun bridge hbridge hidle => ?_
  · rw [hinvalidated, hposition]
    exact goOn_invalidated
  · refine (hquiet.2 bridge (hwindow ▸ hbridge) hidle).imp_left fun hcount => ?_
    rw [hinvalidated, goOn_invalidated_of_ne hcount, hposition]

theorem position_le_bump : system.position ≤ toLex (system.launch, system.bus.generation + 1) :=
  Prod.Lex.toLex_le_toLex.mpr (.inr ⟨rfl, Nat.le_succ _⟩)

theorem told_moves (hmoves : Moves run_id system action after) (hmessages : ∀ connection msg,
      system.connection = some connection → msg ∈ connection.channel →
        toLex (connection.launch, msg.generation) ≤ system.position) (htold : Told system) : Told after := by
  cases hmoves with
  | idle => exact htold
  | publish =>
    exact htold.kept position_le_bump (fun reply hreply => (htold.replies reply hreply).trans position_le_bump)
      (.inl rfl) rfl rfl fun bridge hbridge hidle => .inr ⟨bridge, hbridge, hidle⟩
  | bump =>
    exact htold.kept position_le_bump (fun reply hreply => (htold.replies reply hreply).trans position_le_bump)
      (.inl rfl) rfl rfl fun bridge hbridge hidle => .inr ⟨bridge, hbridge, hidle⟩
  | send hpublisher =>
    exact htold.kept le_rfl htold.replies (.inl rfl) rfl rfl fun bridge hbridge hidle => .inr ⟨bridge, hbridge, hidle⟩
  | restart =>
    have hposition : system.position ≤ toLex (system.launch + 1, 0) :=
      Prod.Lex.toLex_le_toLex.mpr (.inl (Nat.lt_succ_self _))
    exact htold.kept hposition (fun reply hreply => (htold.replies reply hreply).trans hposition) (.inl rfl) rfl rfl
      fun bridge hbridge hidle => .inr ⟨bridge, hbridge, hidle⟩
  | command hpast =>
    refine htold.kept le_rfl (fun reply hreply => ?_) (.inl rfl) rfl rfl
      fun bridge hbridge hidle => .inr ⟨bridge, hbridge, hidle⟩
    obtain hreply | hreply := List.mem_append.mp hreply
    · exact htold.replies reply hreply
    · cases List.mem_singleton.mp hreply
      exact Prod.Lex.toLex_le_toLex.mpr (.inr ⟨rfl, hpast⟩)
  | @reply reply accepted hreply =>
    have hcount : (system.window.runCommand accepted.2).invalidations ≠ system.window.invalidations := by
      unfold Client.runCommand Client.observeGeneration Client.invalidateQueries
      split_ifs <;> exact Nat.succ_ne_self _
    have hnow := goOn_invalidated_of_ne hcount
    have hreplies : ∀ other ∈ system.replies.eraseIdx reply, toLex other ≤ system.position :=
      fun other hother => htold.replies other (List.mem_of_mem_eraseIdx hother)
    by_cases hnews : system.window.stream.latestGeneration < accepted.2
    · refine htold.taken le_rfl hreplies (.inr hnow) (if_pos hnews) ?_ fun _ _ _ => hnow
      show toLex (accepted.1, (system.window.observeGeneration accepted.2).stream.latestGeneration) ≤ _
      unfold Client.observeGeneration
      rw [if_pos hnews]
      exact htold.replies accepted (List.mem_of_getElem? hreply)
    · refine htold.kept le_rfl hreplies (.inr hnow) (if_neg hnews) ?_ fun _ _ _ => .inl hnow
      show (system.window.observeGeneration accepted.2).stream.latestGeneration = _
      unfold Client.observeGeneration
      rw [if_neg hnews]
  | accept hsource hnone =>
    exact htold.kept le_rfl htold.replies (.inl rfl) rfl rfl fun bridge hbridge hidle => .inr ⟨bridge, hbridge, hidle⟩
  | poll hconnection htask hpoll =>
    exact htold.kept le_rfl htold.replies (.inl rfl) rfl rfl fun bridge hbridge hidle => .inr ⟨bridge, hbridge, hidle⟩
  | opened hconnection hopened => exact htold.goOn quiet_onopen rfl rfl rfl rfl rfl
  | @deliver connection msg channel hconnection hopened hchannel =>
    by_cases htakes : System.takes system.window.stream msg = true
    · refine htold.taken le_rfl htold.replies goOn_invalidated (if_pos htakes) ?_ fun bridge hbridge hidle => ?_
      · show toLex (_, (system.window.handleMessage msg).stream.latestGeneration) ≤ _
        rw [handleMessage_taken htakes]
        exact hmessages connection msg hconnection (hchannel ▸ List.mem_cons_self)
      · replace hbridge : (system.window.handleMessage msg).bridge = some bridge := hbridge
        rw [handleMessage_taken htakes] at hbridge
        obtain ⟨known, _, rfl⟩ := Option.map_eq_some_iff.mp hbridge
        cases hidle
    · have hquiet : Quiet system.window (system.window.handleMessage msg) := by
        rw [handleMessage_known htakes]
        exact ⟨rfl, fun bridge hbridge hidle => .inr ⟨bridge, hbridge, hidle⟩⟩
      exact htold.goOn hquiet rfl rfl rfl rfl (if_neg htakes)
  | fail hsource => exact htold.goOn (quiet_onerror _) rfl rfl rfl rfl rfl
  | reconnect htimer => exact htold.goOn quiet_onReconnectTimer rfl rfl rfl rfl rfl
  | debounce hbridge =>
    have hquiet : Quiet system.window system.window.invalidateAll := ⟨rfl, fun _ _ _ => .inl (Nat.succ_ne_self _)⟩
    exact htold.goOn hquiet rfl rfl rfl rfl rfl
  | mount hbridge =>
    exact htold.kept le_rfl htold.replies (.inr rfl) rfl rfl fun _ _ _ => .inl rfl
  | close =>
    have hquiet : Quiet system.window system.window.close :=
      ⟨rfl, fun bridge hbridge hidle => .inr ⟨bridge, hbridge, hidle⟩⟩
    exact htold.goOn hquiet rfl rfl rfl rfl rfl

end Told

section Wired

variable {run_id : Nat → String} {system after : System} {action : Action}

/-- The bridge knows the status, and a window is connected through an open source only. -/
structure Wired (run_id : Nat → String) (system : System) : Prop where
  last : ∀ bridge, system.window.bridge = some bridge → bridge.last = system.window.stream.status
  closed : system.window.stream.closed = true → system.window.stream.source = none
  connected : system.window.stream.status = .connected → system.window.stream.closed = true ∨
    ∃ connection, system.connection = some connection ∧ connection.opened = true
  tag : system.bus.run_id = run_id system.launch

theorem setStatus_last {client : Client} (next : ConnectionStatus)
    (hlast : ∀ bridge, client.bridge = some bridge → bridge.last = client.stream.status) {bridge : StreamInvalidation}
    (hbridge : (client.setStatus next).bridge = some bridge) : bridge.last = next := by
  unfold Client.setStatus at hbridge
  split_ifs at hbridge with hsame
  · exact (hlast bridge hbridge).trans hsame
  · obtain ⟨hnone, _⟩ | ⟨known, _, ⟨_, _, hafter, _⟩ | ⟨_, hafter, _⟩⟩ :=
      onConnection_cases { client with stream := { client.stream with status := next } }
    · rw [hnone] at hbridge
      cases hbridge
    · rw [hafter] at hbridge
      cases hbridge
      rfl
    · rw [hafter] at hbridge
      cases hbridge
      rfl

/-- A bridge that was told of no connection before is told of this one. -/
theorem setStatus_connected {client : Client}
    (hlast : ∀ bridge, client.bridge = some bridge → bridge.last = client.stream.status)
    (hstatus : client.stream.status ≠ .connected) (hmounted : client.bridge.isSome = true) :
    (client.setStatus .connected).invalidations = client.invalidations + 1 := by
  unfold Client.setStatus
  rw [if_neg hstatus]
  obtain ⟨_, hnone⟩ | ⟨known, hknown, ⟨_, _, _, hcount⟩ | ⟨hsame, _, _⟩⟩ :=
    onConnection_cases { client with stream := { client.stream with status := .connected } }
  · replace hnone : client.bridge = none := hnone
    rw [hnone] at hmounted
    cases hmounted
  · exact hcount
  · exact absurd ⟨rfl, fun h => hstatus ((hlast known hknown).symm.trans h)⟩ hsame

/-- The source is lost, the status not yet told. -/
def Client.dropped (client : Client) : Client :=
  { client with stream := { client.stream with
    source := none, consecutiveFailures := client.stream.consecutiveFailures + 1 } }

theorem onerror_eq {client : Client} {source : Nat} (hsource : client.stream.source = some source) :
    ∃ status delay, status ≠ .connected ∧ client.onerror source = { client.dropped.setStatus status with
      stream := { client.dropped.stream with status, reconnectTimer := some delay } } := by
  refine ⟨if 2 ≤ client.stream.consecutiveFailures + 1 then .stale else .reconnecting, ?_, ?_, ?_⟩
  · exact client.stream.reconnectDelayMs * min (2 ^ client.stream.consecutiveFailures) 16
  · split_ifs <;> exact ConnectionStatus.noConfusion
  · unfold Client.onerror
    rw [if_neg (not_not.mpr hsource)]
    simp only [setStatus_stream]
    rfl

theorem wired_moves (hmoves : Moves run_id system action after) (hwired : Wired run_id system) :
    Wired run_id after := by
  cases hmoves with
  | idle => exact hwired
  | publish => exact ⟨hwired.last, hwired.closed, hwired.connected, hwired.tag⟩
  | bump => exact ⟨hwired.last, hwired.closed, hwired.connected, hwired.tag⟩
  | send hpublisher => exact ⟨hwired.last, hwired.closed, hwired.connected, hwired.tag⟩
  | restart =>
    refine ⟨hwired.last, hwired.closed, fun hconnected => ?_, rfl⟩
    refine (hwired.connected hconnected).imp_right fun ⟨connection, hconnection, hopened⟩ => ?_
    exact ⟨{ connection with task := none }, congrArg (Option.map _) hconnection, hopened⟩
  | command hpast => exact ⟨hwired.last, hwired.closed, hwired.connected, hwired.tag⟩
  | @reply reply accepted hreply =>
    have hstream : ((system.window.runCommand accepted.2).stream.source = system.window.stream.source ∧
        (system.window.runCommand accepted.2).stream.status = system.window.stream.status ∧
        (system.window.runCommand accepted.2).stream.closed = system.window.stream.closed) ∧
        (system.window.runCommand accepted.2).bridge = system.window.bridge := by
      unfold Client.runCommand Client.observeGeneration Client.invalidateQueries
      split_ifs <;> exact ⟨⟨rfl, rfl, rfl⟩, rfl⟩
    obtain ⟨⟨hsource, hstatus, hclosed⟩, hbridge⟩ := hstream
    exact ⟨fun bridge hsome => (hwired.last bridge (hbridge ▸ hsome)).trans hstatus.symm,
      fun h => hsource.trans (hwired.closed (hclosed ▸ h)),
      fun h => (hwired.connected (hstatus ▸ h)).imp_left hclosed.trans, hwired.tag⟩
  | accept hsource hnone =>
    refine ⟨hwired.last, hwired.closed, fun hconnected => .inl ?_, hwired.tag⟩
    obtain hclosed | ⟨connection, hconnection, _⟩ := hwired.connected hconnected
    · exact hclosed
    · cases hnone.symm.trans hconnection
  | poll hconnection htask hpoll =>
    refine ⟨hwired.last, hwired.closed, fun hconnected => ?_, hwired.tag⟩
    refine (hwired.connected hconnected).imp_right fun ⟨connection, hsome, hopened⟩ => ?_
    cases hconnection.symm.trans hsome
    exact ⟨_, rfl, hopened⟩
  | opened hconnection hopened =>
    have hstream : system.window.onopen.stream = { system.window.stream with
        consecutiveFailures := 0, status := .connected } := setStatus_stream _
    refine ⟨fun bridge hbridge => ?_, fun hclosed => ?_, fun _ => .inr ⟨_, rfl, rfl⟩, hwired.tag⟩
    · have hlast := @setStatus_last { system.window with stream := { system.window.stream with
        consecutiveFailures := 0 } } .connected hwired.last bridge hbridge
      exact hlast.trans (congrArg EventStream.status hstream).symm
    · exact (congrArg EventStream.source hstream).trans
        (hwired.closed ((congrArg EventStream.closed hstream).symm.trans hclosed))
  | @deliver connection msg channel hconnection hopened hchannel =>
    have hstream : ((system.window.handleMessage msg).stream.source = system.window.stream.source ∧
        (system.window.handleMessage msg).stream.status = system.window.stream.status ∧
        (system.window.handleMessage msg).stream.closed = system.window.stream.closed) ∧
        ∀ bridge, (system.window.handleMessage msg).bridge = some bridge →
          ∃ known, system.window.bridge = some known ∧ known.last = bridge.last := by
      by_cases htakes : System.takes system.window.stream msg = true
      · rw [handleMessage_taken htakes]
        refine ⟨⟨rfl, rfl, rfl⟩, fun bridge hbridge => ?_⟩
        obtain ⟨known, hknown, rfl⟩ := Option.map_eq_some_iff.mp hbridge
        exact ⟨known, hknown, rfl⟩
      · rw [handleMessage_known htakes]
        exact ⟨⟨rfl, rfl, rfl⟩, fun bridge hbridge => ⟨bridge, hbridge, rfl⟩⟩
    obtain ⟨⟨hsource, hstatus, hclosed⟩, hbridge⟩ := hstream
    refine ⟨fun bridge hsome => ?_, fun h => hsource.trans (hwired.closed (hclosed ▸ h)),
      fun _ => .inr ⟨_, rfl, hopened⟩, hwired.tag⟩
    obtain ⟨known, hknown, hlast⟩ := hbridge bridge hsome
    exact hlast.symm.trans ((hwired.last known hknown).trans hstatus.symm)
  | fail hsource =>
    obtain ⟨status, delay, hstatus, heq⟩ := onerror_eq hsource
    have hwindow : (system.goOn (system.window.onerror _)).window = _ := heq
    refine ⟨fun bridge hbridge => ?_, fun _ => ?_, fun hconnected => absurd ?_ hstatus, hwired.tag⟩
    · rw [hwindow] at hbridge ⊢
      exact @setStatus_last system.window.dropped status hwired.last bridge hbridge
    · exact congrArg (fun client => client.stream.source) hwindow
    · exact (congrArg (fun client => client.stream.status) hwindow).symm.trans hconnected
  | reconnect htimer =>
    have hclosed : system.window.onReconnectTimer.stream.closed = true →
        system.window.onReconnectTimer.stream.source = none := by
      unfold Client.onReconnectTimer Client.connect
      split_ifs with hdone
      · exact hwired.closed
      · intro hclosed
        simp only [Bool.or_eq_true, not_or] at hdone
        exact absurd hclosed hdone.2
    have hrest : system.window.onReconnectTimer.stream.status = system.window.stream.status ∧
        system.window.onReconnectTimer.stream.closed = system.window.stream.closed ∧
        system.window.onReconnectTimer.bridge = system.window.bridge := by
      unfold Client.onReconnectTimer Client.connect
      split_ifs <;> exact ⟨rfl, rfl, rfl⟩
    obtain ⟨hstatus, hsame, hbridge⟩ := hrest
    exact ⟨fun bridge hsome => (hwired.last bridge (hbridge ▸ hsome)).trans hstatus.symm, hclosed,
      fun h => (hwired.connected (hstatus ▸ h)).imp_left hsame.trans, hwired.tag⟩
  | debounce hbridge =>
    refine ⟨fun bridge hsome => ?_, hwired.closed, hwired.connected, hwired.tag⟩
    obtain ⟨known, hknown, rfl⟩ := Option.map_eq_some_iff.mp hsome
    exact hwired.last known hknown
  | mount hbridge =>
    refine ⟨fun bridge hsome => ?_, hwired.closed, hwired.connected, hwired.tag⟩
    cases hsome
    rfl
  | close => exact ⟨hwired.last, fun _ => rfl, fun _ => .inl rfl, hwired.tag⟩

end Wired

section Served

variable {run_id : Nat → String} {system after : System} {action : Action} {connection : Connection}

/-- What a source of the window is and what came over it. -/
structure Served (run_id : Nat → String) (system : System) (connection : Connection) : Prop where
  source : system.window.stream.source = some connection.source
  past : connection.launch ≤ system.launch
  alive : ∀ task, connection.task = some task →
    connection.launch = system.launch ∧ task.Stamped system.bus.generation
  messages : ∀ msg ∈ connection.channel, toLex (connection.launch, msg.generation) ≤ system.position
  names : ∀ msg ∈ connection.channel, msg.run_id = none ∨ msg.run_id = some (run_id connection.launch)
  first : connection.heard = [] → ∀ msg channel, connection.channel = msg :: channel →
    msg.run_id = some (run_id connection.launch)
  greeting : ∀ task, connection.task = some task →
    (task.phase = .greeting ↔ connection.heard = [] ∧ connection.channel = [])
  hello : connection.heard ≠ [] → system.window.stream.runId = some (run_id connection.launch)
  known : ∀ msg ∈ connection.heard, msg.generation ≤ system.window.stream.latestGeneration
  opened : connection.heard ≠ [] → connection.opened = true
  invalidated : connection.opened = true → system.window.bridge.isSome = true →
    toLex (connection.launch, 0) ≤ system.invalidated

/-- A step beside the connection keeps what is known of it. -/
theorem Served.kept (hserved : Served run_id system connection)
    (hsource : after.window.stream.source = system.window.stream.source) (hlaunch : after.launch = system.launch)
    (hgeneration : system.bus.generation ≤ after.bus.generation)
    (hrun : after.window.stream.runId = system.window.stream.runId)
    (hlatest : system.window.stream.latestGeneration ≤ after.window.stream.latestGeneration)
    (hinvalidated : after.window.bridge.isSome = true →
      (system.window.bridge.isSome = true ∧ after.invalidated = system.invalidated) ∨
        after.invalidated = after.position) : Served run_id after connection where
  source := hsource.trans hserved.source
  past := hlaunch ▸ hserved.past
  alive task htask := by
    obtain ⟨hsame, hstamped⟩ := hserved.alive task htask
    exact ⟨hsame.trans hlaunch.symm, fun generation batch hphase => (hstamped generation batch hphase).trans hgeneration⟩
  messages msg hmsg := by
    refine (hserved.messages msg hmsg).trans ?_
    exact Prod.Lex.toLex_le_toLex.mpr (.inr ⟨hlaunch.symm, hgeneration⟩)
  names := hserved.names
  first := hserved.first
  greeting := hserved.greeting
  hello hheard := hrun.trans (hserved.hello hheard)
  known msg hmsg := (hserved.known msg hmsg).trans hlatest
  opened := hserved.opened
  invalidated hopened hmounted := by
    obtain ⟨hbefore, hsame⟩ | hnow := hinvalidated hmounted
    · exact hsame ▸ hserved.invalidated hopened hbefore
    · rw [hnow]
      refine Prod.Lex.toLex_le_toLex.mpr ?_
      obtain hless | hequal := hserved.past.lt_or_eq
      · exact .inl (hlaunch ▸ hless)
      · exact .inr ⟨hequal.trans hlaunch.symm, Nat.zero_le _⟩

/-- Its launch ends. -/
theorem Served.ended (hserved : Served run_id system connection) (hwindow : after.window = system.window)
    (hlaunch : system.launch ≤ after.launch) (hposition : system.position ≤ after.position)
    (hinvalidated : after.invalidated = system.invalidated) :
    Served run_id after { connection with task := none } where
  source := hwindow ▸ hserved.source
  past := hserved.past.trans hlaunch
  alive := fun _ htask => nomatch htask
  messages msg hmsg := (hserved.messages msg hmsg).trans hposition
  names := hserved.names
  first := hserved.first
  greeting := fun _ htask => nomatch htask
  hello hheard := hwindow ▸ hserved.hello hheard
  known msg hmsg := hwindow ▸ hserved.known msg hmsg
  opened := hserved.opened
  invalidated hopened hmounted := hinvalidated ▸ hserved.invalidated hopened (hwindow ▸ hmounted)

theorem Served.polled (hserved : Served run_id system connection) (htag : system.bus.run_id = run_id system.launch)
    {task next : StreamTask} {yielded : Option EventMessage} (htask : connection.task = some task)
    (hpolls : Polls system.bus task next yielded) :
    Served run_id { system with connection := some { connection with
      task := some next, channel := connection.channel ++ yielded.toList } }
      { connection with task := some next, channel := connection.channel ++ yielded.toList } := by
  obtain ⟨hlaunch, hstamped⟩ := hserved.alive task htask
  obtain ⟨hnext, hmessage⟩ := hpolls.stamped hstamped
  have hgreeting := hserved.greeting task htask
  have hyielded : ∀ msg, yielded = some msg → (task.phase = .greeting ∧ msg.run_id = some (run_id connection.launch)) ∨
      (task.phase ≠ .greeting ∧ msg.run_id = none) := by
    rintro msg rfl
    rw [hlaunch, ← htag]
    exact hpolls.names
  have hafter : next.phase ≠ .greeting ∧ (yielded = none → task.phase ≠ .greeting) := by
    cases hpolls <;> exact ⟨Phase.noConfusion, fun h => by first | exact Phase.noConfusion | cases h⟩
  exact {
    source := hserved.source
    past := hserved.past
    alive := fun other hother => by
      cases hother
      exact ⟨hlaunch, hnext⟩
    messages := fun msg hmsg => by
      obtain hmsg | hmsg := List.mem_append.mp hmsg
      · exact hserved.messages msg hmsg
      · exact Prod.Lex.toLex_le_toLex.mpr (.inr ⟨hlaunch, hmessage msg (Option.mem_toList.mp hmsg)⟩)
    names := fun msg hmsg => by
      obtain hmsg | hmsg := List.mem_append.mp hmsg
      · exact hserved.names msg hmsg
      · exact (hyielded msg (Option.mem_toList.mp hmsg)).symm.imp And.right And.right
    first := fun hheard msg channel hchannel => by
      replace hchannel : connection.channel ++ yielded.toList = msg :: channel := hchannel
      cases hwire : connection.channel with
      | cons head rest =>
        rw [hwire, List.cons_append] at hchannel
        cases hchannel
        exact hserved.first hheard _ _ hwire
      | nil =>
        rw [hwire, List.nil_append] at hchannel
        have hmsg : yielded = some msg := Option.mem_toList.mp (hchannel ▸ List.mem_cons_self)
        obtain ⟨_, hname⟩ | ⟨hbegun, _⟩ := hyielded msg hmsg
        · exact hname
        · exact absurd (hgreeting.mpr ⟨hheard, hwire⟩) hbegun
    greeting := fun other hother => by
      cases hother
      refine ⟨fun hphase => absurd hphase hafter.1, fun ⟨hheard, hchannel⟩ => ?_⟩
      obtain ⟨hwire, hnone⟩ := List.append_eq_nil_iff.mp hchannel
      exact absurd (hgreeting.mpr ⟨hheard, hwire⟩) (hafter.2 (Option.toList_eq_nil_iff.mp hnone))
    hello := hserved.hello
    known := hserved.known
    opened := hserved.opened
    invalidated := hserved.invalidated }

/-- After its greeting a source rotates nothing. -/
theorem Served.heard (hserved : Served run_id system connection) {msg : EventMessage} {channel : List EventMessage}
    (hchannel : connection.channel = msg :: channel) :
    (system.window.handleMessage msg).stream.runId = some (run_id connection.launch) ∧
      ∀ known ∈ connection.heard ++ [msg],
        known.generation ≤ (system.window.handleMessage msg).stream.latestGeneration := by
  have hname : msg.run_id.or system.window.stream.runId = some (run_id connection.launch) := by
    by_cases hheard : connection.heard = []
    · rw [hserved.first hheard msg channel hchannel, Option.some_or]
    · obtain hnone | hsome := hserved.names msg (hchannel ▸ List.mem_cons_self)
      · rw [hnone, Option.none_or, hserved.hello hheard]
      · rw [hsome, Option.some_or]
  by_cases htakes : System.takes system.window.stream msg = true
  · rw [handleMessage_taken htakes]
    refine ⟨hname, fun known hknown => ?_⟩
    obtain hknown | hknown := List.mem_append.mp hknown
    · -- a message that comes later names no other launch, so it is news by its number
      have hheard : connection.heard ≠ [] := List.ne_nil_of_mem hknown
      have hnews : system.window.stream.latestGeneration < msg.generation := by
        unfold System.takes at htakes
        obtain hnone | hsome := hserved.names msg (hchannel ▸ List.mem_cons_self)
        · simpa [hnone] using htakes
        · simpa [hsome, hserved.hello hheard] using htakes
      exact (hserved.known known hknown).trans hnews.le
    · rw [List.mem_singleton.mp hknown]
  · rw [handleMessage_known htakes]
    refine ⟨hname, fun known hknown => ?_⟩
    obtain hknown | hknown := List.mem_append.mp hknown
    · exact hserved.known known hknown
    · rw [List.mem_singleton.mp hknown]
      unfold System.takes at htakes
      simp only [Bool.or_eq_true, decide_eq_true_eq, not_or, not_lt] at htakes
      exact htakes.2

theorem setStatus_mounted {client : Client} {next : ConnectionStatus}
    (hmounted : (client.setStatus next).bridge.isSome = true) : client.bridge.isSome = true := by
  unfold Client.setStatus at hmounted
  split_ifs at hmounted
  · exact hmounted
  · obtain ⟨hnone, _⟩ | ⟨known, hknown, _⟩ :=
      onConnection_cases { client with stream := { client.stream with status := next } }
    · rw [hnone] at hmounted
      cases hmounted
    · exact Option.isSome_of_eq_some hknown

/-- A connection that opens invalidates the mirror: the bridge knew of none. -/
theorem Served.opens (hserved : Served run_id system connection) (hwired : Wired run_id system)
    (hconnection : system.connection = some connection) (hopened : connection.opened = false) :
    Served run_id { system.goOn system.window.onopen with connection := some { connection with opened := true } }
      { connection with opened := true } := by
  have hstatus : system.window.stream.status ≠ .connected := by
    intro hconnected
    obtain hclosed | ⟨other, hother, hopen⟩ := hwired.connected hconnected
    · exact absurd (hserved.source.symm.trans (hwired.closed hclosed)) (Option.some_ne_none _)
    · cases hconnection.symm.trans hother
      exact absurd (hopened.symm.trans hopen) Bool.noConfusion
  have hstream : system.window.onopen.stream = { system.window.stream with
      consecutiveFailures := 0, status := .connected } := setStatus_stream _
  have hsame : system.window.onopen.stream.source = system.window.stream.source ∧
      system.window.onopen.stream.runId = system.window.stream.runId ∧
      system.window.stream.latestGeneration ≤ system.window.onopen.stream.latestGeneration := by
    rw [hstream]
    exact ⟨rfl, rfl, le_rfl⟩
  have hinvalidated : system.window.onopen.bridge.isSome = true →
      (system.goOn system.window.onopen).invalidated = system.position := by
    intro hmounted
    refine goOn_invalidated_of_ne ?_
    have hcount := @setStatus_connected { system.window with stream := { system.window.stream with
      consecutiveFailures := 0 } } hwired.last hstatus (setStatus_mounted hmounted)
    exact hcount ▸ Nat.succ_ne_self _
  have hkept : Served run_id { system.goOn system.window.onopen with
      connection := some { connection with opened := true } } connection :=
    hserved.kept hsame.1 rfl le_rfl hsame.2.1 hsame.2.2 fun hmounted => .inr (hinvalidated hmounted)
  exact { hkept with
    opened := fun _ => rfl
    invalidated := fun _ hmounted => by
      refine le_of_le_of_eq ?_ (hinvalidated hmounted).symm
      refine Prod.Lex.toLex_le_toLex.mpr ?_
      exact hserved.past.lt_or_eq.imp_right fun hsame => ⟨hsame, Nat.zero_le _⟩ }

theorem served_moves (hmoves : Moves run_id system action after) (hwired : Wired run_id system)
    (hserved : ∀ connection, system.connection = some connection → Served run_id system connection) :
    ∀ connection, after.connection = some connection → Served run_id after connection := by
  intro connection hconnection
  cases hmoves with
  | idle => exact hserved connection hconnection
  | publish =>
    exact (hserved connection hconnection).kept rfl rfl (Nat.le_succ _) rfl le_rfl fun h => .inl ⟨h, rfl⟩
  | bump => exact (hserved connection hconnection).kept rfl rfl (Nat.le_succ _) rfl le_rfl fun h => .inl ⟨h, rfl⟩
  | send hpublisher => exact (hserved connection hconnection).kept rfl rfl le_rfl rfl le_rfl fun h => .inl ⟨h, rfl⟩
  | restart =>
    obtain ⟨before, hbefore, rfl⟩ := Option.map_eq_some_iff.mp hconnection
    exact (hserved before hbefore).ended rfl (Nat.le_succ _)
      (Prod.Lex.toLex_le_toLex.mpr (.inl (Nat.lt_succ_self _))) rfl
  | command hpast => exact (hserved connection hconnection).kept rfl rfl le_rfl rfl le_rfl fun h => .inl ⟨h, rfl⟩
  | @reply reply accepted hreply =>
    have hstream : (system.window.runCommand accepted.2).stream.source = system.window.stream.source ∧
        (system.window.runCommand accepted.2).stream.runId = system.window.stream.runId ∧
        system.window.stream.latestGeneration ≤ (system.window.runCommand accepted.2).stream.latestGeneration ∧
        (system.window.runCommand accepted.2).invalidations ≠ system.window.invalidations := by
      unfold Client.runCommand Client.observeGeneration Client.invalidateQueries
      split_ifs with hnews
      · exact ⟨rfl, rfl, hnews.le, Nat.succ_ne_self _⟩
      · exact ⟨rfl, rfl, le_rfl, Nat.succ_ne_self _⟩
    obtain ⟨hsource, hrun, hlatest, hcount⟩ := hstream
    exact (hserved connection hconnection).kept hsource rfl le_rfl hrun hlatest
      fun _ => .inr (goOn_invalidated_of_ne hcount)
  | accept hsource hnone =>
    cases hconnection
    exact ⟨hsource, le_rfl, fun _ htask => by cases htask; exact ⟨rfl, fun _ _ => Phase.noConfusion⟩,
      fun _ h => absurd h List.not_mem_nil, fun _ h => absurd h List.not_mem_nil, fun _ _ _ h => (nomatch h),
      fun _ htask => by cases htask; exact ⟨fun _ => ⟨rfl, rfl⟩, fun _ => rfl⟩, fun h => absurd rfl h,
      fun _ h => absurd h List.not_mem_nil, fun h => absurd rfl h, fun h => (nomatch h)⟩
  | poll hbefore htask hpoll =>
    cases hconnection
    exact (hserved _ hbefore).polled hwired.tag htask (polls_of_poll hpoll)
  | @opened before hbefore hopened =>
    cases hconnection
    exact (hserved before hbefore).opens hwired hbefore hopened
  | @deliver before msg channel hbefore hopened hchannel =>
    cases hconnection
    have hknown := hserved before hbefore
    obtain ⟨hrun, hlatest⟩ := hknown.heard hchannel
    have hsource : (system.window.handleMessage msg).stream.source = system.window.stream.source ∧
        ((system.window.handleMessage msg).bridge.isSome = true → system.window.bridge.isSome = true) ∧
        (system.goOn (system.window.handleMessage msg)).invalidated = system.invalidated := by
      by_cases htakes : System.takes system.window.stream msg = true
      · rw [handleMessage_taken htakes]
        exact ⟨rfl, fun hmounted => Option.isSome_map.symm.trans hmounted, if_pos rfl⟩
      · rw [handleMessage_known htakes]
        exact ⟨rfl, id, if_pos rfl⟩
    exact {
      source := hsource.1.trans hknown.source
      past := hknown.past
      alive := hknown.alive
      messages := fun other hother => hknown.messages other (hchannel ▸ List.mem_cons_of_mem _ hother)
      names := fun other hother => hknown.names other (hchannel ▸ List.mem_cons_of_mem _ hother)
      first := fun hheard => absurd hheard (List.append_ne_nil_of_right_ne_nil _ (List.cons_ne_nil _ _))
      greeting := fun task htask => by
        refine ⟨fun hphase => ?_, fun hempty => ?_⟩
        · have hwire := ((hknown.greeting task htask).mp hphase).2
          exact absurd (hchannel.symm.trans hwire) (List.cons_ne_nil _ _)
        · exact absurd hempty.1 (List.append_ne_nil_of_right_ne_nil _ (List.cons_ne_nil _ _))
      hello := fun _ => hrun
      known := hlatest
      opened := fun _ => hopened
      invalidated := fun _ hmounted => le_of_le_of_eq (hknown.invalidated hopened (hsource.2.1 hmounted)) hsource.2.2.symm }
  | fail hsource => cases hconnection
  | reconnect htimer =>
    have hknown := hserved connection hconnection
    have hwindow : system.window.onReconnectTimer =
        { system.window with stream := { system.window.stream with reconnectTimer := none } } := by
      unfold Client.onReconnectTimer Client.connect
      rw [if_pos (by simp [hknown.source])]
    rw [hwindow]
    exact hknown.kept rfl rfl le_rfl rfl le_rfl fun hmounted => .inl ⟨hmounted, if_pos rfl⟩
  | debounce hbridge =>
    exact (hserved connection hconnection).kept rfl rfl le_rfl rfl le_rfl
      fun _ => .inr (goOn_invalidated_of_ne (Nat.succ_ne_self _))
  | mount hbridge => exact (hserved connection hconnection).kept rfl rfl le_rfl rfl le_rfl fun _ => .inr rfl
  | close => cases hconnection

end Served

section Mirror

variable {capacity : Nat} {run_id : Nat → String} {system after : System} {action : Action}
  {connection : Connection} {bridge : StreamInvalidation} {msg : EventMessage}

structure Sound (run_id : Nat → String) (system : System) : Prop where
  wired : Wired run_id system
  told : Told system
  served : ∀ connection, system.connection = some connection → Served run_id system connection

theorem sound_opens (hopens : Opens capacity run_id system) : Sound run_id system := by
  obtain ⟨_, htag, _, _, hreplies, hnone, hinvalidated, hminted, delay, hwindow⟩ := hopens
  have hlatest : system.window.stream.latestGeneration = 0 := by
    rw [hwindow]
    rfl
  exact {
    wired := by
      refine ⟨fun bridge hbridge => ?_, fun hclosed => ?_, fun hconnected => ?_, htag⟩
      · rw [hwindow] at hbridge
        cases hbridge
      · rw [hwindow] at hclosed
        cases hclosed
      · rw [hwindow] at hconnected
        cases hconnected
    told := ⟨hinvalidated.le, fun _ => hlatest, fun launch h => (nomatch hminted.symm.trans h),
      fun _ _ _ launch h => (nomatch hminted.symm.trans h), fun reply h => absurd (hreplies ▸ h) List.not_mem_nil⟩
    served := fun connection h => nomatch hnone.symm.trans h }

theorem sound_step (hsound : Sound run_id system) (hstep : system.step run_id action = some after) :
    Sound run_id after := by
  have hmoves := moves_of_step hstep
  exact ⟨wired_moves hmoves hsound.wired,
    told_moves hmoves (fun connection msg hconnection => (hsound.served connection hconnection).messages msg) hsound.told,
    served_moves hmoves hsound.wired hsound.served⟩

theorem sound_of_reachable (hreach : Reachable (live capacity run_id) unguarded system) : Sound run_id system := by
  refine hreach.invariant (fun _ => sound_opens) fun state action after hsound _ hstep => ?_
  exact sound_step hsound hstep

/-- A reply is taken by a window whose stream has named the launch it is from. -/
def Timely (run_id : Nat → String) (system : System) : Action → Prop
  | .reply reply => ∀ accepted, system.replies[reply]? = some accepted →
      system.window.stream.runId = some (run_id accepted.1)
  | _ => True

/-- The launch that minted what the stream holds is the one it last named. -/
def Named (run_id : Nat → String) (system : System) : Prop :=
  ∀ launch, system.minted = some launch → system.window.stream.runId = some (run_id launch)

theorem named_step (hnamed : Named run_id system) (hsound : Sound run_id system) (htimely : Timely run_id system action)
    (hstep : system.step run_id action = some after) : Named run_id after := by
  intro launch hlaunch
  cases moves_of_step hstep with
  | idle => exact hnamed launch hlaunch
  | publish => exact hnamed launch hlaunch
  | bump => exact hnamed launch hlaunch
  | send hpublisher => exact hnamed launch hlaunch
  | restart => exact hnamed launch hlaunch
  | command hpast => exact hnamed launch hlaunch
  | @reply reply accepted hreply =>
    have hrun : (system.window.runCommand accepted.2).stream.runId = system.window.stream.runId := by
      unfold Client.runCommand Client.observeGeneration Client.invalidateQueries
      split_ifs <;> rfl
    refine hrun.trans ?_
    replace hlaunch : (if system.window.stream.latestGeneration < accepted.2 then some accepted.1
      else system.minted) = some launch := hlaunch
    split_ifs at hlaunch
    · cases hlaunch
      exact htimely accepted hreply
    · exact hnamed launch hlaunch
  | accept hsource hnone => exact hnamed launch hlaunch
  | poll hconnection htask hpoll => exact hnamed launch hlaunch
  | opened hconnection hopened =>
    have hrun : system.window.onopen.stream.runId = system.window.stream.runId := by
      unfold Client.onopen
      rw [setStatus_stream]
    exact hrun.trans (hnamed launch hlaunch)
  | @deliver connection msg channel hconnection hopened hchannel =>
    replace hlaunch : (if System.takes system.window.stream msg then some connection.launch
      else system.minted) = some launch := hlaunch
    split_ifs at hlaunch with htakes
    · cases hlaunch
      exact ((hsound.served connection hconnection).heard hchannel).1
    · show (system.window.handleMessage msg).stream.runId = _
      rw [handleMessage_known htakes]
      show msg.run_id.or system.window.stream.runId = _
      have hrun := hnamed launch hlaunch
      unfold System.takes at htakes
      cases hname : msg.run_id with
      | none => exact hrun
      | some name =>
        rw [hname, hrun] at htakes
        obtain ⟨rfl, _⟩ : name = run_id launch ∧ msg.generation ≤ system.window.stream.latestGeneration := by
          simpa using htakes
        rfl
  | fail hsource =>
    obtain ⟨status, delay, _, heq⟩ := onerror_eq hsource
    exact (congrArg (fun client => client.stream.runId) heq).trans (hnamed launch hlaunch)
  | reconnect htimer =>
    have hrun : system.window.onReconnectTimer.stream.runId = system.window.stream.runId := by
      unfold Client.onReconnectTimer Client.connect
      split_ifs <;> rfl
    exact hrun.trans (hnamed launch hlaunch)
  | debounce hbridge => exact hnamed launch hlaunch
  | mount hbridge => exact hnamed launch hlaunch
  | close => exact hnamed launch hlaunch

theorem named_of_reachable (hreach : Reachable (live capacity run_id) (Timely run_id) system) : Named run_id system := by
  refine hreach.invariant_of (fun _ hknown => sound_of_reachable hknown.forget) (fun state hopens => ?_)
    fun _ _ _ hsound hnamed htimely => named_step hnamed hsound htimely
  obtain ⟨_, _, _, _, _, _, _, hminted, _⟩ := hopens
  exact fun launch hlaunch => nomatch hminted.symm.trans hlaunch

/-- A generation the stream announced has reached the mirror, unless an older launch's
    number stands in its way. -/
theorem Sound.announced (hsound : Sound run_id system) (hconnection : system.connection = some connection)
    (hbridge : system.window.bridge = some bridge) (hidle : bridge.timer = false) (hheard : msg ∈ connection.heard) :
    toLex (connection.launch, msg.generation) ≤ system.invalidated ∨
      ∃ launch < connection.launch, system.minted = some launch ∧
        msg.generation ≤ system.window.stream.latestGeneration := by
  have hserved := hsound.served connection hconnection
  have hlatest := hserved.known msg hheard
  cases hminted : system.minted with
  | none =>
    rw [hsound.told.unminted hminted, Nat.le_zero] at hlatest
    rw [hlatest]
    exact .inl (hserved.invalidated (hserved.opened (List.ne_nil_of_mem hheard)) (Option.isSome_of_eq_some hbridge))
  | some launch =>
    have hcovered := hsound.told.covered bridge hbridge hidle launch hminted
    obtain hless | hle := Nat.lt_or_ge launch connection.launch
    · exact .inr ⟨launch, hless, rfl, hlatest⟩
    · refine .inl (le_trans ?_ hcovered)
      exact Prod.Lex.toLex_le_toLex.mpr (hle.lt_or_eq.imp_right fun hsame => ⟨hsame, hlatest⟩)

/-- Run ids for two launches. -/
def names : Nat → String
  | 0 => "first"
  | _ => "next"
def newWindow (capacity : Nat) (run_id : Nat → String) : System where
  launch := 0
  bus := .new capacity (run_id 0)
  publishers := []
  replies := []
  connection := none
  window := Client.connect ⟨.new 1000, none, 0, []⟩
  invalidated := toLex (0, 0)
  minted := none

theorem newWindow_opens : Opens capacity run_id (newWindow capacity run_id) :=
  ⟨rfl, rfl, fun _ hmem => absurd hmem List.not_mem_nil, fun _ hmem => absurd hmem List.not_mem_nil, rfl, rfl, rfl, rfl,
    1000, rfl⟩

def arrival : DomainEvent := ⟨"message.updated", "a", none, some "m", .null⟩

/-- A window hears of an event. -/
def toldOfArrival : Option System :=
  runActions (System.step names) (fun _ _ => true) (newWindow 1024 names)
    [.mount, .accept, .opened, .poll false, .deliver, .publish [arrival], .send 0, .poll false, .poll true, .poll false,
      .deliver, .debounce]



/-- The window once the debounce timer has fired. -/
def arrived : System where
  launch := 0
  bus := ⟨1024, "first", 1, [(arrival, 1)]⟩
  publishers := [[]]
  replies := []
  connection := some ⟨0, 0, some ⟨.flushing 1 [], 1⟩, true, [],
    [⟨0, some "first", none⟩, ⟨1, none, some (event_payload arrival)⟩], 0⟩
  window := ⟨⟨1000, some 0, 1, none, 0, false, 1, some "first", .connected, 1⟩, some ⟨false, .connected⟩, 2,
    [(event_payload arrival, 1)]⟩
  invalidated := toLex (0, 1)
  minted := some 0

theorem arrived_run : toldOfArrival = some arrived := by rfl

/-- A reply that outlives its launch hides the first generations of the next. -/
example : ((runActions (System.step names) (fun _ _ => true) (newWindow 1024 names)
    [.mount, .accept, .opened, .poll false, .deliver, .bump, .bump, .command 2, .restart, .fail, .reconnect, .accept,
      .opened, .poll false, .deliver, .debounce, .reply 0, .bump, .poll true, .deliver]).map
        fun system => (system.invalidated, system.position, system.window.bridge.map StreamInvalidation.timer)) =
    some (toLex (1, 0), toLex (1, 1), some false) := by
  rfl

end Mirror

end posthaste.client.event_stream
