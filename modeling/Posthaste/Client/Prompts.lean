import Mathlib.Data.List.Forall2
import Posthaste.Client.Mirror

open posthaste.model TransitionSystem

namespace posthaste.client.event_stream

section Reading

variable {α : Type} {log : List α} {capacity start position : Nat} {picked : List α} {item : α}

/-- What a receiver of a ring picked out of the log from where it subscribed: all of
    it, in order, but what it was too late for. -/
structure Reads (log : List α) (capacity start position : Nat) (picked : List α) : Prop where
  forth : start ≤ position
  sent : position ≤ log.length
  picks : picked.Sublist ((log.take position).drop start)
  whole : log.length ≤ start + capacity → picked = (log.take position).drop start

theorem Reads.begin : Reads log capacity log.length log.length [] where
  forth := le_rfl
  sent := le_rfl
  picks := List.nil_sublist _
  whole _ := by rw [List.take_length, List.drop_length]

theorem Reads.grow (hreads : Reads log capacity start position picked) (rest : List α) :
    Reads (log ++ rest) capacity start position picked where
  forth := hreads.forth
  sent := hreads.sent.trans (by rw [List.length_append]; exact Nat.le_add_right _ _)
  picks := by
    rw [List.take_append_of_le_length hreads.sent]
    exact hreads.picks
  whole hshort := by
    rw [List.take_append_of_le_length hreads.sent]
    refine hreads.whole (le_trans ?_ hshort)
    rw [List.length_append]
    exact Nat.le_add_right _ _

theorem Reads.next (hreads : Reads log capacity start position picked) (hitem : log[position]? = some item) :
    Reads log capacity start (position + 1) (picked ++ [item]) := by
  obtain ⟨hlt, rfl⟩ := List.getElem?_eq_some_iff.mp hitem
  have htake : (log.take (position + 1)).drop start = (log.take position).drop start ++ [log[position]] := by
    rw [List.take_succ_eq_append_getElem hlt, List.drop_append_of_le_length]
    rw [List.length_take]
    have hforth := hreads.forth
    omega
  exact {
    forth := hreads.forth.trans (Nat.le_succ _)
    sent := hlt
    picks := htake ▸ hreads.picks.append (List.Sublist.refl _)
    whole := fun hshort => by rw [htake, hreads.whole hshort] }

/-- A receiver that lags goes on at the oldest item kept. -/
theorem Reads.lag (hreads : Reads log capacity start position picked) (hlag : position + capacity < log.length) :
    Reads log capacity start (log.length - capacity) picked where
  forth := by
    have hforth := hreads.forth
    omega
  sent := Nat.sub_le _ _
  picks := by
    refine hreads.picks.trans (List.Sublist.drop ?_ _)
    exact (List.take_prefix_take_left (by omega)).sublist
  whole hshort := by
    have hforth := hreads.forth
    omega

theorem Reads.sublist (hreads : Reads log capacity start position picked) : picked.Sublist (log.drop start) :=
  hreads.picks.trans ((List.take_sublist _ _).drop _)

theorem Reads.initial_of_short (hreads : Reads log capacity start position picked)
    (hshort : log.length ≤ start + capacity) : picked <+: log.drop start := by
  rw [hreads.whole hshort, List.drop_take]
  exact List.take_prefix _ _

end Reading

section Followed

variable {bus : EventBus} {connection : Connection} {task next : StreamTask} {yielded : Option EventMessage}
  {told waiting : List (DomainEvent × Nat)}

/-- The events a task has yet to flush. -/
def StreamTask.batch (task : StreamTask) : List DomainEvent :=
  match task.phase with
  | .gathering batch => batch
  | .flushing _ batch => batch
  | _ => []

/-- A prompt for an event, stamped no earlier than it was published. -/
def Prompts (prompt : DomainEventPayload × Nat) (sent : DomainEvent × Nat) : Prop :=
  prompt.1 = event_payload sent.1 ∧ sent.2 ≤ prompt.2

/-- What the bus sent has been published. -/
def EventBus.Published (bus : EventBus) : Prop := ∀ sent ∈ bus.sent, sent.2 ≤ bus.generation

/-- What a task read, split at what it told the client. -/
structure Followed (bus : EventBus) (connection : Connection) (task : StreamTask)
    (told waiting : List (DomainEvent × Nat)) : Prop where
  reads : Reads bus.sent bus.capacity connection.subscribed task.position (told ++ waiting)
  prompts : List.Forall₂ Prompts ((connection.heard ++ connection.channel).flatMap EventMessage.prompt) told
  holds : task.batch = waiting.map Prod.fst
  stamped : ∀ generation batch, task.phase = .flushing generation batch → ∀ sent ∈ waiting, sent.2 ≤ generation

/-- The connection after a step of its task. -/
def Connection.polled (connection : Connection) (next : StreamTask) (yielded : Option EventMessage) : Connection :=
  { connection with task := some next, channel := connection.channel ++ yielded.toList }

theorem prompts_polled (connection : Connection) (next : StreamTask) (yielded : Option EventMessage) :
    ((connection.polled next yielded).heard ++ (connection.polled next yielded).channel).flatMap EventMessage.prompt =
      (connection.heard ++ connection.channel).flatMap EventMessage.prompt ++
        yielded.toList.flatMap EventMessage.prompt := by
  rw [← List.flatMap_append, List.append_assoc]
  rfl

theorem Followed.published (hfollowed : Followed bus connection task told waiting) (hpublished : bus.Published)
    {sent : DomainEvent × Nat} (hmem : sent ∈ waiting) : sent.2 ≤ bus.generation := by
  refine hpublished sent (List.mem_of_mem_drop (hfollowed.reads.sublist.subset ?_))
  exact List.mem_append_right _ hmem

theorem Followed.silent (hfollowed : Followed bus connection task told waiting)
    (hsilent : yielded.toList.flatMap EventMessage.prompt = []) :
    List.Forall₂ Prompts
      (((connection.polled next yielded).heard ++ (connection.polled next yielded).channel).flatMap
        EventMessage.prompt) told := by
  rw [prompts_polled, hsilent, List.append_nil]
  exact hfollowed.prompts

/-- One step of a task reads on, or tells the client the oldest event it holds. -/
theorem Followed.polled (hfollowed : Followed bus connection task told waiting) (hpublished : bus.Published)
    (hpolls : Polls bus task next yielded) :
    ∃ told waiting, Followed bus (connection.polled next yielded) next told waiting := by
  cases hpolls with
  | greet => exact ⟨told, waiting, hfollowed.reads, hfollowed.silent rfl, hfollowed.holds, fun _ _ h => nomatch h⟩
  | beat => exact ⟨told, waiting, hfollowed.reads, hfollowed.silent rfl, hfollowed.holds, fun _ _ h => nomatch h⟩
  | @first position sent hkept hsent =>
    have hempty : waiting = [] := List.map_eq_nil_iff.mp hfollowed.holds.symm
    subst hempty
    refine ⟨told, [sent], ?_, hfollowed.silent rfl, rfl, fun _ _ h => nomatch h⟩
    have hread := hfollowed.reads.next hsent
    rwa [List.append_nil] at hread
  | lag hlag =>
    exact ⟨told, waiting, hfollowed.reads.lag hlag, hfollowed.silent rfl, hfollowed.holds, fun _ _ h => nomatch h⟩
  | @more position batch sent hkept hsent =>
    refine ⟨told, waiting ++ [sent], ?_, hfollowed.silent rfl, ?_, fun _ _ h => nomatch h⟩
    · have hread := hfollowed.reads.next hsent
      rwa [List.append_assoc] at hread
    · rw [List.map_append, ← hfollowed.holds]
      rfl
  | gathered =>
    refine ⟨told, waiting, hfollowed.reads, hfollowed.silent rfl, hfollowed.holds, fun generation batch hphase sent hmem => ?_⟩
    cases hphase
    exact hfollowed.published hpublished hmem
  | cut hlag =>
    refine ⟨told, waiting, hfollowed.reads.lag hlag, hfollowed.silent rfl, hfollowed.holds,
      fun generation batch hphase sent hmem => ?_⟩
    cases hphase
    exact hfollowed.published hpublished hmem
  | flushed => exact ⟨told, waiting, hfollowed.reads, hfollowed.silent rfl, hfollowed.holds, fun _ _ h => nomatch h⟩
  | @flush position generation event batch =>
    obtain ⟨sent, rest, rfl, hsent, hrest⟩ := List.map_eq_cons_iff.mp hfollowed.holds.symm
    refine ⟨told ++ [sent], rest, ?_, ?_, hrest.symm, fun other left hphase later hlater => ?_⟩
    · have hreads := hfollowed.reads
      rwa [List.append_cons] at hreads
    · rw [prompts_polled]
      refine List.rel_append hfollowed.prompts (.cons ⟨congrArg event_payload hsent.symm, ?_⟩ .nil)
      exact hfollowed.stamped generation (event :: batch) rfl sent List.mem_cons_self
    · cases hphase
      exact hfollowed.stamped generation (event :: batch) rfl later (List.mem_cons_of_mem _ hlater)

end Followed

section Prompted

variable {capacity : Nat} {run_id : Nat → String} {system after : System} {action : Action} {connection : Connection}

/-- Every event was published before it is sent, and a source of this launch is
    followed by its task. -/
structure Prompted (system : System) : Prop where
  published : system.bus.Published
  publishers : ∀ publisher ∈ system.publishers, ∀ sent ∈ publisher, sent.2 ≤ system.bus.generation
  heard : ∀ connection, system.connection = some connection →
    ∃ earlier, system.window.prompts = earlier ++ connection.heard.flatMap EventMessage.prompt
  followed : ∀ connection, system.connection = some connection → connection.launch = system.launch →
    ∃ task told waiting, connection.task = some task ∧ Followed system.bus connection task told waiting

/-- A step that sends nothing and leaves the connection. -/
theorem Prompted.kept (hprompted : Prompted system) (hsent : after.bus.sent = system.bus.sent)
    (hcapacity : after.bus.capacity = system.bus.capacity) (hgeneration : system.bus.generation ≤ after.bus.generation)
    (hpublishers : ∀ publisher ∈ after.publishers, ∀ sent ∈ publisher, sent.2 ≤ after.bus.generation)
    (hconnection : after.connection = system.connection) (hlaunch : after.launch = system.launch)
    (hprompts : after.window.prompts = system.window.prompts) : Prompted after where
  published sent hmem := (hprompted.published sent (hsent ▸ hmem)).trans hgeneration
  publishers := hpublishers
  heard connection hsome := hprompts ▸ hprompted.heard connection (hconnection ▸ hsome)
  followed connection hsome hsame := by
    obtain ⟨task, told, waiting, htask, hfollowed⟩ :=
      hprompted.followed connection (hconnection ▸ hsome) (hsame.trans hlaunch)
    refine ⟨task, told, waiting, htask, ?_, hfollowed.prompts, hfollowed.holds, hfollowed.stamped⟩
    rw [hsent, hcapacity]
    exact hfollowed.reads

theorem prompted_moves (hmoves : Moves run_id system action after)
    (hserved : ∀ connection, system.connection = some connection → Served run_id system connection)
    (hprompted : Prompted system) : Prompted after := by
  cases hmoves with
  | idle => exact hprompted
  | publish =>
    refine hprompted.kept rfl rfl (Nat.le_succ _) (fun publisher hpublisher sent hmem => ?_) rfl rfl rfl
    obtain hpublisher | hpublisher := List.mem_append.mp hpublisher
    · exact (hprompted.publishers publisher hpublisher sent hmem).trans (Nat.le_succ _)
    · cases List.mem_singleton.mp hpublisher
      obtain ⟨event, _, rfl⟩ := List.mem_map.mp hmem
      exact le_rfl
  | bump =>
    exact hprompted.kept rfl rfl (Nat.le_succ _) (fun publisher hpublisher sent hmem =>
      (hprompted.publishers publisher hpublisher sent hmem).trans (Nat.le_succ _)) rfl rfl rfl
  | @send index event events hpublisher =>
    have hbatch := hprompted.publishers _ (List.mem_of_getElem? hpublisher)
    exact {
      published := fun sent hmem => by
        obtain hmem | hmem := List.mem_append.mp hmem
        · exact hprompted.published sent hmem
        · cases List.mem_singleton.mp hmem
          exact hbatch event List.mem_cons_self
      publishers := fun publisher hmem sent hsent => by
        obtain hmem | rfl := List.mem_or_eq_of_mem_set hmem
        · exact hprompted.publishers publisher hmem sent hsent
        · exact hbatch sent (List.mem_cons_of_mem _ hsent)
      heard := hprompted.heard
      followed := fun connection hconnection hlaunch => by
        obtain ⟨task, told, waiting, htask, hfollowed⟩ := hprompted.followed connection hconnection hlaunch
        exact ⟨task, told, waiting, htask, hfollowed.reads.grow [event], hfollowed.prompts, hfollowed.holds,
          hfollowed.stamped⟩ }
  | restart =>
    exact {
      published := fun sent hmem => absurd hmem List.not_mem_nil
      publishers := fun publisher hmem => absurd hmem List.not_mem_nil
      heard := fun connection hconnection => by
        obtain ⟨before, hbefore, rfl⟩ := Option.map_eq_some_iff.mp hconnection
        exact hprompted.heard before hbefore
      followed := fun connection hconnection hlaunch => by
        obtain ⟨before, hbefore, rfl⟩ := Option.map_eq_some_iff.mp hconnection
        exact absurd hlaunch (Nat.ne_of_lt (Nat.lt_succ_of_le (hserved before hbefore).past)) }
  | command hpast => exact hprompted.kept rfl rfl le_rfl hprompted.publishers rfl rfl rfl
  | @reply reply accepted hreply =>
    have hprompts : (system.window.runCommand accepted.2).prompts = system.window.prompts := by
      unfold Client.runCommand Client.observeGeneration Client.invalidateQueries
      split_ifs <;> rfl
    exact hprompted.kept rfl rfl le_rfl hprompted.publishers rfl rfl hprompts
  | accept hsource hnone =>
    exact {
      published := hprompted.published
      publishers := hprompted.publishers
      heard := fun connection hconnection => by
        cases hconnection
        exact ⟨system.window.prompts, (List.append_nil _).symm⟩
      followed := fun connection hconnection hlaunch => by
        cases hconnection
        exact ⟨_, [], [], rfl, .begin, .nil, rfl, fun _ _ h => nomatch h⟩ }
  | poll hconnection htask hpoll =>
    exact {
      published := hprompted.published
      publishers := hprompted.publishers
      heard := fun other hother => by
        cases hother
        obtain ⟨earlier, hearlier⟩ := hprompted.heard _ hconnection
        exact ⟨earlier, hearlier⟩
      followed := fun other hother hlaunch => by
        cases hother
        obtain ⟨task, told, waiting, hsame, hfollowed⟩ := hprompted.followed _ hconnection hlaunch
        cases htask.symm.trans hsame
        obtain ⟨told, waiting, hnext⟩ := hfollowed.polled hprompted.published (polls_of_poll hpoll)
        exact ⟨_, told, waiting, rfl, hnext⟩ }
  | opened hconnection hopened =>
    exact {
      published := hprompted.published
      publishers := hprompted.publishers
      heard := fun other hother => by
        cases hother
        obtain ⟨earlier, hearlier⟩ := hprompted.heard _ hconnection
        exact ⟨earlier, (setStatus_prompts _).trans hearlier⟩
      followed := fun other hother hlaunch => by
        cases hother
        obtain ⟨task, told, waiting, htask, hfollowed⟩ := hprompted.followed _ hconnection hlaunch
        exact ⟨task, told, waiting, htask, hfollowed.reads, hfollowed.prompts, hfollowed.holds, hfollowed.stamped⟩ }
  | @deliver connection msg channel hconnection hopened hchannel =>
    have hprompts : (system.window.handleMessage msg).prompts = system.window.prompts ++ msg.prompt := by
      by_cases htakes : System.takes system.window.stream msg = true
      · rw [handleMessage_taken htakes]
      · rw [handleMessage_known htakes]
    exact {
      published := hprompted.published
      publishers := hprompted.publishers
      heard := fun other hother => by
        cases hother
        obtain ⟨earlier, hearlier⟩ := hprompted.heard _ hconnection
        refine ⟨earlier, hprompts.trans ?_⟩
        rw [hearlier, List.append_assoc, List.flatMap_append, List.flatMap_singleton]
      followed := fun other hother hlaunch => by
        cases hother
        obtain ⟨task, told, waiting, htask, hfollowed⟩ := hprompted.followed _ hconnection hlaunch
        refine ⟨task, told, waiting, htask, hfollowed.reads, ?_, hfollowed.holds, hfollowed.stamped⟩
        have hpast := hfollowed.prompts
        rwa [hchannel, List.append_cons] at hpast }
  | fail hsource =>
    exact ⟨hprompted.published, hprompted.publishers, fun _ h => (nomatch h), fun _ h => nomatch h⟩
  | reconnect htimer =>
    have hprompts : system.window.onReconnectTimer.prompts = system.window.prompts := by
      unfold Client.onReconnectTimer Client.connect
      split_ifs <;> rfl
    exact hprompted.kept rfl rfl le_rfl hprompted.publishers rfl rfl hprompts
  | debounce hbridge => exact hprompted.kept rfl rfl le_rfl hprompted.publishers rfl rfl rfl
  | mount hbridge => exact hprompted.kept rfl rfl le_rfl hprompted.publishers rfl rfl rfl
  | close => exact ⟨hprompted.published, hprompted.publishers, fun _ h => (nomatch h), fun _ h => nomatch h⟩

theorem prompted_of_reachable (hreach : Reachable (live capacity run_id) unguarded system) : Prompted system := by
  refine hreach.invariant_of (fun _ hknown => sound_of_reachable hknown) (fun state hopens => ?_)
    fun _ _ _ hsound hprompted _ hstep => prompted_moves (moves_of_step hstep) hsound.served hprompted
  obtain ⟨_, _, hpublished, hpublishers, _, hnone, _⟩ := hopens
  exact ⟨hpublished, hpublishers, fun _ h => (nomatch hnone.symm.trans h), fun _ h => nomatch hnone.symm.trans h⟩

theorem forall2_exists_of_mem {α β : Type} {relation : α → β → Prop} {first : List α} {second : List β} {item : β}
    (hrelated : List.Forall₂ relation first second) (hmem : item ∈ second) : ∃ other ∈ first, relation other item := by
  induction hrelated with
  | nil => exact absurd hmem List.not_mem_nil
  | cons hhead _ ih =>
    obtain rfl | hmem := List.mem_cons.mp hmem
    · exact ⟨_, List.mem_cons_self, hhead⟩
    · obtain ⟨other, hother, hrelation⟩ := ih hmem
      exact ⟨other, List.mem_cons_of_mem _ hother, hrelation⟩

end Prompted

end posthaste.client.event_stream
