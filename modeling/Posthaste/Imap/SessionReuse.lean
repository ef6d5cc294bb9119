import Posthaste.Imap.SessionSlot

namespace posthaste.imap

open TransitionSystem

variable {ρ : Type}

/-- The slot holds a connection that owes the replies to these commands and no other. -/
def SessionSlot.Owes (slot : SessionSlot) (outstanding : List SessionCommand) : Prop :=
  ∃ client, slot.client = some client ∧ client.outstanding = outstanding

/-- The epoch tells how often the session moved since IDLE examined the mailbox,
    and one that has not moved still has it selected. -/
def SessionSlot.Watches (slot : SessionSlot) (mailbox_name : String) (moved : Nat) : Prop :=
  ∀ examined, slot.idle_examined_at_epoch = some examined →
    slot.epoch = examined + BitVec.ofNat 64 moved ∧
      (moved = 0 → ∀ client, slot.client = some client → client.selected = some mailbox_name)

namespace SessionLease

theorem pending_of_fatal {lease : SessionLease ρ} (hfatal : lease.fatal = true) : lease.pending = none := by
  cases lease with
  | finish operation =>
    cases operation with
    | done result => rfl
    | command operation issued next => cases hfatal
  | finish_gateway operation =>
    cases operation with
    | done result => rfl
    | command operation issued next => cases hfatal

/-- An operation that gets no reply to its command ends with a fatal error. -/
theorem fatal_resume {lease : SessionLease ρ} {command : SessionCommand} {outcome : Outcome ρ}
    (hpending : lease.pending = some command)
    (hlost : outcome = .elapsed ∨ ∃ error, outcome = .broken error) : (lease.resume outcome).fatal = true := by
  cases lease with
  | finish operation =>
    cases operation with
    | done result => cases hpending
    | command operation issued next => obtain rfl | ⟨error, rfl⟩ := hlost <;> rfl
  | finish_gateway operation =>
    cases operation with
    | done result => cases hpending
    | command operation issued next => obtain rfl | ⟨error, rfl⟩ := hlost <;> rfl

end SessionLease

namespace SessionSlot

variable {slot : SessionSlot} {mailbox_name : String} {moved : Nat} {command : SessionCommand}

theorem Owes.send (howes : slot.Owes []) : (slot.send command).Owes [command] := by
  obtain ⟨client, hclient, houtstanding⟩ := howes
  refine ⟨client.send command, congrArg (Option.map _) hclient, ?_⟩
  rw [ImapClient.send, houtstanding]
  rfl

/-- A wait that ends in a tagged reply leaves nothing to be read. -/
theorem Owes.settle {outcome : Outcome ρ} (howes : slot.Owes [command]) :
    (slot.settle command outcome).Owes [] ∨ outcome = .elapsed ∨ ∃ error, outcome = .broken error := by
  obtain ⟨client, hclient, houtstanding⟩ := howes
  have hread : ∀ accepted, (client.receive command accepted).outstanding = [] := by
    intro accepted
    rw [ImapClient.receive, houtstanding]
    exact List.erase_cons_head (command) []
  cases outcome with
  | replied reply => exact .inl ⟨_, congrArg (Option.map _) hclient, hread true⟩
  | refused error => exact .inl ⟨_, congrArg (Option.map _) hclient, hread false⟩
  | broken error => exact .inr (.inr ⟨error, rfl⟩)
  | elapsed => exact .inr (.inl rfl)

theorem watches_of_unexamined (hunexamined : slot.idle_examined_at_epoch = none) : slot.Watches mailbox_name moved := by
  intro examined hexamined
  rw [hunexamined] at hexamined
  cases hexamined

theorem Watches.sweep_dirty (hwatches : slot.Watches mailbox_name moved) :
    slot.sweep_dirty.Watches mailbox_name moved := by
  unfold SessionSlot.sweep_dirty
  split_ifs
  · exact watches_of_unexamined rfl
  · exact hwatches

theorem Watches.checkOut (hwatches : slot.Watches mailbox_name moved) :
    slot.checkOut.Watches mailbox_name (moved + 1) := by
  intro examined hexamined
  obtain ⟨hepoch, -⟩ := hwatches examined hexamined
  refine ⟨?_, fun hzero => absurd hzero (Nat.succ_ne_zero moved)⟩
  show slot.epoch + 1 = _
  rw [hepoch, BitVec.ofNat_add, BitVec.add_assoc]
  rfl

theorem Watches.send (hwatches : slot.Watches mailbox_name moved) :
    (slot.send command).Watches mailbox_name moved := by
  intro examined hexamined
  obtain ⟨hepoch, hselected⟩ := hwatches examined hexamined
  refine ⟨hepoch, fun hzero client hclient => ?_⟩
  obtain ⟨held, hheld, rfl⟩ := Option.map_eq_some_iff.1 hclient
  exact hselected hzero held hheld

theorem Watches.settle {outcome : Outcome ρ} (hwatches : slot.Watches mailbox_name moved) (hmoved : 0 < moved) :
    (slot.settle command outcome).Watches mailbox_name moved :=
  fun examined hexamined => ⟨(hwatches examined hexamined).1, fun hzero => absurd hzero (Nat.ne_of_gt hmoved)⟩

/-- IDLE leaves the selected mailbox alone. -/
theorem Watches.settleIdle {outcome : Outcome ρ} (hwatches : slot.Watches mailbox_name moved) :
    (slot.settle .idle outcome).Watches mailbox_name moved := by
  intro examined hexamined
  obtain ⟨hepoch, hselected⟩ := hwatches examined hexamined
  refine ⟨hepoch, fun hzero client hclient => ?_⟩
  obtain ⟨held, hheld, rfl⟩ := Option.map_eq_some_iff.1 hclient
  have hsame : (outcome.settle held .idle).selected = held.selected := by cases outcome <;> rfl
  exact hsame.trans (hselected hzero held hheld)

theorem Watches.finish (hwatches : slot.Watches mailbox_name moved) (lease : SessionLease ρ) :
    (slot.finish lease).Watches mailbox_name moved := by
  unfold SessionSlot.finish
  dsimp only
  split_ifs
  · exact watches_of_unexamined rfl
  · exact hwatches

/-- After the sweep no reply is still to come. -/
theorem clean_sweep_dirty (hclean : slot.dirty = false → slot.client.isNone ∨ slot.Owes []) :
    slot.sweep_dirty.dirty = false ∧ (slot.sweep_dirty.client.isNone ∨ slot.sweep_dirty.Owes []) := by
  unfold SessionSlot.sweep_dirty
  split_ifs with hdirty
  · exact ⟨rfl, .inl rfl⟩
  · have hdirty : slot.dirty = false := Bool.eq_false_iff.2 hdirty
    exact ⟨hdirty, hclean hdirty⟩

end SessionSlot

namespace ImapSessionManager

variable {mailbox_name : String} {manager after : ImapSessionManager ρ}

/-- A session owes no reply where it is handed over, and no more than the one awaited where it is used. -/
structure InStep (mailbox_name : String) (manager : ImapSessionManager ρ) : Prop where
  granted : ∀ lease, manager.holder = .granted lease → manager.slot.Owes []
  held : manager.holder = .held → manager.slot.Owes []
  awaiting : ∀ lease, manager.holder = .running lease true →
    ∃ command, lease.pending = some command ∧ manager.slot.Owes [command]
  examining : manager.holder = .examining → manager.slot.Owes [.examine mailbox_name]
  idling : manager.holder = .idling → manager.slot.Owes [.idle]

/-- IDLE is issued with the mailbox selected. -/
def IdlesOver (mailbox_name : String) (manager : ImapSessionManager ρ) : Prop :=
  manager.holder = .idling → ∃ client, manager.slot.client = some client ∧ client.selected = some mailbox_name

/-- An IDLE hold begins before the epoch has come round to where it examined. -/
def BeforeWrap (manager : ImapSessionManager ρ) : SessionStep ρ → Prop
  | .idle_hold => manager.moved < 2 ^ 64
  | _ => True

/-- What each holder of the mutex knows of the slot. -/
def Knows (mailbox_name : String) (slot : SessionSlot) (moved : Nat) : Holder ρ → Prop
  | .free => slot.dirty = false → slot.client.isNone ∨ slot.Owes []
  | .connecting _ => slot.dirty = false ∧ slot.client.isNone
  | .granted _ => slot.dirty = true ∧ 0 < moved ∧ slot.Owes []
  | .running lease false => slot.dirty = true ∧ 0 < moved ∧ (slot.Owes [] ∨ lease.fatal = true)
  | .running lease true => slot.dirty = true ∧ 0 < moved ∧
    ∃ command, lease.pending = some command ∧ slot.Owes [command]
  | .held => slot.dirty = true ∧ slot.Owes []
  | .examining => slot.dirty = true ∧ slot.Owes [.examine mailbox_name]
  | .idling => slot.dirty = true ∧ slot.Owes [.idle] ∧ slot.idle_examined_at_epoch = some slot.epoch

structure Invariant (mailbox_name : String) (manager : ImapSessionManager ρ) : Prop where
  knows : Knows mailbox_name manager.slot manager.moved manager.holder
  watches : manager.slot.Watches mailbox_name manager.moved

theorem Invariant.inStep (hinv : Invariant mailbox_name manager) : InStep mailbox_name manager := by
  obtain ⟨hknows, -⟩ := hinv
  refine ⟨fun lease hholder => ?_, fun hholder => ?_, fun lease hholder => ?_, fun hholder => ?_, fun hholder => ?_⟩
  all_goals rw [hholder] at hknows
  · exact hknows.2.2
  · exact hknows.2
  · exact hknows.2.2
  · exact hknows.2
  · exact hknows.2.1

theorem invariant_new : Invariant mailbox_name (new : ImapSessionManager ρ) where
  knows _ := .inl rfl
  watches := SessionSlot.watches_of_unexamined rfl

/-- Only an idle slot stays as it is when its holder goes away. -/
theorem Invariant.dropped (hinv : Invariant mailbox_name manager) :
    Invariant mailbox_name ({ manager with holder := .free } : ImapSessionManager ρ) := by
  refine ⟨fun hdirty => ?_, hinv.watches⟩
  have hknows := hinv.knows
  have hnot : manager.slot.dirty ≠ true := Bool.eq_false_iff.1 hdirty
  cases hholder : manager.holder with
  | free => rw [hholder] at hknows; exact hknows hdirty
  | connecting lease => rw [hholder] at hknows; exact .inl hknows.2
  | running lease awaiting =>
    rw [hholder] at hknows
    cases awaiting with
    | false => exact absurd hknows.1 hnot
    | true => exact absurd hknows.1 hnot
  | granted | held | examining | idling => rw [hholder] at hknows; exact absurd hknows.1 hnot

theorem invariant_grant (lease : SessionLease ρ) (howes : manager.slot.Owes [])
    (hwatches : manager.slot.Watches mailbox_name manager.moved) : Invariant mailbox_name (manager.grant lease) where
  knows := ⟨rfl, Nat.succ_pos _, howes⟩
  watches := hwatches.checkOut

theorem invariant_hold (howes : manager.slot.Owes [])
    (hwatches : manager.slot.Watches mailbox_name manager.moved) : Invariant mailbox_name manager.hold where
  knows := ⟨rfl, howes⟩
  watches := hwatches

theorem Invariant.acquire (hinv : Invariant mailbox_name manager) (hholder : manager.holder = .free)
    (lease : SessionLease ρ) (now : Nat) : Invariant mailbox_name (manager.acquire lease now) := by
  have hknows := hinv.knows
  rw [hholder] at hknows
  obtain ⟨hdirty, hclean⟩ := SessionSlot.clean_sweep_dirty hknows
  unfold ImapSessionManager.acquire
  dsimp only
  split_ifs with hclient hbackoff
  · exact ⟨by rw [hholder]; exact fun _ => .inl hclient, hinv.watches.sweep_dirty⟩
  · exact ⟨⟨hdirty, hclient⟩, hinv.watches.sweep_dirty⟩
  · exact invariant_grant lease (hclean.resolve_left hclient) hinv.watches.sweep_dirty

theorem Invariant.idle_wait (hinv : Invariant mailbox_name manager) (hholder : manager.holder = .free) (now : Nat)
    (slept : Bool) : Invariant mailbox_name (manager.idle_wait now slept) := by
  have hknows := hinv.knows
  rw [hholder] at hknows
  obtain ⟨hdirty, hclean⟩ := SessionSlot.clean_sweep_dirty hknows
  unfold ImapSessionManager.idle_wait
  dsimp only
  split_ifs with hclient hbackoff
  · exact ⟨by rw [hholder]; exact fun _ => .inl hclient, hinv.watches.sweep_dirty⟩
  · exact ⟨⟨hdirty, hclient⟩, hinv.watches.sweep_dirty⟩
  · exact invariant_hold (hclean.resolve_left hclient) hinv.watches.sweep_dirty

theorem invariant_connect_ok (manager : ImapSessionManager ρ) (lease : Option (SessionLease ρ)) :
    Invariant mailbox_name (manager.connect_ok lease) := by
  have howes : manager.slot.connect_into_ok.Owes [] := ⟨.connected, rfl, rfl⟩
  cases lease with
  | some lease => exact invariant_grant lease howes (SessionSlot.watches_of_unexamined rfl)
  | none => exact invariant_hold howes (SessionSlot.watches_of_unexamined rfl)

theorem Invariant.run {lease : SessionLease ρ} (hinv : Invariant mailbox_name manager)
    (hdirty : manager.slot.dirty = true) (hmoved : 0 < manager.moved)
    (howes : manager.slot.Owes [] ∨ lease.fatal = true) (hrun : manager.run lease = some after) :
    Invariant mailbox_name after := by
  obtain ⟨command, hpending, rfl⟩ := Option.map_eq_some_iff.1 hrun
  have howes : manager.slot.Owes [] := howes.resolve_right fun hfatal => by
    rw [SessionLease.pending_of_fatal hfatal] at hpending
    cases hpending
  exact ⟨⟨hdirty, hmoved, command, hpending, howes.send⟩, hinv.watches.send⟩

theorem Invariant.settle {lease : SessionLease ρ} {outcome : Outcome ρ} (hinv : Invariant mailbox_name manager)
    (hholder : manager.holder = .running lease true) (hsettle : manager.settle lease outcome = some after) :
    Invariant mailbox_name after := by
  have hknows := hinv.knows
  rw [hholder] at hknows
  obtain ⟨hdirty, hmoved, awaited, hawaited, howes⟩ := hknows
  obtain ⟨command, hpending, rfl⟩ := Option.map_eq_some_iff.1 hsettle
  rw [hawaited] at hpending
  cases hpending
  exact ⟨⟨hdirty, hmoved, howes.settle.imp_right (SessionLease.fatal_resume hawaited)⟩, hinv.watches.settle hmoved⟩

theorem Invariant.finish {lease : SessionLease ρ} (hinv : Invariant mailbox_name manager)
    (howes : manager.slot.Owes [] ∨ lease.fatal = true) (hfinish : manager.finish lease = some after) :
    Invariant mailbox_name after := by
  unfold ImapSessionManager.finish at hfinish
  split_ifs at hfinish
  cases hfinish
  refine ⟨fun _ => ?_, hinv.watches.finish lease⟩
  unfold SessionSlot.finish
  dsimp only
  split_ifs with hfatal
  · exact .inl rfl
  · exact .inr (howes.resolve_right hfatal)

theorem invariant_holdFailed (manager : ImapSessionManager ρ) : Invariant mailbox_name manager.holdFailed where
  knows _ := .inl rfl
  watches := SessionSlot.watches_of_unexamined rfl

theorem Invariant.idle_hold (hinv : Invariant mailbox_name manager) (hholder : manager.holder = .held) :
    Invariant mailbox_name (manager.idle_hold mailbox_name) := by
  have hknows := hinv.knows
  rw [hholder] at hknows
  obtain ⟨hdirty, howes⟩ := hknows
  unfold ImapSessionManager.idle_hold
  split_ifs with hexamined
  · exact ⟨⟨hdirty, howes.send⟩, hinv.watches.send⟩
  · exact ⟨⟨hdirty, howes.send, not_not.1 hexamined⟩, hinv.watches.send⟩

/-- Below the wrap an epoch that has come back has not moved. -/
theorem Invariant.unmoved (hinv : Invariant mailbox_name manager) (hwrap : manager.moved < 2 ^ 64)
    (hexamined : manager.slot.idle_examined_at_epoch = some manager.slot.epoch) : manager.moved = 0 := by
  obtain ⟨hepoch, -⟩ := hinv.watches _ hexamined
  have hofNat : BitVec.ofNat 64 manager.moved = 0 := by simpa using hepoch
  have htoNat := congrArg BitVec.toNat hofNat
  rw [BitVec.toNat_ofNat, Nat.mod_eq_of_lt hwrap] at htoNat
  exact htoNat

theorem Invariant.examined (hinv : Invariant mailbox_name manager) (hholder : manager.holder = .examining)
    (outcome : Outcome ρ) : Invariant mailbox_name (manager.examined mailbox_name outcome) := by
  have hknows := hinv.knows
  rw [hholder] at hknows
  obtain ⟨hdirty, client, hclient, houtstanding⟩ := hknows
  cases outcome with
  | replied reply =>
    have hsettled : (manager.slot.settle (.examine mailbox_name) (.replied reply)).client =
        some ⟨[], some mailbox_name⟩ := by
      rw [SessionSlot.settle, hclient, Option.map_some, Outcome.settle, ImapClient.receive, houtstanding]
      simp [SessionCommand.selects]
    have hidle : (manager.examined mailbox_name (.replied reply)).slot.client =
        some ⟨[.idle], some mailbox_name⟩ :=
      congrArg (Option.map fun client : ImapClient => client.send .idle) hsettled
    refine ⟨⟨hdirty, ⟨_, hidle, rfl⟩, rfl⟩, fun examined hexamined => ?_⟩
    cases hexamined
    refine ⟨(BitVec.add_zero _).symm, fun _ settled hclient => ?_⟩
    rw [hidle] at hclient
    cases hclient
    rfl
  | refused error => exact invariant_holdFailed _
  | broken error => exact invariant_holdFailed _
  | elapsed => exact invariant_holdFailed _

theorem Invariant.idleEnded (hinv : Invariant mailbox_name manager) (hholder : manager.holder = .idling)
    (outcome : Outcome Unit) : Invariant mailbox_name (manager.idleEnded outcome) := by
  have hknows := hinv.knows
  rw [hholder] at hknows
  obtain ⟨hdirty, howes, -⟩ := hknows
  have hread := @SessionSlot.Owes.settle _ _ _ outcome howes
  have hwatches := @SessionSlot.Watches.settleIdle _ _ _ _ outcome hinv.watches
  cases outcome with
  | replied reply => exact ⟨fun _ => .inr (hread.resolve_right (by simp)), hwatches⟩
  | refused error => exact ⟨fun _ => .inr (hread.resolve_right (by simp)), hwatches⟩
  | broken error => exact invariant_holdFailed _
  | elapsed => exact invariant_holdFailed _

theorem Invariant.step {action : SessionStep ρ} (hinv : Invariant mailbox_name manager)
    (hstep : step mailbox_name manager action = some after) :
    Invariant mailbox_name after := by
  have hknows := hinv.knows
  unfold ImapSessionManager.step at hstep
  split at hstep
  case h_1 hholder => cases hstep; exact hinv.acquire hholder _ _
  case h_2 hholder => cases hstep; exact hinv.idle_wait hholder _ _
  case h_3 => cases hstep; exact invariant_connect_ok _ _
  case h_4 hholder =>
    cases hstep
    rw [hholder] at hknows
    exact ⟨fun _ => .inl hknows.2, hinv.watches⟩
  case h_5 hholder =>
    rw [hholder] at hknows
    exact hinv.run hknows.1 hknows.2.1 (.inl hknows.2.2) hstep
  case h_6 hholder =>
    rw [hholder] at hknows
    exact hinv.finish (.inl hknows.2.2) hstep
  case h_7 hholder =>
    rw [hholder] at hknows
    exact hinv.run hknows.1 hknows.2.1 hknows.2.2 hstep
  case h_8 hholder =>
    rw [hholder] at hknows
    exact hinv.finish hknows.2.2 hstep
  case h_9 hholder => exact hinv.settle hholder hstep
  case h_10 hholder => cases hstep; exact hinv.idle_hold hholder
  case h_11 hholder => cases hstep; exact hinv.examined hholder _
  case h_12 hholder => cases hstep; exact hinv.idleEnded hholder _
  case h_13 => cases hstep
  case h_14 => cases hstep; exact hinv.dropped
  case h_15 => cases hstep

theorem invariant_reachable {guard : ImapSessionManager ρ → SessionStep ρ → Prop}
    (hreach : (sessions mailbox_name).Reachable guard manager) : Invariant mailbox_name manager :=
  hreach.invariant (fun _ hstart => hstart ▸ invariant_new) fun _ _ _ hinv _ hstep => hinv.step hstep

/-- IDLE is issued by a hold, at once or after its EXAMINE. -/
theorem step_idling {action : SessionStep ρ} (hstep : step mailbox_name manager action = some after)
    (hidling : after.holder = .idling) :
    (action = .idle_hold ∧ after = manager.idle_hold mailbox_name) ∨
      ∃ outcome, after = manager.examined mailbox_name outcome := by
  unfold ImapSessionManager.step at hstep
  split at hstep
  case h_1 hholder =>
    cases hstep
    unfold ImapSessionManager.acquire at hidling
    dsimp only at hidling
    split_ifs at hidling
    · rw [hholder] at hidling
      cases hidling
    · cases hidling
  case h_2 hholder =>
    cases hstep
    unfold ImapSessionManager.idle_wait at hidling
    dsimp only at hidling
    split_ifs at hidling
    · rw [hholder] at hidling
      cases hidling
    · cases hidling
  case h_3 lease _ => cases hstep; cases lease <;> cases hidling
  case h_4 => cases hstep; cases hidling
  case h_5 => obtain ⟨_, _, rfl⟩ := Option.map_eq_some_iff.1 hstep; cases hidling
  case h_6 => unfold ImapSessionManager.finish at hstep; split_ifs at hstep; cases hstep; cases hidling
  case h_7 => obtain ⟨_, _, rfl⟩ := Option.map_eq_some_iff.1 hstep; cases hidling
  case h_8 => unfold ImapSessionManager.finish at hstep; split_ifs at hstep; cases hstep; cases hidling
  case h_9 => obtain ⟨_, _, rfl⟩ := Option.map_eq_some_iff.1 hstep; cases hidling
  case h_10 => cases hstep; exact .inl ⟨rfl, rfl⟩
  case h_11 outcome _ => cases hstep; exact .inr ⟨outcome, rfl⟩
  case h_12 outcome _ => cases hstep; cases outcome <;> cases hidling
  case h_13 => cases hstep
  case h_14 => cases hstep; cases hidling
  case h_15 => cases hstep

/-- A hold that issues IDLE before the epoch wraps does so over a session that has not moved. -/
theorem idling_unmoved {action : SessionStep ρ} (hinv : Invariant mailbox_name manager)
    (hguard : BeforeWrap manager action) (hstep : step mailbox_name manager action = some after)
    (hidling : after.holder = .idling) :
    after.moved = 0 ∧ after.slot.idle_examined_at_epoch = some after.slot.epoch := by
  have hinvAfter := hinv.step hstep
  have hknows := hinvAfter.knows
  rw [hidling] at hknows
  obtain ⟨rfl, rfl⟩ | ⟨outcome, rfl⟩ := step_idling hstep hidling
  · have hmoved : (manager.idle_hold mailbox_name).moved = manager.moved := by
      unfold ImapSessionManager.idle_hold
      split_ifs <;> rfl
    exact ⟨hinvAfter.unmoved (hmoved ▸ hguard) hknows.2.2, hknows.2.2⟩
  · cases outcome with
    | replied reply => exact ⟨rfl, rfl⟩
    | refused error => cases hidling
    | broken error => cases hidling
    | elapsed => cases hidling

theorem idlesOver_reachable (hreach : (sessions mailbox_name).Reachable BeforeWrap manager) :
    IdlesOver mailbox_name manager := by
  refine hreach.invariant_of (fun _ => invariant_reachable) (fun _ hstart hidling => ?_)
    fun manager action after hinv _ hguard hstep hidling => ?_
  · cases hstart
    cases hidling
  · obtain ⟨hmoved, hexamined⟩ := idling_unmoved hinv hguard hstep hidling
    have hinvAfter := hinv.step hstep
    obtain ⟨client, hclient, -⟩ := hinvAfter.inStep.idling hidling
    exact ⟨client, hclient, (hinvAfter.watches _ hexamined).2 hmoved client hclient⟩

/-- No lease and no hold is ever granted over a reply still to come. In a run whose
    IDLE holds begin before the epoch wraps, IDLE watches its mailbox. -/
theorem session_is_synchronised (mailbox_name : String) :
    (∀ manager : ImapSessionManager ρ, (sessions mailbox_name).Reachable unguarded manager →
      InStep mailbox_name manager) ∧
    ∀ manager : ImapSessionManager ρ, (sessions mailbox_name).Reachable BeforeWrap manager →
      IdlesOver mailbox_name manager :=
  ⟨fun _ hreach => (invariant_reachable hreach).inStep, fun _ hreach => idlesOver_reachable hreach⟩

/-- An operation that leaves another mailbox selected. -/
def filing : SessionLease Unit := .finish (.command "examine" (.examine "Archive") fun _ => .done (.ok ()))

/-- A connection with the mailbox selected, and nobody holding it. -/
def rested (selected : String) (epoch : BitVec 64) (moved : Nat) : ImapSessionManager Unit :=
  ⟨⟨some ⟨[], some selected⟩, false, epoch, some 1, 0, none⟩, .free, moved⟩

/-- The first connection, examined for IDLE. -/
def watching : ImapSessionManager Unit := ⟨⟨some ⟨[.idle], some "INBOX"⟩, true, 1, some 1, 0, none⟩, .idling, 0⟩

theorem reachable_next {guard : ImapSessionManager Unit → SessionStep Unit → Prop}
    {manager after : ImapSessionManager Unit} (action : SessionStep Unit)
    (hreach : (sessions "INBOX").Reachable guard manager) (hguard : guard manager action)
    (hstep : step "INBOX" manager action = some after) : (sessions "INBOX").Reachable guard after :=
  .next hreach hguard hstep

theorem watching_reachable : (sessions "INBOX").Reachable BeforeWrap watching := by
  have hconnecting : (sessions "INBOX").Reachable BeforeWrap
      (⟨.empty, .connecting none, 0⟩ : ImapSessionManager Unit) :=
    reachable_next (.idle_wait 0 false) (.start rfl) trivial rfl
  have hheld := reachable_next .connect_ok hconnecting trivial rfl
  have hexamining := reachable_next .idle_hold hheld (show 1 < 2 ^ 64 by decide) rfl
  exact reachable_next (.settle (.replied ())) hexamining trivial rfl

theorem watching_is_synchronised : InStep "INBOX" watching ∧ IdlesOver "INBOX" watching :=
  ⟨(session_is_synchronised "INBOX").1 _ watching_reachable.forget,
    (session_is_synchronised "INBOX").2 _ watching_reachable⟩

/-- One more operation moves the epoch on by one. -/
theorem filing_reachable {selected : String} {epoch : BitVec 64} {moved : Nat}
    (hreach : (sessions "INBOX").Reachable unguarded (rested selected epoch moved)) :
    (sessions "INBOX").Reachable unguarded (rested "Archive" (epoch + 1) (moved + 1)) := by
  have hgranted := reachable_next (.acquire filing 0) hreach trivial rfl
  have hawaiting := reachable_next .run hgranted trivial rfl
  have hreturned := reachable_next (.settle (.replied ())) hawaiting trivial rfl
  exact reachable_next .finish hreturned trivial rfl

theorem filings_reachable (count : Nat) :
    (sessions "INBOX").Reachable unguarded (rested "Archive" (1 + BitVec.ofNat 64 (count + 1)) (count + 1)) := by
  induction count with
  | zero =>
    exact filing_reachable (reachable_next (.idle_end (.replied ())) watching_reachable.forget trivial rfl)
  | succ count ih =>
    have hnext := filing_reachable ih
    have hsum : BitVec.ofNat 64 (count + 1) + 1 = BitVec.ofNat 64 (count + 1 + 1) :=
      (BitVec.ofNat_add (count + 1) 1).symm
    rwa [BitVec.add_assoc, hsum] at hnext

/-- Once the epoch has come round IDLE is issued over the mailbox an operation left. -/
theorem wrapped_epoch_watches_another_mailbox :
    ¬ ∀ (mailbox_name : String) (manager : ImapSessionManager Unit),
      (sessions mailbox_name).Reachable unguarded manager →
        InStep mailbox_name manager ∧ IdlesOver mailbox_name manager := by
  intro hclaim
  have hwrapped : (sessions "INBOX").Reachable unguarded (rested "Archive" 1 (2 ^ 64)) := by
    have hreach := filings_reachable (2 ^ 64 - 1)
    rwa [Nat.sub_add_cancel (Nat.one_le_two_pow), show 1 + BitVec.ofNat 64 (2 ^ 64) = 1 by decide] at hreach
  have hheld := reachable_next (.idle_wait 0 false) hwrapped trivial rfl
  have hidling := reachable_next .idle_hold hheld trivial rfl
  obtain ⟨client, hclient, hselected⟩ := (hclaim "INBOX" _ hidling).2 rfl
  cases hclient
  exact absurd hselected (by decide)

end ImapSessionManager

end posthaste.imap
