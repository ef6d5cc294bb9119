import Posthaste.Library.Effects
import Posthaste.Service.Replayed
import Posthaste.Service.Snooze

open serde posthaste.model posthaste.store effects TransitionSystem

namespace posthaste.service

section Log

open MailService

variable {α : Type}

/-- A call that writes to the log alone. -/
abbrev LogOnly (call : MailService α) : Prop :=
  Makes (fun (store : DatabaseStore) (log : OutboxTable) => { store with outbox := log }) (fun _ => True) call

theorem LogOnly.outbox (statement : OutboxTable → OutboxTable) : LogOnly (outbox statement) :=
  makes_of_one fun store => ⟨statement store.outbox, trivial, rfl⟩

theorem LogOnly.read (select : DatabaseStore → α) : LogOnly (read select) := makes_of_unchanged fun _ => rfl

theorem LogOnly.fallible (result : Except ServiceError α) : LogOnly (fallible result) :=
  makes_of_unchanged fun _ => by cases result <;> rfl

theorem logOnly_enqueue_operation (operation : Operation) : LogOnly (enqueue_operation operation) := by
  refine (LogOnly.outbox _).bind fun _ => (LogOnly.read _).bind fun stored => ?_
  cases stored with
  | some operation => exact makes_pure operation
  | none => exact LogOnly.fallible _

theorem logOnly_coalesceInto (kind : OperationKind) (superseded : List Operation) (payload : Value) :
    LogOnly (coalesceInto kind superseded payload) := by
  induction superseded generalizing payload with
  | nil => exact makes_pure payload
  | cons existing rest ih =>
    have hrest : ∀ merged, LogOnly (MailService.outbox (·.remove_operation existing.id) >>=
        fun _ => coalesceInto kind rest merged) := fun merged => (LogOnly.outbox _).bind fun _ => ih merged
    unfold coalesceInto
    dsimp only
    split_ifs
    · exact (LogOnly.fallible _).bind hrest
    · exact (makes_pure payload).bind hrest

theorem logOnly_queue (message_id : MessageId) (kind : OperationKind) (payload : Value) (minted : Minted) :
    LogOnly (queue_message_operation message_id kind payload minted) := by
  unfold queue_message_operation queue_operation_with_id
  dsimp only
  split_ifs
  · have hcoalesce : LogOnly (coalesce_pending_assertions ⟨.Message, message_id⟩ kind payload) :=
      (LogOnly.read _).bind fun superseded => logOnly_coalesceInto kind superseded payload
    exact hcoalesce.bind fun _ => logOnly_enqueue_operation _
  · exact (makes_pure payload).bind fun _ => logOnly_enqueue_operation _

theorem LogOnly.final_eq {call : MailService α} (hcall : LogOnly call) (store : DatabaseStore) :
    ∃ log, final (call.run store) = { store with outbox := log } := by
  obtain ⟨logs, -, hfinal⟩ := hcall store
  rw [hfinal]
  clear hfinal
  induction logs generalizing store with
  | nil => exact ⟨store.outbox, rfl⟩
  | cons log rest ih =>
    obtain ⟨last, hlast⟩ := ih { store with outbox := log }
    exact ⟨last, hlast⟩

end Log

namespace SnoozeService

variable {service after : SnoozeService} {id : Nat} {message_id : MessageId}

/-- The call is about to change what the message's return time stands for: a snooze
    until it ends, any other move from its fold until it has cleared the row. -/
def Moving (call : SnoozeCall) : Prop :=
  call.command.isSnooze = true ∨ call.command ≠ .destroy ∧ call.phase = .folded

def IsSnooze (call : SnoozeCall) : Prop := call.command.isSnooze = true

/-- A call of the kind is under way on the message, besides the one excepted. -/
def Underway (service : SnoozeService) (kind : SnoozeCall → Prop) (except : Option Nat) (message_id : MessageId) : Prop :=
  ∃ id call, some id ≠ except ∧ service.calls id = some call ∧ call.message_id = message_id ∧ kind call

abbrev Moves (service : SnoozeService) : Option Nat → MessageId → Prop := service.Underway Moving

abbrev Snoozes (service : SnoozeService) : Option Nat → MessageId → Prop := service.Underway IsSnooze

/-- In the snooze mailbox, if anywhere. -/
def StillSnoozed (store : DatabaseStore) (message_id : MessageId) : Prop :=
  store.effective message_id = none ∨ snoozedIn store message_id = true

/-- The return time is the last asked for, and the message waits for it in the snooze mailbox. -/
def Sound (service : SnoozeService) (message_id : MessageId) : Prop :=
  ∀ until_, service.message_snooze.lookup message_id = some until_ →
    service.requested message_id = some until_ ∧ StillSnoozed service.store message_id

/-- A command ends with its message's return time sound and none left without one. -/
def EndsCleanly (service : SnoozeService) (id : Nat) : Prop :=
  ∀ call, service.calls id = some call →
    (Moving call → service.Moves (some id) call.message_id ∨ service.Sound call.message_id) ∧
    (call.command.isSnooze = true → (service.finish id call).parked call.message_id = true →
      service.message_snooze.lookup call.message_id ≠ none ∨ service.Snoozes (some id) call.message_id)

/-- No transaction takes a message with a return time out of the snooze mailbox
    behind its row, no move clears the row of a message that stays parked, the
    scheduler finds the row it listed, and no command ends halfway. -/
def Undisturbed (service : SnoozeService) : SnoozeStep → Prop
  | .other after => ∀ message_id, ¬ service.Moves none message_id →
    service.message_snooze.lookup message_id ≠ none → StillSnoozed after message_id
  | .refresh_message_overlay id fails => ∀ call, service.calls id = some call →
    match call.command with
    | .destroy => ∀ diff store, (posthaste.service.refresh_message_overlay call.message_id).run service.store = .ok diff store →
      ¬ service.Moves none call.message_id → service.message_snooze.lookup call.message_id ≠ none →
      StillSnoozed store call.message_id
    | .auto_return _ until_ _ => ¬ service.Moves none call.message_id ∧
      service.message_snooze.lookup call.message_id = some until_
    | _ => fails = true ∨ (∃ error store, (posthaste.service.refresh_message_overlay call.message_id).run service.store =
      .error error store) → service.EndsCleanly id
  | .delete_snooze id fails => if fails then service.EndsCleanly id else ∀ call, service.calls id = some call →
    service.parked call.message_id = true → service.Snoozes none call.message_id
  | .echo id fails => ∀ call, service.calls id = some call →
    fails = true ∨ service.store.effective call.message_id = none → service.EndsCleanly id
  | .insert_snooze id fails => if fails then service.EndsCleanly id else ∀ message_id until_ operation phase,
    service.calls id = some ⟨message_id, .snooze until_, operation, phase⟩ →
    service.Moves (some id) message_id ∨
      service.requested message_id = some until_ ∧ StillSnoozed service.store message_id
  | .dropped id => service.EndsCleanly id
  | _ => True

structure SnoozeInvariant (service : SnoozeService) : Prop where
  sound : ∀ message_id, ¬ service.Moves none message_id → service.Sound message_id
  parked : ∀ message_id, service.parked message_id = true →
    service.message_snooze.lookup message_id ≠ none ∨ service.Snoozes none message_id
  due : ∀ tick, service.tick = some tick → ∀ row ∈ tick.due, row.2 ≤ tick.now
  returned : ∀ id call now until_ inbox_id, service.calls id = some call →
    call.command = .auto_return now until_ inbox_id → until_ ≤ now

section Frames

variable {kind : SnoozeCall → Prop} {call next : SnoozeCall}

theorem Underway.widen {except : Option Nat} (hunderway : service.Underway kind except message_id) :
    service.Underway kind none message_id := by
  obtain ⟨other, found, -, hfound⟩ := hunderway
  exact ⟨other, found, Option.some_ne_none other, hfound⟩

/-- The calls but one, when that one is not of the kind on the message. -/
theorem Underway.besides (hunderway : service.Underway kind none message_id)
    (hcall : ∀ call, service.calls id = some call → call.message_id = message_id → ¬ kind call) :
    service.Underway kind (some id) message_id := by
  obtain ⟨other, found, -, hfound, hmessage, hkind⟩ := hunderway
  refine ⟨other, found, fun hsame => ?_, hfound, hmessage, hkind⟩
  cases hsame
  exact hcall found hfound hmessage hkind

/-- A change of one call leaves the others under way. -/
theorem Underway.of_update {replaced : Option SnoozeCall} (hunderway : service.Underway kind (some id) message_id)
    (hcalls : after.calls = Function.update service.calls id replaced) : after.Underway kind none message_id := by
  obtain ⟨other, found, hother, hfound, hmatch⟩ := hunderway
  refine ⟨other, found, Option.some_ne_none other, ?_, hmatch⟩
  rw [hcalls, Function.update_of_ne fun hsame => hother (congrArg some hsame)]
  exact hfound

theorem underway_here (hcalls : after.calls = Function.update service.calls id (some next))
    (hmessage : next.message_id = message_id) (hkind : kind next) : after.Underway kind none message_id :=
  ⟨id, next, Option.some_ne_none id, by rw [hcalls, Function.update_self], hmessage, hkind⟩

/-- A call begins, or moves on. -/
theorem SnoozeInvariant.place (hinv : service.SnoozeInvariant)
    (hcalls : after.calls = Function.update service.calls id (some next))
    (hold : ∀ call, service.calls id = some call →
      call.message_id = next.message_id ∧ (call.command.isSnooze = true → next.command.isSnooze = true))
    (hothers : ∀ message_id, message_id ≠ next.message_id → service.Sound message_id → after.Sound message_id)
    (hhere : ¬ Moving next → ¬ service.Moves (some id) next.message_id → after.Sound next.message_id)
    (hparked : ∀ message_id, after.parked message_id = true → service.parked message_id = true ∧
      (service.message_snooze.lookup message_id ≠ none →
        after.message_snooze.lookup message_id ≠ none ∨ after.Snoozes none message_id))
    (hdue : ∀ tick, after.tick = some tick → ∀ row ∈ tick.due, row.2 ≤ tick.now)
    (hreturned : ∀ now until_ inbox_id, next.command = .auto_return now until_ inbox_id → until_ ≤ now) :
    after.SnoozeInvariant where
  sound message_id hquiet := by
    by_cases hmessage : message_id = next.message_id
    · subst hmessage
      exact hhere (fun hmoving => hquiet (underway_here hcalls rfl hmoving)) fun hmoves => hquiet (hmoves.of_update hcalls)
    · refine hothers message_id hmessage (hinv.sound message_id fun hmoves => hquiet ?_)
      refine (hmoves.besides fun call hcall hsame _ => ?_).of_update hcalls
      exact hmessage (hsame.symm.trans (hold call hcall).1)
  parked message_id hafter := by
    obtain ⟨hbefore, hkeeps⟩ := hparked message_id hafter
    obtain hrow | hsnoozes := hinv.parked message_id hbefore
    · exact hkeeps hrow
    · obtain ⟨other, found, -, hfound, hmessage, hsnooze⟩ := hsnoozes
      by_cases hother : other = id
      · subst hother
        obtain ⟨hsame, hkind⟩ := hold found hfound
        exact .inr (underway_here hcalls (hsame.symm.trans hmessage) (hkind hsnooze))
      · have hbesides : service.Snoozes (some id) message_id :=
          ⟨other, found, fun hsame => hother (Option.some.inj hsame), hfound, hmessage, hsnooze⟩
        exact .inr (hbesides.of_update hcalls)
  due := hdue
  returned other call now until_ inbox_id hcall hcommand := by
    by_cases hother : other = id
    · subst hother
      rw [hcalls, Function.update_self] at hcall
      cases hcall
      exact hreturned now until_ inbox_id hcommand
    · rw [hcalls, Function.update_of_ne hother] at hcall
      exact hinv.returned other call now until_ inbox_id hcall hcommand

theorem parked_of_setStore {store : DatabaseStore} (hparked : (service.setStore store).parked message_id = true) :
    service.parked message_id = true := (Bool.and_eq_true_iff.1 hparked).1

/-- The store alone is written to. -/
theorem SnoozeInvariant.setStore {store : DatabaseStore} (hinv : service.SnoozeInvariant)
    (hstill : ∀ message_id, ¬ service.Moves none message_id → service.message_snooze.lookup message_id ≠ none →
      StillSnoozed store message_id) : (service.setStore store).SnoozeInvariant where
  sound message_id hquiet until_ hrow := by
    refine ⟨(hinv.sound message_id hquiet until_ hrow).1, hstill message_id hquiet ?_⟩
    rw [show service.message_snooze.lookup message_id = some until_ from hrow]
    exact Option.some_ne_none until_
  parked message_id hparked := hinv.parked message_id (parked_of_setStore hparked)
  due := hinv.due
  returned := hinv.returned

theorem SnoozeInvariant.log (hinv : service.SnoozeInvariant) (log : OutboxTable) :
    (service.setStore { service.store with outbox := log }).SnoozeInvariant := by
  refine hinv.setStore fun message_id hquiet hrow => ?_
  obtain ⟨until_, hsome⟩ := Option.ne_none_iff_exists'.1 hrow
  exact (hinv.sound message_id hquiet until_ hsome).2

theorem parked_finish_of_ne (hne : message_id ≠ call.message_id) :
    (service.finish id call).parked message_id = service.parked message_id := by
  unfold finish
  dsimp only
  split_ifs
  · exact Function.update_of_ne hne _ _
  · rfl

theorem parked_finish_of_other (hsnooze : call.command.isSnooze = false) :
    (service.finish id call).parked = service.parked := by
  unfold finish parks
  rw [hsnooze]
  rfl

theorem SnoozeInvariant.finish (hinv : service.SnoozeInvariant) (hcall : service.calls id = some call)
    (hclean : service.EndsCleanly id) : (service.finish id call).SnoozeInvariant := by
  obtain ⟨hsound, hparked⟩ := hclean call hcall
  have hcalls : (service.finish id call).calls = Function.update service.calls id none := rfl
  refine ⟨fun message_id hquiet => ?_, fun message_id hafter => ?_, hinv.due, ?_⟩
  · have hothers : ¬ service.Moves (some id) message_id := fun hmoves => hquiet (hmoves.of_update hcalls)
    by_cases hhere : call.message_id = message_id ∧ Moving call
    · obtain ⟨rfl, hmoving⟩ := hhere
      exact (hsound hmoving).resolve_left hothers
    · refine hinv.sound message_id fun hmoves => hothers (hmoves.besides fun found hfound hmessage hmoving => hhere ?_)
      rw [hcall] at hfound
      cases hfound
      exact ⟨hmessage, hmoving⟩
  · by_cases hhere : call.message_id = message_id ∧ call.command.isSnooze = true
    · obtain ⟨rfl, hsnooze⟩ := hhere
      exact (hparked hsnooze hafter).imp_right fun hsnoozes => hsnoozes.of_update hcalls
    · have hbefore : service.parked message_id = true := by
        by_cases hmessage : message_id = call.message_id
        · have hother : call.command.isSnooze = false :=
            Bool.eq_false_iff.2 fun hsnooze => hhere ⟨hmessage.symm, hsnooze⟩
          rwa [parked_finish_of_other hother] at hafter
        · rwa [parked_finish_of_ne hmessage] at hafter
      refine (hinv.parked message_id hbefore).imp_right fun hsnoozes => ?_
      refine (hsnoozes.besides fun found hfound hmessage hsnooze => hhere ?_).of_update hcalls
      rw [hcall] at hfound
      cases hfound
      exact ⟨hmessage, hsnooze⟩
  · intro other found now until_ inbox_id hfound hcommand
    by_cases hother : other = id
    · rw [hcalls, hother, Function.update_self] at hfound
      cases hfound
    · rw [hcalls, Function.update_of_ne hother] at hfound
      exact hinv.returned other found now until_ inbox_id hfound hcommand

/-- A call that moves nothing ends cleanly. -/
theorem endsCleanly_of_idle (hcall : service.calls id = some call) (hmoving : ¬ Moving call)
    (hsnooze : call.command.isSnooze = false) : service.EndsCleanly id := by
  intro found hfound
  rw [hcall] at hfound
  cases hfound
  refine ⟨fun hmoves => absurd hmoves hmoving, fun hsome => ?_⟩
  rw [hsnooze] at hsome
  cases hsome

/-- The retraction of its operation changes nothing about how a call ends. -/
theorem EndsCleanly.log (hclean : service.EndsCleanly id) (log : OutboxTable) :
    (service.setStore { service.store with outbox := log }).EndsCleanly id := by
  intro call hcall
  obtain ⟨hsound, hparked⟩ := hclean call hcall
  refine ⟨hsound, fun hsnooze hafter => hparked hsnooze ?_⟩
  have hparks : parks { service.store with outbox := log } call = parks service.store call := rfl
  simp only [finish, SnoozeService.setStore, hparks] at hafter ⊢
  split_ifs at hafter ⊢
  · exact Function.update_self _ _ _
  · exact parked_of_setStore hafter

theorem SnoozeInvariant.retract (hinv : service.SnoozeInvariant) (hcall : service.calls id = some call)
    (hclean : service.EndsCleanly id) : (service.retract id call).SnoozeInvariant :=
  (hinv.log _).finish hcall (hclean.log _)

end Frames

end SnoozeService

end posthaste.service
