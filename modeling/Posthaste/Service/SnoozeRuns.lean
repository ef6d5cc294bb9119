import Posthaste.Service.SnoozeKept

open serde posthaste.model posthaste.store effects TransitionSystem

namespace posthaste.service.SnoozeService

variable {service after : SnoozeService} {id : Nat} {message_id : MessageId} {command : SnoozeCommand}
  {operation : Operation}

theorem mem_list_due {now : Int} {row : MessageId × Int} (hrow : row ∈ service.list_due now) : row.2 ≤ now := by
  have hsorted := List.mem_of_mem_take hrow
  have hdue := (List.mergeSort_perm _ _).mem_iff.1 hsorted
  exact of_decide_eq_true (List.mem_filter.1 hdue).2

theorem stillSnoozed_of_untouched {store derived : DatabaseStore} {row : MessageId}
    (hderived : Rederived [row] store derived) (hne : message_id ≠ row) (hstill : StillSnoozed store message_id) :
    StillSnoozed derived message_id := by
  have heffective : derived.effective message_id = store.effective message_id :=
    (hderived.untouched fun hmem => hne (List.mem_singleton.1 hmem)).1
  have hmailbox : snoozeMailbox derived = snoozeMailbox store := by rw [hderived.inputs]; rfl
  unfold StillSnoozed snoozedIn at hstill ⊢
  rw [heffective, hmailbox]
  exact hstill

namespace SnoozeInvariant

theorem queue {kind : OperationKind} {payload : Value} {minted : Minted} (hinv : service.SnoozeInvariant)
    (hfree : service.calls id = none)
    (hreturned : ∀ now until_ inbox_id, command = .auto_return now until_ inbox_id → until_ ≤ now) :
    (service.queue id message_id command kind payload minted).SnoozeInvariant := by
  obtain ⟨log, hfinal⟩ := (logOnly_queue message_id kind payload minted).final_eq service.store
  unfold SnoozeService.queue
  cases hrun : (queue_message_operation message_id kind payload minted).run service.store with
  | error error store =>
    rw [hrun] at hfinal
    cases hfinal
    exact hinv.log log
  | ok operation store =>
    rw [hrun] at hfinal
    cases hfinal
    have hquiet : ∀ other, ¬ service.Moves (some id) other → ¬ service.Moves none other := fun other hothers hmoves =>
      hothers (hmoves.besides fun found hfound => by
        rw [hfree] at hfound
        cases hfound)
    refine @place service _ id ⟨message_id, command, operation, .queued⟩ hinv rfl (fun found hfound => ?_)
      (fun other hother hsound until_ hrow => ?_) (fun hmoving hothers until_ hrow => ?_)
      (fun other hparked => ⟨parked_of_setStore hparked, .inl⟩) hinv.due hreturned
    · rw [hfree] at hfound
      cases hfound
    · refine ⟨?_, (hsound until_ hrow).2⟩
      cases command with
      | snooze asked => exact (Function.update_of_ne hother _ _).trans (hsound until_ hrow).1
      | replace | auto_return | destroy => exact (hsound until_ hrow).1
    · have hsound := hinv.sound message_id (hquiet message_id hothers) until_ hrow
      cases command with
      | snooze asked => exact absurd (.inl rfl) hmoving
      | replace | auto_return | destroy => exact hsound

/-- The fold of a mailbox replace: until it has cleared its row, its message's is not sound. -/
theorem folded {diff : DeriveDiff} {store : DatabaseStore} (hinv : service.SnoozeInvariant)
    (hcall : service.calls id = some ⟨message_id, command, operation, .queued⟩) (hmoves : command ≠ .destroy)
    (hrun : (refresh_message_overlay message_id).run service.store = .ok diff store) :
    ((service.setStore store).setCall id (some ⟨message_id, command, operation, .folded⟩)).SnoozeInvariant := by
  refine @place service _ id ⟨message_id, command, operation, .folded⟩ hinv rfl (fun found hfound => ?_)
    (fun other hother hsound until_ hrow => ?_) (fun hmoving => absurd (.inr ⟨hmoves, rfl⟩) hmoving)
    (fun other hparked => ⟨parked_of_setStore hparked, .inl⟩) hinv.due ?_
  · rw [hcall] at hfound
    cases hfound
    exact ⟨rfl, fun hsnooze => hsnooze⟩
  · have hbefore := hsound until_ hrow
    exact ⟨hbefore.1, stillSnoozed_of_untouched (rederived_of_refresh hrun) hother hbefore.2⟩
  · exact fun now until_ inbox_id hcommand => hinv.returned id _ now until_ inbox_id hcall hcommand

theorem not_moving_of_queued (hsnooze : command.isSnooze = false) :
    ¬ Moving ⟨message_id, command, operation, .queued⟩ := by
  rintro (hsome | ⟨-, hphase⟩)
  · rw [show command.isSnooze = true from hsome] at hsnooze
    cases hsnooze
  · cases hphase

theorem destroyed {diff : DeriveDiff} {store : DatabaseStore} (hinv : service.SnoozeInvariant)
    (hcall : service.calls id = some ⟨message_id, .destroy, operation, .queued⟩)
    (hrun : (refresh_message_overlay message_id).run service.store = .ok diff store)
    (hguard : ¬ service.Moves none message_id → service.message_snooze.lookup message_id ≠ none →
      StillSnoozed store message_id) :
    ((service.setStore store).finish id ⟨message_id, .destroy, operation, .queued⟩).SnoozeInvariant := by
  have hwritten : (service.setStore store).SnoozeInvariant := by
    refine hinv.setStore fun other hquiet hrow => ?_
    by_cases hother : other = message_id
    · subst hother
      exact hguard hquiet hrow
    · obtain ⟨until_, hsome⟩ := Option.ne_none_iff_exists'.1 hrow
      exact stillSnoozed_of_untouched (rederived_of_refresh hrun) hother (hinv.sound other hquiet until_ hsome).2
  exact hwritten.finish hcall (endsCleanly_of_idle hcall (not_moving_of_queued rfl) rfl)

theorem refresh {fails : Bool} (hinv : service.SnoozeInvariant)
    (hguard : service.Undisturbed (.refresh_message_overlay id fails))
    (hcall : service.calls id = some ⟨message_id, command, operation, .queued⟩)
    (hstep : service.step (.refresh_message_overlay id fails) = some after) : after.SnoozeInvariant := by
  have hguard := hguard _ hcall
  have hfailed : (fails = true ∨ ∃ error store,
      (posthaste.service.refresh_message_overlay message_id).run service.store = .error error store) →
      (service.retract id ⟨message_id, command, operation, .queued⟩).SnoozeInvariant := by
    intro hfailed
    refine hinv.retract hcall ?_
    cases command with
    | destroy | auto_return | replace => exact endsCleanly_of_idle hcall (not_moving_of_queued rfl) rfl
    | snooze asked => exact hguard hfailed
  cases fails with
  | true =>
    simp only [step, hcall] at hstep
    cases hstep
    exact hfailed (.inl rfl)
  | false =>
    cases hrun : (posthaste.service.refresh_message_overlay message_id).run service.store with
    | error error store =>
      simp only [step, hcall, hrun] at hstep
      cases hstep
      exact hfailed (.inr ⟨error, store, hrun⟩)
    | ok diff store =>
      simp only [step, hcall, hrun] at hstep
      cases hstep
      cases command with
      | destroy => exact hinv.destroyed hcall hrun (hguard diff store hrun)
      | snooze | replace | auto_return => exact hinv.folded hcall (fun hsame => nomatch hsame) hrun

/-- The row is cleared: nothing is left to be sound about. -/
theorem cleared (hinv : service.SnoozeInvariant)
    (hcall : service.calls id = some ⟨message_id, command, operation, .folded⟩)
    (hguard : service.parked message_id = true → service.Snoozes none message_id) :
    ({ service.setCall id (some ⟨message_id, command, operation, .cleared⟩) with
      message_snooze := service.message_snooze.erase message_id } : SnoozeService).SnoozeInvariant := by
  refine @place service _ id ⟨message_id, command, operation, .cleared⟩ hinv rfl (fun found hfound => ?_)
    (fun other hother hsound until_ hrow => ?_) (fun _ _ until_ hrow => ?_) (fun other hparked => ⟨hparked, fun hrow => ?_⟩)
    hinv.due ?_
  · rw [hcall] at hfound
    cases hfound
    exact ⟨rfl, fun hsnooze => hsnooze⟩
  · rw [AList.lookup_erase_ne hother] at hrow
    exact hsound until_ hrow
  · rw [AList.lookup_erase] at hrow
    cases hrow
  · by_cases hother : other = message_id
    · subst hother
      obtain ⟨found, call, -, hfound, hmessage, hsnooze⟩ := hguard hparked
      right
      by_cases hhere : found = id
      · subst hhere
        rw [hcall] at hfound
        cases hfound
        exact underway_here rfl rfl hsnooze
      · have hbesides : service.Snoozes (some id) other :=
          ⟨found, call, fun hsame => hhere (Option.some.inj hsame), hfound, hmessage, hsnooze⟩
        exact hbesides.of_update rfl
    · left
      rw [AList.lookup_erase_ne hother]
      exact hrow
  · exact fun now until_ inbox_id hcommand => hinv.returned id _ now until_ inbox_id hcall hcommand

/-- A snooze has moved its message and goes on to its row. -/
theorem moved {until_ : Int} (hinv : service.SnoozeInvariant)
    (hcall : service.calls id = some ⟨message_id, .snooze until_, operation, .cleared⟩) :
    (service.setCall id (some ⟨message_id, .snooze until_, operation, .moved⟩)).SnoozeInvariant := by
  refine @place service _ id ⟨message_id, .snooze until_, operation, .moved⟩ hinv rfl (fun found hfound => ?_)
    (fun _ _ hsound => hsound) (fun hmoving => absurd (.inl rfl) hmoving) (fun _ hparked => ⟨hparked, .inl⟩) hinv.due
    (fun _ _ _ hcommand => nomatch hcommand)
  rw [hcall] at hfound
  cases hfound
  exact ⟨rfl, fun hsnooze => hsnooze⟩

theorem insert {until_ : Int} (hinv : service.SnoozeInvariant)
    (hcall : service.calls id = some ⟨message_id, .snooze until_, operation, .moved⟩)
    (hguard : service.Moves (some id) message_id ∨
      service.requested message_id = some until_ ∧ StillSnoozed service.store message_id) :
    (({ service with message_snooze := service.message_snooze.insert message_id until_ } : SnoozeService).finish id
      ⟨message_id, .snooze until_, operation, .moved⟩).SnoozeInvariant := by
  have hgrows : ∀ other, service.message_snooze.lookup other ≠ none →
      (service.message_snooze.insert message_id until_).lookup other ≠ none := by
    intro other hrow
    by_cases hother : other = message_id
    · rw [hother, AList.lookup_insert]
      exact Option.some_ne_none until_
    · rwa [AList.lookup_insert_ne hother]
  have hinserted : ({ service with message_snooze := service.message_snooze.insert message_id until_ } :
      SnoozeService).SnoozeInvariant := by
    refine ⟨fun other hquiet asked hrow => ?_, fun other hparked => (hinv.parked other hparked).imp_left (hgrows other),
      hinv.due, hinv.returned⟩
    have hother : other ≠ message_id := by
      rintro rfl
      exact hquiet ⟨id, _, Option.some_ne_none id, hcall, rfl, .inl rfl⟩
    have hbefore : service.message_snooze.lookup other = some asked := by
      rwa [show ({ service with message_snooze := service.message_snooze.insert message_id until_ } :
        SnoozeService).message_snooze = service.message_snooze.insert message_id until_ from rfl,
        AList.lookup_insert_ne hother] at hrow
    exact hinv.sound other hquiet asked hbefore
  refine hinserted.finish hcall fun call hsame => ?_
  have hsame : some _ = some call := hcall.symm.trans hsame
  cases hsame
  refine ⟨fun _ => hguard.imp_right fun hsound asked hrow => ?_, fun _ _ => .inl ?_⟩
  · have hasked : some until_ = some asked := (AList.lookup_insert _).symm.trans hrow
    cases hasked
    exact hsound
  · exact ne_of_eq_of_ne (AList.lookup_insert _) (Option.some_ne_none until_)

theorem step {action : SnoozeStep} (hinv : service.SnoozeInvariant) (hguard : service.Undisturbed action)
    (hstep : service.step action = some after) : after.SnoozeInvariant := by
  cases action with
  | snooze id message_id until_ minted =>
    simp only [SnoozeService.step] at hstep
    split at hstep
    · rename_i hfree hmailbox
      cases hstep
      exact hinv.queue hfree fun _ _ _ hcommand => nomatch hcommand
    · cases hstep
  | replace_mailboxes id message_id mailbox_ids minted =>
    simp only [SnoozeService.step] at hstep
    split at hstep
    · rename_i hfree
      cases hstep
      exact hinv.queue hfree fun _ _ _ hcommand => nomatch hcommand
    · cases hstep
  | destroy_message id message_id minted =>
    simp only [SnoozeService.step] at hstep
    split at hstep
    · rename_i hfree
      cases hstep
      exact hinv.queue hfree fun _ _ _ hcommand => nomatch hcommand
    · cases hstep
  | list_due_snoozes now =>
    simp only [SnoozeService.step] at hstep
    split at hstep
    · cases hstep
      refine ⟨hinv.sound, hinv.parked, fun tick htick row hrow => ?_, hinv.returned⟩
      cases htick
      exact mem_list_due hrow
    · cases hstep
  | auto_return id minted =>
    simp only [SnoozeService.step] at hstep
    split at hstep
    · rename_i now inbox_id message_id until_ due hfree htick
      cases hstep
      have hticked : ({ service with tick := some ⟨now, inbox_id, due⟩ } : SnoozeService).SnoozeInvariant := by
        refine ⟨hinv.sound, hinv.parked, fun tick hsame row hrow => ?_, hinv.returned⟩
        cases hsame
        exact hinv.due _ htick row (List.mem_cons_of_mem _ hrow)
      refine hticked.queue hfree fun _ _ _ hcommand => ?_
      cases hcommand
      exact hinv.due _ htick _ List.mem_cons_self
    · cases hstep
  | refresh_message_overlay id fails =>
    cases hcall : service.calls id with
    | none =>
      simp only [SnoozeService.step, hcall] at hstep
      cases hstep
    | some call =>
      obtain ⟨message_id, command, operation, phase⟩ := call
      cases phase with
      | queued => exact hinv.refresh hguard hcall hstep
      | folded | cleared | moved =>
        simp only [SnoozeService.step, hcall] at hstep
        cases hstep
  | delete_snooze id fails =>
    simp only [SnoozeService.step] at hstep
    split at hstep
    · rename_i hcall
      split_ifs at hstep with hfails
      · cases hstep
        rw [Undisturbed, if_pos hfails] at hguard
        exact hinv.retract hcall hguard
      · cases hstep
        rw [Undisturbed, if_neg hfails] at hguard
        exact hinv.cleared hcall (hguard _ hcall)
    · cases hstep
  | echo id fails =>
    simp only [SnoozeService.step] at hstep
    split at hstep
    · rename_i message_id command operation hcall
      split_ifs at hstep with hfails
      · cases hstep
        refine hinv.retract hcall (hguard _ hcall ?_)
        exact (Bool.or_eq_true_iff.1 hfails).imp_right Option.isNone_iff_eq_none.1
      · cases command with
        | snooze until_ =>
          cases hstep
          exact hinv.moved hcall
        | replace | auto_return | destroy =>
          cases hstep
          refine hinv.finish hcall (endsCleanly_of_idle hcall (fun hmoving => ?_) rfl)
          obtain hsnooze | ⟨-, hphase⟩ := hmoving
          · cases hsnooze
          · cases hphase
    · cases hstep
  | insert_snooze id fails =>
    simp only [SnoozeService.step] at hstep
    split at hstep
    · rename_i message_id until_ operation hcall
      cases fails with
      | true =>
        cases hstep
        exact hinv.finish hcall hguard
      | false =>
        cases hstep
        exact hinv.insert hcall (hguard message_id until_ operation .moved hcall)
    · cases hstep
  | dropped id =>
    simp only [SnoozeService.step] at hstep
    obtain ⟨call, hcall, rfl⟩ := Option.map_eq_some_iff.1 hstep
    exact hinv.finish hcall hguard
  | other store =>
    cases hstep
    exact hinv.setStore hguard

end SnoozeInvariant

theorem snoozeInvariant_of_fresh (hfresh : Fresh service) : service.SnoozeInvariant := by
  obtain ⟨hrows, hcalls, htick, -, hparked⟩ := hfresh
  refine ⟨fun message_id _ until_ hrow => ?_, fun message_id hsome => ?_, fun tick hsome => ?_, fun id call _ _ _ hsome => ?_⟩
  · rw [hrows, AList.lookup_empty] at hrow
    cases hrow
  · rw [hparked] at hsome
    cases hsome
  · rw [htick] at hsome
    cases hsome
  · rw [hcalls] at hsome
    cases hsome

/-- What the scheduler is about to fold: the return of a message that is there, from
    the snooze mailbox, after the time last asked for. -/
def ReturnsDue (service : SnoozeService) (id : Nat) : Prop :=
  ∀ message_id now until_ inbox_id operation,
    service.calls id = some ⟨message_id, .auto_return now until_ inbox_id, operation, .queued⟩ →
    service.store.effective message_id ≠ none → snoozedIn service.store message_id = true ∧
      ∃ latest, service.requested message_id = some latest ∧ latest ≤ now

/-- A parked message has its return time, or a snooze of it is under way. -/
def NoneStranded (service : SnoozeService) : Prop :=
  ∀ message_id, service.parked message_id = true →
    service.message_snooze.lookup message_id ≠ none ∨ service.Snoozes none message_id

theorem SnoozeInvariant.returnsDue (hinv : service.SnoozeInvariant)
    (hguard : service.Undisturbed (.refresh_message_overlay id false)) : service.ReturnsDue id := by
  intro message_id now until_ inbox_id operation hcall hpresent
  obtain ⟨hquiet, hrow⟩ := hguard _ hcall
  obtain ⟨hrequested, hstill⟩ := hinv.sound message_id hquiet until_ hrow
  exact ⟨hstill.resolve_left hpresent, until_, hrequested, hinv.returned id _ now until_ inbox_id hcall rfl⟩

/-- While nothing takes a snoozed message out of its mailbox behind its return time
    and no command ends halfway, no message is stranded and none is pulled back. -/
theorem snooze_neither_strands_nor_hijacks (hreach : snoozing.Reachable Undisturbed service) :
    service.NoneStranded ∧ ∀ id after, service.Undisturbed (.refresh_message_overlay id false) →
      service.step (.refresh_message_overlay id false) = some after → service.ReturnsDue id := by
  have hinv : service.SnoozeInvariant := @Reachable.invariant _ _ snoozing Undisturbed SnoozeInvariant
    (fun _ hstart => snoozeInvariant_of_fresh hstart) (fun _ _ _ hinv hguard hstep => hinv.step hguard hstep) _ hreach
  exact ⟨hinv.parked, fun _ _ hguard _ => hinv.returnsDue hguard⟩

def newsletter (mailbox_id : MailboxId) : MessageRow :=
  ⟨"thread", none, none, none, none, [], [], [], [], none, "now", false, 0, BTreeSet.from_iter [mailbox_id],
    BTreeSet.from_iter [], none, none, [], none, none⟩

def filedIn (mailbox_id : MailboxId) : DatabaseStore :=
  { DatabaseStore.empty with
    message := (∅ : AList fun _ : MessageId => MessageRow).insert "newsletter" (newsletter mailbox_id)
    mailbox := [⟨"inbox", some "inbox"⟩, ⟨"later", some "snooze"⟩, ⟨"archive", some "archive"⟩] }

def arrived : SnoozeService := ⟨filedIn "inbox", ∅, fun _ => none, none, fun _ => none, fun _ => false⟩

theorem snoozed_newsletter_waits : ∃ service : SnoozeService, service.parked "newsletter" = true ∧
    service.message_snooze.lookup "newsletter" = some 100 ∧ service.NoneStranded := by
  have hstart : snoozing.Reachable Undisturbed arrived := .start ⟨rfl, rfl, rfl, rfl, rfl⟩
  have hqueued := @Reachable.next _ _ snoozing Undisturbed _ _ (.snooze 0 "newsletter" 100 ⟨"now", 0, "op", "id"⟩)
    hstart trivial rfl
  have hfolded := @Reachable.next _ _ snoozing Undisturbed _ _ (.refresh_message_overlay 0 false) hqueued
    (fun call hcall => by
      cases hcall
      rintro (hfails | ⟨error, store, hrun⟩)
      · cases hfails
      · cases hrun) rfl
  have hcleared := @Reachable.next _ _ snoozing Undisturbed _ _ (.delete_snooze 0 false) hfolded
    (fun call hcall hparked => by
      cases hcall
      cases hparked) rfl
  have hmoved := @Reachable.next _ _ snoozing Undisturbed _ _ (.echo 0 false) hcleared
    (fun call hcall hfails => by
      cases hcall
      obtain hfails | hnone := hfails
      · cases hfails
      · cases hnone) rfl
  have hsnoozed := @Reachable.next _ _ snoozing Undisturbed _ _ (.insert_snooze 0 false) hmoved
    (fun message_id until_ operation phase hcall => by
      cases hcall
      exact .inr ⟨rfl, .inr rfl⟩) rfl
  exact ⟨_, rfl, rfl, (snooze_neither_strands_nor_hijacks hsnoozed).1⟩

/-- Snoozed until 100, then filed by another client, which the next sync brings. -/
def filing : List SnoozeStep := [.snooze 0 "newsletter" 100 ⟨"now", 0, "op", "id"⟩, .refresh_message_overlay 0 false,
  .delete_snooze 0 false, .echo 0 false, .insert_snooze 0 false, .other (filedIn "archive")]

def filedAway : SnoozeService := (runActions step (fun _ _ => true) arrived filing).getD arrived

theorem list_due_single {service : SnoozeService} {message_id : MessageId} {until_ now : Int}
    (hentries : service.message_snooze.entries = [⟨message_id, until_⟩]) (hdue : until_ ≤ now) :
    service.list_due now = [(message_id, until_)] := by
  have hlimit : SNOOZE_DUE_BATCH_LIMIT = 499 + 1 := rfl
  simp only [list_due, hentries, List.map_cons, List.map_nil, List.filter_cons, hdue, decide_true, if_true,
    List.filter_nil, List.mergeSort_singleton, hlimit, List.take_succ_cons, List.take_nil]

theorem filed_newsletter_is_pulled_back : ¬ ∀ service, snoozing.Reachable unguarded service →
    service.NoneStranded ∧ ∀ id after, service.step (.refresh_message_overlay id false) = some after →
      service.ReturnsDue id := by
  intro hkept
  have hrun : runActions step (fun _ _ => true) arrived filing = some filedAway := rfl
  have hfiled : snoozing.Reachable unguarded filedAway :=
    reachable_of_runActions (fun _ _ _ => trivial) (.start ⟨rfl, rfl, rfl, rfl, rfl⟩) hrun
  have hdue : filedAway.list_due 100 = [("newsletter", 100)] := list_due_single rfl (Int.le_refl 100)
  have hstep : filedAway.step (.list_due_snoozes 100) =
      some { filedAway with tick := some ⟨100, "inbox", [("newsletter", 100)]⟩ } := by
    rw [← hdue]
    rfl
  have hlisted := @Reachable.next _ _ snoozing unguarded _ _ _ hfiled trivial hstep
  have hreturned := @Reachable.next _ _ snoozing unguarded _ _ (.auto_return 1 ⟨"then", 0, "return", "id"⟩)
    hlisted trivial rfl
  obtain ⟨hsnoozed, -⟩ := (hkept _ hreturned).2 1 _ rfl "newsletter" 100 100 "inbox" _ rfl
    (Option.some_ne_none _)
  cases hsnoozed

end posthaste.service.SnoozeService
