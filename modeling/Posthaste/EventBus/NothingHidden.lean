import Posthaste.EventBus.Cycles

open effects posthaste.model posthaste.store posthaste.service announced TransitionSystem

namespace posthaste.event_bus

/-- Whether some query tells the two stores apart. -/
def Visible {σ κ δ : Type} (evaluate : κ → σ → δ) (before after : σ) : Prop :=
  ∃ query, evaluate query before ≠ evaluate query after

section Paid

variable {ρ α β : Type} {changes : Stored ρ → Stored ρ → Prop} {owed less : Prop} {call : Async ρ α}

/-- Where the call succeeds, the generation has gone on since its last change. -/
def Paid (changes : Stored ρ → Stored ρ → Prop) (owed : Prop) (call : Async ρ α) : Prop :=
  call.run.Settles changes (fun owed result => ∀ value, result = .ok value → ¬ owed) owed

theorem Paid.lessen (hpaid : Paid changes owed call) (hless : less → owed) : Paid changes less call :=
  Future.Settles.lessen (fun hless hgood value hvalue howed => hgood value hvalue (hless howed)) hless hpaid

private theorem run_bind (first : Async ρ α) (next : α → Async ρ β) :
    (first >>= next).run = first.run >>= ExceptT.bindCont next := rfl

theorem Paid.bind {next : α → Async ρ β} (hcall : Paid changes owed call)
    (hnext : ∀ value, Paid changes False (next value)) : Paid changes owed (call >>= next) := by
  unfold Paid
  rw [run_bind]
  refine Future.Settles.bind (Future.Settles.imp (fun owed result hpaid => ?_) hcall)
  cases result with
  | ok value => exact (hnext value).lessen (hpaid value rfl)
  | error error => exact fun value hvalue => nomatch hvalue

/-- Whatever came before, what follows pays for it. -/
theorem Paid.after {next : α → Async ρ β} (hnext : ∀ value, Paid changes True (next value)) :
    Paid changes owed (call >>= next) := by
  unfold Paid
  rw [run_bind]
  refine Future.Settles.bind (Future.settles_of_forall fun owed result => ?_)
  cases result with
  | ok value => exact (hnext value).lessen fun _ => trivial
  | error error => exact fun value hvalue => nomatch hvalue

private theorem run_map (call : Async ρ α) (change : α → β) :
    (change <$> call).run = call.run >>= ExceptT.bindCont fun value => pure (change value) := by
  refine congrArg (call.run >>= ·) (funext fun result => ?_)
  cases result with
  | ok value => rfl
  | error error => rfl

theorem Paid.map (hcall : Paid changes owed call) (change : α → β) : Paid changes owed (change <$> call) := by
  unfold Paid
  rw [run_map]
  refine Future.Settles.bind (Future.Settles.imp (fun owed result hpaid => ?_) hcall)
  cases result with
  | ok value => exact fun _ _ => hpaid value rfl
  | error error => exact fun value hvalue => nomatch hvalue

/-- The handler may have to pay for anything. -/
theorem Paid.tryCatch {handler : ServiceError → Async ρ α} (hcall : Paid changes owed call)
    (hhandler : ∀ error, Paid changes True (handler error)) : Paid changes owed (tryCatch call handler) := by
  have hrun : (MonadExcept.tryCatch call handler : Async ρ α).run =
      call.run >>= fun result => result.casesOn (fun error => (handler error).run) fun value => pure (.ok value) := by
    refine congrArg (call.run >>= ·) (funext fun result => ?_)
    cases result with
    | ok value => rfl
    | error error => rfl
  unfold Paid
  rw [hrun]
  refine Future.Settles.bind (Future.Settles.imp (fun owed result hpaid => ?_) hcall)
  cases result with
  | ok value => exact fun _ _ => hpaid value rfl
  | error error => exact (hhandler error).lessen fun _ => trivial

theorem paid_pure (value : α) : Paid changes False (pure value : Async ρ α) := fun _ _ hfalse => hfalse

theorem paid_throw (error : ServiceError) : Paid changes owed (throw error : Async ρ α) :=
  fun _ hvalue => nomatch hvalue

theorem paid_generation : Paid changes False (generation : Async ρ Nat) := fun _ _ _ hfalse => hfalse

theorem paid_bump : Paid changes owed (bump : Async ρ Nat) := fun _ _ _ hfalse => hfalse

theorem paid_publish (event : DomainEvent) (events : List DomainEvent) :
    Paid changes owed (publish (event :: events) : Async ρ Unit) := fun _ _ _ hfalse => hfalse

end Paid

section Requests

variable {ρ : Type} {changes : Stored ρ → Stored ρ → Prop} {owed : Prop} (tables : Tables ρ)

theorem paid_publish_events (events : List DomainEvent) : Paid changes owed (publish_events events : Async ρ Nat) := by
  cases events with
  | nil => exact paid_bump
  | cons event events => exact (paid_publish event events).bind fun _ => paid_generation

theorem paid_finish_mail_command (events : List DomainEvent) :
    Paid changes owed (finish_mail_command events : Async ρ Nat) := paid_publish_events events

theorem paid_set_keywords (mutation : Mutation) (change : SetKeywordsCommand) (record_undo : Bool) :
    Paid changes owed (set_keywords tables mutation change record_undo) := by
  refine Paid.after fun before => Paid.after fun events => ?_
  cases before with
  | some current => exact Paid.after fun _ => paid_finish_mail_command events
  | none => exact paid_finish_mail_command events

theorem paid_replace_mailboxes (mutation : Mutation) (change : ReplaceMailboxesCommand) :
    Paid changes owed (replace_mailboxes tables mutation change) := by
  refine Paid.after fun before => Paid.after fun events => ?_
  cases before with
  | some current => exact Paid.after fun _ => paid_finish_mail_command events
  | none => exact paid_finish_mail_command events

theorem paid_update_runtime_overview (changed : Bool) :
    Paid changes False (update_runtime_overview tables changed) := by
  cases changed with
  | false => exact paid_pure ()
  | true =>
    refine Paid.after fun logged => ?_
    cases logged with
    | some event => exact paid_publish event []
    | none => exact paid_bump.bind fun _ => paid_pure ()

/-- A cycle that ends well has published its completion; one that failed, its failure. -/
theorem paid_process_sync_trigger (changed : StatusChanges) (cycle : Cycle ρ) :
    Paid changes owed (process_sync_trigger tables changed cycle) := by
  refine Paid.after fun _ => Paid.tryCatch ?_ fun error => ?_
  · have hsynced : Paid changes True (sync_account_with_mode tables publish cycle) := by
      unfold sync_account_with_mode
      iterate 12 refine Paid.after fun _ => ?_
      exact (paid_publish _ _).bind fun _ => paid_pure _
    exact hsynced.bind fun _ => paid_update_runtime_overview tables _
  · refine Paid.after fun recorded => ?_
    cases recorded with
    | some event => exact (paid_publish event []).bind fun _ => paid_update_runtime_overview tables _
    | none => exact Paid.after fun _ => paid_throw error

theorem paid_cancel_operation (call : Option (ServiceCall ρ (List DomainEvent))) :
    Paid changes False (cancel_operation call) := by
  cases call with
  | some call => exact Paid.after fun events => paid_finish_mail_command events
  | none => exact paid_generation

theorem paid_configuration_command (topic : String) (call : Option (ServiceCall ρ Unit)) :
    Paid changes False (configuration_command topic call) := by
  cases call with
  | some call => exact Paid.after fun _ => (paid_publish _ []).bind fun _ => paid_generation
  | none => exact paid_generation

/-- A pass without a page that filled something has written nothing. -/
theorem paid_rederive_message_metadata (pass : ServiceCall ρ Unit) :
    Paid changes False (rederive_message_metadata pass) := by
  unfold rederive_message_metadata
  cases hwrites : pass.writes with
  | nil =>
    have hrun : pass.run = ExceptT.mk (.ready pass.result) := by
      unfold ServiceCall.run
      rw [hwrites]
      rfl
    rw [hrun]
    exact Paid.bind (fun _ _ hfalse => hfalse) fun _ => paid_generation
  | cons write writes => exact Paid.after fun _ => paid_bump

theorem paid_evaluate_message_detail (fetched : Option (Stored ρ → Except ServiceError (Stored ρ))) :
    Paid changes False (evaluate_message_detail fetched) := by
  cases fetched with
  | none => exact paid_pure ()
  | some apply_message_body => exact Paid.after fun _ => paid_publish _ []

theorem paid_mailbox_command (gateway : Except ServiceError MailboxId) (cycle : Cycle ρ) :
    Paid changes owed (mailbox_command tables gateway cycle) :=
  Paid.after fun _ => Paid.after fun _ => Paid.after fun _ => paid_publish_events _

theorem pays_of_paid {call : Async ρ Reply} (hpaid : Paid changes owed call) :
    Pays changes Announces owed call.run := by
  refine Future.Settles.imp (fun owed result hgood hannounces => ?_) hpaid
  cases result with
  | ok reply => exact hgood reply rfl
  | error error => exact absurd hannounces id

/-- The scheduler's tick has no good end. -/
theorem pays_snoozeTick (inbox_id : MailboxId) (due : List Mutation) :
    Pays changes Announces owed (Reply.returned <$> auto_return_snoozed_messages tables inbox_id due).run := by
  have hreturned : Future.Settles changes (fun _ result => ∀ reply, result = .ok reply → ∃ count, reply = .returned count)
      owed (Reply.returned <$> auto_return_snoozed_messages tables inbox_id due).run := by
    rw [run_map]
    refine Future.Settles.bind (Future.settles_of_forall fun owed result => ?_)
    cases result with
    | ok count =>
      rintro reply ⟨⟩
      exact ⟨count, rfl⟩
    | error error => exact fun reply hreply => nomatch hreply
  refine Future.Settles.imp (fun owed result hshape hannounces => ?_) hreturned
  cases result with
  | ok reply =>
    obtain ⟨count, rfl⟩ := hshape reply rfl
    exact absurd hannounces id
  | error error => exact absurd hannounces id

theorem pays_future (request : Request ρ) : Pays changes Announces False (request.future tables).run := by
  cases request with
  | SetKeywords mutation change record_undo =>
    exact pays_of_paid ((paid_set_keywords tables mutation change record_undo).map _)
  | ReplaceMailboxes mutation change => exact pays_of_paid ((paid_replace_mailboxes tables mutation change).map _)
  | Destroy mutation => exact pays_of_paid ((Paid.after fun events => paid_finish_mail_command events).map _)
  | Snooze mutation target until_ =>
    exact pays_of_paid ((Paid.after fun events => Paid.after fun _ => paid_finish_mail_command events).map _)
  | Unsnooze mutation target => exact pays_of_paid ((Paid.after fun events => paid_finish_mail_command events).map _)
  | UndoRedo keywords mailboxes plan =>
    exact pays_of_paid ((Paid.after fun events => Paid.after fun _ => paid_finish_mail_command events).map _)
  | Compose call => exact pays_of_paid ((Paid.after fun events => paid_finish_mail_command events).map _)
  | RetryOperation call => exact pays_of_paid ((Paid.after fun _ => paid_finish_mail_command []).map _)
  | CancelOperation call => exact pays_of_paid ((paid_cancel_operation call).map _)
  | Mailbox gateway cycle => exact pays_of_paid ((paid_mailbox_command tables gateway cycle).map _)
  | SetMailboxRole call => exact pays_of_paid ((Paid.after fun events => paid_publish_events events).map _)
  | Configuration topic call => exact pays_of_paid ((paid_configuration_command topic call).map _)
  | RederiveMessageMetadata pass => exact pays_of_paid ((paid_rederive_message_metadata pass).map _)
  | SyncNow => exact pays_of_paid (paid_generation.map _)
  | MessageDetail fetched => exact pays_of_paid ((paid_evaluate_message_detail fetched).map _)
  | SyncCycle changed cycle => exact pays_of_paid ((paid_process_sync_trigger tables changed cycle).map _)
  | StatusUpdate changed => exact pays_of_paid ((paid_update_runtime_overview tables changed).map _)
  | SnoozeTick inbox_id due timed_out => exact pays_snoozeTick tables inbox_id due

theorem pays_mark_arm_timeout (timed_out : Bool) : Pays changes Announces True (mark_arm_timeout tables timed_out).run := by
  cases timed_out with
  | true =>
    refine pays_of_paid (Paid.map (Paid.after fun logged => ?_) _)
    cases logged with
    | some event => exact paid_publish event []
    | none => exact paid_bump.bind fun _ => paid_pure ()
  | false => exact pays_of_paid (paid_throw _)

theorem pays_cleanup (request : Request ρ) : Pays changes Announces True (request.cleanup tables).run := by
  cases request with
  | SyncCycle changed cycle => exact pays_mark_arm_timeout tables changed.timed_out
  | SnoozeTick inbox_id due timed_out => exact pays_mark_arm_timeout tables timed_out
  | _ => exact pays_of_paid (paid_throw _)

end Requests

section Runs

variable {ρ κ δ : Type} {tables : Tables ρ} {served : Served (Stored ρ) (Except ServiceError Reply)}

/-- While every request that fails, is cut off, or is the scheduler's tick is told of by
    someone, each visible change raises the generation, and so outdates every answer that lacks it. -/
theorem no_write_stays_invisible (evaluate : κ → Stored ρ → δ)
    (hreach : (backend tables).Reachable (fun served act => served.EndsTold (Visible evaluate) Announces act) served) :
    served.NothingHidden (Visible evaluate) :=
  @nothingHidden_of_reachable _ _ _ _ Announces _ _ _ (fun request => pays_future tables request)
    (fun request => pays_cleanup tables request) hreach

def newsletter : MessageRow :=
  ⟨"thread", none, none, none, none, [], [], [], [], none, "now", false, 0, BTreeSet.from_iter ["inbox"],
    BTreeSet.from_iter [], none, none, [], none, none⟩

def arrived : Served (Stored Unit) (Except ServiceError Reply) where
  store := ⟨{ DatabaseStore.empty with
    message := (∅ : AList fun _ : MessageId => MessageRow).insert "newsletter" newsletter
    mailbox := [⟨"inbox", some "inbox"⟩] }, ()⟩
  clock := 0
  tasks := []
  stamps := []
  commits := []
  answers := []

/-- Tables whose writes succeed. -/
def healthy : Tables Unit := ⟨fun _ => .ok, fun _ _ => .ok, fun _ => .ok, fun _ => .ok, fun _ _ => .ok⟩

def flag : Request Unit :=
  .SetKeywords ⟨"newsletter", ⟨"now", 0, "op", "id"⟩, ⟨false, false, false⟩⟩ ⟨["$flagged"], []⟩ true

def keywordsOf (message_id : MessageId) (stored : Stored Unit) : Option (List String) :=
  (stored.database.effective message_id).map fun summary => summary.keywords.toList

/-- Whether an action ends no task. -/
def goesOn : Act (Request Unit) → Bool
  | .finish _ => false
  | _ => true

def serve (served : Served (Stored Unit) (Except ServiceError Reply)) (act : Act (Request Unit)) :
    Option (Served (Stored Unit) (Except ServiceError Reply)) :=
  served.step (fun request => (request.future healthy).run) (fun request => (request.cleanup healthy).run) act

/-- A client reads, and the message is flagged; the command runs to its reply. -/
def flagging : List (Act (Request Unit)) := [.start flag, .stamp, .answer 0] ++ List.replicate 9 (.poll 0)

def flagged : Served (Stored Unit) (Except ServiceError Reply) :=
  (runActions serve (fun _ act => goesOn act) arrived flagging).getD arrived

/-- The store before and after the flag is folded. -/
def flagFolds : Stored Unit × Stored Unit :=
  match flagged.commits[1]? with
  | some commit => (commit.before, commit.after)
  | none => (arrived.store, arrived.store)

theorem flagged_newsletter_is_announced :
    (flagged.setTask 0 none).NothingHidden (Visible keywordsOf) ∧
      ∃ commit ∈ flagged.commits, Visible keywordsOf commit.before commit.after := by
  have hgoesOn : ∀ (served : Served (Stored Unit) (Except ServiceError Reply)) act, goesOn act = true →
      served.EndsTold (Visible keywordsOf) Announces act := by
    intro served act hcheck
    cases act with
    | finish task => cases hcheck
    | _ => trivial
  have hrun : runActions serve (fun _ act => goesOn act) arrived flagging = some flagged := rfl
  have hreach : (backend healthy).Reachable (fun served act => served.EndsTold (Visible keywordsOf) Announces act)
      flagged := reachable_of_runActions hgoesOn (.start ⟨rfl, rfl, rfl, rfl⟩) hrun
  have hended := @Reachable.next _ _ (backend healthy) _ _ _ (.finish 0) hreach
    (fun value rest hready => by
      cases hready
      exact .inl trivial) rfl
  have hfold : flagged.commits[1]? = some ⟨0, flagFolds.1, flagFolds.2, 0⟩ := rfl
  refine ⟨no_write_stays_invisible keywordsOf hended, _, List.mem_of_getElem? hfold, "newsletter", ?_⟩
  decide

/-- The client goes away while the fold of its command is awaited. -/
def goneAway : Served (Stored Unit) (Except ServiceError Reply) :=
  (runActions serve (fun _ _ => true) arrived
    ([.start flag, .stamp, .answer 0] ++ List.replicate 4 (.poll 0) ++ [.cut 0, .finish 0])).getD arrived

/-- A folded flag of a dropped request is never announced. -/
theorem dropped_flag_stays_invisible :
    ¬ ∀ served, (backend healthy).Reachable unguarded served → served.NothingHidden (Visible keywordsOf) := by
  intro hkept
  have hrun : runActions serve (fun _ _ => true) arrived
      ([.start flag, .stamp, .answer 0] ++ List.replicate 4 (.poll 0) ++ [.cut 0, .finish 0]) = some goneAway := rfl
  have hreach : (backend healthy).Reachable unguarded goneAway :=
    reachable_of_runActions (fun _ _ _ => trivial) (.start ⟨rfl, rfl, rfl, rfl⟩) hrun
  have hfold : goneAway.commits[1]? = some ⟨0, flagFolds.1, flagFolds.2, 0⟩ := rfl
  obtain ⟨hannounced, -⟩ := hkept goneAway hreach 1 _ hfold ⟨"newsletter", by decide⟩ fun hunderway => hunderway rfl
  exact Nat.lt_irrefl 0 hannounced

end Runs

end posthaste.event_bus
