import Posthaste.Imap.Removal

open posthaste.model posthaste.service effects

namespace posthaste.imap.mutation

variable {Mail α ι : Type} {gateway : LiveImapSmtpGateway}

/-- What a push comes to and what it leaves on the server. -/
def outcome : EStateM.Result GatewayError (Session Mail) α → Except GatewayError α × Remote Mail
  | .ok value after => (.ok value, after.remote)
  | .error error after => (.error error, after.remote)

/-- A push with nothing in its way. -/
def undisturbed (push : Push Mail α) (selected : Option String) (remote : Remote Mail) :
    Except GatewayError α × Remote Mail :=
  outcome (push.run ((⟨selected, []⟩ : Attempt).on remote))

/-- A push whose tries each keep what an undisturbed one depends on is as good delivered often as delivered once. -/
theorem delivered_undisturbed {τ : Type} {push : Push Mail α} (summary : Remote Mail → τ)
    (hkept : ∀ session : Session Mail, summary (final (push.run session)).remote = summary session.remote)
    (hdetermined : ∀ first second selected selected', summary first = summary second →
      undisturbed push selected first = undisturbed push selected' second)
    (remote : Remote Mail) (attempts : List Attempt) (selected selected' : Option String) :
    undisturbed push selected (delivered push remote attempts) = undisturbed push selected' remote := by
  rw [hdetermined remote remote selected' selected rfl]
  exact redelivered (fun remote attempt => hkept (attempt.on remote))
    (fun first second => hdetermined first second selected selected) remote attempts

theorem throw_redelivered (error : GatewayError) (remote : Remote Mail) (attempts : List Attempt)
    (selected selected' : Option String) :
    undisturbed (throw error : Push Mail α) selected (delivered (throw error : Push Mail α) remote attempts) =
      undisturbed (throw error : Push Mail α) selected' remote := by
  refine delivered_undisturbed (fun remote => remote) (fun _ => rfl) (fun first second _ _ hsame => ?_) remote attempts
    selected selected'
  rw [hsame]
  rfl

section Removal

variable {find : ι → Except GatewayError (String × ImapMessageLocation)}

/-- Two servers come to one and the same when a change is made to all the given places. -/
def Settles (gone : List Address) (change : RemoteCopy Mail → Option (RemoteCopy Mail)) (before after : Remote Mail) :
    Prop := revisedAt gone change after = revisedAt gone change before

instance (gone : List Address) (change : RemoteCopy Mail → Option (RemoteCopy Mail)) :
    IsPreorder (Remote Mail) (Settles gone change) where
  refl _ := rfl
  trans _ _ _ hfirst hsecond := hsecond.trans hfirst

theorem removal_stored (copy : RemoteCopy Mail) :
    (some (copy.stored .Add ["\\Deleted"])).bind gateway.removal = gateway.removal copy := by
  rw [Option.bind_some]
  unfold LiveImapSmtpGateway.removal RemoteCopy.stored
  simp only [Bool.or_assoc, Bool.or_self]

theorem removal_expunged (huidplus : gateway.capabilities.supports_uidplus = true) (copy : RemoteCopy Mail) :
    copy.expunged.bind gateway.removal = gateway.removal copy := by
  unfold LiveImapSmtpGateway.removal
  simp only [if_pos huidplus, Option.bind_fun_none]

/-- However it ends, a removal does nothing that a whole one would not. -/
theorem removeFrom_settles {gone : List Address} (places : List ι) (session : Session Mail)
    (hgone : reached find session.remote places ⊆ gone) : Settles gone gateway.removal session.remote
      (final ((removeFrom gateway find places).run session)).remote := by
  induction places generalizing session with
  | nil => exact refl_of (Settles _ _) _
  | cons place places ih =>
    rw [removeFrom_cons]
    unfold reached at hgone
    cases hfind : find place with
    | error error => exact refl_of (Settles _ _) _
    | ok found =>
      obtain ⟨name, location⟩ := found
      simp only [hfind] at hgone
      simp only [Push.of, pure_bind]
      have hmem : session.remote.Answers name location → (name, location.uid) ∈ gone := by
        intro hanswers
        rw [if_pos hanswers] at hgone
        exact hgone List.mem_cons_self
      have hfirst : Settles gone gateway.removal session.remote
          (final ((remove_imap_message_from_mailbox gateway name location).run session)).remote :=
        remove_relation (fun hanswers remote => revisedAt_alter (hmem hanswers) removal_stored)
          fun huidplus hanswers remote => revisedAt_alter (hmem hanswers) (removal_expunged huidplus)
      cases hrun : (remove_imap_message_from_mailbox gateway name location).run session with
      | error error middle =>
        rw [run_bind_of_error hrun]
        rw [hrun] at hfirst
        exact hfirst
      | ok _ middle =>
        rw [run_bind_of_ok hrun]
        rw [hrun] at hfirst
        have hwithout : Without [(name, location.uid)] session.remote
            (final ((remove_imap_message_from_mailbox gateway name location).run session)).remote :=
          remove_without session
        rw [hrun] at hwithout
        have hanswers : session.remote.Answers name location := by
          by_contra hanswers
          obtain ⟨⟨error, after, hfailed⟩, _⟩ := @remove_unanswered _ gateway _ _ _ hanswers
          rw [hrun] at hfailed
          cases hfailed
        rw [if_pos hanswers] at hgone
        refine trans_of (Settles _ _) hfirst (ih middle ?_)
        rw [show reached find middle.remote places = reached find session.remote places from
          reached_congr hwithout.mailboxes places]
        exact List.Subset.trans (List.subset_cons_self _ _) hgone

/-- What is left once all the places that the removals get to are done with, and which mailboxes there are. -/
def settlement (gateway : LiveImapSmtpGateway) (find : ι → Except GatewayError (String × ImapMessageLocation))
    (places : List ι) (remote : Remote Mail) : (String → Option (Option ImapUidValidity)) × Remote Mail :=
  (fun name => (remote name).map RemoteMailbox.uid_validity,
    revisedAt (reached find remote places) gateway.removal remote)

theorem settlement_kept (places : List ι) (session : Session Mail) :
    settlement gateway find places (final ((removeFrom gateway find places).run session)).remote =
      settlement gateway find places session.remote := by
  have hwithout := removeFrom_without gateway find places session
  unfold settlement
  rw [reached_congr hwithout.mailboxes]
  exact Prod.ext (funext hwithout.mailboxes) (removeFrom_settles places session (List.Subset.refl _))

theorem undisturbed_removal (places : List ι) (value : α) (selected : Option String) (remote : Remote Mail) :
    undisturbed (removeFrom gateway find places >>= fun _ => pure value) selected remote =
      (match stop find remote places with
        | none => .ok value
        | some error => .error error, revisedAt (reached find remote places) gateway.removal remote) := by
  obtain ⟨next, hnext, hrun⟩ := removeFrom_undisturbed gateway find places ⟨remote, selected⟩
  unfold undisturbed Attempt.on
  cases hstop : stop find remote places with
  | none =>
    simp only [hstop] at hrun
    rw [run_bind_of_ok hrun]
    exact Prod.ext rfl hnext
  | some error =>
    simp only [hstop] at hrun
    rw [run_bind_of_error hrun]
    exact Prod.ext rfl hnext

/-- Removing from places, however often it is tried and cut off, comes to what removing from them once comes to. -/
theorem removal_redelivered (places : List ι) (value : α) (remote : Remote Mail) (attempts : List Attempt)
    (selected selected' : Option String) :
    undisturbed (removeFrom gateway find places >>= fun _ => pure value) selected
        (delivered (removeFrom gateway find places >>= fun _ => pure value) remote attempts) =
      undisturbed (removeFrom gateway find places >>= fun _ => pure value) selected' remote := by
  refine delivered_undisturbed (settlement gateway find places) (fun session => ?_)
    (fun first second selected selected' hsummary => ?_) remote attempts selected selected'
  · rw [final_bind_pure]
    exact settlement_kept places session
  · obtain ⟨hmailboxes, hrevised⟩ := Prod.mk.inj hsummary
    rw [undisturbed_removal, undisturbed_removal, hrevised, stop_congr (congrFun hmailboxes)]

end Removal

section Destroy

/-- A destroy is delivered at least once: after any tries, each cut off at whatever command, one that
    is not disturbed comes to the same and leaves the same server as if it had been the first. -/
theorem destroy_redelivered (gateway : LiveImapSmtpGateway) (message_id : MessageId) (remote : Remote Mail)
    (attempts : List Attempt) (selected selected' : Option String) :
    undisturbed (destroy_message_by_imap gateway message_id) selected
        (delivered (destroy_message_by_imap gateway message_id) remote attempts) =
      undisturbed (destroy_message_by_imap gateway message_id) selected' remote := by
  cases hlocations : gateway.locations "message deletion state lookup" message_id with
  | error error =>
    have hpush : (destroy_message_by_imap gateway message_id : Push Mail MutationOutcome) = throw error := by
      unfold destroy_message_by_imap
      rw [hlocations]
      rfl
    rw [hpush]
    exact throw_redelivered error remote attempts selected selected'
  | ok locations =>
    cases locations with
    | nil =>
      have hpush : (destroy_message_by_imap gateway message_id : Push Mail MutationOutcome) =
          throw (.Rejected s!"missing IMAP location for message {message_id}") := by
        unfold destroy_message_by_imap
        rw [hlocations]
        rfl
      rw [hpush]
      exact throw_redelivered _ remote attempts selected selected'
    | cons location locations =>
      have hpush : (destroy_message_by_imap gateway message_id : Push Mail MutationOutcome) =
          removeFrom gateway gateway.named (location :: locations) >>= fun _ => pure ⟨none, none⟩ := by
        unfold destroy_message_by_imap
        rw [hlocations]
        rfl
      rw [hpush]
      exact removal_redelivered _ _ remote attempts selected selected'

end Destroy

section Keywords

variable {Flag : Type} {types : FlagSyntax Flag} {reason : String → String} {name : String}
  {location : ImapMessageLocation} {command : SetKeywordsCommand}

/-- What a change of keywords comes to for a copy. -/
def rekeyed (add remove : List String) (copy : RemoteCopy Mail) : Option (RemoteCopy Mail) :=
  some ((copy.stored .Add add).stored .Remove remove)

theorem stored_nil (store_type : StoreType) (copy : RemoteCopy Mail) : copy.stored store_type [] = copy := by
  unfold RemoteCopy.stored
  cases store_type <;> simp

theorem rekeyed_add (add remove : List String) (copy : RemoteCopy Mail) :
    (some (copy.stored .Add add)).bind (rekeyed add remove) = rekeyed add remove copy := by
  unfold rekeyed RemoteCopy.stored
  simp only [Option.bind_some, Bool.or_assoc, Bool.or_self]

theorem rekeyed_remove (add remove : List String) (copy : RemoteCopy Mail) :
    (some (copy.stored .Remove remove)).bind (rekeyed add remove) = rekeyed add remove copy := by
  unfold rekeyed RemoteCopy.stored
  simp only [Option.bind_some, Option.some.injEq, RemoteCopy.mk.injEq, true_and]
  funext flag
  cases decide (flag ∈ remove.map str.to_ascii_lowercase) <;> simp

theorem idempotent_rekeyed (add remove : List String) : Idempotent (@rekeyed Mail add remove) := by
  intro copy
  have hadd := rekeyed_add add remove copy
  have hremove := rekeyed_remove add remove (copy.stored .Add add)
  rw [Option.bind_some] at hadd
  exact hremove.trans hadd

/-- The flags to be added and removed, where every keyword is one. -/
def flagDelta (types : FlagSyntax Flag) (reason : String → String) (command : SetKeywordsCommand) :
    Except ImapAdapterError (List String × List String) := do
  let add_flags ← flagNames types reason command.add
  let remove_flags ← flagNames types reason command.remove
  return (add_flags, remove_flags)

/-- The two stores of a change of keywords. -/
def storing (uid : ImapUid) (delta : List String × List String) : Imap Mail MutationOutcome := do
  storeFlags uid .Add delta.1
  storeFlags uid .Remove delta.2
  return ⟨none, none⟩

theorem apply_eq_storing : (apply_imap_keyword_delta_by_location types reason name location command : Imap Mail _) =
    located name location >>= fun uid => Imap.of (flagDelta types reason command) >>= storing uid := by
  unfold apply_imap_keyword_delta_by_location located flagDelta
  rw [bind_assoc]
  congr 1
  funext _
  congr 1
  funext uid
  cases flagNames types reason command.add with
  | error error => rfl
  | ok add_flags =>
    cases flagNames types reason command.remove with
    | error error => rfl
    | ok remove_flags => rfl

section Stored

variable {delta : List String × List String} {relation : Remote Mail → Remote Mail → Prop}
  [IsPreorder (Remote Mail) relation]

theorem storeFlags_along {uid : ImapUid} {store_type : StoreType} {names : List String}
    (hstore : ∀ remote : Remote Mail,
      relation remote (remote.alter name (·.revise uid fun copy => some (copy.stored store_type names)))) :
    Along (InMailbox name relation) (storeFlags uid store_type names : Imap Mail Unit) := by
  unfold storeFlags
  split_ifs
  · exact Along.pure ()
  · exact uid_silent_store_along hstore

theorem alter_revise_some (remote : Remote Mail) (uid : ImapUid) :
    remote.alter name (·.revise uid some) = remote := by
  have hsame : (fun mailbox : RemoteMailbox Mail => mailbox.revise uid some) = id := by
    funext mailbox
    apply RemoteMailbox.ext
    · rfl
    · rfl
    · unfold RemoteMailbox.revise
      simp only [Option.bind_fun_some, Function.update_eq_self, id]
  unfold Remote.alter
  rw [hsame, Option.map_id, id, Function.update_eq_self]

/-- One of the two stores, with nothing in its way. -/
theorem storeFlags_undisturbed {connection : Connection Mail} (hselected : connection.selected = some name) (uid : ImapUid)
    (store_type : StoreType) (names : List String) :
    ∃ next, next.selected = some name ∧
      next.remote = connection.remote.alter name (·.revise uid fun copy => some (copy.stored store_type names)) ∧
      (storeFlags uid store_type names).run ⟨connection, []⟩ = .ok () ⟨next, []⟩ := by
  unfold storeFlags
  cases names with
  | nil =>
    refine ⟨connection, hselected, ?_, rfl⟩
    simp only [stored_nil]
    exact (alter_revise_some _ _).symm
  | cons flag names =>
    refine ⟨connection.revise uid fun copy => some (copy.stored store_type (flag :: names)), ?_, ?_, ?_⟩
    · unfold Connection.revise
      rw [hselected]
    · unfold Connection.revise
      rw [hselected]
    · show (uid_silent_store uid store_type (flag :: names)).run ⟨connection, []⟩ = _
      exact command_undisturbed rfl

theorem storing_undisturbed {connection : Connection Mail} (hselected : connection.selected = some name) (uid : ImapUid)
    (delta : List String × List String) :
    ∃ next, next.remote = revisedAt [(name, uid)] (rekeyed delta.1 delta.2) connection.remote ∧
      (storing uid delta).run ⟨connection, []⟩ = .ok ⟨none, none⟩ ⟨next, []⟩ := by
  obtain ⟨middle, hmiddle, hadded, hadd⟩ := storeFlags_undisturbed hselected uid .Add delta.1
  obtain ⟨next, _, hremoved, hremove⟩ := storeFlags_undisturbed hmiddle uid .Remove delta.2
  refine ⟨next, ?_, ?_⟩
  · rw [hremoved, hadded, alter_alter, ← revisedAt_cons (idempotent_rekeyed _ _), revisedAt_nil]
    simp only [revise_revise]
    rfl
  · unfold storing
    rw [run_bind_of_ok hadd, run_bind_of_ok hremove]
    rfl

theorem storing_without (uid : ImapUid) (delta : List String × List String) :
    Along (InMailbox name (Without [])) (storing uid delta : Imap Mail MutationOutcome) := by
  unfold storing
  exact Along.bind (storeFlags_along fun _ => without_stored) fun _ =>
    Along.bind (storeFlags_along fun _ => without_stored) fun _ => Along.pure _

/-- A change of keywords, cut off anywhere, does nothing that a whole one would not. -/
theorem storing_settles (uid : ImapUid) (delta : List String × List String) :
    Along (InMailbox name (Settles [(name, uid)] (rekeyed delta.1 delta.2))) (storing uid delta : Imap Mail MutationOutcome) := by
  unfold storing
  refine Along.bind (storeFlags_along fun remote => ?_) fun _ => Along.bind (storeFlags_along fun remote => ?_) fun _ =>
    Along.pure _
  · exact revisedAt_alter List.mem_cons_self (rekeyed_add _ _)
  · exact revisedAt_alter List.mem_cons_self (rekeyed_remove _ _)

end Stored

section Applied

/-- The server once a change of keywords is done with. -/
def retouch (types : FlagSyntax Flag) (reason : String → String) (name : String) (location : ImapMessageLocation)
    (command : SetKeywordsCommand) (remote : Remote Mail) : Remote Mail :=
  match flagDelta types reason command with
  | .error _ => remote
  | .ok delta =>
    if remote.Answers name location then revisedAt [(name, location.uid)] (rekeyed delta.1 delta.2) remote else remote

/-- The error a change of keywords ends in. -/
def reproach (types : FlagSyntax Flag) (reason : String → String) (name : String) (location : ImapMessageLocation)
    (command : SetKeywordsCommand) (remote : Remote Mail) : Option ImapAdapterError :=
  if remote.Answers name location then
    match flagDelta types reason command with
    | .error error => some error
    | .ok _ => none
  else some (refusal name location ((remote name).map RemoteMailbox.uid_validity))

variable (types reason name location command)

theorem apply_undisturbed (connection : Connection Mail) :
    ∃ next, next.remote = retouch types reason name location command connection.remote ∧
      (apply_imap_keyword_delta_by_location types reason name location command).run ⟨connection, []⟩ =
        match reproach types reason name location command connection.remote with
        | none => .ok ⟨none, none⟩ ⟨next, []⟩
        | some error => .error error ⟨next, []⟩ := by
  rw [apply_eq_storing]
  unfold retouch reproach
  by_cases hanswers : connection.remote.Answers name location
  · simp only [if_pos hanswers]
    rw [run_bind_of_ok (located_undisturbed hanswers)]
    cases flagDelta types reason command with
    | error error => exact ⟨connection.entered name, rfl, rfl⟩
    | ok delta =>
      exact storing_undisturbed (show (connection.entered name).selected = some name from rfl) location.uid delta
  · simp only [if_neg hanswers]
    obtain ⟨next, hnext, hrun⟩ := located_refused hanswers
    refine ⟨next, ?_, run_bind_of_error hrun⟩
    rw [hnext]
    cases flagDelta types reason command <;> rfl

/-- However it ends, a change of keywords does nothing that a whole one would not. -/
theorem apply_kept (session : Session Mail) :
    let after := (final ((apply_imap_keyword_delta_by_location types reason name location command).run session)).remote
    (∀ other, (after other).map RemoteMailbox.uid_validity = (session.remote other).map RemoteMailbox.uid_validity) ∧
      retouch types reason name location command after = retouch types reason name location command session.remote := by
  intro after
  have hwithout : Without [] session.remote after := by
    unfold after
    rw [apply_eq_storing]
    refine located_bind fun hanswers => ?_
    cases flagDelta types reason command with
    | error error => exact Along.throw _
    | ok delta => exact storing_without location.uid delta
  refine ⟨hwithout.mailboxes, ?_⟩
  have hunchanged : ¬ session.remote.Answers name location → session.remote = after := by
    intro hanswers
    unfold after
    rw [apply_eq_storing]
    exact located_bind fun hanswered => absurd hanswered hanswers
  unfold retouch
  cases hdelta : flagDelta types reason command with
  | error error =>
    have hsame : session.remote = after := by
      unfold after
      rw [apply_eq_storing, hdelta]
      exact located_bind fun _ => Along.throw _
    exact hsame.symm
  | ok delta =>
    simp only [answers_congr (hwithout.mailboxes name)]
    split_ifs with hanswers
    · have hsettles : Settles [(name, location.uid)] (rekeyed delta.1 delta.2) session.remote after := by
        unfold after
        rw [apply_eq_storing, hdelta]
        exact located_bind fun _ => storing_settles location.uid delta
      exact hsettles
    · exact (hunchanged hanswers).symm

end Applied

/-- A change of keywords is delivered at least once: after any tries, each cut off at whatever command, one that
    is not disturbed comes to the same and leaves the same server as if it had been the first. -/
theorem keywords_redelivered (types : FlagSyntax Flag) (reason : String → String) (gateway : LiveImapSmtpGateway)
    (message_id : MessageId) (command : SetKeywordsCommand) (remote : Remote Mail) (attempts : List Attempt)
    (selected selected' : Option String) :
    undisturbed (set_keywords types reason gateway message_id command) selected
        (delivered (set_keywords types reason gateway message_id command) remote attempts) =
      undisturbed (set_keywords types reason gateway message_id command) selected' remote := by
  cases hlocation : gateway.location_and_mailbox_name message_id with
  | error error =>
    have hpush : (set_keywords types reason gateway message_id command : Push Mail MutationOutcome) = throw error := by
      unfold set_keywords
      rw [hlocation]
      rfl
    rw [hpush]
    exact throw_redelivered error remote attempts selected selected'
  | ok found =>
    obtain ⟨location, name⟩ := found
    have hpush : (set_keywords types reason gateway message_id command : Push Mail MutationOutcome) =
        (apply_imap_keyword_delta_by_location types reason name location command).adaptExcept imap_error_to_gateway := by
      unfold set_keywords
      rw [hlocation]
      rfl
    rw [hpush]
    refine delivered_undisturbed (fun remote => (fun other => (remote other).map RemoteMailbox.uid_validity,
      retouch types reason name location command remote)) (fun session => ?_)
      (fun first second selected selected' hsummary => ?_) remote attempts selected selected'
    · rw [final_adaptExcept]
      obtain ⟨hmailboxes, hretouch⟩ := apply_kept types reason name location command session
      exact Prod.ext (funext hmailboxes) hretouch
    · obtain ⟨hmailboxes, hretouch⟩ := Prod.mk.inj hsummary
      have hreproach : reproach types reason name location command first =
          reproach types reason name location command second := by
        unfold reproach
        simp only [answers_congr (congrFun hmailboxes name), congrFun hmailboxes name]
      obtain ⟨first_next, hfirst, hfirst_run⟩ := apply_undisturbed types reason name location command ⟨first, selected⟩
      obtain ⟨second_next, hsecond, hsecond_run⟩ := apply_undisturbed types reason name location command ⟨second, selected'⟩
      rw [show (⟨first, selected⟩ : Connection Mail).remote = first from rfl, hreproach] at hfirst_run
      unfold undisturbed Attempt.on
      cases hverdict : reproach types reason name location command second with
      | none =>
        simp only [hverdict] at hfirst_run hsecond_run
        rw [adaptExcept_of_ok hfirst_run, adaptExcept_of_ok hsecond_run]
        exact Prod.ext rfl (hfirst.trans (hretouch.trans hsecond.symm))
      | some error =>
        simp only [hverdict] at hfirst_run hsecond_run
        rw [adaptExcept_of_error hfirst_run, adaptExcept_of_error hsecond_run]
        exact Prod.ext rfl (hfirst.trans (hretouch.trans hsecond.symm))

end Keywords

end posthaste.imap.mutation
