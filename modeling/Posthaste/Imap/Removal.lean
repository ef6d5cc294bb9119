import Posthaste.Imap.MutationRuns

open posthaste.model effects

namespace posthaste.imap.mutation

section Runs

variable {Mail : Type} {relation : Remote Mail → Remote Mail → Prop} [IsPreorder (Remote Mail) relation]

section Removal

variable {gateway : LiveImapSmtpGateway} {name : String} {location : ImapMessageLocation} {session : Session Mail}

/-- What removing a message comes to for its copy. -/
def LiveImapSmtpGateway.removal (gateway : LiveImapSmtpGateway) (copy : RemoteCopy Mail) : Option (RemoteCopy Mail) :=
  if gateway.capabilities.supports_uidplus then none else some (copy.stored .Add ["\\Deleted"])

theorem final_remove : final ((remove_imap_message_from_mailbox gateway name location).run session) =
    if gateway.capabilities.supports_uidplus then final ((expunge_imap_message_by_location name location).run session)
    else final ((mark_imap_message_deleted_by_location name location).run session) := by
  show final (remove_imap_message_from_mailbox gateway name location session) = _
  unfold remove_imap_message_from_mailbox
  simp only
  split_ifs with huidplus
  · cases hrun : (expunge_imap_message_by_location name location).run session with
    | ok value after => rfl
    | error error after => cases error <;> rfl
  · cases hrun : (mark_imap_message_deleted_by_location name location).run session with
    | ok value after => rfl
    | error error after => cases error <;> rfl

/-- A removal works on the one copy at its location, and only where the mailbox answers for it. -/
theorem remove_relation (hstore : session.remote.Answers name location → ∀ remote : Remote Mail,
      relation remote (remote.alter name (·.revise location.uid fun copy => some (copy.stored .Add ["\\Deleted"]))))
    (hexpunge : gateway.capabilities.supports_uidplus = true → session.remote.Answers name location →
      ∀ remote : Remote Mail, relation remote (remote.alter name (·.revise location.uid RemoteCopy.expunged))) :
    relation session.remote (final ((remove_imap_message_from_mailbox gateway name location).run session)).remote := by
  rw [final_remove]
  split_ifs with huidplus
  · rw [expunge_eq_validated]
    exact validated_bind fun hanswers => Along.bind (uid_silent_store_along (hstore hanswers)) fun _ =>
      uid_expunge_along (hexpunge huidplus hanswers)
  · rw [mark_eq_validated]
    exact validated_bind fun hanswers => uid_silent_store_along (hstore hanswers)

theorem remove_without (session : Session Mail) : Without [(name, location.uid)] session.remote
    (final ((remove_imap_message_from_mailbox gateway name location).run session)).remote :=
  remove_relation (fun _ _ => without_revise (keepsMail_stored _ _)) fun _ _ _ => without_revise keepsMail_expunged

/-- Without UIDPLUS nothing is taken out. -/
theorem remove_marks (huidplus : ¬ gateway.capabilities.supports_uidplus) (session : Session Mail) :
    Without [] session.remote
      (final ((remove_imap_message_from_mailbox gateway name location).run session)).remote :=
  remove_relation (fun _ _ => without_stored) fun hsupported => absurd hsupported huidplus

/-- A check that fails fails the removal, unless it found the UID missing. -/
theorem remove_of_error {error : ImapAdapterError} {after : Session Mail}
    (hmissing : ∀ label, error ≠ .MissingFetchData label)
    (hvalidated : (validated name location).run session = .error error after) :
    (remove_imap_message_from_mailbox gateway name location).run session = .error (imap_error_to_gateway error) after := by
  show remove_imap_message_from_mailbox gateway name location session = _
  unfold remove_imap_message_from_mailbox
  simp only
  rw [expunge_eq_validated, mark_eq_validated, run_bind_of_error hvalidated, run_bind_of_error hvalidated, ite_self]
  cases error with
  | MissingFetchData label => exact absurd rfl (hmissing label)
  | _ => rfl

/-- A removal fails where the mailbox does not answer for the location. -/
theorem remove_unanswered (hanswers : ¬ session.remote.Answers name location) :
    (∃ error after, (remove_imap_message_from_mailbox gateway name location).run session = .error error after) ∧
      Without [] session.remote
        (final ((remove_imap_message_from_mailbox gateway name location).run session)).remote := by
  constructor
  · cases hvalidated : (validated name location).run session with
    | ok uid after => exact absurd (validated_ok hvalidated).2.2.1 hanswers
    | error error after =>
      have hmissing : ∀ label, error ≠ .MissingFetchData label := by
        rintro label rfl
        exact hanswers (answers_of_missing hvalidated)
      exact ⟨imap_error_to_gateway error, after, remove_of_error hmissing hvalidated⟩
  · exact remove_relation (fun hanswered => absurd hanswered hanswers) fun _ hanswered => absurd hanswered hanswers

section Undisturbed

variable {connection : Connection Mail}

theorem alter_alter {remote : Remote Mail} {first second : RemoteMailbox Mail → RemoteMailbox Mail} :
    (remote.alter name first).alter name second = remote.alter name fun mailbox => second (first mailbox) := by
  unfold Remote.alter
  rw [Function.update_self, Option.map_map, Function.update_idem]
  rfl

theorem revise_revise {mailbox : RemoteMailbox Mail} {uid : ImapUid}
    {first second : RemoteCopy Mail → Option (RemoteCopy Mail)} :
    (mailbox.revise uid first).revise uid second = mailbox.revise uid fun copy => (first copy).bind second := by
  apply RemoteMailbox.ext
  · rfl
  · rfl
  · unfold RemoteMailbox.revise
    simp only [Function.update_self, Function.update_idem, Option.bind_assoc]

theorem expunged_stored (copy : RemoteCopy Mail) : (copy.stored .Add ["\\Deleted"]).expunged = none := by
  unfold RemoteCopy.expunged RemoteCopy.deleted RemoteCopy.stored
  rw [if_pos]
  simp only [List.map_cons, List.map_nil, List.mem_singleton]
  rw [show str.to_ascii_lowercase "\\Deleted" = "\\deleted" by decide, decide_eq_true rfl, Bool.or_true]

theorem alter_revise_missing {remote : Remote Mail} {uid : ImapUid} {change : RemoteCopy Mail → Option (RemoteCopy Mail)}
    (hcopy : remote.copyAt (name, uid) = none) : remote.alter name (·.revise uid change) = remote := by
  unfold Remote.alter
  unfold Remote.copyAt at hcopy
  rw [Function.update_eq_self_iff]
  cases hmailbox : remote name with
  | none => rfl
  | some mailbox =>
    rw [hmailbox, Option.bind_some] at hcopy
    rw [Option.map_some]
    congr 1
    apply RemoteMailbox.ext
    · rfl
    · rfl
    · unfold RemoteMailbox.revise
      simp only
      rw [hcopy, Option.bind_none, ← hcopy, Function.update_eq_self]

/-- The store and the expunge of a copy that is there. -/
theorem expunge_undisturbed (hselected : connection.selected = some name) (uid : ImapUid) :
    ∃ next, next.remote = connection.remote.alter name (·.revise uid fun _ => none) ∧
      (uid_silent_store uid .Add ["\\Deleted"] >>= fun _ => uid_expunge uid).run ⟨connection, []⟩ = .ok () ⟨next, []⟩ := by
  have hstore : (uid_silent_store uid .Add ["\\Deleted"]).run ⟨connection, []⟩ =
      .ok () ⟨connection.revise uid fun copy => some (copy.stored .Add ["\\Deleted"]), []⟩ :=
    command_undisturbed rfl
  have hexpunge : (uid_expunge uid).run ⟨connection.revise uid fun copy => some (copy.stored .Add ["\\Deleted"]), []⟩ =
      .ok () ⟨(connection.revise uid fun copy => some (copy.stored .Add ["\\Deleted"])).revise uid RemoteCopy.expunged, []⟩ :=
    command_undisturbed rfl
  refine ⟨(connection.revise uid fun copy => some (copy.stored .Add ["\\Deleted"])).revise uid RemoteCopy.expunged, ?_, ?_⟩
  · unfold Connection.revise
    rw [hselected]
    simp only
    rw [alter_alter]
    simp only [revise_revise, Option.bind_some, expunged_stored]
  · rw [run_bind_of_ok hstore, hexpunge]

/-- With nothing in its way a removal does away with the copy at its location, or finds none. -/
theorem remove_undisturbed (hanswers : connection.remote.Answers name location) :
    ∃ next, next.remote = connection.remote.alter name (·.revise location.uid gateway.removal) ∧
      (remove_imap_message_from_mailbox gateway name location).run ⟨connection, []⟩ = .ok () ⟨next, []⟩ := by
  show ∃ next, _ ∧ remove_imap_message_from_mailbox gateway name location ⟨connection, []⟩ = _
  unfold remove_imap_message_from_mailbox
  simp only
  rw [expunge_eq_validated, mark_eq_validated]
  cases hcopy : connection.remote.copyAt (name, location.uid) with
  | none =>
    refine ⟨connection.entered name, (alter_revise_missing hcopy).symm, ?_⟩
    rw [run_bind_of_error (validated_missing hanswers hcopy), run_bind_of_error (validated_missing hanswers hcopy), ite_self]
  | some copy =>
    have hvalidated := validated_undisturbed hanswers (Option.isSome_of_eq_some hcopy)
    rw [run_bind_of_ok hvalidated, run_bind_of_ok hvalidated]
    unfold LiveImapSmtpGateway.removal
    by_cases huidplus : gateway.capabilities.supports_uidplus = true
    · obtain ⟨next, hnext, hrun⟩ :=
        expunge_undisturbed (show (connection.entered name).selected = some name from rfl) location.uid
      refine ⟨next, ?_, ?_⟩
      · simp only [if_pos huidplus]
        exact hnext
      · rw [if_pos huidplus, hrun]
    · refine ⟨(connection.entered name).revise location.uid fun copy => some (copy.stored .Add ["\\Deleted"]), ?_, ?_⟩
      · simp only [if_neg huidplus]
        rfl
      · rw [if_neg huidplus]
        rfl

theorem remove_refused (hanswers : ¬ connection.remote.Answers name location) :
    ∃ next, next.remote = connection.remote ∧ (remove_imap_message_from_mailbox gateway name location).run ⟨connection, []⟩ =
      .error (imap_error_to_gateway (refusal name location ((connection.remote name).map RemoteMailbox.uid_validity)))
        ⟨next, []⟩ := by
  obtain ⟨next, hnext, hvalidated⟩ := validated_refused hanswers
  refine ⟨next, hnext, remove_of_error ?_ hvalidated⟩
  intro label
  unfold refusal
  split
  · exact ImapAdapterError.noConfusion
  · exact ImapAdapterError.noConfusion
  · split_ifs <;> exact ImapAdapterError.noConfusion

end Undisturbed

end Removal

section Places

variable {ι : Type} {gateway : LiveImapSmtpGateway} {find : ι → Except GatewayError (String × ImapMessageLocation)}

/-- Where the removals get to: each place is found, and its mailbox answers for it. -/
def reached (find : ι → Except GatewayError (String × ImapMessageLocation)) (remote : Remote Mail) : List ι → List Address
  | [] => []
  | place :: places =>
    match find place with
    | .error _ => []
    | .ok (name, location) =>
      if remote.Answers name location then (name, location.uid) :: reached find remote places else []

/-- The error the removals end in. -/
def stop (find : ι → Except GatewayError (String × ImapMessageLocation)) (remote : Remote Mail) :
    List ι → Option GatewayError
  | [] => none
  | place :: places =>
    match find place with
    | .error error => some error
    | .ok (name, location) =>
      if remote.Answers name location then stop find remote places
      else some (imap_error_to_gateway (refusal name location ((remote name).map RemoteMailbox.uid_validity)))

theorem reached_congr {first second : Remote Mail} (hmailboxes : ∀ name,
      (first name).map RemoteMailbox.uid_validity = (second name).map RemoteMailbox.uid_validity) (places : List ι) :
    reached find first places = reached find second places := by
  induction places with
  | nil => rfl
  | cons place places ih =>
    unfold reached
    rw [ih]
    cases find place with
    | error error => rfl
    | ok found => simp only [answers_congr (hmailboxes found.1)]

theorem stop_congr {first second : Remote Mail} (hmailboxes : ∀ name,
      (first name).map RemoteMailbox.uid_validity = (second name).map RemoteMailbox.uid_validity) (places : List ι) :
    stop find first places = stop find second places := by
  induction places with
  | nil => rfl
  | cons place places ih =>
    unfold stop
    rw [ih]
    cases find place with
    | error error => rfl
    | ok found => simp only [answers_congr (hmailboxes found.1), hmailboxes]

theorem removeFrom_cons (place : ι) (places : List ι) : (removeFrom gateway find (place :: places) : Push Mail Unit) =
    Push.of (find place) >>= fun found =>
      remove_imap_message_from_mailbox gateway found.1 found.2 >>= fun _ => removeFrom gateway find places := by
  show (_ >>= fun _ => removeFrom gateway find places) = _
  rw [bind_assoc]

variable (gateway find) in
/-- However it ends, removing from places touches only those it gets to. -/
theorem removeFrom_without (places : List ι) (session : Session Mail) :
    Without (reached find session.remote places) session.remote
      (final ((removeFrom gateway find places).run session)).remote := by
  induction places generalizing session with
  | nil => exact refl_of (Without _) _
  | cons place places ih =>
    rw [removeFrom_cons]
    unfold reached
    cases hfind : find place with
    | error error => exact refl_of (Without _) _
    | ok found =>
      obtain ⟨name, location⟩ := found
      simp only [Push.of, pure_bind]
      split_ifs with hanswers
      · have hfirst : Without ((name, location.uid) :: reached find session.remote places) session.remote
            (final ((remove_imap_message_from_mailbox gateway name location).run session)).remote :=
          (remove_without session).mono (List.cons_subset.mpr ⟨List.mem_cons_self, List.nil_subset _⟩)
        cases hrun : (remove_imap_message_from_mailbox gateway name location).run session with
        | error error middle =>
          rw [run_bind_of_error hrun]
          rw [hrun] at hfirst
          exact hfirst
        | ok _ middle =>
          rw [run_bind_of_ok hrun]
          rw [hrun] at hfirst
          change Without _ _ middle.remote at hfirst
          have hrest := ih middle
          rw [reached_congr hfirst.mailboxes] at hrest
          exact trans_of (Without _) hfirst (hrest.mono (List.subset_cons_self _ _))
      · obtain ⟨⟨error, middle, hrun⟩, hwithout⟩ := @remove_unanswered _ gateway _ _ _ hanswers
        rw [run_bind_of_error hrun]
        rw [hrun] at hwithout
        exact hwithout

/-- A change, made to the copies in all the given places. -/
def revisedAt (gone : List Address) (change : RemoteCopy Mail → Option (RemoteCopy Mail)) (remote : Remote Mail) :
    Remote Mail := fun name =>
  (remote name).map fun mailbox => {
    uid_validity := mailbox.uid_validity
    uid_next := mailbox.uid_next
    copy := fun uid => if (name, uid) ∈ gone then (mailbox.copy uid).bind change else mailbox.copy uid
    copy_unused := fun uid hunused => by rw [mailbox.copy_unused uid hunused, Option.bind_none, ite_self] }

/-- A change that makes no difference to what it has changed. -/
def Idempotent (change : RemoteCopy Mail → Option (RemoteCopy Mail)) : Prop :=
  ∀ copy, (change copy).bind change = change copy

theorem revisedAt_nil (change : RemoteCopy Mail → Option (RemoteCopy Mail)) (remote : Remote Mail) :
    revisedAt [] change remote = remote := by
  funext name
  unfold revisedAt
  simp only [List.not_mem_nil, if_false]
  exact Option.map_id'

theorem revisedAt_alter {gone : List Address} {change other : RemoteCopy Mail → Option (RemoteCopy Mail)} {name : String}
    {uid : ImapUid} {remote : Remote Mail} (hmem : (name, uid) ∈ gone)
    (hother : ∀ copy, (other copy).bind change = change copy) :
    revisedAt gone change (remote.alter name (·.revise uid other)) = revisedAt gone change remote := by
  funext place
  unfold revisedAt Remote.alter
  by_cases hplace : place = name
  · subst hplace
    rw [Function.update_self, Option.map_map]
    congr 1
    funext mailbox
    apply RemoteMailbox.ext
    · rfl
    · rfl
    · funext at_uid
      simp only [Function.comp_apply, RemoteMailbox.revise]
      by_cases huid : at_uid = uid
      · subst huid
        rw [Function.update_self, if_pos hmem, if_pos hmem, Option.bind_assoc]
        simp only [hother]
      · rw [Function.update_of_ne huid]
  · rw [Function.update_of_ne hplace]

theorem revisedAt_cons {gone : List Address} {change : RemoteCopy Mail → Option (RemoteCopy Mail)} {name : String}
    {uid : ImapUid} {remote : Remote Mail} (hchange : Idempotent change) :
    revisedAt gone change (remote.alter name (·.revise uid change)) = revisedAt ((name, uid) :: gone) change remote := by
  funext place
  unfold revisedAt Remote.alter
  by_cases hplace : place = name
  · subst hplace
    rw [Function.update_self, Option.map_map]
    congr 1
    funext mailbox
    apply RemoteMailbox.ext
    · rfl
    · rfl
    · funext at_uid
      simp only [Function.comp_apply, RemoteMailbox.revise]
      by_cases huid : at_uid = uid
      · subst huid
        rw [Function.update_self, if_pos List.mem_cons_self, Option.bind_assoc]
        unfold Idempotent at hchange
        simp only [hchange, ite_self]
      · rw [Function.update_of_ne huid]
        have hother : (place, at_uid) ∈ (place, uid) :: gone ↔ (place, at_uid) ∈ gone := by
          rw [List.mem_cons, Prod.mk.injEq]
          simp only [huid, and_false, false_or]
        simp only [hother]
  · rw [Function.update_of_ne hplace]
    congr 1
    funext mailbox
    apply RemoteMailbox.ext
    · rfl
    · rfl
    · funext at_uid
      have hother : (place, at_uid) ∈ (name, uid) :: gone ↔ (place, at_uid) ∈ gone := by
        rw [List.mem_cons, Prod.mk.injEq]
        simp only [hplace, false_and, false_or]
      simp only [hother]

theorem mailAt_revisedAt (gone : List Address) (change : RemoteCopy Mail → Option (RemoteCopy Mail)) (remote : Remote Mail)
    (address : Address) : (revisedAt gone change remote).mailAt address =
      if address ∈ gone then ((remote.copyAt address).bind change).map RemoteCopy.mail else remote.mailAt address := by
  unfold Remote.mailAt Remote.copyAt revisedAt
  cases remote address.1 with
  | none => simp only [Option.map_none, Option.bind_none, ite_self]
  | some mailbox =>
    simp only [Option.map_some, Option.bind_some]
    split_ifs <;> rfl

theorem idempotent_removal : Idempotent (@LiveImapSmtpGateway.removal Mail gateway) := by
  intro copy
  unfold LiveImapSmtpGateway.removal
  split_ifs
  · rfl
  · rw [Option.bind_some]
    unfold RemoteCopy.stored
    simp only [Bool.or_assoc, Bool.or_self]

variable (gateway find) in
/-- With nothing in their way, the removals do away with every copy they get to. -/
theorem removeFrom_undisturbed (places : List ι) (connection : Connection Mail) :
    ∃ next, next.remote = revisedAt (reached find connection.remote places) gateway.removal connection.remote ∧
      (removeFrom gateway find places).run ⟨connection, []⟩ =
        match stop find connection.remote places with
        | none => .ok () ⟨next, []⟩
        | some error => .error error ⟨next, []⟩ := by
  induction places generalizing connection with
  | nil => exact ⟨connection, (revisedAt_nil _ _).symm, rfl⟩
  | cons place places ih =>
    rw [removeFrom_cons]
    unfold reached stop
    cases hfind : find place with
    | error error => exact ⟨connection, (revisedAt_nil _ _).symm, rfl⟩
    | ok found =>
      obtain ⟨name, location⟩ := found
      simp only [Push.of, pure_bind]
      by_cases hanswers : connection.remote.Answers name location
      · obtain ⟨middle, hmiddle, hrun⟩ := @remove_undisturbed _ gateway _ _ _ hanswers
        have hmailboxes : ∀ other, (middle.remote other).map RemoteMailbox.uid_validity =
            (connection.remote other).map RemoteMailbox.uid_validity := by
          rw [hmiddle]
          exact mailboxes_alter fun _ => rfl
        obtain ⟨next, hnext, hrest⟩ := ih middle
        rw [reached_congr hmailboxes, hmiddle, revisedAt_cons idempotent_removal] at hnext
        rw [stop_congr hmailboxes] at hrest
        rw [if_pos hanswers, if_pos hanswers, run_bind_of_ok hrun]
        exact ⟨next, hnext, hrest⟩
      · obtain ⟨next, hnext, hrun⟩ := @remove_refused _ gateway _ _ _ hanswers
        rw [if_neg hanswers, if_neg hanswers, run_bind_of_error hrun]
        exact ⟨next, hnext.trans (revisedAt_nil _ _).symm, rfl⟩

end Places

end Runs

end posthaste.imap.mutation
