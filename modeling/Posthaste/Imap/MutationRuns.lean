import Posthaste.Imap.Mutation

open posthaste.model effects

namespace posthaste.imap.mutation

section Runs

variable {Mail : Type} {relation : Remote Mail → Remote Mail → Prop} [IsPreorder (Remote Mail) relation]

section Located

variable {name : String} {location : ImapMessageLocation} {session after : Session Mail}

/-- What every change to a message begins with: its mailbox is selected, its UID is looked at. -/
def located (mailbox_name : String) (location : ImapMessageLocation) : Imap Mail ImapUid := do
  select_validated_mailbox mailbox_name location
  uid_sequence_set location

theorem select_served {connection next : Connection Mail} {selected : Option ImapUidValidity}
    (hserved : connection.select name = .ok (selected, next)) :
    next = connection.entered name ∧ connection.remote.epoch name = selected := by
  unfold Connection.select at hserved
  unfold Remote.epoch
  cases hmailbox : connection.remote name with
  | none =>
    rw [hmailbox] at hserved
    cases hserved
  | some mailbox =>
    rw [hmailbox] at hserved
    cases hserved
    exact ⟨rfl, rfl⟩

theorem select_validated_ok (hrun : (select_validated_mailbox name location).run session = .ok () after) :
    after.connection = session.connection.entered name ∧ session.remote.epoch name = some location.uid_validity := by
  unfold select_validated_mailbox at hrun
  obtain ⟨selected, middle, hselect, hrest⟩ := run_bind_eq_ok_iff.mp hrun
  obtain ⟨hmiddle, hepoch⟩ := select_served (served_of_command hselect)
  cases selected with
  | none => cases hrest
  | some uid_validity =>
    simp only at hrest
    split_ifs at hrest with hvalidity
    · cases hrest
    · cases hrest
      rw [not_not] at hvalidity
      exact ⟨hmiddle, hvalidity ▸ hepoch⟩

theorem located_ok {uid : ImapUid} (hrun : (located name location).run session = .ok uid after) :
    uid = location.uid ∧ after.connection = session.connection.entered name ∧ session.remote.Answers name location := by
  unfold located at hrun
  obtain ⟨_, middle, hselect, huid⟩ := run_bind_eq_ok_iff.mp hrun
  obtain ⟨hmiddle, hepoch⟩ := select_validated_ok hselect
  unfold uid_sequence_set at huid
  split_ifs at huid with hzero
  · cases huid
  · cases huid
    exact ⟨rfl, hmiddle, hepoch, hzero⟩

theorem located_ne_missing {label : String} :
    (located name location).run session ≠ .error (.MissingFetchData label) after := by
  intro hrun
  unfold located at hrun
  obtain hselect | ⟨_, first, hselect, hrest⟩ := run_bind_eq_error_iff.mp hrun
  · unfold select_validated_mailbox at hselect
    obtain hcommand | ⟨selected, middle, _, hrest⟩ := run_bind_eq_error_iff.mp hselect
    · obtain ⟨message, herror⟩ | herror := error_of_command hcommand
      · cases herror
      · cases herror
    · cases selected with
      | none => cases hrest
      | some uid_validity =>
        simp only at hrest
        split_ifs at hrest
        · cases hrest
        · cases hrest
  · unfold uid_sequence_set at hrest
    split_ifs at hrest
    · cases hrest
    · cases hrest

theorem uid_sequence_set_along {relation : Session Mail → Session Mail → Prop} [IsPreorder (Session Mail) relation] :
    Along relation (uid_sequence_set location) := by
  unfold uid_sequence_set
  split_ifs
  · exact Along.throw _
  · exact Along.pure _

theorem located_along : Along (OnRemote relation) (located name location) := by
  unfold located select_validated_mailbox
  refine Along.bind (Along.bind (command_along ?_) fun selected => ?_) fun _ => uid_sequence_set_along
  · intro connection reply next hserved
    rw [(select_served hserved).1]
    exact refl_of relation _
  · cases selected with
    | none => exact Along.throw _
    | some uid_validity =>
      simp only
      split_ifs
      · exact Along.throw _
      · exact Along.pure _

section Undisturbed

variable {connection : Connection Mail}

theorem select_undisturbed (hanswers : connection.remote.Answers name location) :
    (select_validated_mailbox name location).run ⟨connection, []⟩ = .ok () ⟨connection.entered name, []⟩ := by
  obtain ⟨hepoch, _⟩ := hanswers
  have hserved : connection.select name = .ok (some location.uid_validity, connection.entered name) := by
    unfold Connection.select
    unfold Remote.epoch at hepoch
    cases hmailbox : connection.remote name with
    | none =>
      rw [hmailbox] at hepoch
      cases hepoch
    | some mailbox =>
      rw [hmailbox, Option.bind_some] at hepoch
      simp only [hepoch]
  have hselect : (select name).run ⟨connection, []⟩ = .ok (some location.uid_validity) ⟨connection.entered name, []⟩ :=
    command_undisturbed hserved
  unfold select_validated_mailbox
  rw [run_bind_of_ok hselect]
  simp only
  rw [if_neg (not_not.mpr rfl)]
  rfl

theorem located_undisturbed (hanswers : connection.remote.Answers name location) :
    (located name location).run ⟨connection, []⟩ = .ok location.uid ⟨connection.entered name, []⟩ := by
  unfold located
  rw [run_bind_of_ok (select_undisturbed hanswers)]
  unfold uid_sequence_set
  rw [if_neg hanswers.2]
  rfl

/-- The error the selection ends in where the mailbox does not answer for the location. -/
def refusal (mailbox_name : String) (location : ImapMessageLocation) : Option (Option ImapUidValidity) → ImapAdapterError
  | none => .Client noSuchMailbox
  | some none => .MissingSelectData "UIDVALIDITY"
  | some (some uid_validity) =>
    if uid_validity = location.uid_validity then .InvalidUidSequence "UID 0"
    else .UidValidityMismatch mailbox_name location.uid_validity uid_validity

theorem located_refused (hanswers : ¬ connection.remote.Answers name location) :
    ∃ next, next.remote = connection.remote ∧ (located name location).run ⟨connection, []⟩ =
      .error (refusal name location ((connection.remote name).map RemoteMailbox.uid_validity)) ⟨next, []⟩ := by
  unfold located
  cases hmailbox : connection.remote name with
  | none =>
    have hselect : (select name).run ⟨connection, []⟩ = .error (.Client noSuchMailbox) ⟨connection, []⟩ := by
      show command "select" (·.select name) ⟨connection, []⟩ = _
      unfold command Connection.select
      simp only [List.headD_nil, hmailbox]
      rfl
    refine ⟨connection, rfl, ?_⟩
    unfold select_validated_mailbox
    rw [run_bind_of_error (run_bind_of_error hselect)]
    rfl
  | some mailbox =>
    have hselect : (select name).run ⟨connection, []⟩ = .ok mailbox.uid_validity ⟨connection.entered name, []⟩ := by
      refine command_undisturbed ?_
      unfold Connection.select
      rw [hmailbox]
    refine ⟨connection.entered name, rfl, ?_⟩
    rw [Option.map_some]
    unfold select_validated_mailbox
    cases hepoch : mailbox.uid_validity with
    | none =>
      rw [hepoch] at hselect
      rw [bind_assoc, run_bind_of_ok hselect]
      rfl
    | some uid_validity =>
      rw [hepoch] at hselect
      rw [bind_assoc, run_bind_of_ok hselect]
      by_cases hvalidity : uid_validity = location.uid_validity
      · have huid : location.uid = 0 := by
          by_contra huid
          apply hanswers
          refine ⟨?_, huid⟩
          unfold Remote.epoch
          rw [hmailbox, Option.bind_some, hepoch, hvalidity]
        unfold refusal uid_sequence_set
        simp only
        rw [if_neg (not_not.mpr hvalidity), if_pos hvalidity, if_pos huid]
        rfl
      · unfold refusal
        simp only
        rw [if_pos hvalidity, if_neg hvalidity]
        rfl

end Undisturbed

end Located

section Validated

variable {name : String} {location : ImapMessageLocation} {session after : Session Mail}

/-- The checks before a message is copied, moved or removed. -/
def validated (mailbox_name : String) (location : ImapMessageLocation) : Imap Mail ImapUid := do
  select_validated_mailbox mailbox_name location
  verify_uid_fetch_response location
  uid_sequence_set location

theorem copy_eq_validated (target : String) :
    (copy_imap_message_to_mailbox_by_location name location target : Imap Mail Unit) =
      validated name location >>= fun uid => uid_copy uid target := by
  unfold copy_imap_message_to_mailbox_by_location validated
  simp only [bind_assoc]

theorem move_eq_validated (target : String) :
    (move_imap_message_to_mailbox_by_location name location target : Imap Mail Unit) =
      validated name location >>= fun uid => uid_move uid target := by
  unfold move_imap_message_to_mailbox_by_location validated
  simp only [bind_assoc]

theorem mark_eq_validated : (mark_imap_message_deleted_by_location name location : Imap Mail Unit) =
    validated name location >>= fun uid => uid_silent_store uid .Add ["\\Deleted"] := by
  unfold mark_imap_message_deleted_by_location validated
  simp only [bind_assoc]

theorem expunge_eq_validated : (expunge_imap_message_by_location name location : Imap Mail Unit) =
    validated name location >>= fun uid => uid_silent_store uid .Add ["\\Deleted"] >>= fun _ => uid_expunge uid := by
  unfold expunge_imap_message_by_location validated
  simp only [bind_assoc]

/-- Behind the selection a UID is looked for. -/
def probed (location : ImapMessageLocation) (uid : ImapUid) : Imap Mail ImapUid := do
  let items ← uid_fetch_first uid
  verify_message_data_contains_uid location items "matching UID FETCH response"
  uid_sequence_set location

theorem validated_eq_located : (validated name location : Imap Mail ImapUid) = located name location >>= probed location := by
  unfold validated located verify_uid_fetch_response probed
  simp only [bind_assoc]

theorem probed_ok {uid found : ImapUid} (huid : uid = location.uid)
    (hrun : (probed location uid).run session = .ok found after) :
    found = location.uid ∧ after.connection = session.connection ∧ (session.connection.copyAt location.uid).isSome := by
  unfold probed at hrun
  obtain ⟨items, second, hfetch, hrest⟩ := run_bind_eq_ok_iff.mp hrun
  obtain ⟨_, third, hverify, hfound⟩ := run_bind_eq_ok_iff.mp hrest
  have hserved := served_of_command hfetch
  simp only [Connection.fetch, Except.ok.injEq, Prod.mk.injEq] at hserved
  obtain ⟨hitems, hconnection⟩ := hserved
  unfold verify_message_data_contains_uid at hverify
  unfold uid_sequence_set at hfound
  split_ifs at hverify with hcontains
  · cases hverify
    split_ifs at hfound
    · cases hfound
    · cases hfound
      refine ⟨rfl, hconnection.symm, ?_⟩
      rw [← huid]
      by_contra hmissing
      rw [if_neg hmissing] at hitems
      rw [← hitems] at hcontains
      exact List.not_mem_nil hcontains
  · cases hverify

theorem validated_ok {uid : ImapUid} (hrun : (validated name location).run session = .ok uid after) :
    uid = location.uid ∧ after.connection = session.connection.entered name ∧
      session.remote.Answers name location ∧ (session.remote.copyAt (name, location.uid)).isSome := by
  rw [validated_eq_located] at hrun
  obtain ⟨uid, middle, hlocated, hprobed⟩ := run_bind_eq_ok_iff.mp hrun
  obtain ⟨huid, hmiddle, hanswers⟩ := located_ok hlocated
  obtain ⟨hfound, hafter, hcopy⟩ := probed_ok huid hprobed
  rw [hmiddle] at hafter hcopy
  exact ⟨hfound, hafter, hanswers, hcopy⟩

/-- A UID is found missing only in a mailbox that answers for its location. -/
theorem answers_of_missing {label : String}
    (hrun : (validated name location).run session = .error (.MissingFetchData label) after) :
    session.remote.Answers name location := by
  rw [validated_eq_located] at hrun
  obtain hlocated | ⟨uid, middle, hlocated, _⟩ := run_bind_eq_error_iff.mp hrun
  · exact absurd hlocated located_ne_missing
  · exact (located_ok hlocated).2.2

/-- The checks leave the mailboxes alone. -/
theorem validated_along : Along (OnRemote relation) (validated name location) := by
  rw [validated_eq_located]
  unfold probed
  refine Along.bind located_along fun uid => Along.bind (command_along ?_) fun items =>
    Along.bind ?_ fun _ => uid_sequence_set_along
  · intro connection reply next hserved
    cases hserved
    exact refl_of relation _
  · unfold verify_message_data_contains_uid
    split_ifs
    · exact Along.pure _
    · exact Along.throw _

section Undisturbed

variable {connection : Connection Mail}

theorem probed_undisturbed (huid : location.uid ≠ 0) : (probed location location.uid).run ⟨connection, []⟩ =
    if (connection.copyAt location.uid).isSome then .ok location.uid ⟨connection, []⟩
    else .error (.MissingFetchData "matching UID FETCH response") ⟨connection, []⟩ := by
  have hfetch : (uid_fetch_first location.uid).run ⟨connection, []⟩ =
      .ok (if (connection.copyAt location.uid).isSome then [location.uid] else []) ⟨connection, []⟩ :=
    command_undisturbed rfl
  unfold probed verify_message_data_contains_uid uid_sequence_set
  rw [run_bind_of_ok hfetch, if_neg huid]
  by_cases hcopy : (connection.copyAt location.uid).isSome
  · rw [if_pos hcopy, if_pos hcopy, if_pos List.mem_cons_self]
    rfl
  · rw [if_neg hcopy, if_neg hcopy, if_neg List.not_mem_nil]
    rfl

/-- The checks let a copy through that is where its location says. -/
theorem validated_undisturbed (hanswers : connection.remote.Answers name location)
    (hcopy : (connection.remote.copyAt (name, location.uid)).isSome) :
    (validated name location).run ⟨connection, []⟩ = .ok location.uid ⟨connection.entered name, []⟩ := by
  rw [validated_eq_located, run_bind_of_ok (located_undisturbed hanswers), probed_undisturbed hanswers.2]
  exact if_pos hcopy

theorem validated_missing (hanswers : connection.remote.Answers name location)
    (hcopy : connection.remote.copyAt (name, location.uid) = none) :
    (validated name location).run ⟨connection, []⟩ =
      .error (.MissingFetchData "matching UID FETCH response") ⟨connection.entered name, []⟩ := by
  have hmissing : ¬ ((connection.entered name).copyAt location.uid).isSome :=
    Option.not_isSome_iff_eq_none.mpr hcopy
  rw [validated_eq_located, run_bind_of_ok (located_undisturbed hanswers), probed_undisturbed hanswers.2,
    if_neg hmissing]

theorem validated_refused (hanswers : ¬ connection.remote.Answers name location) :
    ∃ next, next.remote = connection.remote ∧ (validated name location).run ⟨connection, []⟩ =
      .error (refusal name location ((connection.remote name).map RemoteMailbox.uid_validity)) ⟨next, []⟩ := by
  obtain ⟨next, hnext, hlocated⟩ := located_refused hanswers
  rw [validated_eq_located]
  exact ⟨next, hnext, run_bind_of_error hlocated⟩

end Undisturbed

end Validated

/-- A relation on the server while one mailbox stays selected. -/
def InMailbox (name : String) (relation : Remote Mail → Remote Mail → Prop) (before after : Session Mail) : Prop :=
  before.connection.selected = some name → relation before.remote after.remote ∧ after.connection.selected = some name

instance (name : String) : IsPreorder (Session Mail) (InMailbox name relation) where
  refl session hselected := ⟨refl_of relation session.remote, hselected⟩
  trans _ _ _ hfirst hsecond hselected := by
    obtain ⟨hfirst, hselected⟩ := hfirst hselected
    obtain ⟨hsecond, hselected⟩ := hsecond hselected
    exact ⟨trans_of relation hfirst hsecond, hselected⟩

section Operations

variable {name target : String} {location : ImapMessageLocation} {session after : Session Mail} {uid : ImapUid}
  {change : RemoteCopy Mail → Option (RemoteCopy Mail)} {α : Type}

variable (name) in
/-- What comes after a selection works on the mailbox it selected. -/
theorem selected_bind {check : Imap Mail ImapUid} {next : ImapUid → Imap Mail α} (hcheck : Along (OnRemote relation) check)
    (hentered : ∀ uid after, check.run session = .ok uid after →
      after.connection.selected = some name ∧ Along (InMailbox name relation) (next uid)) :
    relation session.remote (final ((check >>= next).run session)).remote := by
  have hfirst : OnRemote relation session (final (check.run session)) := hcheck session
  cases hchecked : check.run session with
  | error error middle =>
    rw [run_bind_of_error hchecked]
    rw [hchecked] at hfirst
    exact hfirst
  | ok uid middle =>
    rw [run_bind_of_ok hchecked]
    rw [hchecked] at hfirst
    obtain ⟨hselected, hnext⟩ := hentered uid middle hchecked
    exact trans_of relation hfirst (hnext middle hselected).1

theorem located_bind {next : ImapUid → Imap Mail α}
    (hnext : session.remote.Answers name location → Along (InMailbox name relation) (next location.uid)) :
    relation session.remote (final ((located name location >>= next).run session)).remote := by
  refine selected_bind name located_along fun uid middle hlocated => ?_
  obtain ⟨rfl, hmiddle, hanswers⟩ := located_ok hlocated
  exact ⟨congrArg Connection.selected hmiddle, hnext hanswers⟩

theorem validated_bind {next : ImapUid → Imap Mail α}
    (hnext : session.remote.Answers name location → Along (InMailbox name relation) (next location.uid)) :
    relation session.remote (final ((validated name location >>= next).run session)).remote := by
  refine selected_bind name validated_along fun uid middle hvalidated => ?_
  obtain ⟨rfl, hmiddle, hanswers, _⟩ := validated_ok hvalidated
  exact ⟨congrArg Connection.selected hmiddle, hnext hanswers⟩

theorem revise_command_along {operation : String}
    (hchange : ∀ remote : Remote Mail, relation remote (remote.alter name (·.revise uid change))) :
    Along (InMailbox name relation)
      (command operation fun connection : Connection Mail => .ok ((), connection.revise uid change)) := by
  intro before hselected
  unfold Session.remote
  obtain hsame | ⟨_, hserved⟩ := final_connection operation
    (fun connection : Connection Mail => Except.ok ((), connection.revise uid change)) before
  · rw [hsame]
    exact ⟨refl_of relation _, hselected⟩
  · obtain ⟨_, hafter⟩ := Prod.mk.inj (Except.ok.inj hserved)
    rw [← hafter]
    unfold Connection.revise
    rw [hselected]
    exact ⟨hchange _, rfl⟩

theorem uid_silent_store_along {store_type : StoreType} {names : List String} (hchange : ∀ remote : Remote Mail,
    relation remote (remote.alter name (·.revise uid fun copy => some (copy.stored store_type names)))) :
    Along (InMailbox name relation) (uid_silent_store uid store_type names) :=
  revise_command_along hchange

theorem uid_expunge_along
    (hchange : ∀ remote : Remote Mail, relation remote (remote.alter name (·.revise uid RemoteCopy.expunged))) :
    Along (InMailbox name relation) (uid_expunge uid) :=
  revise_command_along hchange

theorem copyTo_served {connection next : Connection Mail} {reply : Unit}
    (hserved : connection.copyTo uid target = .ok (reply, next)) : ∃ mailbox, connection.remote target = some mailbox ∧
      (connection.copyAt uid = none ∧ next = connection ∨
        ∃ copy, connection.copyAt uid = some copy ∧ next = connection.deliver target copy) := by
  unfold Connection.copyTo at hserved
  cases hmailbox : connection.remote target with
  | none =>
    rw [hmailbox] at hserved
    cases hserved
  | some mailbox =>
    refine ⟨mailbox, rfl, ?_⟩
    cases hcopy : connection.copyAt uid with
    | none =>
      rw [hmailbox, hcopy] at hserved
      cases hserved
      exact Or.inl ⟨rfl, rfl⟩
    | some copy =>
      rw [hmailbox, hcopy] at hserved
      cases hserved
      exact Or.inr ⟨copy, rfl, rfl⟩

theorem moveTo_served {connection next : Connection Mail} {reply : Unit}
    (hserved : connection.moveTo uid target = .ok (reply, next)) : ∃ mailbox, connection.remote target = some mailbox ∧
      (next = connection ∨ ∃ copy, connection.copyAt uid = some copy ∧
        next = (connection.deliver target copy).revise uid fun _ => none) := by
  unfold Connection.moveTo at hserved
  cases hmailbox : connection.remote target with
  | none =>
    rw [hmailbox] at hserved
    cases hserved
  | some mailbox =>
    refine ⟨mailbox, rfl, ?_⟩
    cases hcopy : connection.copyAt uid with
    | none =>
      rw [hmailbox, hcopy] at hserved
      cases hserved
      exact Or.inl rfl
    | some copy =>
      rw [hmailbox, hcopy] at hserved
      cases hserved
      exact Or.inr ⟨copy, rfl, rfl⟩

theorem copy_along : Along (OnRemote (@Without Mail []))
    (copy_imap_message_to_mailbox_by_location name location target) := by
  rw [copy_eq_validated]
  refine Along.bind validated_along fun uid => command_along ?_
  intro connection reply next hserved
  obtain ⟨mailbox, hmailbox, ⟨_, rfl⟩ | ⟨copy, _, rfl⟩⟩ := copyTo_served hserved
  · exact refl_of (Without _) _
  · exact without_append hmailbox

/-- A copy that succeeded found the mail at its location and the target there, and filed the mail under a new UID. -/
theorem copy_ok (hrun : (copy_imap_message_to_mailbox_by_location name location target).run session = .ok () after) :
    session.remote.Answers name location ∧ ∃ copied mailbox, session.remote.mailAt (name, location.uid) = some copied ∧
      session.remote target = some mailbox ∧ after.remote.mailAt (target, mailbox.uid_next) = some copied := by
  rw [copy_eq_validated] at hrun
  obtain ⟨uid, middle, hvalidated, hcommand⟩ := run_bind_eq_ok_iff.mp hrun
  obtain ⟨rfl, hmiddle, hanswers, hcopy⟩ := validated_ok hvalidated
  have hserved := served_of_command hcommand
  rw [hmiddle] at hserved
  obtain ⟨mailbox, hmailbox, ⟨hnone, _⟩ | ⟨copy, hfound, hafter⟩⟩ := copyTo_served hserved
  · exact absurd hnone (Option.isSome_iff_ne_none.mp hcopy)
  · refine ⟨hanswers, copy.mail, mailbox, ?_, hmailbox, ?_⟩
    · unfold Remote.mailAt
      rw [show session.remote.copyAt (name, location.uid) = some copy from hfound]
      rfl
    · rw [Session.remote, hafter]
      refine (mailAt_append hmailbox _).trans ?_
      rw [if_pos rfl]

theorem copy_undisturbed {connection : Connection Mail} {copied : Mail} (hanswers : connection.remote.Answers name location)
    (hcopied : connection.remote.mailAt (name, location.uid) = some copied) (htarget : (connection.remote target).isSome) :
    ∃ next, (copy_imap_message_to_mailbox_by_location name location target).run ⟨connection, []⟩ = .ok () ⟨next, []⟩ ∧
      Without [] connection.remote next.remote ∧ Gains (some copied) connection.remote next.remote := by
  obtain ⟨copy, hcopy, rfl⟩ := Option.map_eq_some_iff.mp hcopied
  obtain ⟨mailbox, hmailbox⟩ := Option.isSome_iff_exists.mp htarget
  refine ⟨(connection.entered name).deliver target copy, ?_, without_append hmailbox, gains_append hmailbox⟩
  rw [copy_eq_validated, run_bind_of_ok (validated_undisturbed hanswers (Option.isSome_of_eq_some hcopy))]
  refine command_undisturbed ?_
  unfold Connection.copyTo
  rw [show (connection.entered name).remote target = some mailbox from hmailbox,
    show (connection.entered name).copyAt location.uid = some copy from hcopy]

/-- A move takes every mail along. -/
theorem move_along : Along (OnRemote (@Carries Mail))
    (move_imap_message_to_mailbox_by_location name location target) := by
  rw [move_eq_validated]
  refine Along.bind validated_along fun uid => command_along ?_
  intro connection reply next hserved
  obtain ⟨mailbox, hmailbox, rfl | ⟨copy, hcopy, rfl⟩⟩ := moveTo_served hserved
  · exact refl_of Carries _
  unfold Connection.copyAt at hcopy
  obtain ⟨source, hselected, hcopy⟩ := Option.bind_eq_some_iff.mp hcopy
  have hchange : ((connection.deliver target copy).revise uid fun _ => none).remote =
      (connection.remote.alter target (·.append copy)).alter source (·.revise uid fun _ => none) := by
    unfold Connection.revise Connection.deliver
    rw [hselected]
  have hsource : connection.remote.mailAt (source, uid) = some copy.mail := by
    unfold Remote.mailAt
    rw [hcopy, Option.map_some]
  have hwithdrawn : Without [(source, uid)] (connection.remote.alter target (·.append copy))
      ((connection.remote.alter target (·.append copy)).alter source (·.revise uid fun _ => none)) := by
    apply without_revise
    rintro _ _ ⟨⟩
  rw [hchange]
  rintro mail ⟨address, hheld⟩
  by_cases haddress : address = (source, uid)
  · rw [haddress, hsource, Option.some.injEq] at hheld
    refine ⟨(target, mailbox.uid_next), hwithdrawn.kept _ _ ?_ ?_⟩
    · rw [List.mem_singleton]
      intro hsame
      rw [← hsame, mailAt_unused hmailbox] at hsource
      cases hsource
    · rw [mailAt_append hmailbox, if_pos rfl, hheld]
  · exact ⟨address, hwithdrawn.kept _ _ (List.mem_singleton.not.mpr haddress)
      ((without_append hmailbox).kept _ _ List.not_mem_nil hheld)⟩

end Operations

end Runs

end posthaste.imap.mutation
