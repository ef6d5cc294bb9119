import Posthaste.Imap.Removal

open posthaste.model effects

namespace posthaste.imap.mutation

variable {Mail : Type} {gateway : LiveImapSmtpGateway} {message_id : MessageId} {mailbox_ids : List MailboxId}
  {locations : List ImapMessageLocation} {location : ImapMessageLocation} {name : String} {mail : Mail}

section Copies

variable {ids : List MailboxId}

theorem addToMailboxes_cons (id : MailboxId) (ids : List MailboxId) :
    (addToMailboxes gateway name location (id :: ids) : Push Mail Unit) =
      Push.of (gateway.mailbox_name_for_id id) >>= fun target =>
        (copy_imap_message_to_mailbox_by_location name location target).adaptExcept imap_error_to_gateway >>= fun _ =>
          addToMailboxes gateway name location ids := by
  show (_ >>= fun _ => addToMailboxes gateway name location ids) = _
  rw [bind_assoc]

theorem of_along {α : Type} {relation : Session Mail → Session Mail → Prop} [IsPreorder (Session Mail) relation]
    (result : Except GatewayError α) : Along relation (Push.of result) := by
  cases result with
  | ok value => exact Along.pure value
  | error error => exact Along.throw error

theorem of_eq_ok {α : Type} {result : Except GatewayError α} {value : α} {session after : Session Mail}
    (hrun : (Push.of result).run session = .ok value after) : result = .ok value ∧ after = session := by
  cases result with
  | ok other =>
    cases hrun
    exact ⟨rfl, rfl⟩
  | error error => cases hrun

theorem addToMailboxes_along : Along (OnRemote (@Without Mail [])) (addToMailboxes gateway name location ids) :=
  Along.forM (fun _ => Along.bind (of_along _) fun _ => copy_along.adaptExcept _) ids

/-- The mailbox is known by a name, and the server has it. -/
def Present (gateway : LiveImapSmtpGateway) (remote : Remote Mail) (id : MailboxId) : Prop :=
  ∃ target, gateway.mailbox_name_for_id id = .ok target ∧ (remote target).isSome

theorem present_congr {before after : Remote Mail} {gone : List Address} (hwithout : Without gone before after)
    (id : MailboxId) : Present gateway after id ↔ Present gateway before id := by
  unfold Present
  simp only [hwithout.isSome]

section Went

variable {session after : Session Mail}

theorem first_copy_ok {id : MailboxId} (hrun : (addToMailboxes gateway name location (id :: ids)).run session = .ok () after) :
    ∃ target middle, gateway.mailbox_name_for_id id = .ok target ∧
      (copy_imap_message_to_mailbox_by_location name location target).run session = .ok () middle ∧
      (addToMailboxes gateway name location ids).run middle = .ok () after := by
  rw [addToMailboxes_cons] at hrun
  obtain ⟨target, first, hname, hrest⟩ := run_bind_eq_ok_iff.mp hrun
  obtain ⟨htarget, rfl⟩ := of_eq_ok hname
  obtain ⟨_, middle, hcopy, hadded⟩ := run_bind_eq_ok_iff.mp hrest
  exact ⟨target, middle, htarget, ok_of_adaptExcept hcopy, hadded⟩

theorem without_of_ok {α ε : Type} {program : EStateM ε (Session Mail) α} {gone : List Address} {value : α}
    (hprogram : Along (OnRemote (Without gone)) program) (hrun : program.run session = .ok value after) :
    Without gone session.remote after.remote := by
  have halong : OnRemote (Without gone) session (final (program.run session)) := hprogram session
  rw [hrun] at halong
  exact halong

/-- Where the copying went through, the mailboxes are there. -/
theorem present_of_ok (hrun : (addToMailboxes gateway name location ids).run session = .ok () after) :
    ∀ id ∈ ids, Present gateway session.remote id := by
  induction ids generalizing session with
  | nil => exact fun id hid => absurd hid List.not_mem_nil
  | cons first ids ih =>
    obtain ⟨target, middle, htarget, hcopy, hadded⟩ := first_copy_ok hrun
    obtain ⟨_, _, mailbox, _, hmailbox, _⟩ := copy_ok hcopy
    intro id hid
    obtain rfl | hid := List.mem_cons.mp hid
    · exact ⟨target, htarget, Option.isSome_of_eq_some hmailbox⟩
    · exact (present_congr (without_of_ok copy_along hcopy) id).mp (ih hadded id hid)

/-- Where something was copied, what the source location holds is now also under a UID that had not been given out. -/
theorem copied_of_ok (hids : ids ≠ []) (hrun : (addToMailboxes gateway name location ids).run session = .ok () after) :
    session.remote.Answers name location ∧ ∃ copied, session.remote.mailAt (name, location.uid) = some copied ∧
      ∃ address, ¬ session.remote.Issued address ∧ after.remote.mailAt address = some copied := by
  obtain ⟨id, ids, rfl⟩ := List.exists_cons_of_ne_nil hids
  obtain ⟨target, middle, _, hcopy, hadded⟩ := first_copy_ok hrun
  obtain ⟨hanswers, copied, mailbox, hcopied, hmailbox, hfiled⟩ := copy_ok hcopy
  exact ⟨hanswers, copied, hcopied, (target, mailbox.uid_next), not_issued_next hmailbox,
    (without_of_ok addToMailboxes_along hadded).kept _ _ List.not_mem_nil hfiled⟩

end Went

/-- With nothing in its way the copying goes through, where the source answers and the mailboxes are there. -/
theorem addToMailboxes_undisturbed {connection : Connection Mail} {copied : Mail}
    (hsource : ids = [] ∨ connection.remote.Answers name location ∧
      connection.remote.mailAt (name, location.uid) = some copied)
    (hpresent : ∀ id ∈ ids, Present gateway connection.remote id) :
    ∃ next, (addToMailboxes gateway name location ids).run ⟨connection, []⟩ = .ok () ⟨next, []⟩ ∧
      Without [] connection.remote next.remote ∧ Gains (some copied) connection.remote next.remote := by
  induction ids generalizing connection with
  | nil => exact ⟨connection, rfl, refl_of (Without _) _, refl_of (Gains _) _⟩
  | cons id ids ih =>
    obtain hnil | ⟨hanswers, hcopied⟩ := hsource
    · cases hnil
    obtain ⟨target, htarget, hmailbox⟩ := hpresent id List.mem_cons_self
    obtain ⟨middle, hcopy, hwithout, hgains⟩ := copy_undisturbed hanswers hcopied hmailbox
    have hanswered : middle.remote.Answers name location := (answers_congr (hwithout.mailboxes name)).mpr hanswers
    have hrest : ∀ other ∈ ids, Present gateway middle.remote other := fun other hother =>
      (present_congr hwithout other).mpr (hpresent other (List.mem_cons_of_mem id hother))
    obtain ⟨next, hadded, hwithout_rest, hgains_rest⟩ :=
      ih (Or.inr ⟨hanswered, hwithout.kept _ _ List.not_mem_nil hcopied⟩) hrest
    refine ⟨next, ?_, trans_of (Without _) hwithout hwithout_rest, trans_of (Gains _) hgains hgains_rest⟩
    rw [addToMailboxes_cons, htarget]
    simp only [Push.of, pure_bind]
    rw [run_bind_of_ok (adaptExcept_of_ok hcopy), hadded]

end Copies

section Replace

/-- A replacement that copies and removes, as the locations of its message have it. -/
structure Stepwise (gateway : LiveImapSmtpGateway) (message_id : MessageId) (mailbox_ids : List MailboxId)
    (locations : List ImapMessageLocation) (source : ImapMessageLocation) (source_name : String) : Prop where
  located : gateway.locations "mailbox replacement state lookup" message_id = .ok locations
  unmoved : simple_imap_move_mailboxes gateway.capabilities
    (imap_mailbox_replacement_delta (locations.map ImapMessageLocation.mailbox_id) mailbox_ids) = none
  first : locations.head? = some source
  named : gateway.mailbox_name_for_id source.mailbox_id = .ok source_name

/-- The mailboxes a message is to enter and to leave. -/
abbrev deltaOf (locations : List ImapMessageLocation) (mailbox_ids : List MailboxId) : ImapMailboxReplacementDelta :=
  imap_mailbox_replacement_delta (locations.map ImapMessageLocation.mailbox_id) mailbox_ids

theorem replace_stepwise (hstepwise : Stepwise gateway message_id mailbox_ids locations location name) :
    (replace_message_mailboxes gateway message_id mailbox_ids : Push Mail _) =
      addToMailboxes gateway name location (deltaOf locations mailbox_ids).add >>= fun _ =>
        removeFrom gateway (gateway.placed locations) (deltaOf locations mailbox_ids).remove >>= fun _ =>
          pure ⟨none, none⟩ := by
  unfold replace_message_mailboxes
  rw [hstepwise.located]
  simp only [Push.of, pure_bind]
  rw [hstepwise.unmoved, hstepwise.first]
  simp only [pure_bind]
  rw [hstepwise.named]
  rfl

/-- A replacement that does not copy and remove carries every mail. -/
theorem replace_carries (hnot : ¬ ∃ locations source source_name,
      Stepwise gateway message_id mailbox_ids locations source source_name) :
    Along (OnRemote (@Carries Mail)) (replace_message_mailboxes gateway message_id mailbox_ids) := by
  unfold replace_message_mailboxes
  cases hlocations : gateway.locations "mailbox replacement state lookup" message_id with
  | error error => exact Along.throw error
  | ok locations =>
    simp only [Push.of, pure_bind]
    cases hmove : simple_imap_move_mailboxes gateway.capabilities
        (imap_mailbox_replacement_delta (locations.map ImapMessageLocation.mailbox_id) mailbox_ids) with
    | some mailboxes =>
      refine Along.bind (of_along _) fun source => Along.bind (of_along _) fun target => ?_
      exact Along.bind (move_along.adaptExcept _) fun _ => Along.pure _
    | none =>
      simp only
      cases hfirst : locations.head? with
      | none => exact Along.throw _
      | some source =>
        simp only [pure_bind]
        cases hname : gateway.mailbox_name_for_id source.mailbox_id with
        | error error => exact Along.throw error
        | ok source_name => exact absurd ⟨locations, source, source_name, hlocations, hmove, hfirst, hname⟩ hnot

/-- The replacement expunges every copy of the mail, and copies none of it before. -/
structure LosesLast (gateway : LiveImapSmtpGateway) (message_id : MessageId) (mailbox_ids : List MailboxId)
    (locations : List ImapMessageLocation) (source : ImapMessageLocation) (source_name : String) (remote : Remote Mail)
    (mail : Mail) : Prop where
  stepwise : Stepwise gateway message_id mailbox_ids locations source source_name
  expunging : gateway.capabilities.supports_uidplus = true
  uncopied : (deltaOf locations mailbox_ids).add = [] ∨
    remote.Answers source_name source ∧ ∃ other, other ≠ mail ∧ remote.mailAt (source_name, source.uid) = some other
  present : ∀ id ∈ (deltaOf locations mailbox_ids).add, Present gateway remote id
  removed : ∀ address, remote.mailAt address = some mail →
    address ∈ reached (gateway.placed locations) remote (deltaOf locations mailbox_ids).remove

/-- The UIDs of the locations have been given out in the mailboxes they name. -/
def Read (gateway : LiveImapSmtpGateway) (locations : List ImapMessageLocation) (remote : Remote Mail) : Prop :=
  ∀ location ∈ locations, ∀ name, gateway.mailbox_name_for_id location.mailbox_id = .ok name →
    remote.Answers name location → remote.Issued (name, location.uid)

theorem read_of_without {before after : Remote Mail} {gone : List Address} (hwithout : Without gone before after)
    (hread : Read gateway locations before) : Read gateway locations after := by
  intro location hlocation name hname hanswers
  exact hwithout.issued _ (hread location hlocation name hname ((answers_congr (hwithout.mailboxes name)).mp hanswers))

theorem placed_eq_ok {id : MailboxId} {found : String × ImapMessageLocation}
    (hplaced : gateway.placed locations id = .ok found) :
    found.2 ∈ locations ∧ gateway.mailbox_name_for_id found.2.mailbox_id = .ok found.1 := by
  unfold LiveImapSmtpGateway.placed at hplaced
  cases hfind : locations.find? (·.mailbox_id = id) with
  | none =>
    rw [hfind] at hplaced
    cases hplaced
  | some location =>
    rw [hfind] at hplaced
    obtain ⟨name, hname, rfl⟩ := except_map_eq_ok_iff.mp hplaced
    have hid : location.mailbox_id = id := by simpa using List.find?_some hfind
    exact ⟨List.mem_of_find?_eq_some hfind, hid ▸ hname⟩

theorem issued_of_reached {remote : Remote Mail} (hread : Read gateway locations remote) {ids : List MailboxId}
    {address : Address} (hreached : address ∈ reached (gateway.placed locations) remote ids) : remote.Issued address := by
  induction ids with
  | nil => exact absurd hreached List.not_mem_nil
  | cons id ids ih =>
    unfold reached at hreached
    cases hplaced : gateway.placed locations id with
    | error error =>
      rw [hplaced] at hreached
      exact absurd hreached List.not_mem_nil
    | ok found =>
      obtain ⟨hlocation, hname⟩ := placed_eq_ok hplaced
      simp only [hplaced] at hreached
      split_ifs at hreached with hanswers
      · obtain rfl | hrest := List.mem_cons.mp hreached
        · exact hread found.2 hlocation found.1 hname hanswers
        · exact ih hrest
      · exact absurd hreached List.not_mem_nil

section Step

variable {source_name : String} {source : ImapMessageLocation}

/-- However a replacement ends, it touches only the places it gets to. -/
theorem replace_without (hstepwise : Stepwise gateway message_id mailbox_ids locations source source_name)
    (session : Session Mail) :
    Without (reached (gateway.placed locations) session.remote (deltaOf locations mailbox_ids).remove) session.remote
      (final ((replace_message_mailboxes gateway message_id mailbox_ids).run session)).remote := by
  rw [replace_stepwise hstepwise]
  have hadding : OnRemote (Without []) session
      (final ((addToMailboxes gateway source_name source (deltaOf locations mailbox_ids).add).run session)) :=
    addToMailboxes_along session
  cases hadded : (addToMailboxes gateway source_name source (deltaOf locations mailbox_ids).add).run session with
  | error error middle =>
    rw [run_bind_of_error hadded]
    rw [hadded] at hadding
    exact Without.mono hadding (List.nil_subset _)
  | ok _ middle =>
    rw [run_bind_of_ok hadded, final_bind_pure]
    have hwithout : Without [] session.remote middle.remote := without_of_ok addToMailboxes_along hadded
    have hremoved := removeFrom_without gateway (gateway.placed locations) (deltaOf locations mailbox_ids).remove
      middle
    rw [reached_congr hwithout.mailboxes] at hremoved
    exact trans_of (Without _) (hwithout.mono (List.nil_subset _)) hremoved

/-- Without UIDPLUS a replacement carries every mail. -/
theorem replace_marks (hstepwise : Stepwise gateway message_id mailbox_ids locations source source_name)
    (huidplus : ¬ gateway.capabilities.supports_uidplus) :
    Along (OnRemote (@Without Mail [])) (replace_message_mailboxes gateway message_id mailbox_ids) := by
  rw [replace_stepwise hstepwise]
  refine Along.bind addToMailboxes_along fun _ => Along.bind (Along.forM (fun id => ?_) _) fun _ => Along.pure _
  exact Along.bind (of_along _) fun found => remove_marks huidplus

/-- A replacement keeps a mail that it does not lose. -/
theorem replace_holds (hstepwise : Stepwise gateway message_id mailbox_ids locations source source_name)
    {session : Session Mail} (hread : Read gateway locations session.remote) (hheld : session.remote.Holds mail)
    (hloses : ¬ LosesLast gateway message_id mailbox_ids locations source source_name session.remote mail) :
    (final ((replace_message_mailboxes gateway message_id mailbox_ids).run session)).remote.Holds mail := by
  by_cases huidplus : gateway.capabilities.supports_uidplus = true
  · have hwithout := replace_without hstepwise session
    by_cases houtside : ∃ address, session.remote.mailAt address = some mail ∧
        address ∉ reached (gateway.placed locations) session.remote (deltaOf locations mailbox_ids).remove
    · obtain ⟨address, hmail, hmissed⟩ := houtside
      exact ⟨address, hwithout.kept address mail hmissed hmail⟩
    push Not at houtside
    rw [replace_stepwise hstepwise]
    have hadding : OnRemote (Without []) session
        (final ((addToMailboxes gateway source_name source (deltaOf locations mailbox_ids).add).run session)) :=
      addToMailboxes_along session
    cases hadded : (addToMailboxes gateway source_name source (deltaOf locations mailbox_ids).add).run session with
    | error error middle =>
      rw [run_bind_of_error hadded]
      rw [hadded] at hadding
      exact Without.carries hadding mail hheld
    | ok _ middle =>
      rw [run_bind_of_ok hadded, final_bind_pure]
      have hpresent := present_of_ok hadded
      have hadds : (deltaOf locations mailbox_ids).add ≠ [] := fun hnil =>
        hloses ⟨hstepwise, huidplus, Or.inl hnil, hpresent, houtside⟩
      obtain ⟨hanswers, copied, hcopied, address, hfresh, hfiled⟩ := copied_of_ok hadds hadded
      have hsame : copied = mail := by
        by_contra hother
        exact hloses ⟨hstepwise, huidplus, Or.inr ⟨hanswers, copied, hother, hcopied⟩, hpresent, houtside⟩
      have hmiddle : Without [] session.remote middle.remote := without_of_ok addToMailboxes_along hadded
      have hremoved := removeFrom_without gateway (gateway.placed locations)
        (deltaOf locations mailbox_ids).remove middle
      rw [reached_congr hmiddle.mailboxes] at hremoved
      exact ⟨address, hremoved.kept address mail (fun hreached => hfresh (issued_of_reached hread hreached))
        (hsame ▸ hfiled)⟩
  · have halong : OnRemote (Without []) session
        (final ((replace_message_mailboxes gateway message_id mailbox_ids).run session)) :=
      replace_marks hstepwise huidplus session
    exact Without.carries halong mail hheld

/-- What a replacement leaves is not lost by the next one. -/
theorem not_loses_of_without {before after : Remote Mail} (hlocation : source ∈ locations)
    (hread : Read gateway locations before)
    (hwithout : Without (reached (gateway.placed locations) before (deltaOf locations mailbox_ids).remove) before after)
    (hloses : LosesLast gateway message_id mailbox_ids locations source source_name after mail) :
    LosesLast gateway message_id mailbox_ids locations source source_name before mail where
  stepwise := hloses.stepwise
  expunging := hloses.expunging
  uncopied := by
    obtain hnil | ⟨hanswers, other, hother, hmail⟩ := hloses.uncopied
    · exact Or.inl hnil
    · have hanswered := (answers_congr (hwithout.mailboxes source_name)).mp hanswers
      have hissued := hread source hlocation source_name hloses.stepwise.named hanswered
      exact Or.inr ⟨hanswered, other, hother, hwithout.unchanged _ _ hissued hmail⟩
  present id hid := (present_congr hwithout id).mp (hloses.present id hid)
  removed address hmail := by
    by_contra hmissed
    have hreached := hloses.removed address (hwithout.kept address mail hmissed hmail)
    rw [reached_congr hwithout.mailboxes] at hreached
    exact hmissed hreached

/-- With nothing in its way a replacement loses a mail all of whose copies it gets to. -/
theorem replace_loses (connection : Connection Mail)
    (hloses : LosesLast gateway message_id mailbox_ids locations source source_name connection.remote mail) :
    ¬ (final ((replace_message_mailboxes gateway message_id mailbox_ids).run ⟨connection, []⟩)).remote.Holds mail := by
  have hcopying : ∃ next copied, copied ≠ some mail ∧
      (addToMailboxes gateway source_name source (deltaOf locations mailbox_ids).add).run ⟨connection, []⟩ =
        .ok () ⟨next, []⟩ ∧ Without [] connection.remote next.remote ∧ Gains copied connection.remote next.remote := by
    obtain hnil | ⟨hanswers, other, hother, hmail⟩ := hloses.uncopied
    · rw [hnil]
      exact ⟨connection, none, (Option.some_ne_none mail).symm, rfl, refl_of (Without _) _, refl_of (Gains _) _⟩
    · obtain ⟨next, hadded, hwithout, hgains⟩ :=
        addToMailboxes_undisturbed (Or.inr ⟨hanswers, hmail⟩) hloses.present
      exact ⟨next, some other, fun hsame => hother (Option.some.inj hsame), hadded, hwithout, hgains⟩
  obtain ⟨middle, copied, hcopied, hadded, hwithout, hgains⟩ := hcopying
  rw [replace_stepwise hloses.stepwise, run_bind_of_ok hadded, final_bind_pure]
  obtain ⟨next, hnext, hremoved⟩ := removeFrom_undisturbed gateway (gateway.placed locations)
    (deltaOf locations mailbox_ids).remove middle
  have hfinal : (final ((removeFrom gateway (gateway.placed locations)
      (deltaOf locations mailbox_ids).remove).run ⟨middle, []⟩)).remote = next.remote := by
    rw [hremoved]
    split <;> rfl
  rw [hfinal, hnext, reached_congr hwithout.mailboxes]
  rintro ⟨address, hmail⟩
  rw [mailAt_revisedAt] at hmail
  split_ifs at hmail with hreached
  · unfold LiveImapSmtpGateway.removal at hmail
    simp only [hloses.expunging, if_true, Option.bind_fun_none, Option.map_none] at hmail
    cases hmail
  · obtain hheld | hsame := hgains address mail hmail
    · exact hreached (hloses.removed address hheld)
    · exact hcopied hsame

end Step

/-- However often a replacement is tried, cut off at whatever command, some mailbox holds the
    mail: unless it expunges every copy without copying one. -/
theorem delivered_holds_iff {remote : Remote Mail} (hread : ∀ locations,
      gateway.locations "mailbox replacement state lookup" message_id = .ok locations → Read gateway locations remote)
    (hheld : remote.Holds mail) :
    (∀ attempts, (delivered (replace_message_mailboxes gateway message_id mailbox_ids) remote attempts).Holds mail) ↔
      ¬ ∃ locations source source_name, LosesLast gateway message_id mailbox_ids locations source source_name remote mail := by
  constructor
  · rintro hholds ⟨locations, source, source_name, hloses⟩
    exact replace_loses ⟨remote, none⟩ hloses (hholds [⟨none, []⟩])
  · intro hloses attempts
    by_cases hstepwise : ∃ locations source source_name,
        Stepwise gateway message_id mailbox_ids locations source source_name
    · obtain ⟨locations, source, source_name, hstepwise⟩ := hstepwise
      have hsource : source ∈ locations := List.mem_of_mem_head? hstepwise.first
      replace hread := hread locations hstepwise.located
      replace hloses : ¬ LosesLast gateway message_id mailbox_ids locations source source_name remote mail :=
        fun hlost => hloses ⟨locations, source, source_name, hlost⟩
      unfold delivered
      induction attempts generalizing remote with
      | nil => exact hheld
      | cons attempt attempts ih =>
        have hwithout := replace_without hstepwise (attempt.on remote)
        exact ih (replace_holds hstepwise hread hheld hloses) (read_of_without hwithout hread)
          fun hlost => hloses (not_loses_of_without hsource hread hwithout hlost)
    · clear hread hloses
      unfold delivered
      induction attempts generalizing remote with
      | nil => exact hheld
      | cons attempt attempts ih =>
        have hcarried : OnRemote Carries (attempt.on remote)
            (final ((replace_message_mailboxes gateway message_id mailbox_ids).run (attempt.on remote))) :=
          replace_carries hstepwise (attempt.on remote)
        exact ih (hcarried mail hheld)

/-- A server whose inbox holds one mail, beside an empty archive. -/
def inboxAndArchive : Remote Nat := fun name =>
  if name = "INBOX" then some ⟨some 7, 2, fun uid => if uid = 1 then some ⟨40, fun _ => false⟩ else none,
    fun _ hunused => if_neg (Nat.ne_of_gt hunused)⟩
  else if name = "Archive" then some ⟨some 9, 1, fun _ => none, fun _ _ => rfl⟩
  else none

/-- A gateway to a server that can expunge but not move, with one location read. -/
def copyingGateway : LiveImapSmtpGateway where
  capabilities := ⟨false, true⟩
  mailboxes := []
  store := some {
    list_imap_message_locations := fun message_id => .ok [⟨message_id, "INBOX", 7, 1, none⟩]
    get_imap_mailbox_name := fun mailbox_id => .ok (some mailbox_id) }

theorem delivered_holds_iff_archived :
    (∀ attempts, (delivered (replace_message_mailboxes copyingGateway "mail" ["Archive"]) inboxAndArchive attempts).Holds 40) ↔
      ¬ ∃ locations source source_name,
        LosesLast copyingGateway "mail" ["Archive"] locations source source_name inboxAndArchive 40 := by
  apply delivered_holds_iff
  · rintro locations hlocations location hlocation name hname -
    cases hlocations
    obtain rfl := List.mem_singleton.mp hlocation
    cases hname
    exact ⟨_, rfl, by decide⟩
  · exact ⟨("INBOX", 1), rfl⟩

end Replace

end posthaste.imap.mutation
